import S2SProxy.Lib.GuardedRuns

/- One call of streamRouting: the proxyStreamSender with its two loops, the proxyStreamReceiver
   with its two loops, and the shutdownChan they share. The loops are followed through every
   way out of their bodies; what they do with the messages is left to the models of the sender
   and the receiver. -/
namespace StreamLifecycle
open GuardedRuns

inductive LoopPc where
  | notStarted
  | top
  | body
  | deferred
  | returned
  deriving DecidableEq, Repr

inductive SenderPc where
  | registering
  | waiting
  | returned
  deriving DecidableEq, Repr

inductive ReceiverPc where
  | opening
  | waiting
  | returned
  deriving DecidableEq, Repr

inductive Loop where
  | sendReplicationMessages
  | recvAck
  | recvReplicationMessages
  | sendAck
  deriving DecidableEq, Repr

structure Halves where
  shutdown : Bool
  sendMsgChanClosed : Bool
  sender : SenderPc
  receiver : ReceiverPc
  loop : Loop → LoopPc

def initial : Halves := ⟨false, false, .registering, .opening, fun _ => .notStarted⟩

/-- What a pass through the body of a loop comes to. -/
inductive Event where
  | message (hasMessages sent : Bool)
  | channelClosed
  /-- The ticker of either sending loop; due says whether a keepalive is sent. -/
  | tick (due sent : Bool)
  | shutdownSeen
  | recvFailed
  | recvOther
  | recvHandled
  | abandoned
  | remoteShardsFailed
  /-- sendAck takes an ack from its channel; sends says whether there is a new minimum. -/
  | ack (sends sent : Bool)
  deriving DecidableEq, Repr

/-- Whether the body returns from the loop; nothing for an event that cannot happen there. -/
def exits (s : Halves) : Loop → Event → Option Bool
  | .sendReplicationMessages, .message hasMessages sent => some (!hasMessages || !sent)
  | .sendReplicationMessages, .channelClosed => if s.sendMsgChanClosed then some true else none
  | .sendReplicationMessages, .tick due sent => some (due && !sent)
  | .sendReplicationMessages, .shutdownSeen => if s.shutdown then some true else none
  | .recvAck, .recvFailed => some true
  | .recvAck, .recvOther => some false
  | .recvAck, .recvHandled => some false
  | .recvAck, .abandoned => if s.shutdown then some true else none
  | .recvReplicationMessages, .recvFailed => some true
  | .recvReplicationMessages, .recvOther => some false
  | .recvReplicationMessages, .recvHandled => some false
  | .recvReplicationMessages, .remoteShardsFailed => some true
  | .recvReplicationMessages, .abandoned => if s.shutdown then some true else none
  | .sendAck, .ack sends sent => some (sends && !sent)
  | .sendAck, .tick due sent => some (due && !sent)
  | .sendAck, .shutdownSeen => if s.shutdown then some true else none
  | _, _ => none

inductive Label where
  | lifetimeDone
  | startSender
  | stopSender
  | openStream (opened : Bool)
  | stopReceiver
  | test (loop : Loop)
  | pass (loop : Loop) (event : Event)
  /-- The deferred function: Shutdown, and wg.Done where there is one. -/
  | leave (loop : Loop)
  deriving DecidableEq, Repr

def Halves.goto (s : Halves) (l : Loop) (pc : LoopPc) : Halves :=
  { s with loop := Function.update s.loop l pc }

def Halves.start (s : Halves) (l l' : Loop) : Halves := (s.goto l .top).goto l' .top

def step (s : Halves) : Label → Option Halves
  | .lifetimeDone => some { s with shutdown := true }
  | .startSender =>
    if s.sender = .registering then
      some { s.start .sendReplicationMessages .recvAck with sender := .waiting }
    else none
  | .stopSender =>
    if s.sender = .waiting ∧ s.shutdown then
      some { s with sendMsgChanClosed := true, sender := .returned }
    else none
  | .openStream opened =>
    if s.receiver ≠ .opening then none
    else if opened then
      some { s.start .recvReplicationMessages .sendAck with receiver := .waiting }
    else some { s with receiver := .returned }
  | .stopReceiver =>
    if s.receiver = .waiting ∧ s.loop .recvReplicationMessages = .returned ∧
        s.loop .sendAck = .returned then
      some { s with receiver := .returned }
    else none
  | .test l =>
    if s.loop l = .top then some (s.goto l (if s.shutdown then .deferred else .body)) else none
  | .pass l event =>
    if s.loop l = .body then
      (exits s l event).map fun leaves => s.goto l (if leaves then .deferred else .top)
    else none
  | .leave l =>
    if s.loop l = .deferred then some { s.goto l .returned with shutdown := true } else none

/-- Neither half is dead while the shutdown has not been signalled. -/
def Together (s : Halves) : Prop :=
  s.receiver = .returned ∨
      s.loop .sendReplicationMessages = .returned ∧ s.loop .recvAck = .returned →
    s.shutdown = true

/-- The receiver's stream opens, unless the shutdown has been signalled before. -/
def Opens (s : Halves) : Label → Prop
  | .openStream false => s.shutdown = true
  | _ => True

instance (s : Halves) : ∀ a, Decidable (Opens s a)
  | .openStream false => inferInstanceAs (Decidable (s.shutdown = true))
  | .openStream true => .isTrue trivial
  | .lifetimeDone => .isTrue trivial
  | .startSender => .isTrue trivial
  | .stopSender => .isTrue trivial
  | .stopReceiver => .isTrue trivial
  | .test _ => .isTrue trivial
  | .pass _ _ => .isTrue trivial
  | .leave _ => .isTrue trivial

def LoopsSignal (s : Halves) : Prop := ∀ l, s.loop l = .returned → s.shutdown = true

inductive Stepped (s : Halves) : Label → Halves → Prop
  | lifetimeDone : Stepped s .lifetimeDone { s with shutdown := true }
  | startSender (pc : s.sender = .registering) :
      Stepped s .startSender { s.start .sendReplicationMessages .recvAck with sender := .waiting }
  | stopSender (pc : s.sender = .waiting) (shut : s.shutdown = true) :
      Stepped s .stopSender { s with sendMsgChanClosed := true, sender := .returned }
  | opened (pc : s.receiver = .opening) :
      Stepped s (.openStream true)
        { s.start .recvReplicationMessages .sendAck with receiver := .waiting }
  | failed (pc : s.receiver = .opening) :
      Stepped s (.openStream false) { s with receiver := .returned }
  | stopReceiver (pc : s.receiver = .waiting) (recv : s.loop .recvReplicationMessages = .returned)
      (ack : s.loop .sendAck = .returned) : Stepped s .stopReceiver { s with receiver := .returned }
  | test {l : Loop} {pc' : LoopPc} (pc : s.loop l = .top) (going : pc' ≠ .returned) :
      Stepped s (.test l) (s.goto l pc')
  | pass {l : Loop} {event : Event} {leaves : Bool} {pc' : LoopPc} (pc : s.loop l = .body)
      (exit : exits s l event = some leaves) (going : pc' ≠ .returned) :
      Stepped s (.pass l event) (s.goto l pc')
  | leave {l : Loop} (pc : s.loop l = .deferred) :
      Stepped s (.leave l) { s.goto l .returned with shutdown := true }

theorem step_inv {s t : Halves} {a : Label} (h : step s a = some t) : Stepped s a t := by
  cases a with
  | lifetimeDone =>
    cases h
    exact .lifetimeDone
  | startSender =>
    obtain ⟨pc, rfl⟩ : s.sender = .registering ∧ _ = t := by simpa [step] using h
    exact .startSender pc
  | stopSender =>
    obtain ⟨⟨pc, shut⟩, rfl⟩ : (s.sender = .waiting ∧ s.shutdown = true) ∧ _ = t := by
      simpa [step] using h
    exact .stopSender pc shut
  | openStream opened =>
    cases opened with
    | false =>
      obtain ⟨pc, rfl⟩ : s.receiver = .opening ∧ _ = t := by simpa [step] using h
      exact .failed pc
    | true =>
      obtain ⟨pc, rfl⟩ : s.receiver = .opening ∧ _ = t := by simpa [step] using h
      exact .opened pc
  | stopReceiver =>
    obtain ⟨⟨pc, recv, ack⟩, rfl⟩ : (s.receiver = .waiting ∧ _ ∧ _) ∧ _ = t := by
      simpa [step] using h
    exact .stopReceiver pc recv ack
  | test l =>
    obtain ⟨pc, rfl⟩ : s.loop l = .top ∧ _ = t := by simpa [step] using h
    refine .test pc ?_
    split <;> simp
  | pass l event =>
    simp only [step] at h
    split at h
    · next pc =>
      obtain ⟨leaves, exit, rfl⟩ := Option.map_eq_some_iff.mp h
      refine .pass pc exit ?_
      split <;> simp
    · cases h
  | leave l =>
    obtain ⟨pc, rfl⟩ : s.loop l = .deferred ∧ _ = t := by simpa [step] using h
    exact .leave pc

section Steps
variable {s t : Halves} {a : Label}

theorem goto_returned {l l' : Loop} {pc : LoopPc} (going : pc ≠ .returned)
    (returned : (s.goto l pc).loop l' = .returned) : s.loop l' = .returned := by
  by_cases same : l' = l
  · subst same
    exact absurd (by simpa [Halves.goto] using returned) going
  · simpa [Halves.goto, Function.update_of_ne same] using returned

theorem step_signals (signals : LoopsSignal s) (h : step s a = some t) : LoopsSignal t := by
  intro l returned
  cases step_inv h with
  | lifetimeDone => rfl
  | startSender => exact signals l (goto_returned (by simp) (goto_returned (by simp) returned))
  | stopSender _ shut => exact shut
  | opened => exact signals l (goto_returned (by simp) (goto_returned (by simp) returned))
  | failed => exact signals l returned
  | stopReceiver => exact signals l returned
  | test _ going => exact signals l (goto_returned going returned)
  | pass _ _ going => exact signals l (goto_returned going returned)
  | leave => rfl

theorem together_iff (signals : LoopsSignal s) :
    Together s ↔ (s.receiver = .returned → s.shutdown = true) :=
  ⟨fun together dead => together (.inl dead), fun receiver dead =>
    dead.elim receiver fun loops => signals _ loops.1⟩

theorem step_together (signals : LoopsSignal s) (together : Together s) (h : step s a = some t) :
    Together t ↔ Opens s a := by
  rw [together_iff (step_signals signals h)]
  rw [together_iff signals] at together
  cases step_inv h with
  | lifetimeDone => simp [Opens]
  | startSender => exact iff_of_true together trivial
  | stopSender => exact iff_of_true together trivial
  | opened => exact iff_of_true (fun dead => nomatch dead) trivial
  | failed => exact ⟨fun receiver => receiver rfl, fun shut _ => shut⟩
  | stopReceiver _ recv _ => exact iff_of_true (fun _ => signals _ recv) trivial
  | test => exact iff_of_true together trivial
  | pass => exact iff_of_true together trivial
  | leave => simp [Opens]

end Steps

theorem halves_die_together_iff (labels : List Label) (s : Halves)
    (h : run step initial labels = some s) :
    Always step Together initial labels ↔ Meets step Opens initial labels :=
  always_iff_meets (fun _ _ _ => step_signals) (fun _ _ _ => step_together)
    (by simp [LoopsSignal, initial]) (by simp [Together, initial]) h

def refusedRun : List Label :=
  [.startSender, .openStream false, .test .recvAck, .pass .recvAck .recvHandled]

theorem dead_receiver_leaves_sender_running :
    ∃ s, run step initial refusedRun = some s ∧ s.receiver = .returned ∧ s.shutdown = false ∧
      s.sender = .waiting ∧ s.loop .recvAck = .top :=
  ⟨_, rfl, rfl, rfl, rfl, rfl⟩

def endedRun : List Label :=
  [.startSender, .openStream true, .test .recvAck, .pass .recvAck .recvFailed, .leave .recvAck,
    .stopSender, .test .sendAck, .leave .sendAck, .test .recvReplicationMessages,
    .leave .recvReplicationMessages, .stopReceiver]

theorem halves_die_together_iff_ended : Always step Together initial endedRun := by
  have opens : Meets step Opens initial endedRun := by decide +kernel
  exact (halves_die_together_iff endedRun _ rfl).mpr opens

end StreamLifecycle
