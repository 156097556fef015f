import S2SProxy.Lib.GuardedRuns
import S2SProxy.Lib.StoppableRelay

/- One forwarded replication stream: replication messages pass from the source's stream to the
   target's, and acknowledgements pass back. Each direction has a listener and a forwarder, and
   the directions share one shutdown signal. -/
namespace StreamForwarder
open StoppableRelay GuardedRuns

/-- The attributes of a request or a response; the content may itself be nil. -/
inductive Attributes (α : Type) where
  | known (content : Option α)
  | unset

structure Message (α : Type) where
  attributes : Attributes α

/-- A failure may hold a visit error. -/
inductive RecvError (ε : Type) where
  | eof
  | failed (visitError : Option ε)

structure ValueWithError (α ε : Type) where
  val : Option (Message α) := none
  err : Option (RecvError ε) := none

/-- What a forwarder sends on for a value from its channel; otherwise it returns. -/
def forwarded {α ε : Type} (dataWithError : ValueWithError α ε) : Option (Message α) :=
  match dataWithError.err, dataWithError.val with
  | some .eof, _ => none
  | some (.failed _), _ => none
  | none, none => none
  | none, some message =>
    match message.attributes with
    | .known (some _) => some message
    -- The forwarder panics on the nil content; its deferred calls still run.
    | .known none => none
    | .unset => none

def ofMessage {α ε : Type} (message : Message α) : ValueWithError α ε :=
  { val := some message }

/-- The visit error among the received errors, for Run to return. -/
def visitErrorOf {α ε : Type} : Reader (ValueWithError α ε) → Option ε
  | .offering { val := _, err := some (.failed visitError) } => visitError
  | _ => none

inductive ClientCall (S : Type) where
  | send (req : Message S)
  | closeSend

inductive Closing where
  | notYet
  | spawned
  | called

/-- The running forwarder, with the calls made on the source's stream. -/
structure Forwarder (M S ε : Type) where
  messages : Relay (ValueWithError M ε) (Message M) := {}
  acks : Relay (ValueWithError S ε) (Message S) := {}
  shutdown : Bool := false
  closing : Closing := .notYet
  acksDone : Bool := false
  clientCalls : List (ClientCall S) := []
  visitErr : Option ε := none
  returned : Option (Option ε) := none

inductive Label (M S ε : Type) where
  | messages (a : Move (ValueWithError M ε))
  | acks (a : Move (ValueWithError S ε))
  | closeSend
  | acksDone
  | runReturns

variable {M S ε : Type}

def forwardReplicationMessages (f : Forwarder M S ε) (a : Move (ValueWithError M ε)) :
    Option (Forwarder M S ε) :=
  match move forwarded {} f.shutdown f.messages a with
  | none => none
  | some messages =>
    match a with
    | .handOver => some { f with
        messages := messages, visitErr := (visitErrorOf f.messages.reader).or f.visitErr }
    | .leave => some { f with messages := messages, shutdown := true }
    | _ => some { f with messages := messages }

/-- Leaving starts the goroutine that closes the source's stream for sending. -/
def forwardAcks (f : Forwarder M S ε) (a : Move (ValueWithError S ε)) :
    Option (Forwarder M S ε) :=
  match move forwarded {} f.shutdown f.acks a with
  | none => none
  | some acks =>
    match a with
    | .send => some { f with
        acks := acks, clientCalls := f.clientCalls ++ f.acks.writer.held.map .send }
    | .leave => some { f with acks := acks, shutdown := true, closing := .spawned }
    | _ => some { f with acks := acks }

def step (f : Forwarder M S ε) : Label M S ε → Option (Forwarder M S ε)
  | .messages a => forwardReplicationMessages f a
  | .acks a => forwardAcks f a
  | .closeSend =>
    match f.closing with
    | .spawned => some { f with closing := .called, clientCalls := f.clientCalls ++ [.closeSend] }
    | _ => none
  -- The close was sent, or a second has passed.
  | .acksDone =>
    match f.acks.writer with
    | .left => some { f with acksDone := true }
    | _ => none
  | .runReturns =>
    match f.messages.writer, f.acksDone with
    | .left, true => some { f with returned := some f.visitErr }
    | _, _ => none

inductive Stepped (f : Forwarder M S ε) : Label M S ε → Forwarder M S ε → Prop where
  | messageTaken {x} (moved : Moved forwarded {} f.shutdown f.messages .handOver x) :
      Stepped f (.messages .handOver) { f with
        messages := x, visitErr := (visitErrorOf f.messages.reader).or f.visitErr }
  | messagesLeft {x} (moved : Moved forwarded {} f.shutdown f.messages .leave x) :
      Stepped f (.messages .leave) { f with messages := x, shutdown := true }
  | messages {a x} (moved : Moved forwarded {} f.shutdown f.messages a x) :
      Stepped f (.messages a) { f with messages := x }
  | ackSent {x} (moved : Moved forwarded {} f.shutdown f.acks .send x) :
      Stepped f (.acks .send) { f with
        acks := x, clientCalls := f.clientCalls ++ f.acks.writer.held.map .send }
  | acksLeft {x} (moved : Moved forwarded {} f.shutdown f.acks .leave x) :
      Stepped f (.acks .leave) { f with acks := x, shutdown := true, closing := .spawned }
  | acks {a x} (moved : Moved forwarded {} f.shutdown f.acks a x) (other : a ≠ .send) :
      Stepped f (.acks a) { f with acks := x }
  | closeSend (spawned : f.closing = .spawned) :
      Stepped f .closeSend { f with
        closing := .called, clientCalls := f.clientCalls ++ [.closeSend] }
  | acksDone (left : f.acks.writer = .left) : Stepped f .acksDone { f with acksDone := true }
  | runReturns (left : f.messages.writer = .left) (done : f.acksDone = true) :
      Stepped f .runReturns { f with returned := some f.visitErr }

theorem step_inv {f g : Forwarder M S ε} {l : Label M S ε} (h : step f l = some g) :
    Stepped f l g := by
  cases l with
  | messages a =>
    simp only [step, forwardReplicationMessages] at h
    split at h
    · cases h
    · next x moved =>
      have moved := move_inv moved
      cases a <;> cases h
      case handOver => exact .messageTaken moved
      case leave => exact .messagesLeft moved
      all_goals exact .messages moved
  | acks a =>
    simp only [step, forwardAcks] at h
    split at h
    · cases h
    · next x moved =>
      have moved := move_inv moved
      cases a <;> cases h
      case send => exact .ackSent moved
      case leave => exact .acksLeft moved
      all_goals exact .acks moved nofun
  | closeSend =>
    simp only [step] at h
    split at h
    · next spawned =>
      cases h
      exact .closeSend spawned
    · cases h
  | acksDone =>
    simp only [step] at h
    split at h
    · next left =>
      cases h
      exact .acksDone left
    · cases h
  | runReturns =>
    simp only [step] at h
    split at h
    · next left done =>
      cases h
      exact .runReturns left done
    · cases h

theorem forwarded_unaltered {α : Type} :
    Unaltered (forwarded : ValueWithError α ε → Option (Message α)) ofMessage := by
  rintro ⟨val, err⟩ m through
  simp only [forwarded] at through
  split at through
  · cases through
  · cases through
  · cases through
  · split at through <;> cases through
    rfl

def ClientCall.request : ClientCall S → Option (Message S)
  | .send req => some req
  | .closeSend => none

def NoSendAfterClose (calls : List (ClientCall S)) : Prop :=
  calls.Pairwise fun earlier later => earlier = .closeSend → ∀ req, later ≠ .send req

structure Piped (f : Forwarder M S ε) : Prop where
  messages : Faithful forwarded ofMessage f.messages
  acks : Faithful forwarded ofMessage f.acks
  sends : f.clientCalls.filterMap ClientCall.request = f.acks.sent
  closes : f.closing ≠ .notYet → f.acks.writer = .left
  closed : .closeSend ∈ f.clientCalls → f.closing ≠ .notYet
  ordered : NoSendAfterClose f.clientCalls

theorem initial_piped : Piped ({} : Forwarder M S ε) where
  messages := initial_faithful
  acks := initial_faithful
  sends := rfl
  closes := fun begun => absurd rfl begun
  closed := nofun
  ordered := List.Pairwise.nil

/- Requests may be sent as long as the stream has not been closed for sending. -/
theorem ordered_sends {calls : List (ClientCall S)} {reqs : List (Message S)}
    (ordered : NoSendAfterClose calls) (notClosed : .closeSend ∉ calls) :
    NoSendAfterClose (calls ++ reqs.map .send) := by
  refine List.pairwise_append.mpr ⟨ordered, ?_, ?_⟩
  · refine List.pairwise_map.mpr (List.pairwise_of_forall fun req req' isClose => ?_)
    cases isClose
  · intro earlier member later _ isClose
    exact absurd (isClose ▸ member) notClosed

theorem step_piped {f g : Forwarder M S ε} {l : Label M S ε} (piped : Piped f)
    (h : step f l = some g) : Piped g := by
  cases step_inv h with
  | messageTaken moved | messagesLeft moved | messages moved =>
    exact { piped with messages := moved.faithful forwarded_unaltered rfl piped.messages }
  | ackSent moved =>
    obtain ⟨grown, notLeft⟩ := moved.sent_send
    have notClosing : f.closing = .notYet := by
      by_contra begun
      exact notLeft (piped.closes begun)
    have notClosed : .closeSend ∉ f.clientCalls := fun called => piped.closed called notClosing
    refine { piped with
      acks := moved.faithful forwarded_unaltered rfl piped.acks
      sends := ?_
      closes := fun begun => absurd notClosing begun
      closed := fun called => ?_
      ordered := ordered_sends piped.ordered notClosed }
    · have requests : ClientCall.request ∘ ClientCall.send = (some : Message S → _) := rfl
      rw [List.filterMap_append, List.filterMap_map, requests, List.filterMap_some, piped.sends,
        grown]
    · rcases List.mem_append.mp called with old | new
      · exact absurd old notClosed
      · obtain ⟨req, -, isClose⟩ := List.mem_map.mp new
        cases isClose
  | acksLeft moved =>
    exact { piped with
      acks := moved.faithful forwarded_unaltered rfl piped.acks
      sends := piped.sends.trans (moved.sent_other nofun).symm
      closes := fun _ => moved.leaves
      closed := fun _ => nofun }
  | acks moved other =>
    exact { piped with
      acks := moved.faithful forwarded_unaltered rfl piped.acks
      sends := piped.sends.trans (moved.sent_other other).symm
      closes := fun begun => moved.stays (piped.closes begun) }
  | closeSend spawned =>
    have begun : f.closing ≠ .notYet := by
      rw [spawned]
      nofun
    refine { piped with
      sends := ?_
      closes := fun _ => piped.closes begun
      closed := fun _ => nofun
      ordered := ?_ }
    · rw [← piped.sends]
      simp [List.filterMap_append, List.filterMap_cons, ClientCall.request]
    · refine List.pairwise_append.mpr ⟨piped.ordered, List.pairwise_singleton _ _, ?_⟩
      intro earlier _ later same _
      cases List.mem_singleton.mp same
      exact nofun
  | acksDone left => exact { piped with }
  | runReturns left done => exact { piped with }

theorem stream_forwarder_is_faithful_pipe (labels : List (Label M S ε)) (f : Forwarder M S ε)
    (h : run step {} labels = some f) :
    f.messages.sent.map ofMessage <+: f.messages.received ∧
      f.acks.sent.map ofMessage <+: f.acks.received ∧
      Quiet forwarded f.messages.log ∧ Quiet forwarded f.acks.log ∧
      f.clientCalls.filterMap ClientCall.request = f.acks.sent ∧
      NoSendAfterClose f.clientCalls := by
  have piped : Piped f := run_invariant_all (fun _ _ _ => step_piped) initial_piped h
  exact ⟨piped.messages.delivered, piped.acks.delivered, piped.messages.quiet, piped.acks.quiet,
    piped.sends, piped.ordered⟩

def endedRun : List (Label Nat Nat Unit) :=
  [.messages .start, .acks .start, .messages .check, .acks .check,
    .messages (.receive (ofMessage ⟨.known (some 7)⟩)), .messages .handOver, .messages .check,
    .acks (.receive (ofMessage ⟨.known (some 3)⟩)), .messages .send, .acks .handOver,
    .messages (.sendReturned true), .messages (.receive { err := some .eof }), .acks .send,
    .messages .handOver, .messages .leave, .acks (.sendReturned true), .acks .check,
    .acks .takeClosed, .acks .leave, .closeSend, .acksDone, .runReturns]

theorem stream_forwarder_is_faithful_pipe_ended :
    ∃ f, run step {} endedRun = some f ∧ f.messages.sent.length = 1 ∧
      f.messages.sent.map ofMessage <+: f.messages.received :=
  ⟨_, rfl, rfl, (stream_forwarder_is_faithful_pipe endedRun _ rfl).1⟩

end StreamForwarder
