import S2SProxy.RoutingSteps

/- Where things go: a channel that a goroutine has looked up for a target is a channel of
   that target, messages are put only into existing channels and onto existing streams, and
   what has once been put stays. These facts hold in every run. -/
namespace Routing
open ShardData GuardedRuns

structure Addressed (s : Plane) : Prop where
  freshChan : ∀ c, s.chanCount ≤ c → s.chan c = emptyChan
  freshStream : ∀ i, s.streamCount ≤ i → s.stream i = emptyStream
  registry : ∀ node target c, s.remoteSendChannels.lookup (node, target) = some c →
    c < s.chanCount ∧ (s.chan c).target = target
  streamChan : ∀ i c, (s.stream i).sendChan = some c →
    c < s.chanCount ∧ (s.chan c).target = (s.stream i).target
  delivering : ∀ groups priority loop c, s.phase = .delivering groups priority loop (.sendLocal c) →
    ∃ target, loop.current = some target ∧ c < s.chanCount ∧ (s.chan c).target = target

theorem initial_addressed (cfg : Config) : Addressed (initial cfg) := by
  refine ⟨fun _ _ => rfl, fun _ _ => rfl, ?_, ?_, ?_⟩
  · intro node target c entry
    simp [initial] at entry
  · intro i c sendChan
    cases sendChan
  · intro groups priority loop c phase
    cases phase

theorem accepts_inside {s : Plane} (h : Addressed s) {c : Nat} (accepts : (s.chan c).accepts = true) :
    c < s.chanCount := by
  by_contra outside
  rw [h.freshChan c (by omega)] at accepts
  cases accepts

theorem usable_inside {s : Plane} {i : Nat} {node : Node} {target : ClusterShardID}
    (h : usable s i node target = true) : i < s.streamCount ∧ (s.stream i).target = target := by
  simp only [usable, Bool.and_eq_true, decide_eq_true_eq] at h
  exact ⟨h.1.1.1, h.2⟩

/-- The effect touches a channel or stream that exists. -/
def Effect.Inside (s : Plane) : Effect → Prop
  | .silent => True
  | .put c _ => c < s.chanCount
  | .enqueue i _ => i < s.streamCount

theorem delivered_inside {cfg : Config} {s : Plane} (h : Addressed s) {node : Node}
    {target : ClusterShardID} {m : WorkflowReplicationMessages} {pc : DeliveryPc} {r : DeliverResult}
    {e : Effect} (done : Delivered cfg s node target m pc r e) : e.Inside s := by
  cases done with
  | put c accepts => exact accepts_inside h accepts
  | stream i ready => exact (usable_inside ready).1
  | _ => trivial

section Updates
variable (s : Plane) (c c' i j : Nat)

theorem apply_put (m : RoutedMessage) :
    apply s (.put c m) = withChan s c fun ch => { ch with puts := ch.puts ++ [m] } := rfl

theorem apply_enqueue (m : WorkflowReplicationMessages) :
    apply s (.enqueue i m) = withStream s i fun st => { st with wire := st.wire ++ [m] } := rfl

@[simp] theorem withChan_chan (f : SendChan → SendChan) :
    (withChan s c f).chan c' = if c' = c then f (s.chan c) else s.chan c' := by
  simp only [withChan, Function.update_apply]

@[simp] theorem withStream_stream (f : IntraStream → IntraStream) :
    (withStream s i f).stream j = if j = i then f (s.stream i) else s.stream j := by
  simp only [withStream, Function.update_apply]

end Updates

theorem withChan_addressed {s : Plane} (h : Addressed s) {c : Nat} (inside : c < s.chanCount)
    {f : SendChan → SendChan} (kept : (f (s.chan c)).target = (s.chan c).target) :
    Addressed (withChan s c f) := by
  have target : ∀ c', ((withChan s c f).chan c').target = (s.chan c').target := by
    intro c'
    rw [withChan_chan]
    split
    · next same => rw [same, kept]
    · rfl
  refine ⟨?_, h.freshStream, ?_, ?_, ?_⟩
  · intro c' outside
    have apart : c' ≠ c := by rintro rfl; exact absurd inside (Nat.not_lt.mpr outside)
    rw [withChan_chan, if_neg apart]
    exact h.freshChan c' outside
  · intro node target' c' entry
    rw [target]
    exact h.registry node target' c' entry
  · intro i c' sendChan
    rw [target]
    exact h.streamChan i c' sendChan
  · intro groups priority loop c' phase
    rw [target]
    exact h.delivering groups priority loop c' phase

theorem withStream_addressed {s : Plane} (h : Addressed s) {i : Nat} (inside : i < s.streamCount)
    {f : IntraStream → IntraStream} (kept : (f (s.stream i)).target = (s.stream i).target)
    (sendChan : ∀ c, (f (s.stream i)).sendChan = some c →
      c < s.chanCount ∧ (s.chan c).target = (s.stream i).target) :
    Addressed (withStream s i f) := by
  refine ⟨h.freshChan, ?_, h.registry, ?_, h.delivering⟩
  · intro j outside
    have apart : j ≠ i := by rintro rfl; exact absurd inside (Nat.not_lt.mpr outside)
    rw [withStream_stream, if_neg apart]
    exact h.freshStream j outside
  · intro j c
    rw [withStream_stream]
    split
    · rw [kept]
      exact sendChan c
    · exact h.streamChan j c

theorem withPhase_addressed {s : Plane} (h : Addressed s) {phase : RecvPhase}
    (delivering : ∀ groups priority loop c, phase = .delivering groups priority loop (.sendLocal c) →
      ∃ target, loop.current = some target ∧ c < s.chanCount ∧ (s.chan c).target = target) :
    Addressed { s with phase := phase } :=
  ⟨h.freshChan, h.freshStream, h.registry, h.streamChan, delivering⟩

theorem apply_addressed {s : Plane} (h : Addressed s) {e : Effect} (inside : e.Inside s) :
    Addressed (apply s e) := by
  cases e with
  | silent => exact h
  | put c m =>
    rw [apply_put]
    exact withChan_addressed h inside rfl
  | enqueue i m =>
    rw [apply_enqueue]
    exact withStream_addressed h inside rfl (h.streamChan i)

theorem startSender_addressed {s : Plane} (h : Addressed s) (node : Node) (target : ClusterShardID) :
    Addressed (startSender s node target) := by
  have old : ∀ c, c < s.chanCount → (startSender s node target).chan c = s.chan c := by
    intro c inside
    simp [startSender, Nat.ne_of_lt inside]
  refine ⟨?_, h.freshStream, ?_, ?_, ?_⟩
  · intro c outside
    have apart : c ≠ s.chanCount := by
      have : s.chanCount + 1 ≤ c := outside
      omega
    simp only [startSender, Function.update_apply, if_neg apart]
    exact h.freshChan c (Nat.le_of_succ_le outside)
  · intro node' target' c entry
    by_cases same : (node', target') = (node, target)
    · cases same
      simp only [startSender, AList.lookup_insert, Option.some.injEq] at entry
      subst entry
      simp [startSender]
    · rw [startSender, AList.lookup_insert_ne same] at entry
      obtain ⟨inside, address⟩ := h.registry node' target' c entry
      exact ⟨Nat.lt_succ_of_lt inside, by rw [old c inside, address]⟩
  · intro i c sendChan
    obtain ⟨inside, address⟩ := h.streamChan i c sendChan
    exact ⟨Nat.lt_succ_of_lt inside, by rw [old c inside]; exact address⟩
  · intro groups priority loop c phase
    obtain ⟨target', current, inside, address⟩ := h.delivering groups priority loop c phase
    exact ⟨target', current, Nat.lt_succ_of_lt inside, by rw [old c inside, address]⟩

theorem removeChan_addressed {s : Plane} (h : Addressed s) (c : Nat) : Addressed (removeChan s c) := by
  refine ⟨h.freshChan, h.freshStream, ?_, h.streamChan, h.delivering⟩
  intro node target c' entry
  simp only [removeChan] at entry
  split at entry
  · by_cases same : (node, target) = ((s.chan c).node, (s.chan c).target)
    · rw [same, AList.lookup_erase] at entry
      cases entry
    · rw [AList.lookup_erase_ne same] at entry
      exact h.registry node target c' entry
  · exact h.registry node target c' entry

theorem openStream_addressed {s : Plane} (h : Addressed s) (origin peer : Node)
    (target : ClusterShardID) : Addressed (openStream s origin peer target) := by
  refine ⟨h.freshChan, ?_, h.registry, ?_, h.delivering⟩
  · intro i outside
    have apart : i ≠ s.streamCount := by
      have : s.streamCount + 1 ≤ i := outside
      omega
    simp only [openStream, Function.update_apply, if_neg apart]
    exact h.freshStream i (Nat.le_of_succ_le outside)
  · intro i c sendChan
    simp only [openStream, Function.update_apply] at sendChan ⊢
    split at sendChan
    · cases sendChan
    · next other =>
      rw [if_neg other]
      exact h.streamChan i c sendChan

theorem afterDelivery_addressed {cfg : Config} {s : Plane} (h : Addressed s) {groups : TaskGroups}
    {priority : Int} {loop : RetryLoop ClusterShardID} {pc : DeliveryPc} {target : ClusterShardID}
    {m : WorkflowReplicationMessages} {r : DeliverResult} {e : Effect}
    (current : loop.current = some target) (done : Delivered cfg s cfg.home target m pc r e) :
    Addressed (afterDelivery s groups priority loop r) := by
  cases done with
  | found c entry =>
    refine withPhase_addressed h ?_
    rintro _ _ _ _ ⟨⟩
    exact ⟨target, current, h.registry _ _ _ entry⟩
  | _ => exact withPhase_addressed h (by rintro _ _ _ _ ⟨⟩)

theorem receiver_addressed {cfg : Config} {s t : Plane} {a : Label} {e : Effect} (h : Addressed s)
    (acted : ReceiverActed cfg s a t e) : Addressed t := by
  cases acted with
  | recvEmptyBatch m phase empty =>
    exact ⟨h.freshChan, h.freshStream, h.registry, h.streamChan, by rintro _ _ _ _ ⟨⟩⟩
  | recvTasks m phase tasks =>
    exact ⟨h.freshChan, h.freshStream, h.registry, h.streamChan, by rintro _ _ _ _ ⟨⟩⟩
  | beginPass phase begun =>
    refine withPhase_addressed h ?_
    rintro _ _ _ c ⟨⟩
    -- A pass begins only when the last one is over, and then no delivery is under way.
    obtain ⟨target, current, _⟩ := h.delivering _ _ _ c phase
    rw [RetryLoop.beginPass_idle begun] at current
    cases current
  | deliver phase current done => exact afterDelivery_addressed h current done
  | deliverRemote phase done =>
    cases done <;> exact withPhase_addressed h (by rintro _ _ _ _ ⟨⟩)
  | _ => exact withPhase_addressed h (by rintro _ _ _ _ ⟨⟩)

theorem notifier_addressed {cfg : Config} {s t : Plane} {k : Nat} {n : Notifier} {e : Effect}
    (h : Addressed s) (acted : NotifierActed cfg s k n t e) : Addressed t := by
  cases acted with
  | deliver pc done =>
    cases done <;> exact ⟨h.freshChan, h.freshStream, h.registry, h.streamChan, h.delivering⟩
  | _ => exact ⟨h.freshChan, h.freshStream, h.registry, h.streamChan, h.delivering⟩

theorem stream_addressed {cfg : Config} {s t : Plane} {a : Label} {e : Effect} (h : Addressed s)
    (acted : StreamActed cfg s a t e) : Addressed t := by
  cases acted with
  | openStream origin peer target => exact openStream_addressed h origin peer target
  | lookup i inside =>
    refine withStream_addressed h inside ?_ ?_
    · rfl
    · exact h.registry _ _
  | closeStream i inside =>
    have closed : Addressed (withStream s i fun st => { st with closed := true }) := by
      refine withStream_addressed h inside ?_ ?_
      · rfl
      · exact h.streamChan i
    exact ⟨closed.freshChan, closed.freshStream, closed.registry, closed.streamChan,
      closed.delivering⟩
  | put i m c inside holding sendChan accepts =>
    exact withStream_addressed h inside rfl (by rintro _ ⟨⟩)
  | closed i inside => exact withStream_addressed h inside rfl (by rintro _ ⟨⟩)
  | registerStream i inside | unregisterStream i inside | greetRead i inside
  | greetSend i m inside greeting | recv i m rest inside wire free =>
    refine withStream_addressed h inside ?_ ?_
    · rfl
    · exact h.streamChan i

/-! What a step does to the channels. -/

theorem receiver_chan {cfg : Config} {s t : Plane} {a : Label} {e : Effect}
    (acted : ReceiverActed cfg s a t e) :
    t.chan = s.chan ∧ t.chanCount = s.chanCount ∧ t.streamCount = s.streamCount := by
  cases acted with
  | deliver phase current done => cases done <;> exact ⟨rfl, rfl, rfl⟩
  | deliverRemote phase done => cases done <;> exact ⟨rfl, rfl, rfl⟩
  | _ => exact ⟨rfl, rfl, rfl⟩

theorem notifier_chan {cfg : Config} {s t : Plane} {k : Nat} {n : Notifier} {e : Effect}
    (acted : NotifierActed cfg s k n t e) :
    t.chan = s.chan ∧ t.chanCount = s.chanCount ∧ t.streamCount = s.streamCount := by
  cases acted with
  | deliver pc done => cases done <;> exact ⟨rfl, rfl, rfl⟩
  | _ => exact ⟨rfl, rfl, rfl⟩

theorem stream_chan {cfg : Config} {s t : Plane} {a : Label} {e : Effect}
    (acted : StreamActed cfg s a t e) :
    t.chan = s.chan ∧ t.chanCount = s.chanCount ∧ s.streamCount ≤ t.streamCount := by
  cases acted with
  | openStream origin peer target => exact ⟨rfl, rfl, Nat.le_succ _⟩
  | _ => exact ⟨rfl, rfl, Nat.le_refl _⟩

theorem receiver_inside {cfg : Config} {s t : Plane} {a : Label} {e : Effect} (h : Addressed s)
    (acted : ReceiverActed cfg s a t e) : e.Inside s := by
  cases acted with
  | deliver phase current done => exact delivered_inside h done
  | deliverRemote phase done => exact delivered_inside h done
  | broadcastSend phase accepts => exact accepts_inside h accepts
  | _ => trivial

theorem notifier_inside {cfg : Config} {s t : Plane} {k : Nat} {n : Notifier} {e : Effect}
    (h : Addressed s) (acted : NotifierActed cfg s k n t e) : e.Inside s := by
  cases acted with
  | put pc accepts => exact accepts_inside h accepts
  | deliver pc done => exact delivered_inside h done
  | _ => trivial

theorem stream_inside {cfg : Config} {s t : Plane} {a : Label} {e : Effect} (h : Addressed s)
    (acted : StreamActed cfg s a t e) : e.Inside s := by
  cases acted with
  | greetSend i m inside greeting => exact inside
  | put i m c inside holding sendChan accepts => exact accepts_inside h accepts
  | _ => trivial

theorem Effect.Inside.mono {s t : Plane} {e : Effect} (h : e.Inside s)
    (chans : s.chanCount ≤ t.chanCount) (streams : s.streamCount ≤ t.streamCount) : e.Inside t := by
  cases e with
  | silent => trivial
  | put c m => exact Nat.lt_of_lt_of_le h chans
  | enqueue i m => exact Nat.lt_of_lt_of_le h streams

theorem acted_inside {cfg : Config} {s t : Plane} {a : Label} {e : Effect} (h : Addressed s)
    (acted : Acted cfg s a t e) : e.Inside s := by
  cases acted with
  | foreignPut c m foreign accepts => exact accepts_inside h accepts
  | notifier thread acted => exact notifier_inside h acted
  | receiver acted => exact receiver_inside h acted
  | stream acted => exact stream_inside h acted
  | _ => trivial

theorem acted_counts {cfg : Config} {s t : Plane} {a : Label} {e : Effect}
    (acted : Acted cfg s a t e) : s.chanCount ≤ t.chanCount ∧ s.streamCount ≤ t.streamCount := by
  cases acted with
  | startSender node target => exact ⟨Nat.le_succ _, Nat.le_refl _⟩
  | notifier thread acted =>
    obtain ⟨_, chans, streams⟩ := notifier_chan acted
    exact ⟨chans.ge, streams.ge⟩
  | receiver acted =>
    obtain ⟨_, chans, streams⟩ := receiver_chan acted
    exact ⟨chans.ge, streams.ge⟩
  | stream acted =>
    obtain ⟨_, chans, streams⟩ := stream_chan acted
    exact ⟨chans.ge, streams⟩
  | _ => exact ⟨Nat.le_refl _, Nat.le_refl _⟩

theorem acted_addressed {cfg : Config} {s t : Plane} {a : Label} {e : Effect} (h : Addressed s)
    (acted : Acted cfg s a t e) : Addressed t := by
  cases acted with
  | startSender node target => exact startSender_addressed h node target
  | closeChan c inside => exact withChan_addressed h inside rfl
  | removeChan c => exact removeChan_addressed h c
  | take c waiting =>
    have inside : c < s.chanCount := by
      by_contra outside
      rw [h.freshChan c (by omega)] at waiting
      cases waiting
    exact withChan_addressed h inside rfl
  | foreignPut c m foreign accepts => exact h
  | notify node target => exact ⟨h.freshChan, h.freshStream, h.registry, h.streamChan, h.delivering⟩
  | notifier thread acted => exact notifier_addressed h acted
  | receiver acted => exact receiver_addressed h acted
  | stream acted => exact stream_addressed h acted

theorem step_addressed {cfg : Config} {s t : Plane} {a : Label} (h : Addressed s)
    (hs : step cfg s a = some t) : Addressed t := by
  obtain ⟨s', e, _, acted, rfl⟩ := step_inv hs
  obtain ⟨chans, streams⟩ := acted_counts acted
  exact apply_addressed (acted_addressed h acted) ((acted_inside h acted).mono chans streams)

def Effect.putsTo (c : Nat) : Effect → List RoutedMessage
  | .put c' m => if c = c' then [m] else []
  | _ => []

theorem apply_chan (s : Plane) (e : Effect) (c : Nat) :
    (apply s e).chan c = { s.chan c with puts := (s.chan c).puts ++ e.putsTo c } := by
  cases e with
  | put c' m =>
    rw [apply_put, withChan_chan]
    by_cases same : c = c'
    · subst same
      simp [Effect.putsTo]
    · simp [Effect.putsTo, same]
  | _ => simp [apply, Effect.putsTo, withStream]

/- Apart from its effect a step leaves what was put, and for whom, as it is. -/
theorem acted_chan {cfg : Config} {s t : Plane} {a : Label} {e : Effect} (h : Addressed s)
    (acted : Acted cfg s a t e) (c : Nat) :
    (t.chan c).puts = (s.chan c).puts ∧
    (c < s.chanCount → (t.chan c).target = (s.chan c).target) := by
  cases acted with
  | startSender node target =>
    by_cases new : c = s.chanCount
    · subst new
      simp [startSender, h.freshChan _ (Nat.le_refl _), emptyChan]
    · simp [startSender, new]
  | closeChan c' inside =>
    rw [withChan_chan]
    split
    · next same => subst same; exact ⟨rfl, fun _ => rfl⟩
    · exact ⟨rfl, fun _ => rfl⟩
  | take c' waiting =>
    rw [withChan_chan]
    split
    · next same => subst same; exact ⟨rfl, fun _ => rfl⟩
    · exact ⟨rfl, fun _ => rfl⟩
  | notifier thread acted => rw [(notifier_chan acted).1]; exact ⟨rfl, fun _ => rfl⟩
  | receiver acted => rw [(receiver_chan acted).1]; exact ⟨rfl, fun _ => rfl⟩
  | stream acted => rw [(stream_chan acted).1]; exact ⟨rfl, fun _ => rfl⟩
  | _ => exact ⟨rfl, fun _ => rfl⟩

theorem acted_taken {cfg : Config} {s t : Plane} {a : Label} {e : Effect} (h : Addressed s)
    (acted : Acted cfg s a t e) {c : Nat} (other : a ≠ .take c) :
    (t.chan c).taken = (s.chan c).taken := by
  cases acted with
  | startSender node target =>
    by_cases new : c = s.chanCount
    · subst new
      simp [startSender, h.freshChan _ (Nat.le_refl _), emptyChan]
    · simp [startSender, new]
  | closeChan c' inside =>
    rw [withChan_chan]
    split
    · next same => rw [same]
    · rfl
  | take c' waiting =>
    rw [withChan_chan, if_neg fun same => other (by rw [same])]
  | notifier thread acted => rw [(notifier_chan acted).1]
  | receiver acted => rw [(receiver_chan acted).1]
  | stream acted => rw [(stream_chan acted).1]
  | _ => rfl

theorem step_puts {cfg : Config} {s t : Plane} {a : Label} (h : Addressed s)
    (hs : step cfg s a = some t) :
    ∃ e, effectOf cfg s a = some e ∧ ∀ c, (t.chan c).puts = (s.chan c).puts ++ e.putsTo c ∧
      (c < s.chanCount → (t.chan c).target = (s.chan c).target) ∧
      (a ≠ .take c → (t.chan c).taken = (s.chan c).taken) := by
  obtain ⟨s', e, enabled, acted, rfl⟩ := step_inv hs
  refine ⟨e, by simp [effectOf, enabled], fun c => ?_⟩
  rw [apply_chan]
  obtain ⟨puts, target⟩ := acted_chan h acted c
  exact ⟨by rw [puts], target, acted_taken h acted⟩

end Routing
