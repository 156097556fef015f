import S2SProxy.RoutingSteps

/- A sender closes its channel before it takes it out of the registry. In that window every
   other goroutine may still look the channel up and send on it. The delivery, the broadcast
   and the intra-proxy receiver recover from the panic; the re-sending of a watermark to a
   newly registered shard does not. -/
namespace Routing
open ShardData GuardedRuns

/-- No channel is closed between the lookup and the send of a sendPendingWatermarkToShard, and
    none looks up a channel that is closed and still registered. -/
def Undisturbed (s : Plane) : Label → Prop
  | .closeChan c => ∀ n ∈ s.notifiers, ∀ m, n.pc ≠ .sendLocal m c
  | .notifier k _ => ∀ n m c, s.notifiers[k]? = some n → n.pc = .lookup m →
      s.remoteSendChannels.lookup (n.node, n.target) = some c → (s.chan c).closed = false
  | _ => True

def HoldsOpen (s : Plane) : Prop :=
  ∀ n ∈ s.notifiers, ∀ m c, n.pc = .sendLocal m c → (s.chan c).closed = false

@[simp] theorem apply_panics (s : Plane) (e : Effect) : (apply s e).panics = s.panics := by
  cases e <;> rfl

@[simp] theorem apply_notifiers (s : Plane) (e : Effect) :
    (apply s e).notifiers = s.notifiers := by
  cases e <;> rfl

@[simp] theorem apply_closed (s : Plane) (e : Effect) (c : Nat) :
    ((apply s e).chan c).closed = (s.chan c).closed := by
  cases e with
  | put d m =>
    by_cases same : c = d
    · subst same
      simp [apply, withChan]
    · simp [apply, withChan, same]
  | _ => rfl

theorem apply_holdsOpen {s : Plane} (e : Effect) (h : HoldsOpen s) : HoldsOpen (apply s e) := by
  simpa [HoldsOpen] using h

theorem receiver_frame {cfg : Config} {s t : Plane} {a : Label} {e : Effect}
    (h : ReceiverActed cfg s a t e) :
    t.notifiers = s.notifiers ∧ t.chan = s.chan ∧ t.panics = s.panics := by
  cases h with
  | deliver phase current done => cases done <;> exact ⟨rfl, rfl, rfl⟩
  | deliverRemote phase done => cases done <;> exact ⟨rfl, rfl, rfl⟩
  | _ => exact ⟨rfl, rfl, rfl⟩

theorem stream_frame {cfg : Config} {s t : Plane} {a : Label} {e : Effect}
    (h : StreamActed cfg s a t e) :
    t.notifiers = s.notifiers ∧ t.chan = s.chan ∧ t.panics = s.panics := by
  cases h <;> exact ⟨rfl, rfl, rfl⟩

theorem holdsOpen_congr {s t : Plane} (h : HoldsOpen s) (notifiers : t.notifiers = s.notifiers)
    (chan : t.chan = s.chan) : HoldsOpen t := by
  rwa [HoldsOpen, notifiers, chan]

theorem endNotifier_holdsOpen {s : Plane} (h : HoldsOpen s) (k : Nat) :
    HoldsOpen (endNotifier s k) :=
  fun n member => h n (List.mem_of_mem_eraseIdx member)

theorem withNotifier_holdsOpen {s : Plane} (h : HoldsOpen s) (k : Nat) (n : Notifier)
    {pc : NotifierPc} (opened : ∀ m c, pc = .sendLocal m c → (s.chan c).closed = false) :
    HoldsOpen (withNotifier s k n pc) := by
  intro n' member m c here
  rcases List.mem_or_eq_of_mem_set member with old | rfl
  · exact h n' old m c here
  · exact opened m c here

theorem notifier_holdsOpen {cfg : Config} {s t : Plane} {k : Nat} {n : Notifier} {e : Effect}
    {l : NotifierLabel} (h : HoldsOpen s) (cond : Undisturbed s (.notifier k l))
    (thread : s.notifiers[k]? = some n) (acted : NotifierActed cfg s k n t e) :
    HoldsOpen t ∧ t.panics = s.panics := by
  cases acted with
  | idle | put | full => exact ⟨endNotifier_holdsOpen h k, rfl⟩
  | read | absent => exact ⟨withNotifier_holdsOpen h k n (by rintro _ _ ⟨⟩), rfl⟩
  | @found m c pc entry =>
    refine ⟨withNotifier_holdsOpen h k n ?_, rfl⟩
    rintro _ _ ⟨⟩
    exact cond n m c thread pc entry
  | @panic m c pc closed =>
    have opened := h n (List.mem_of_getElem? thread) m c pc
    rw [opened] at closed
    cases closed
  | deliver pc done =>
    cases done with
    | found | absent | closed => exact ⟨withNotifier_holdsOpen h k n (by rintro _ _ ⟨⟩), rfl⟩
    | put | stream | fail => exact ⟨endNotifier_holdsOpen h k, rfl⟩

theorem startSender_holdsOpen {s : Plane} (h : HoldsOpen s) (node : Node)
    (target : ClusterShardID) : HoldsOpen (startSender s node target) := by
  intro n member m c here
  by_cases same : c = s.chanCount
  · subst same
    simp [startSender]
  · simpa [startSender, same] using h n member m c here

theorem closeChan_holdsOpen {s : Plane} (h : HoldsOpen s) {c : Nat}
    (unused : ∀ n ∈ s.notifiers, ∀ m, n.pc ≠ .sendLocal m c) :
    HoldsOpen (withChan s c fun ch => { ch with closed := true }) := by
  intro n member m d here
  have other : d ≠ c := fun same => unused n member m (same ▸ here)
  simpa [withChan, other] using h n member m d here

theorem take_holdsOpen {s : Plane} (h : HoldsOpen s) (c : Nat) :
    HoldsOpen (withChan s c fun ch => { ch with taken := ch.taken + 1 }) := by
  intro n member m d here
  by_cases same : d = c
  · subst same
    simpa [withChan] using h n member m d here
  · simpa [withChan, same] using h n member m d here

theorem spawnNotifier_holdsOpen {s : Plane} (h : HoldsOpen s) (cfg : Config) (node : Node)
    (target : ClusterShardID) : HoldsOpen (spawnNotifier cfg s node target) := by
  intro n member m c here
  rcases List.mem_append.mp member with old | new
  · exact h n old m c here
  · -- a fresh call has not looked anything up yet
    unfold notified at new
    split at new
    · cases new
    · split at new
      · rw [List.mem_singleton.mp new] at here
        cases here
      · cases new

theorem step_holdsOpen {cfg : Config} {s t : Plane} {a : Label} (h : HoldsOpen s)
    (cond : Undisturbed s a) (hs : step cfg s a = some t) : HoldsOpen t ∧ t.panics = s.panics := by
  obtain ⟨s', e, _, acted, rfl⟩ := step_inv hs
  rw [apply_panics]
  suffices HoldsOpen s' ∧ s'.panics = s.panics from ⟨apply_holdsOpen e this.1, this.2⟩
  cases acted with
  | startSender node target => exact ⟨startSender_holdsOpen h node target, rfl⟩
  | closeChan c inside => exact ⟨closeChan_holdsOpen h cond, rfl⟩
  | removeChan c => exact ⟨h, rfl⟩
  | take c waiting => exact ⟨take_holdsOpen h c, rfl⟩
  | foreignPut => exact ⟨h, rfl⟩
  | notify node target => exact ⟨spawnNotifier_holdsOpen h cfg node target, rfl⟩
  | notifier thread acted => exact notifier_holdsOpen h cond thread acted
  | receiver acted =>
    obtain ⟨notifiers, chan, panics⟩ := receiver_frame acted
    exact ⟨holdsOpen_congr h notifiers chan, panics⟩
  | stream acted =>
    obtain ⟨notifiers, chan, panics⟩ := stream_frame acted
    exact ⟨holdsOpen_congr h notifiers chan, panics⟩

theorem send_panics {cfg : Config} {s : Plane} {k : Nat} {n : Notifier}
    {m : WorkflowReplicationMessages} {c : Nat} (thread : s.notifiers[k]? = some n)
    (pc : n.pc = .sendLocal m c) (closed : (s.chan c).closed = true) :
    ∃ u, step cfg s (.notifier k .send) = some u ∧ u.panics ≠ [] := by
  refine ⟨{ endNotifier s k with panics := s.panics ++ [c] }, ?_, by simp⟩
  simp [step, act, thread, notifierStep, pc, closed, apply]

/-- A step that breaks the condition leaves a notifier whose next step panics. -/
theorem disturbed_panics {cfg : Config} {s t : Plane} {a : Label} (broken : ¬ Undisturbed s a)
    (hs : step cfg s a = some t) :
    ∃ k u, step cfg t (.notifier k .send) = some u ∧ u.panics ≠ [] := by
  obtain ⟨s', e, _, acted, rfl⟩ := step_inv hs
  cases acted with
  | closeChan c inside =>
    simp only [Undisturbed, not_forall, not_not] at broken
    obtain ⟨n, member, m, here⟩ := broken
    obtain ⟨k, thread⟩ := List.mem_iff_getElem?.mp member
    refine ⟨k, send_panics (n := n) (m := m) (c := c) thread here ?_⟩
    simp [apply, withChan]
  | @notifier k n l t e thread acted =>
    simp only [Undisturbed, not_forall, Bool.not_eq_false] at broken
    obtain ⟨n', m, c, same, pc, entry, closed⟩ := broken
    cases thread.symm.trans same
    cases acted with
    | @found m' c' pc' entry' =>
      cases entry.symm.trans entry'
      have inside : k < s.notifiers.length := (List.getElem?_eq_some_iff.mp thread).1
      refine ⟨k, send_panics (n := { n with pc := .sendLocal m' c }) ?_ rfl ?_⟩
      · simp [apply, withNotifier, inside]
      · simpa [apply, withNotifier] using closed
    | absent pc' entry' =>
      rw [entry] at entry'
      cases entry'
    | idle pc' | read pc' | panic pc' | put pc' | full pc' | deliver pc' =>
      rw [pc] at pc'
      cases pc'
  | receiver acted => cases acted <;> exact absurd trivial broken
  | stream acted => cases acted <;> exact absurd trivial broken
  | _ => exact absurd trivial broken

theorem no_panic_when_undisturbed (cfg : Config) (labels : List Label) (s : Plane)
    (h : run (step cfg) (initial cfg) labels = some s) :
    (Meets (step cfg) Undisturbed (initial cfg) labels → s.panics = []) ∧
      ∀ a t, step cfg s a = some t → ¬ Undisturbed s a →
        ∃ k u, step cfg t (.notifier k .send) = some u ∧ u.panics ≠ [] := by
  constructor
  · intro meets
    have kept : ∀ u a v, (HoldsOpen u ∧ u.panics = []) → Undisturbed u a → step cfg u a = some v →
        HoldsOpen v ∧ v.panics = [] := by
      rintro u a v ⟨opened, none⟩ cond hs
      obtain ⟨opened', same⟩ := step_holdsOpen opened cond hs
      exact ⟨opened', same.trans none⟩
    have start : HoldsOpen (initial cfg) ∧ (initial cfg).panics = [] := ⟨by rintro _ ⟨⟩, rfl⟩
    exact (run_invariant kept start meets h).2
  · intro a t hs broken
    exact disturbed_panics broken hs

/-- The source announces a watermark, the sender of {2, 1} shuts down, and the shard registers
    on another node; the register message arrives between close and RemoveRemoteSendChan. -/
def reconnectRun : List Label :=
  [.startSender 0 ⟨2, 1⟩, .recvBatch ⟨[], 5, 0⟩, .closeChan 0, .startSender 1 ⟨2, 1⟩,
    .notify 0 ⟨2, 1⟩, .notifier 0 .read, .notifier 0 .lookup, .notifier 0 .send]

theorem reconnect_panics :
    ∃ s, run (step sampleConfig) (initial sampleConfig) reconnectRun = some s ∧ s.panics = [0] :=
  ⟨_, rfl, rfl⟩

/-- Without the shutdown the register message finds the channel open and the watermark is put. -/
theorem no_panic_when_undisturbed_reregister :
    ∃ s, run (step sampleConfig) (initial sampleConfig) (reconnectRun.eraseIdx 2) = some s ∧
      s.panics = [] ∧ (s.chan 0).puts.length = 1 := by
  refine ⟨_, rfl, ?_, rfl⟩
  refine (no_panic_when_undisturbed sampleConfig (reconnectRun.eraseIdx 2) _ rfl).1 ?_
  refine ⟨trivial, trivial, trivial, trivial, ?_, ?_, ?_, trivial⟩
  · rintro n m c ⟨⟩ ⟨⟩
  · rintro n m c ⟨⟩ ⟨⟩ ⟨⟩
    rfl
  · rintro n m c ⟨⟩ ⟨⟩

end Routing
