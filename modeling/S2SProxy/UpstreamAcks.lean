import S2SProxy.AckSafety

/- The sendAck goroutine of a proxyStreamReceiver on its own. Any acknowledgement may arrive on
   its channel, also one for tasks that an earlier receiver of the same source shard has
   received; recvReplicationMessages contributes the watermarks of the batches. A step is one
   section under ackMu; Send stands between two of them. -/
namespace UpstreamAcks
open ShardData ReplicationSystem GuardedRuns

structure AckState extends SendAckState where
  lastExclusiveHighOriginal : Int

inductive AckLabel where
  | recvBatch (exclusiveHighWatermark : Int)
  | takeAck (routed : RoutedAck)
  | sendUp
  | keepalive
  deriving DecidableEq, Repr

def initial : AckState := ⟨newSendAck, 0⟩

def advance (s : AckState) : AckLabel → Option AckState
  | .recvBatch high => some { s with lastExclusiveHighOriginal := high }
  | .takeAck r =>
    if s.sending = none then
      some { s with toSendAckState := s.recordAck s.lastExclusiveHighOriginal r }
    else none
  | .sendUp => s.sendUp.map fun acks => { s with toSendAckState := acks }
  | .keepalive => s.keepalive.map fun acks => { s with toSendAckState := acks }

/-- The goroutine with the watermarks received so far. -/
structure AckRun extends AckState where
  highs : List Int

def AckLabel.highs : AckLabel → List Int
  | .recvBatch high => [high]
  | .takeAck _ | .sendUp | .keepalive => []

def newRun : AckRun := ⟨initial, []⟩

def step (s : AckRun) (a : AckLabel) : Option AckRun :=
  (advance s.toAckState a).map fun next => ⟨next, s.highs ++ a.highs⟩

def Rising (s : AckRun) : AckLabel → Prop
  | .recvBatch high => ∀ earlier ∈ s.highs, earlier ≤ high
  | _ => True

/-- An ack that is sent upstream is taken after a batch with a watermark has come in. -/
def AfterFirstBatch (s : AckRun) : AckLabel → Prop
  | .takeAck r => (s.recordAck s.lastExclusiveHighOriginal r).sending ≠ none → 0 < s.lastExclusiveHighOriginal
  | _ => True

instance (s : AckRun) : ∀ a, Decidable (Rising s a)
  | .recvBatch high => inferInstanceAs (Decidable (∀ earlier ∈ s.highs, earlier ≤ high))
  | .takeAck _ | .sendUp | .keepalive => .isTrue trivial

instance (s : AckRun) : ∀ a, Decidable (AfterFirstBatch s a)
  | .takeAck r => inferInstanceAs (Decidable ((s.recordAck s.lastExclusiveHighOriginal r).sending ≠ none → _))
  | .recvBatch _ | .sendUp | .keepalive => .isTrue trivial

inductive Stepped (s : AckRun) : AckLabel → AckRun → Prop
  | recvBatch (high : Int) :
      Stepped s (.recvBatch high)
        ⟨{ s.toAckState with lastExclusiveHighOriginal := high }, s.highs ++ [high]⟩
  | takeAck (r : RoutedAck) (idle : s.sending = none) :
      Stepped s (.takeAck r)
        ⟨⟨s.recordAck s.lastExclusiveHighOriginal r, s.lastExclusiveHighOriginal⟩, s.highs⟩
  | sendUp {m : Int} (ready : s.sending = some m) :
      Stepped s .sendUp
        ⟨{ s.toAckState with
          sending := none, lastSentMin := m, lastSentAck := some m,
          upstream := s.upstream ++ [m] }, s.highs⟩
  | keepalive {m : Int} (last : s.lastSentAck = some m) :
      Stepped s .keepalive ⟨{ s.toAckState with upstream := s.upstream ++ [m] }, s.highs⟩

theorem step_inv {s t : AckRun} {a : AckLabel} (h : step s a = some t) : Stepped s a t := by
  obtain ⟨next, advanced, rfl⟩ := Option.map_eq_some_iff.mp h
  cases a with
  | recvBatch high =>
    cases advanced
    exact .recvBatch high
  | takeAck r =>
    simp only [advance, Option.ite_none_right_eq_some, Option.some.injEq] at advanced
    obtain ⟨idle, rfl⟩ := advanced
    simp only [AckLabel.highs, List.append_nil]
    exact .takeAck r idle
  | sendUp =>
    obtain ⟨acks, sent, rfl⟩ := Option.map_eq_some_iff.mp advanced
    obtain ⟨m, ready, rfl⟩ := Option.map_eq_some_iff.mp sent
    simp only [AckLabel.highs, List.append_nil]
    exact .sendUp ready
  | keepalive =>
    obtain ⟨acks, sent, rfl⟩ := Option.map_eq_some_iff.mp advanced
    obtain ⟨m, last, rfl⟩ := keepalive_inv sent
    simp only [AckLabel.highs, List.append_nil]
    exact .keepalive last

def Reached (highs : List Int) (v : Int) : Prop := ∃ high ∈ highs, v ≤ high

/-- What has been sent is at most the last minimum, the last minimum is at most what is about to
    be sent, and the source has reached all of it. -/
structure Rises (s : AckRun) : Prop where
  greatest : ∀ high ∈ s.highs, high ≤ s.lastExclusiveHighOriginal
  known : 0 < s.lastExclusiveHighOriginal → s.lastExclusiveHighOriginal ∈ s.highs
  upstream : s.upstream.Pairwise (· ≤ ·)
  sent : ∀ v ∈ s.upstream, v ≤ s.lastSentMin ∧ Reached s.highs v
  last : s.lastSentMin = 0 ∨ Reached s.highs s.lastSentMin
  repeated : ∀ m ∈ s.lastSentAck, m = s.lastSentMin ∧ Reached s.highs m
  sending : ∀ m ∈ s.sending, s.lastSentMin ≤ m ∧ Reached s.highs m

theorem Reached.mono {highs : List Int} {v : Int} (h : Reached highs v) (more : List Int) :
    Reached (highs ++ more) v := by
  obtain ⟨high, member, le⟩ := h
  exact ⟨high, List.mem_append_left _ member, le⟩

theorem new_rises : Rises newRun := by
  constructor <;> simp [newRun, initial, newSendAck]

/- With a watermark known the clamp keeps the ack between the last minimum and the watermark. -/
theorem clamp_between {high min low : Int} (known : 0 < high) (tested : min ≥ low) (below : low ≤ high) :
    low ≤ clamp high min ∧ clamp high min ≤ high := by
  unfold clamp
  split
  · exact ⟨below, le_refl high⟩
  · next small =>
    constructor
    · exact tested
    · by_contra above
      exact small ⟨known, by omega⟩

theorem recvBatch_rises {s : AckRun} (h : Rises s) {high : Int} (rising : Rising s (.recvBatch high)) :
    Rises ⟨{ s.toAckState with lastExclusiveHighOriginal := high }, s.highs ++ [high]⟩ := by
  constructor
  · intro earlier member
    rcases List.mem_append.mp member with old | new
    · exact rising earlier old
    · exact le_of_eq (List.mem_singleton.mp new)
  · intro _
    exact List.mem_append_right _ (List.mem_singleton_self high)
  · exact h.upstream
  · intro v member
    exact ⟨(h.sent v member).1, (h.sent v member).2.mono _⟩
  · exact h.last.imp_right fun reached => reached.mono _
  · intro m last
    exact ⟨(h.repeated m last).1, (h.repeated m last).2.mono _⟩
  · intro m ready
    exact ⟨(h.sending m ready).1, (h.sending m ready).2.mono _⟩

theorem takeAck_rises {s : AckRun} (h : Rises s) {r : RoutedAck}
    (seen : AfterFirstBatch s (.takeAck r)) :
    Rises ⟨⟨s.recordAck s.lastExclusiveHighOriginal r, s.lastExclusiveHighOriginal⟩, s.highs⟩ := by
  refine ⟨h.greatest, h.known, h.upstream, h.sent, h.last, h.repeated, ?_⟩
  intro m ready
  have positive := seen (by rw [Option.mem_def.mp ready]; exact Option.some_ne_none m)
  have inside := h.known positive
  have below : s.lastSentMin ≤ s.lastExclusiveHighOriginal := by
    rcases h.last with zero | ⟨high, member, le⟩
    · omega
    · exact le.trans (h.greatest high member)
  obtain ⟨min, _, tested⟩ := Option.bind_eq_some_iff.mp ready
  simp only [Option.ite_none_right_eq_some, Option.some.injEq] at tested
  obtain ⟨enough, rfl⟩ := tested
  obtain ⟨low, high⟩ := clamp_between positive enough below
  exact ⟨low, _, inside, high⟩

theorem sendUp_rises {s : AckRun} (h : Rises s) {m : Int} (ready : s.sending = some m) :
    Rises ⟨{ s.toAckState with
      sending := none, lastSentMin := m, lastSentAck := some m,
      upstream := s.upstream ++ [m] }, s.highs⟩ := by
  obtain ⟨above, reached⟩ := h.sending m ready
  constructor
  · exact h.greatest
  · exact h.known
  · refine List.pairwise_append.mpr ⟨h.upstream, List.pairwise_singleton _ _, ?_⟩
    intro v old v' new
    rw [List.mem_singleton.mp new]
    exact (h.sent v old).1.trans above
  · intro v member
    rcases List.mem_append.mp member with old | new
    · exact ⟨(h.sent v old).1.trans above, (h.sent v old).2⟩
    · rw [List.mem_singleton.mp new]
      exact ⟨le_refl m, reached⟩
  · exact .inr reached
  · intro m' same
    cases same
    exact ⟨rfl, reached⟩
  · intro m' none
    cases none

theorem keepalive_rises {s : AckRun} (h : Rises s) {m : Int} (last : s.lastSentAck = some m) :
    Rises ⟨{ s.toAckState with upstream := s.upstream ++ [m] }, s.highs⟩ := by
  obtain ⟨rfl, reached⟩ := h.repeated m last
  refine ⟨h.greatest, h.known, ?_, ?_, h.last, h.repeated, h.sending⟩
  · refine List.pairwise_append.mpr ⟨h.upstream, List.pairwise_singleton _ _, ?_⟩
    intro v old v' new
    rw [List.mem_singleton.mp new]
    exact (h.sent v old).1
  · intro v member
    rcases List.mem_append.mp member with old | new
    · exact h.sent v old
    · rw [List.mem_singleton.mp new]
      exact ⟨le_refl _, reached⟩

theorem step_rises (s : AckRun) (a : AckLabel) (t : AckRun) (h : Rises s)
    (cond : Rising s a ∧ AfterFirstBatch s a) (hs : step s a = some t) : Rises t := by
  cases step_inv hs with
  | recvBatch high => exact recvBatch_rises h cond.1
  | takeAck r idle => exact takeAck_rises h cond.2
  | sendUp ready => exact sendUp_rises h ready
  | keepalive last => exact keepalive_rises h last

theorem upstream_acks_monotone_and_bounded (labels : List AckLabel) (s : AckRun)
    (rising : Meets step Rising newRun labels) (seen : Meets step AfterFirstBatch newRun labels)
    (h : run step newRun labels = some s) :
    s.upstream.Pairwise (· ≤ ·) ∧ ∀ v ∈ s.upstream, ∃ high ∈ s.highs, v ≤ high := by
  have rises := run_invariant step_rises new_rises (meets_and rising seen) h
  exact ⟨rises.upstream, fun v member => (rises.sent v member).2⟩

def clampedRun : List AckLabel :=
  [.recvBatch 20, .takeAck ⟨⟨2, 1⟩, 15⟩, .sendUp, .keepalive, .takeAck ⟨⟨2, 2⟩, 10⟩,
    .takeAck ⟨⟨2, 2⟩, 40⟩, .sendUp, .recvBatch 30, .takeAck ⟨⟨2, 1⟩, 50⟩, .sendUp]

theorem upstream_acks_monotone_and_bounded_clamped :
    ∃ s, run step newRun clampedRun = some s ∧ s.upstream = [15, 15, 15, 30] ∧
      s.upstream.Pairwise (· ≤ ·) :=
  ⟨_, rfl, by decide, (upstream_acks_monotone_and_bounded clampedRun _ (by decide +kernel)
    (by decide +kernel) rfl).1⟩

/-- An ack for tasks of an earlier receiver comes before the first batch and is sent as it is;
    the same ack after the batch is clamped. -/
theorem early_ack_exceeds_and_decreases :
    ∃ s, run step newRun [.takeAck ⟨⟨2, 1⟩, 100⟩, .sendUp, .recvBatch 50, .takeAck ⟨⟨2, 1⟩, 100⟩,
        .sendUp] = some s ∧
      s.highs = [50] ∧ s.upstream = [100, 50] ∧ ¬ s.upstream.Pairwise (· ≤ ·) ∧
      ¬ ∀ v ∈ s.upstream, ∃ high ∈ s.highs, v ≤ high := by
  refine ⟨_, rfl, rfl, by decide, by decide, ?_⟩
  intro bounded
  obtain ⟨high, member, le⟩ := bounded 100 (by decide)
  cases List.mem_singleton.mp member
  omega

/-- The same goroutine inside the system. -/
def acksOf (s : System) : AckState := ⟨s.toSendAckState, s.plane.lastExclusiveHighOriginal⟩

def highs : SystemLabel → List Int
  | .plane (.recvBatch m) => [m.exclusiveHighWatermark]
  | _ => []

theorem acted_high {cfg : Routing.Config} {s t : Routing.Plane} {a : Routing.Label} {e : Routing.Effect}
    (acted : Routing.Acted cfg s a t e) :
    (t.lastExclusiveHighOriginal = s.lastExclusiveHighOriginal ∧ highs (.plane a) = []) ∨
      ∃ m, a = .recvBatch m ∧ t.lastExclusiveHighOriginal = m.exclusiveHighWatermark := by
  cases acted with
  | receiver acted =>
    cases acted with
    | recvEmptyBatch m phase empty => exact .inr ⟨m, rfl, rfl⟩
    | recvTasks m phase tasks => exact .inr ⟨m, rfl, rfl⟩
    | deliver phase current done => cases done <;> exact .inl ⟨rfl, rfl⟩
    | deliverRemote phase done => cases done <;> exact .inl ⟨rfl, rfl⟩
    | _ => exact .inl ⟨rfl, rfl⟩
  | notifier thread acted =>
    cases acted with
    | deliver pc done => cases done <;> exact .inl ⟨rfl, rfl⟩
    | _ => exact .inl ⟨rfl, rfl⟩
  | stream acted => cases acted <;> exact .inl ⟨rfl, rfl⟩
  | _ => exact .inl ⟨rfl, rfl⟩

theorem plane_high {cfg : Routing.Config} {s t : Routing.Plane} {a : Routing.Label}
    (h : Routing.step cfg s a = some t) :
    (t.lastExclusiveHighOriginal = s.lastExclusiveHighOriginal ∧ highs (.plane a) = []) ∨
      ∃ m, a = .recvBatch m ∧ t.lastExclusiveHighOriginal = m.exclusiveHighWatermark := by
  obtain ⟨s', e, _, acted, rfl⟩ := Routing.step_inv h
  have same : (Routing.apply s' e).lastExclusiveHighOriginal = s'.lastExclusiveHighOriginal := by
    cases e <;> rfl
  rw [same]
  exact acted_high acted

/-- A step of the system as the goroutine sees it: nothing, or a step of its own. -/
inductive Seen (s t : System) (a : SystemLabel) : Prop
  | nothing (same : acksOf t = acksOf s) (none : highs a = [])
  | own (l : AckLabel) (advanced : advance (acksOf s) l = some (acksOf t)) (batch : l.highs = highs a)
      (taken : ∀ r, l = .takeAck r → a = .takeAck)

theorem system_step {cfg : Routing.Config} {s t : System} {a : SystemLabel}
    (h : ReplicationSystem.step cfg s a = some t) : Seen s t a := by
  cases a with
  | takeAck =>
    simp only [ReplicationSystem.step] at h
    split at h
    · next r rest idle head =>
      cases h
      exact .own (.takeAck r) (if_pos idle) rfl fun _ _ => rfl
    · cases h
  | sendUp =>
    obtain ⟨acks, sent, rfl⟩ := Option.map_eq_some_iff.mp h
    exact .own .sendUp (Option.map_eq_some_iff.mpr ⟨acks, sent, rfl⟩) rfl nofun
  | keepalive =>
    obtain ⟨acks, sent, rfl⟩ := Option.map_eq_some_iff.mp h
    exact .own .keepalive (Option.map_eq_some_iff.mpr ⟨acks, sent, rfl⟩) rfl nofun
  | plane a =>
    cases ReplicationSystem.step_inv h with
    | plane notTake stepped =>
      rcases plane_high stepped with ⟨same, none⟩ | ⟨m, rfl, high⟩
      · exact .nothing (by simp [acksOf, same]) none
      · exact .own (.recvBatch m.exclusiveHighWatermark) (by simp [advance, acksOf, high]) rfl nofun
  | take c =>
    cases ReplicationSystem.step_inv h with
    | take head taken stepped =>
      rcases plane_high taken with ⟨same, _⟩ | ⟨m, impossible, _⟩
      · exact .nothing (by simp [acksOf, withPeer, same]) rfl
      · cases impossible
  | _ =>
    cases ReplicationSystem.step_inv h
    exact .nothing rfl rfl

def WatermarkFirst (labels : List SystemLabel) : Prop :=
  ∀ before after, labels = before ++ .takeAck :: after → ∃ high ∈ before.flatMap highs, 0 < high

theorem WatermarkFirst.dropLast {labels : List SystemLabel} {a : SystemLabel}
    (first : WatermarkFirst (labels ++ [a])) : WatermarkFirst labels := by
  intro before after split
  exact first before (after ++ [a]) (by simp [split])

/- A batch with a watermark before the first ack is enough. -/
theorem batch_first (first rest : List SystemLabel) (m : WorkflowReplicationMessages)
    (positive : 0 < m.exclusiveHighWatermark) (noAck : .takeAck ∉ first) :
    WatermarkFirst (first ++ .plane (.recvBatch m) :: rest) := by
  intro before after split
  refine ⟨m.exclusiveHighWatermark, List.mem_flatMap.mpr ⟨.plane (.recvBatch m), ?_, by simp [highs]⟩,
    positive⟩
  rcases List.append_eq_append_iff.mp split with ⟨more, rfl, tail⟩ | ⟨more, rfl, tail⟩
  · cases more with
    | nil => cases tail
    | cons head more =>
      cases tail
      simp
  · cases more with
    | nil => cases tail
    | cons head more =>
      cases tail
      simp at noAck

/- The goroutine's steps are those of its own model, so what rises there rises here. -/
theorem system_rises {cfg : Routing.Config} {labels : List SystemLabel} {s : System}
    (rising : (labels.flatMap highs).Pairwise (· ≤ ·)) (first : WatermarkFirst labels)
    (h : run (ReplicationSystem.step cfg) (ReplicationSystem.initial cfg) labels = some s) :
    Rises ⟨acksOf s, labels.flatMap highs⟩ := by
  induction labels using List.reverseRecOn generalizing s with
  | nil =>
    cases h
    exact new_rises
  | append_singleton labels a ih =>
    obtain ⟨u, earlier, last⟩ := run_append.mp h
    obtain ⟨t, stepped, done⟩ := run_cons_some last
    obtain rfl : t = s := Option.some.inj done
    rw [List.flatMap_append, List.flatMap_singleton] at rising ⊢
    obtain ⟨risingBefore, _, above⟩ := List.pairwise_append.mp rising
    have before := ih risingBefore first.dropLast earlier
    cases system_step stepped with
    | nothing same none =>
      rw [same, none, List.append_nil]
      exact before
    | own l advanced batch taken =>
      rw [← batch]
      refine step_rises ⟨acksOf u, labels.flatMap highs⟩ l _ before ⟨?_, ?_⟩ ?_
      · cases l with
        | recvBatch high => exact fun w member => above w member high (by simp [← batch, AckLabel.highs])
        | _ => trivial
      · cases l with
        | takeAck r =>
          intro _
          obtain rfl := taken r rfl
          obtain ⟨high, member, positive⟩ := first labels [] rfl
          exact lt_of_lt_of_le positive (before.greatest high member)
        | _ => trivial
      · simp [step, advanced]

/-- In the whole system, with its routing, its senders and their targets: what goes upstream never
    decreases and never exceeds a watermark that the source has sent. -/
theorem system_acks_monotone_and_bounded (cfg : Routing.Config) (labels : List SystemLabel) (s : System)
    (rising : (labels.flatMap highs).Pairwise (· ≤ ·)) (first : WatermarkFirst labels)
    (h : run (ReplicationSystem.step cfg) (ReplicationSystem.initial cfg) labels = some s) :
    s.upstream.Pairwise (· ≤ ·) ∧ ∀ v ∈ s.upstream, ∃ high ∈ labels.flatMap highs, v ≤ high := by
  have rises := system_rises rising first h
  exact ⟨rises.upstream, fun v member => (rises.sent v member).2⟩

set_option maxRecDepth 8000 in
theorem settled_acks_monotone_and_bounded :
    ∃ s, run (ReplicationSystem.step Routing.sampleConfig)
        (ReplicationSystem.initial Routing.sampleConfig) settledRun = some s ∧
      s.upstream = [1, 1, 2, 3] ∧ s.upstream.Pairwise (· ≤ ·) ∧
      ∀ v ∈ s.upstream, ∃ high ∈ settledRun.flatMap highs, v ≤ high := by
  have first : WatermarkFirst settledRun :=
    batch_first [.plane (.startSender 0 ⟨2, 1⟩), .plane (.startSender 0 ⟨2, 2⟩)] _
      ⟨[Routing.sampleTask 1 "bb", Routing.sampleTask 2 "a"], 3, 0⟩ (by decide) (by simp)
  exact ⟨_, rfl, rfl, system_acks_monotone_and_bounded Routing.sampleConfig settledRun _
    (by decide) first rfl⟩

end UpstreamAcks
