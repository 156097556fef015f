import S2SProxy.ReplicationSystem
import S2SProxy.SenderSafety

/- The acknowledgements a sender forwards to one source shard, in the order in which it
   forwards them. A round takes its values from the entries still in the ring, so the values of
   later rounds are as large as those of earlier ones if the shard's entries came into the ring
   in order. -/
namespace StreamSender
open ShardData ProxyIDRing GuardedRuns

def valuesOf (X : ClusterShardID) (es : List Entry) : List Int :=
  (es.filter fun e => e.mapping.sourceShard = X).map fun e => e.mapping.sourceTask

def acksFor (X : ClusterShardID) (ds : List Delivery) : List Int :=
  (ds.filter fun d => d.shard = X).map Delivery.ack

/-- The messages of X reach the sender in order: nothing in them is smaller than what it has
    numbered for X before. -/
def EntersInOrder (X : ClusterShardID) (s : SenderRun) : SenderLabel → Prop
  | .sendMessage routed => (valuesOf X (s.log.allocated ++ entriesOf routed)).Pairwise (· ≤ ·)
  | _ => True

instance (X : ClusterShardID) (s : SenderRun) : ∀ a, Decidable (EntersInOrder X s a)
  | .sendMessage routed =>
    inferInstanceAs (Decidable ((valuesOf X (s.log.allocated ++ entriesOf routed)).Pairwise (· ≤ ·)))
  | .transmit | .keepalive | .recvWatermark _ | .beginPass _ | .attempt _ | .finishRound
  | .shutdownOnce | .abandonRound => .isTrue trivial

theorem valuesOf_append (X : ClusterShardID) (es es' : List Entry) :
    valuesOf X (es ++ es') = valuesOf X es ++ valuesOf X es' := by
  simp [valuesOf]

theorem mem_valuesOf {X : ClusterShardID} {es : List Entry} {v : Int} :
    v ∈ valuesOf X es ↔ ∃ e ∈ es, e.mapping = ⟨X, v⟩ := by
  simp only [valuesOf, List.mem_map, List.mem_filter, decide_eq_true_eq, and_assoc]
  refine exists_congr fun e => and_congr_right fun _ => ?_
  cases e.mapping
  simp

theorem valuesOf_sublist {X : ClusterShardID} {es es' : List Entry} (h : es.Sublist es') :
    (valuesOf X es).Sublist (valuesOf X es') :=
  (h.filter _).map _

theorem acksFor_concat (X : ClusterShardID) (ds : List Delivery) (d : Delivery) :
    acksFor X (ds ++ [d]) = acksFor X ds ++ if d.shard = X then [d.ack] else [] := by
  by_cases here : d.shard = X
  · simp [acksFor, here]
  · simp [acksFor, here]

theorem mem_acksFor {X : ClusterShardID} {ds : List Delivery} {v : Int} :
    v ∈ acksFor X ds ↔ ∃ d ∈ ds, d.shard = X ∧ d.ack = v := by
  simp [acksFor, and_assoc]

theorem Justified.mem_valuesOf {X : ClusterShardID} {v : Int} {allocated : List Entry}
    {received : List Int} (h : Justified allocated received X v) : v ∈ valuesOf X allocated := by
  obtain ⟨k, e, w, entry, mapped, _⟩ := h
  exact StreamSender.mem_valuesOf.mpr ⟨e, List.mem_of_getElem? entry, mapped⟩

def AckPhase.covered : AckPhase → Option Nat
  | .idle => some 0
  | .forwarding _ _ pendingDiscard _ => some pendingDiscard
  | .stopped => none

structure AckOrdered (X : ClusterShardID) (s : SenderRun) : Prop where
  entries : (valuesOf X s.log.allocated).Pairwise (· ≤ ·)
  acks : (acksFor X s.delivered).Pairwise (· ≤ ·)
  previous : ∀ p, s.prevAckBySource.lookup X = some p → ∀ u ∈ acksFor X s.delivered, u ≤ p
  behind : ∀ n ∈ s.ackPhase.covered, ∀ u ∈ acksFor X s.delivered,
    ∀ x ∈ valuesOf X (s.log.held.drop n), u ≤ x
  round : ∀ fresh acks pendingDiscard loop,
    s.ackPhase = .forwarding fresh acks pendingDiscard loop → ∀ v, acks.lookup X = some v →
      (∀ u ∈ acksFor X s.delivered, u ≤ v) ∧
      (∀ x ∈ valuesOf X (s.log.held.drop pendingDiscard), v ≤ x) ∧
      (fresh = false → s.prevAckBySource.lookup X = some v)

section Steps
variable {X : ClusterShardID} {s : SenderRun}

theorem new_ackOrdered (X : ClusterShardID) (capacity : Int) : AckOrdered X (newSender capacity) := by
  constructor
  · exact List.Pairwise.nil
  · exact List.Pairwise.nil
  · intro p _ u member
    cases member
  · intro n _ u member
    cases member
  · intro fresh acks pendingDiscard loop phase
    cases phase

theorem held_entries (h : AckOrdered X s) : (valuesOf X s.log.held).Pairwise (· ≤ ·) :=
  h.entries.sublist (valuesOf_sublist (List.drop_sublist _ _))

theorem sendMessage_ackOrdered (sound : Sound s) (h : AckOrdered X s) {routed : RoutedMessage}
    (inOrder : EntersInOrder X s (.sendMessage routed)) :
    AckOrdered X (afterSendMessage s routed) := by
  -- A value justified by an older entry is at most every new one.
  have new : ∀ v ∈ valuesOf X s.log.allocated, ∀ x ∈ valuesOf X (entriesOf routed), v ≤ x := by
    rw [EntersInOrder, valuesOf_append, List.pairwise_append] at inOrder
    exact inOrder.2.2
  have drop : ∀ n, ∀ v ∈ valuesOf X s.log.allocated,
      (∀ x ∈ valuesOf X (s.log.held.drop n), v ≤ x) →
      ∀ x ∈ valuesOf X ((afterSendMessage s routed).log.held.drop n), v ≤ x := by
    intro n v old before x member
    simp only [afterSendMessage, pushAll_held, List.drop_append, valuesOf_append,
      List.mem_append] at member
    rcases member with held | pushed
    · exact before x held
    · exact new v old x ((valuesOf_sublist (List.drop_sublist _ _)).subset pushed)
  have phase : (afterSendMessage s routed).ackPhase = s.ackPhase := rewriteMessage_ackPhase _ _
  have previous : (afterSendMessage s routed).prevAckBySource = s.prevAckBySource :=
    rewriteMessage_prevAckBySource _ _
  constructor
  · simpa [afterSendMessage, EntersInOrder] using inOrder
  · exact h.acks
  · rw [previous]
    exact h.previous
  · intro n covered u member
    rw [phase] at covered
    obtain ⟨d, delivered, rfl, rfl⟩ := mem_acksFor.mp member
    exact drop n d.ack (sound.justified d delivered).mem_valuesOf (h.behind n covered d.ack member)
  · intro fresh acks pendingDiscard loop forwarding v found
    rw [phase] at forwarding
    obtain ⟨delivered, behind, repeated⟩ := h.round _ _ _ _ forwarding v found
    have justified := (sound.round _ _ _ _ forwarding).justified X v found
    rw [previous]
    exact ⟨delivered, drop pendingDiscard v justified.mem_valuesOf behind, repeated⟩

/- A newly computed value is the greatest of the entries covered. -/
theorem fresh_greatest {fresh : Bool} {acks : ShardMap} {count : Nat}
    {loop : RetryLoop ClusterShardID} (r : RoundSound s fresh acks count loop)
    (isFresh : fresh = true) {v : Int} (found : acks.lookup X = some v) :
    v ∈ valuesOf X (s.log.held.take count) := by
  have snapshot := r.snapshot
  rw [if_pos isFresh] at snapshot
  rw [← snapshot] at found
  obtain ⟨e, member, mapped⟩ := List.mem_map.mp (aggregate_mem found)
  exact mem_valuesOf.mpr ⟨e, member, mapped⟩

theorem recvWatermark_ackOrdered (sound : Sound s) (h : AckOrdered X s) (idle : s.ackPhase = .idle)
    (w : Int) : AckOrdered X (afterRecvWatermark s w) := by
  have behind : ∀ u ∈ acksFor X s.delivered, ∀ x ∈ valuesOf X s.log.held, u ≤ x :=
    h.behind 0 (by rw [idle]; rfl)
  refine ⟨h.entries, h.acks, h.previous, ?_, ?_⟩
  · intro n _ u member x later
    exact behind u member x ((valuesOf_sublist (List.drop_sublist _ _)).subset later)
  · intro fresh acks count loop phase v found
    have r := (recvWatermark_sound sound w).round _ _ _ _ phase
    cases isFresh : fresh with
    | true =>
      have covered := fresh_greatest r isFresh found
      have sorted := held_entries h
      rw [← List.take_append_drop count s.log.held, valuesOf_append, List.pairwise_append] at sorted
      refine ⟨fun u member => ?_, sorted.2.2 v covered, fun absurd => nomatch absurd⟩
      exact behind u member v ((valuesOf_sublist (List.take_sublist _ _)).subset covered)
    | false =>
      have same : acks = s.prevAckBySource := by
        simp only [afterRecvWatermark, AckPhase.forwarding.injEq] at phase
        obtain ⟨fallback, chosen, _⟩ := phase
        rw [← chosen, fallback, isFresh]
        rfl
      rw [same] at found
      obtain ⟨d, delivered, shard, rfl⟩ := lastFresh_mem (sound.recorded X ▸ found)
      have member : d.ack ∈ acksFor X s.delivered := mem_acksFor.mpr ⟨d, delivered, shard, rfl⟩
      refine ⟨h.previous d.ack found, fun x later => ?_, fun _ => found⟩
      exact behind d.ack member x ((valuesOf_sublist (List.drop_sublist _ _)).subset later)

theorem AckOrdered.withLoop (h : AckOrdered X s) {fresh : Bool} {acks : ShardMap} {count : Nat}
    {loop loop' : RetryLoop ClusterShardID} (phase : s.ackPhase = .forwarding fresh acks count loop) :
    AckOrdered X (withPhase s (.forwarding fresh acks count loop')) := by
  refine ⟨h.entries, h.acks, h.previous, ?_, ?_⟩
  · intro n covered
    exact h.behind n (by rw [phase]; exact covered)
  · intro fresh' acks' count' loop'' phase'
    simp only [withPhase, AckPhase.forwarding.injEq] at phase'
    obtain ⟨rfl, rfl, rfl, rfl⟩ := phase'
    exact h.round _ _ _ _ phase

theorem delivery_ackOrdered_own (h : AckOrdered X s) {fresh : Bool} {acks : ShardMap} {count : Nat}
    {loop : RetryLoop ClusterShardID} (phase : s.ackPhase = .forwarding fresh acks count loop) {v : Int}
    (found : acks.lookup X = some v) : AckOrdered X (recordDelivery s ⟨X, v, fresh⟩) := by
  obtain ⟨delivered, behind, repeated⟩ := h.round _ _ _ _ phase v found
  have grown : acksFor X (recordDelivery s ⟨X, v, fresh⟩).delivered =
      acksFor X s.delivered ++ [v] := by
    simp [recordDelivery, acksFor_concat]
  have upTo : ∀ u ∈ acksFor X s.delivered ++ [v], u ≤ v := by
    intro u member
    rcases List.mem_append.mp member with old | new
    · exact delivered u old
    · exact le_of_eq (List.mem_singleton.mp new)
  constructor
  · exact h.entries
  · rw [grown]
    refine List.pairwise_append.mpr ⟨h.acks, List.pairwise_singleton _ _, ?_⟩
    intro u old x new
    rw [List.mem_singleton.mp new]
    exact delivered u old
  · intro p previous
    rw [grown]
    have same : p = v := by
      cases fresh with
      | true => simpa [recordDelivery, eq_comm] using previous
      | false => exact Option.some.inj (previous.symm.trans (repeated rfl))
    exact same ▸ upTo
  · intro n covered u member x later
    rw [grown] at member
    simp only [recordDelivery, phase, AckPhase.covered, Option.mem_def, Option.some.injEq] at covered
    subst covered
    exact (upTo u member).trans (behind x later)
  · intro fresh' acks' count' loop' phase' v' found'
    cases phase.symm.trans phase'
    cases found.symm.trans found'
    rw [grown]
    refine ⟨upTo, behind, fun stale => ?_⟩
    subst stale
    exact repeated rfl

theorem delivery_ackOrdered_other (h : AckOrdered X s) {shard : ClusterShardID} (other : shard ≠ X)
    (v : Int) (fresh : Bool) : AckOrdered X (recordDelivery s ⟨shard, v, fresh⟩) := by
  have kept : acksFor X (recordDelivery s ⟨shard, v, fresh⟩).delivered = acksFor X s.delivered := by
    simp [recordDelivery, acksFor_concat, other]
  have previous : (recordDelivery s ⟨shard, v, fresh⟩).prevAckBySource.lookup X =
      s.prevAckBySource.lookup X := by
    cases fresh with
    | true => simp [recordDelivery, AList.lookup_insert_ne (Ne.symm other)]
    | false => rfl
  refine ⟨h.entries, ?_, ?_, ?_, ?_⟩ <;> rw [kept]
  · exact h.acks
  · rw [previous]
    exact h.previous
  · exact h.behind
  · rw [previous]
    exact h.round

theorem delivery_ackOrdered (sound : Sound s) (h : AckOrdered X s) {fresh : Bool} {acks : ShardMap}
    {count : Nat} {loop : RetryLoop ClusterShardID} {shard : ClusterShardID}
    (phase : s.ackPhase = .forwarding fresh acks count loop) (current : loop.current = some shard) :
    AckOrdered X (recordDelivery s ⟨shard, (acks.lookup shard).getD 0, fresh⟩) := by
  obtain ⟨v, found⟩ := (sound.round _ _ _ _ phase).current_found current
  rw [found, Option.getD_some]
  by_cases here : shard = X
  · subst here
    exact delivery_ackOrdered_own h phase found
  · exact delivery_ackOrdered_other h here v fresh

theorem finishRound_ackOrdered (sound : Sound s) (h : AckOrdered X s) {fresh : Bool} {acks : ShardMap}
    {count : Nat} {loop : RetryLoop ClusterShardID}
    (phase : s.ackPhase = .forwarding fresh acks count loop) :
    AckOrdered X (afterFinishRound s count) := by
  have fits := (sound.round _ _ _ _ phase).fits
  have dropped : (afterFinishRound s count).log = s.log.drop count fits := by
    simp [afterFinishRound, fits]
  refine ⟨?_, h.acks, h.previous, ?_, ?_⟩
  · rw [dropped]
    exact h.entries
  · intro n idle
    cases idle
    rw [dropped, List.drop_zero, NumberedQueue.drop_held]
    exact h.behind count (by rw [phase]; rfl)
  · intro fresh' acks' count' loop' phase'
    cases phase'

theorem step_ackOrdered (X : ClusterShardID) (s : SenderRun) (a : SenderLabel) (t : SenderRun)
    (h : Sound s ∧ AckOrdered X s) (inOrder : EntersInOrder X s a) (hs : step s a = some t) :
    Sound t ∧ AckOrdered X t := by
  obtain ⟨sound, ordered⟩ := h
  refine ⟨step_sound sound hs, ?_⟩
  cases step_inv hs with
  | sendMessage routed free => exact sendMessage_ackOrdered sound ordered inOrder
  | recvWatermark w phase => exact recvWatermark_ackOrdered sound ordered phase w
  | beginPass phase begun => exact ordered.withLoop phase
  | failed phase current => exact ordered.withLoop phase
  | delivered phase current =>
    have delivered := delivery_ackOrdered sound ordered phase current
    exact delivered.withLoop phase
  | finishRound phase done => exact finishRound_ackOrdered sound ordered phase
  | abandonRound phase between unserved down =>
    refine ⟨ordered.entries, ordered.acks, ordered.previous, ?_, ?_⟩
    · intro n covered
      cases covered
    · intro fresh acks count loop stopped
      cases stopped
  | _ => exact ⟨ordered.entries, ordered.acks, ordered.previous, ordered.behind, ordered.round⟩

end Steps

theorem ordered_source_acks_never_decrease (capacity : Int) (X : ClusterShardID)
    (labels : List SenderLabel) (s : SenderRun)
    (inOrder : Meets step (EntersInOrder X) (newSender capacity) labels)
    (h : run step (newSender capacity) labels = some s) :
    (acksFor X s.delivered).Pairwise (· ≤ ·) :=
  (run_invariant (step_ackOrdered X) ⟨new_sound capacity, new_ackOrdered X capacity⟩ inOrder h).2.acks

def orderedRun : List SenderLabel :=
  [.sendMessage ⟨⟨1, 3⟩, ⟨[⟨11, none⟩, ⟨12, none⟩], 13, 0⟩⟩, .transmit, .recvWatermark 1,
    .beginPass [⟨1, 3⟩], .attempt true, .finishRound, .recvWatermark 1, .beginPass [⟨1, 3⟩],
    .attempt true, .finishRound, .sendMessage ⟨⟨1, 3⟩, ⟨[], 30, 0⟩⟩, .transmit, .recvWatermark 3,
    .beginPass [⟨1, 3⟩], .attempt true, .finishRound]

theorem ordered_source_acks_never_decrease_two_rounds :
    ∃ s, run step (newSender 4) orderedRun = some s ∧ acksFor ⟨1, 3⟩ s.delivered = [11, 11, 30] ∧
      (acksFor ⟨1, 3⟩ s.delivered).Pairwise (· ≤ ·) :=
  ⟨_, rfl, by decide, ordered_source_acks_never_decrease 4 ⟨1, 3⟩ orderedRun _ (by decide +kernel) rfl⟩

end StreamSender

namespace ReplicationSystem
open ShardData Routing StreamSender GuardedRuns

-- The senders of the system have rings of 1024 cells.
set_option maxRecDepth 8000

/-- A notification reads watermark 10 when the target registers and puts it into the channel
    behind task 11. The target acknowledges 2 after the task and again after the watermark. -/
def staleNotificationRun : List SystemLabel :=
  [.plane (.recvBatch ⟨[], 10, 0⟩), .plane (.snapshotChans []), .plane (.remoteShards []),
    .plane .finishBatch, .plane (.startSender 0 ⟨2, 1⟩), .plane (.notify 0 ⟨2, 1⟩),
    .plane (.notifier 0 .read), .plane (.notifier 0 .lookup),
    .plane (.recvBatch ⟨[sampleTask 11 "a"], 12, 0⟩), .plane (.beginPass [⟨2, 1⟩]),
    .plane (.deliver .lookup), .plane (.deliver .put), .plane .finishBatch,
    .plane (.notifier 0 .send),
    .take 0, .sender 0 .transmit, .process 0 1, .targetAck 0 2, .sender 0 (.recvWatermark 2),
    .sender 0 (.beginPass [⟨1, 1⟩]), .sender 0 (.attempt true), .sender 0 .finishRound,
    .take 0, .sender 0 .transmit, .targetAck 0 2, .sender 0 (.recvWatermark 2),
    .sender 0 (.beginPass [⟨1, 1⟩]), .sender 0 (.attempt true)]

/-- The acks for the source go from 11 back to 10. -/
theorem stale_notification_lowers_ack :
    ∃ s, run (step sampleConfig) (initial sampleConfig) staleNotificationRun = some s ∧
      s.plane.watermarks = [10] ∧ s.plane.received.map ReplicationTask.sourceTaskID = [11] ∧
      (s.peer 0).sender.received = [2, 2] ∧
      acksFor sampleConfig.source (s.peer 0).sender.delivered = [11, 10] ∧
      ¬ (acksFor sampleConfig.source (s.peer 0).sender.delivered).Pairwise (· ≤ ·) := by
  refine ⟨_, rfl, rfl, rfl, rfl, by decide, by decide⟩

end ReplicationSystem
