import S2SProxy.StreamSender

/- What holds of a sender in every run: its ring and counter refine a numbered queue, and no
   acknowledgement is forgotten or invented. One invariant carries both; it relates the
   count computed at the beginning of a round, the acks delivered since, and the ring that
   keeps growing in between. -/
namespace StreamSender
open ShardData ProxyIDRing GuardedRuns

-- A ring of 1024 cells is evaluated once, at the end.
set_option maxRecDepth 8000

/-- The value belongs to an entry of X whose proxy id a received watermark covers. -/
def Justified (allocated : List Entry) (received : List Int) (X : ClusterShardID) (v : Int) :
    Prop :=
  ∃ (k : Nat) (e : Entry) (w : Int),
    allocated[k]? = some e ∧ e.mapping = ⟨X, v⟩ ∧ w ∈ received ∧ (k : Int) + 1 ≤ w

/-- The last newly computed ack delivered for X. -/
def lastFresh (X : ClusterShardID) (ds : List Delivery) : Option Int :=
  (ds.filter fun d => d.fresh && d.shard = X).getLast?.map Delivery.ack

structure RoundSound (s : SenderRun) (fresh : Bool) (acks : ShardMap) (pendingDiscard : Nat)
    (loop : RetryLoop ClusterShardID) : Prop where
  fits : pendingDiscard ≤ s.log.held.length
  valid : loop.Valid
  keys : loop.keys = acks.keys
  served : ∀ X ∈ loop.sent, ∀ v, acks.lookup X = some v → ⟨X, v, fresh⟩ ∈ s.round
  snapshot : aggregate ((s.log.held.take pendingDiscard).map Entry.mapping) =
    if fresh then acks else ∅
  justified : ∀ X v, acks.lookup X = some v → Justified s.log.allocated s.received X v
  grown : contents s.roundRing <+: s.log.held.map Entry.mapping
  start : 0 < s.roundRing.size → s.roundRing.startProxyID = s.log.discarded + 1

structure Sound (s : SenderRun) : Prop where
  numbered : Numbered s.toSender s.log
  recorded : ∀ X, s.prevAckBySource.lookup X = lastFresh X s.delivered
  justified : ∀ d ∈ s.delivered, Justified s.log.allocated s.received d.shard d.ack
  round : ∀ fresh acks pendingDiscard loop,
    s.ackPhase = .forwarding fresh acks pendingDiscard loop →
    RoundSound s fresh acks pendingDiscard loop

theorem Justified.mono {allocated allocated' : List Entry} {received received' : List Int}
    {X : ClusterShardID} {v : Int} (h : Justified allocated received X v)
    (longer : allocated <+: allocated') (more : received ⊆ received') :
    Justified allocated' received' X v := by
  obtain ⟨k, e, w, entry, mapped, member, covered⟩ := h
  obtain ⟨tail, rfl⟩ := longer
  refine ⟨k, e, w, ?_, mapped, more member, covered⟩
  have inside := (List.getElem?_eq_some_iff.mp entry).1
  rwa [List.getElem?_append_left inside]

theorem lastFresh_concat (X : ClusterShardID) (ds : List Delivery) (d : Delivery) :
    lastFresh X (ds ++ [d]) = if d.fresh ∧ d.shard = X then some d.ack else lastFresh X ds := by
  unfold lastFresh
  by_cases here : d.fresh ∧ d.shard = X
  · simp [List.filter_append, here]
  · simp [List.filter_append, here]

theorem lastFresh_mem {X : ClusterShardID} {ds : List Delivery} {v : Int}
    (h : lastFresh X ds = some v) : ∃ d ∈ ds, d.shard = X ∧ d.ack = v := by
  obtain ⟨d, last, value⟩ := Option.map_eq_some_iff.mp h
  have member := List.mem_filter.mp (List.mem_of_getLast? last)
  refine ⟨d, member.1, ?_, value⟩
  have picked := member.2
  simp only [Bool.and_eq_true, decide_eq_true_eq] at picked
  exact picked.2

theorem aggregate_mem {ms : List ProxyIDMapping} {X : ClusterShardID} {v : Int}
    (h : (aggregate ms).lookup X = some v) : (⟨X, v⟩ : ProxyIDMapping) ∈ ms := by
  have ordinary : X ≠ hole := by
    rintro rfl
    rw [aggregate_lookup_hole] at h
    cases h
  have greatest := aggregate_lookup ordinary ms
  rw [h] at greatest
  exact greatest.1

/- Every value the aggregation yields for a received watermark is justified by it. -/
theorem upTo_justified (log : NumberedQueue Entry) (w : Int) (received : List Int)
    {X : ClusterShardID} {v : Int}
    (h : (aggregate ((log.held.take (w - log.discarded).toNat).map Entry.mapping)).lookup X =
      some v) :
    Justified log.allocated (received ++ [w]) X v := by
  obtain ⟨e, covered, mapped⟩ := List.mem_map.mp (aggregate_mem h)
  obtain ⟨i, inside, at_i⟩ := List.mem_iff_getElem?.mp covered |>.imp fun i at_i =>
    (⟨by
      have := (List.getElem?_eq_some_iff.mp at_i).1
      simp only [List.length_take] at this
      omega, at_i⟩ : i < (w - log.discarded).toNat ∧ _)
  rw [List.getElem?_take_of_lt inside, NumberedQueue.held, List.getElem?_drop] at at_i
  exact ⟨log.discarded + i, e, w, at_i, mapped, by simp, by push_cast; omega⟩

theorem mapped_upTo (log : NumberedQueue Entry) (w : Int) :
    ((log.map Entry.mapping).upTo w).map Prod.fst =
      (log.held.take (w - log.discarded).toNat).map Entry.mapping := by
  rw [NumberedQueue.upTo_items, NumberedQueue.map_held, NumberedQueue.map_discarded, List.map_take]

theorem aggregateUpTo_numbered {s : Sender} {log : NumberedQueue Entry} (n : Numbered s log)
    (w : Int) :
    aggregateUpTo s.idRing w =
      (aggregate ((log.held.take (w - log.discarded).toNat).map Entry.mapping),
        min (w - log.discarded).toNat log.held.length) := by
  rw [aggregateUpTo_represents n.ring, mapped_upTo, NumberedQueue.upTo_length,
    NumberedQueue.map_discarded, NumberedQueue.map_held, List.length_map]

theorem empty_of_keys {acks : ShardMap} (h : acks.keys.isEmpty = true) : acks = ∅ := by
  apply AList.ext
  have none := List.isEmpty_iff.mp h
  simpa [AList.keys, List.keys] using none

/- When recvAck falls back to the previous acks, the aggregation was empty. -/
theorem chosen_snapshot (aggregated previous : ShardMap) :
    aggregated =
      if !aggregated.keys.isEmpty then
        if !aggregated.keys.isEmpty then aggregated else previous
      else ∅ := by
  by_cases none : aggregated.keys.isEmpty = true
  · simp only [none, Bool.not_true, Bool.false_eq_true, ↓reduceIte]
    exact empty_of_keys none
  · simp [none]

/- The values of a round: those of the aggregation, or the previous ones when it is empty. -/
theorem round_justified {s : SenderRun} (h : Sound s) (w : Int) {acks : ShardMap}
    (source : acks = aggregate ((s.log.held.take (w - s.log.discarded).toNat).map Entry.mapping) ∨
      acks = s.prevAckBySource) {X : ClusterShardID} {v : Int} (found : acks.lookup X = some v) :
    Justified s.log.allocated (s.received ++ [w]) X v := by
  rcases source with rfl | rfl
  · exact upTo_justified s.log w s.received found
  · rw [h.recorded X] at found
    obtain ⟨d, member, rfl, rfl⟩ := lastFresh_mem found
    exact (h.justified d member).mono (List.prefix_refl _) (List.subset_append_left _ _)

theorem new_sound (capacity : Int) : Sound (newSender capacity) := by
  refine ⟨⟨new_represents capacity, rfl⟩, fun X => rfl, ?_, ?_⟩
  · intro d member
    cases member
  · intro fresh acks pendingDiscard loop phase
    cases phase

theorem sendMessage_sound {s : SenderRun} (h : Sound s) (routed : RoutedMessage) :
    Sound (afterSendMessage s routed) := by
  have numbered := rewriteMessage_numbered routed h.numbered
  have longer : s.log.allocated <+: (pushAll s.log (entriesOf routed)).allocated := by simp
  refine ⟨⟨numbered.ring, numbered.next⟩, ?_, ?_, ?_⟩
  · intro X
    simpa [afterSendMessage] using h.recorded X
  · intro d member
    exact (h.justified d member).mono longer (List.Subset.refl _)
  · intro fresh acks pendingDiscard loop phase
    have r := h.round fresh acks pendingDiscard loop (by simpa [afterSendMessage] using phase)
    refine ⟨?_, r.valid, r.keys, r.served, ?_, ?_, ?_, ?_⟩
    · simp only [afterSendMessage, pushAll_held, List.length_append]
      exact Nat.le_add_right_of_le r.fits
    · simp only [afterSendMessage, pushAll_held, List.take_append_of_le_length r.fits]
      exact r.snapshot
    · intro X v found
      exact (r.justified X v found).mono longer (List.Subset.refl _)
    · simp only [afterSendMessage, pushAll_held, List.map_append]
      exact r.grown.trans (List.prefix_append _ _)
    · simpa [afterSendMessage] using r.start

theorem recvWatermark_sound {s : SenderRun} (h : Sound s) (w : Int) :
    Sound (afterRecvWatermark s w) := by
  have more : s.received ⊆ s.received ++ [w] := List.subset_append_left _ _
  refine ⟨⟨h.numbered.ring, h.numbered.next⟩, h.recorded, ?_, ?_⟩
  · intro d member
    exact (h.justified d member).mono (List.prefix_refl _) more
  · intro fresh acks pendingDiscard loop phase
    have aggregated := aggregateUpTo_numbered h.numbered w
    have ring := h.numbered.ring
    simp only [afterRecvWatermark, AckPhase.forwarding.injEq, aggregated] at phase
    obtain ⟨rfl, rfl, rfl, rfl⟩ := phase
    refine ⟨Nat.min_le_right _ _, RetryLoop.start_valid _, rfl, ?_, ?_, ?_, ?_, ?_⟩
    · intro X member
      cases member
    · have whole : (afterRecvWatermark s w).log.held.take
          (min (w - s.log.discarded).toNat s.log.held.length) =
          s.log.held.take (w - s.log.discarded).toNat := List.take_eq_take_min.symm
      rw [whole]
      exact chosen_snapshot _ _
    · intro X v found
      refine round_justified h w ?_ found
      split
      · exact .inl rfl
      · exact .inr rfl
    · have same := ring.contents_eq
      rw [NumberedQueue.map_held] at same
      exact same ▸ List.prefix_refl _
    · intro occupied
      have used : 0 < (s.log.map Entry.mapping).allocated.length := by
        have total := represents_size ring
        have : 0 < s.idRing.size := occupied
        omega
      exact ring.start used

theorem Sound.withSent {s : SenderRun} (h : Sound s) (outgoing : Option WorkflowReplicationMessages)
    (lastSentWatermark : Int) (sent : List WorkflowReplicationMessages) (shutdown : Bool) :
    Sound { s with
      outgoing := outgoing, lastSentWatermark := lastSentWatermark, sent := sent,
      shutdown := shutdown } :=
  ⟨⟨h.numbered.ring, h.numbered.next⟩, h.recorded, h.justified,
    fun fresh acks pendingDiscard loop phase =>
      have r := h.round fresh acks pendingDiscard loop phase
      ⟨r.fits, r.valid, r.keys, r.served, r.snapshot, r.justified, r.grown, r.start⟩⟩

theorem Sound.withLoop {s : SenderRun} (h : Sound s) {fresh : Bool} {acks : ShardMap}
    {pendingDiscard : Nat} {loop loop' : RetryLoop ClusterShardID}
    (phase : s.ackPhase = .forwarding fresh acks pendingDiscard loop) (valid : loop'.Valid)
    (keys : loop'.keys = loop.keys) (sent : loop'.sent = loop.sent) :
    Sound (withPhase s (.forwarding fresh acks pendingDiscard loop')) := by
  have r := h.round _ _ _ _ phase
  refine ⟨⟨h.numbered.ring, h.numbered.next⟩, h.recorded, h.justified, ?_⟩
  intro fresh' acks' pendingDiscard' loop'' phase'
  simp only [withPhase, AckPhase.forwarding.injEq] at phase'
  obtain ⟨rfl, rfl, rfl, rfl⟩ := phase'
  exact ⟨r.fits, valid, keys.trans r.keys, sent ▸ r.served, r.snapshot, r.justified, r.grown,
    r.start⟩

theorem RoundSound.current_found {s : SenderRun} {fresh : Bool} {acks : ShardMap} {pendingDiscard : Nat}
    {loop : RetryLoop ClusterShardID} (r : RoundSound s fresh acks pendingDiscard loop)
    {shard : ClusterShardID} (current : loop.current = some shard) : ∃ v, acks.lookup shard = some v := by
  have known : shard ∈ acks := by
    rw [AList.mem_keys, ← r.keys]
    exact r.valid.pass_keys shard (RetryLoop.current_mem current)
  exact Option.isSome_iff_exists.mp (AList.lookup_isSome.mpr known)

theorem delivery_sound {s : SenderRun} (h : Sound s) {fresh : Bool} {acks : ShardMap}
    {pendingDiscard : Nat} {loop : RetryLoop ClusterShardID} {shard : ClusterShardID}
    (phase : s.ackPhase = .forwarding fresh acks pendingDiscard loop)
    (current : loop.current = some shard) :
    Sound (recordDelivery
      (withPhase s (.forwarding fresh acks pendingDiscard (loop.settle true)))
      ⟨shard, (acks.lookup shard).getD 0, fresh⟩) := by
  have r := h.round _ _ _ _ phase
  obtain ⟨v, found⟩ := r.current_found current
  refine ⟨⟨h.numbered.ring, h.numbered.next⟩, ?_, ?_, ?_⟩
  · intro X
    simp only [recordDelivery, withPhase, lastFresh_concat, found, Option.getD_some]
    by_cases here : fresh = true ∧ shard = X
    · obtain ⟨rfl, rfl⟩ := here
      simp
    · rw [if_neg here, ← h.recorded X]
      split
      · next isFresh =>
        exact AList.lookup_insert_ne fun same => here ⟨isFresh, same.symm⟩
      · rfl
  · intro d member
    simp only [recordDelivery, withPhase, found, Option.getD_some, List.mem_append,
      List.mem_singleton] at member
    rcases member with earlier | rfl
    · exact h.justified d earlier
    · exact r.justified shard v found
  · intro fresh' acks' pendingDiscard' loop' phase'
    simp only [recordDelivery, withPhase, AckPhase.forwarding.injEq] at phase'
    obtain ⟨rfl, rfl, rfl, rfl⟩ := phase'
    refine ⟨r.fits, RetryLoop.settle_valid r.valid true, ?_, ?_, r.snapshot, r.justified, r.grown,
      r.start⟩
    · rw [RetryLoop.settle_keys]
      exact r.keys
    · intro X member u value
      rw [RetryLoop.settle_sent current, if_pos rfl] at member
      simp only [recordDelivery, List.mem_append, List.mem_singleton]
      rcases List.mem_cons.mp member with rfl | earlier
      · exact .inr (by simp [value])
      · exact .inl (r.served X earlier u value)

theorem finishRound_sound {s : SenderRun} (h : Sound s) {fresh : Bool} {acks : ShardMap}
    {pendingDiscard : Nat} {loop : RetryLoop ClusterShardID}
    (phase : s.ackPhase = .forwarding fresh acks pendingDiscard loop) :
    Sound (afterFinishRound s pendingDiscard) := by
  have r := h.round _ _ _ _ phase
  refine ⟨⟨?_, ?_⟩, h.recorded, ?_, ?_⟩
  · simp only [afterFinishRound, r.fits, ↓reduceDIte, NumberedQueue.map_drop]
    exact discard_represents h.numbered.ring pendingDiscard (by simpa using r.fits)
  · simpa [afterFinishRound, r.fits] using h.numbered.next
  · simpa [afterFinishRound, r.fits] using h.justified
  · intro fresh' acks' pendingDiscard' loop' phase'
    cases phase'

theorem abandonRound_sound {s : SenderRun} (h : Sound s) : Sound (withPhase s .stopped) := by
  refine ⟨⟨h.numbered.ring, h.numbered.next⟩, h.recorded, h.justified, ?_⟩
  intro fresh acks pendingDiscard loop phase
  cases phase

theorem step_sound {s t : SenderRun} {a : SenderLabel} (h : Sound s) (hs : step s a = some t) :
    Sound t := by
  cases step_inv hs with
  | sendMessage routed free => exact sendMessage_sound h routed
  | transmit m ready => exact h.withSent _ _ _ _
  | keepalive free used => exact h.withSent _ _ _ _
  | recvWatermark w phase => exact recvWatermark_sound h w
  | beginPass phase begun =>
    have r := h.round _ _ _ _ phase
    have nodup := r.keys ▸ AList.keys_nodup _
    obtain ⟨keys, sent⟩ := RetryLoop.beginPass_fields begun
    exact h.withLoop phase (RetryLoop.beginPass_valid nodup r.valid begun) keys sent
  | failed phase current =>
    have valid := RetryLoop.settle_valid (h.round _ _ _ _ phase).valid false
    exact h.withLoop phase valid (RetryLoop.settle_keys _ _) (RetryLoop.settle_sent current false)
  | delivered phase current => exact delivery_sound h phase current
  | finishRound phase done => exact finishRound_sound h phase
  | shutdownOnce => exact h.withSent _ _ _ _
  | abandonRound phase between unserved down => exact abandonRound_sound h

theorem run_sound {capacity : Int} {labels : List SenderLabel} {s : SenderRun}
    (h : run step (newSender capacity) labels = some s) : Sound s :=
  run_invariant_all (fun _ _ _ => step_sound) (new_sound capacity) h

def SentTask (sent : List WorkflowReplicationMessages) (id : Int) : Prop :=
  ∃ m ∈ sent, ∃ t ∈ m.replicationTasks, t.sourceTaskID = id

/-- Messages are sent in the order of their proxy ids. The first n entries have been sent,
    and the last watermark sent does not reach beyond them; the rest belong to the message
    that is about to be sent. -/
def Transmitted (s : SenderRun) : Prop :=
  ∃ n ≤ s.log.allocated.length, s.lastSentWatermark ≤ n + 1 ∧
    (∀ (k : Nat) (e : Entry), k < n → s.log.allocated[k]? = some e → e.isTask = true →
      SentTask s.sent (k + 1)) ∧
    match s.outgoing with
    | none => n = s.log.allocated.length
    | some m => m.exclusiveHighWatermark ≤ s.log.allocated.length + 1 ∧
        ∀ (k : Nat) (e : Entry), n ≤ k → s.log.allocated[k]? = some e → e.isTask = true →
          ∃ t ∈ m.replicationTasks, t.sourceTaskID = k + 1

theorem SentTask.mono {sent sent' : List WorkflowReplicationMessages} {id : Int}
    (h : SentTask sent id) (more : sent ⊆ sent') : SentTask sent' id := by
  obtain ⟨m, member, rest⟩ := h
  exact ⟨m, more member, rest⟩

/- The task entries of a message are behind the tasks it is rewritten to. -/
theorem rewritten_task {s : SenderRun} (next : s.nextProxyTaskID = s.log.allocated.length)
    (routed : RoutedMessage) {k : Nat} {e : Entry} (new : s.log.allocated.length ≤ k)
    (here : (s.log.allocated ++ entriesOf routed)[k]? = some e) (task : e.isTask = true) :
    ∃ t ∈ (rewriteMessage s.toSender routed).2.replicationTasks, t.sourceTaskID = k + 1 := by
  rw [List.getElem?_append_right new] at here
  unfold rewriteMessage
  unfold entriesOf at here
  split
  · next some =>
    rw [if_pos some, List.getElem?_map] at here
    obtain ⟨t, at_k, rfl⟩ := Option.map_eq_some_iff.mp here
    have inside := (List.getElem?_eq_some_iff.mp at_k).1
    obtain ⟨t', member, id⟩ :=
      rewriteTasks_getElem? routed.sourceShard routed.resp.replicationTasks s.toSender inside
    exact ⟨t', member, by omega⟩
  · next none =>
    rw [if_neg none] at here
    rw [List.mem_singleton.mp (List.mem_of_getElem? here)] at task
    cases task

theorem step_transmitted {s t : SenderRun} {a : SenderLabel} (sound : Sound s) (h : Transmitted s)
    (hs : step s a = some t) : Transmitted t := by
  obtain ⟨n, bound, last, done, rest⟩ := h
  cases step_inv hs with
  | sendMessage routed free =>
    rw [free] at rest
    simp only at rest
    subst rest
    refine ⟨s.log.allocated.length, by simp [afterSendMessage], ?_, ?_, ?_, ?_⟩
    · simpa [afterSendMessage] using last
    · intro k e inside here
      rw [afterSendMessage, pushAll_allocated, List.getElem?_append_left inside] at here
      exact done k e inside here
    · have high := rewriteMessage_high s.toSender routed
      have next := sound.numbered.next
      simp only [afterSendMessage, pushAll_allocated, List.length_append, Nat.cast_add]
      omega
    · intro k e new here task
      rw [afterSendMessage, pushAll_allocated] at here
      exact rewritten_task sound.numbered.next routed new here task
  | transmit m ready =>
    rw [ready] at rest
    refine ⟨s.log.allocated.length, Nat.le_refl _, rest.1, ?_, rfl⟩
    intro k e inside here task
    by_cases old : k < n
    · exact (done k e old here task).mono (List.subset_append_left _ _)
    · obtain ⟨t, member, id⟩ := rest.2 k e (by omega) here task
      exact ⟨m, by simp [afterTransmit], t, member, id⟩
  | keepalive free used =>
    refine ⟨n, bound, last, ?_, rest⟩
    intro k e inside here task
    exact (done k e inside here task).mono (List.subset_append_left _ _)
  | finishRound phase settled =>
    have fits := (sound.round _ _ _ _ phase).fits
    refine ⟨n, ?_, last, ?_, ?_⟩ <;> simp only [afterFinishRound, fits, ↓reduceDIte]
    · exact bound
    · exact done
    · exact rest
  | _ => exact ⟨n, bound, last, done, rest⟩

theorem new_transmitted (capacity : Int) : Transmitted (newSender capacity) := by
  refine ⟨0, Nat.le_refl _, by simp [newSender], ?_, rfl⟩
  intro k e inside
  cases inside

/- A target that acknowledges at most the last watermark it was sent has been sent every
   task below its acknowledgement. -/
theorem sent_below {s : SenderRun} (h : Transmitted s) {w : Int} (bound : w ≤ s.lastSentWatermark)
    {k : Nat} {e : Entry} (here : s.log.allocated[k]? = some e) (task : e.isTask = true)
    (below : (k : Int) + 1 < w) : SentTask s.sent (k + 1) := by
  obtain ⟨n, _, last, done, _⟩ := h
  exact done k e (by omega) here task

/-- No routed message comes from the shard that marks a hole. -/
def OrdinarySource : SenderLabel → Prop
  | .sendMessage routed => routed.sourceShard ≠ hole
  | _ => True

theorem entries_ordinary {a : SenderLabel} (h : OrdinarySource a) :
    ∀ e ∈ a.entries, e.mapping.sourceShard ≠ hole := by
  cases a with
  | sendMessage routed =>
    intro e member
    rw [entriesOf_source member]
    exact h
  | _ => exact fun e member => nomatch member

def OrdinaryLog (s : SenderRun) : Prop := ∀ e ∈ s.log.allocated, e.mapping.sourceShard ≠ hole

theorem step_ordinary (s : SenderRun) (a : SenderLabel) (t : SenderRun) (h : OrdinaryLog s)
    (permitted : OrdinarySource a) (hs : step s a = some t) : OrdinaryLog t := by
  intro e member
  rw [step_allocated hs, List.mem_append] at member
  exact member.elim (h e) (entries_ordinary permitted e)

theorem new_ordinary (capacity : Int) : OrdinaryLog (newSender capacity) := by
  intro e member
  cases member

theorem run_ordinary {capacity : Int} {labels : List SenderLabel} {s : SenderRun}
    (ordinary : ∀ a ∈ labels, OrdinarySource a)
    (h : run step (newSender capacity) labels = some s) : OrdinaryLog s :=
  run_invariant step_ordinary (new_ordinary capacity)
    (meets_of_forall (fun a member _ => ordinary a member) _) h

/- The ids held, from either side: by position in the log and by the ring's own bounds. -/
theorem held_ids {s : SenderRun} (n : Numbered s.toSender s.log) (id : Nat) :
    id ∈ s.log.numbered.map Prod.snd ↔
      1 ≤ id ∧ s.idRing.startProxyID ≤ id ∧ id ≤ s.nextProxyTaskID := by
  have total := s.log.held_length
  have next := n.next
  have start := n.ring.start
  simp only [NumberedQueue.map_allocated, List.length_map, NumberedQueue.map_discarded] at start
  have ids : s.log.numbered.map Prod.snd = List.range' (s.log.discarded + 1) s.log.held.length := by
    simp [NumberedQueue.numbered, List.zipIdx_map_snd]
  rw [ids, List.mem_range'_1]
  by_cases used : 0 < s.log.allocated.length
  · have := start used
    omega
  · omega

/- No shard is a hole here, so the aggregation leaves nothing out. -/
theorem aggregate_ordinary {es : List Entry} (ordinary : ∀ e ∈ es, e.mapping.sourceShard ≠ hole)
    (X : ClusterShardID) :
    Aggregated X (es.map Entry.mapping) ((aggregate (es.map Entry.mapping)).lookup X) := by
  by_cases reserved : X = hole
  · subst reserved
    rw [aggregate_lookup_hole]
    refine Set.eq_empty_of_forall_notMem fun t member => ?_
    obtain ⟨e, inside, mapped⟩ := List.mem_map.mp member
    exact ordinary e inside (by rw [mapped])
  · exact aggregate_lookup reserved _

theorem sender_refines_numbered_queue (capacity : Int) (labels : List SenderLabel) (s : SenderRun)
    (ordinary : ∀ a ∈ labels, OrdinarySource a)
    (h : run step (newSender capacity) labels = some s) :
    contents s.idRing = s.log.held.map Entry.mapping ∧
    (∀ id : Nat, id ∈ s.log.numbered.map Prod.snd ↔
      1 ≤ id ∧ s.idRing.startProxyID ≤ id ∧ id ≤ s.nextProxyTaskID) ∧
    s.nextProxyTaskID = s.log.allocated.length ∧
    s.idRing.head < s.idRing.entries.length ∧ s.idRing.size ≤ s.idRing.entries.length ∧
    ∀ w : Int, (aggregateUpTo s.idRing w).2 = (s.log.upTo w).length ∧
      ∀ X, Aggregated X (((s.log.upTo w).map Prod.fst).map Entry.mapping)
        ((aggregateUpTo s.idRing w).1.lookup X) := by
  have numbered := (run_sound h).numbered
  refine ⟨?_, held_ids numbered, numbered.next, numbered.ring.wellFormed.head_lt,
    numbered.ring.wellFormed.size_le, ?_⟩
  · rw [numbered.ring.contents_eq, NumberedQueue.map_held]
  · intro w
    rw [aggregateUpTo_numbered numbered, NumberedQueue.upTo_items, NumberedQueue.upTo_length]
    refine ⟨rfl, fun X => aggregate_ordinary ?_ X⟩
    intro e member
    exact run_ordinary ordinary h e (List.mem_of_mem_drop (List.mem_of_mem_take member))

/-- Two tasks of one source shard and a watermark of another; the target acks the first
    task, the ack is delivered and the covered entry discarded. -/
def sampleRun : List SenderLabel :=
  [.sendMessage ⟨⟨1, 3⟩, ⟨[⟨11, none⟩, ⟨12, none⟩], 13, 0⟩⟩, .transmit,
    .sendMessage ⟨⟨1, 4⟩, ⟨[], 30, 0⟩⟩, .recvWatermark 1, .beginPass [⟨1, 3⟩], .attempt false,
    .beginPass [⟨1, 3⟩], .attempt true, .finishRound]

theorem sampleRun_ordinary : ∀ a ∈ sampleRun, OrdinarySource a := by
  simp [sampleRun, OrdinarySource, hole]

theorem sender_refines_numbered_queue_sample :
    ∃ s, run step (newSender 1) sampleRun = some s ∧
      contents s.idRing = [⟨⟨1, 3⟩, 12⟩, ⟨⟨1, 4⟩, 30⟩] ∧
      contents s.idRing = s.log.held.map Entry.mapping :=
  ⟨_, rfl, by decide,
    (sender_refines_numbered_queue 1 sampleRun _ sampleRun_ordinary rfl).1⟩

def removed (s t : SenderRun) : List ProxyIDMapping :=
  (contents s.idRing).take (s.idRing.size - t.idRing.size)

theorem finishRound_removed {s : SenderRun} (h : Sound s) {count : Nat}
    (fits : count ≤ s.log.held.length) :
    removed s (afterFinishRound s count) = (s.log.held.take count).map Entry.mapping := by
  have same := h.numbered.ring.contents_eq
  rw [NumberedQueue.map_held] at same
  have size : s.idRing.size = s.log.held.length := by
    simpa using congrArg List.length same
  have fewer : (afterFinishRound s count).idRing.size = s.idRing.size - count := by
    have dropped := discard_contents s.idRing (size ▸ fits)
    simpa [afterFinishRound] using congrArg List.length dropped
  have taken : s.idRing.size - (s.idRing.size - count) = count := by omega
  rw [removed, fewer, taken, same, List.map_take]

/- The aggregation of the covered entries has, for each of their shards, a value at least as
   large as the entry's; once the loop is done that value has been delivered. -/
theorem covered_delivered {s : SenderRun} {fresh : Bool} {acks : ShardMap} {count : Nat}
    {loop : RetryLoop ClusterShardID} (r : RoundSound s fresh acks count loop)
    (done : loop.done = true) {m : ProxyIDMapping}
    (member : m ∈ (s.log.held.take count).map Entry.mapping) (ordinary : m.sourceShard ≠ hole) :
    ∃ d ∈ s.round, d.shard = m.sourceShard ∧ m.sourceTask ≤ d.ack := by
  have aggregated := aggregate_lookup ordinary ((s.log.held.take count).map Entry.mapping)
  have task : m.sourceTask ∈ tasksOf m.sourceShard ((s.log.held.take count).map Entry.mapping) :=
    member
  rw [r.snapshot] at aggregated
  cases fresh with
  | false =>
    simp only [Bool.false_eq_true, ↓reduceIte, AList.lookup_empty, Aggregated] at aggregated
    exact absurd task (aggregated ▸ Set.notMem_empty _)
  | true =>
    simp only [↓reduceIte] at aggregated
    cases found : acks.lookup m.sourceShard with
    | none =>
      rw [found] at aggregated
      exact absurd task (aggregated ▸ Set.notMem_empty _)
    | some v =>
      rw [found] at aggregated
      have key : m.sourceShard ∈ loop.keys := by
        rw [r.keys, ← AList.mem_keys, ← AList.lookup_isSome, found]
        rfl
      have served := r.served _ (RetryLoop.done_all_sent done key) v found
      exact ⟨_, served, rfl, aggregated.2 task⟩

theorem abandoned_ring {s : SenderRun} (h : Sound s) {fresh : Bool} {acks : ShardMap} {count : Nat}
    {loop : RetryLoop ClusterShardID} (phase : s.ackPhase = .forwarding fresh acks count loop) :
    contents s.roundRing <+: contents s.idRing ∧
    (0 < s.roundRing.size → s.idRing.startProxyID = s.roundRing.startProxyID) := by
  have r := h.round _ _ _ _ phase
  have ring := h.numbered.ring
  have same := ring.contents_eq
  rw [NumberedQueue.map_held] at same
  refine ⟨same ▸ r.grown, fun occupied => ?_⟩
  have longer := (same ▸ r.grown : contents s.roundRing <+: contents s.idRing).length_le
  have total := represents_size ring
  simp only [contents_length] at longer
  rw [r.start occupied, ring.start (by omega), NumberedQueue.map_discarded]

theorem sender_acks_neither_forgotten_nor_invented (capacity : Int) (labels : List SenderLabel)
    (s : SenderRun) (h : run step (newSender capacity) labels = some s) :
    (∀ t, step s .finishRound = some t → ∀ m ∈ removed s t, m.sourceShard ≠ hole →
      ∃ d ∈ s.round, d.shard = m.sourceShard ∧ m.sourceTask ≤ d.ack) ∧
    (∀ d ∈ s.delivered, Justified s.log.allocated s.received d.shard d.ack) ∧
    (∀ t, step s .abandonRound = some t → contents s.roundRing <+: contents t.idRing ∧
      (0 < s.roundRing.size → t.idRing.startProxyID = s.roundRing.startProxyID)) ∧
    ∀ X, s.prevAckBySource.lookup X = lastFresh X s.delivered := by
  have sound := run_sound h
  refine ⟨?_, sound.justified, ?_, sound.recorded⟩
  · intro t hs m member ordinary
    cases step_inv hs with
    | finishRound phase done =>
      have r := sound.round _ _ _ _ phase
      rw [finishRound_removed sound r.fits] at member
      exact covered_delivered r done member ordinary
  · intro t hs
    cases step_inv hs with
    | abandonRound phase between unserved down => exact abandoned_ring sound phase

theorem sender_acks_neither_forgotten_nor_invented_sample :
    ∃ s, run step (newSender 1) sampleRun = some s ∧ s.delivered = [⟨⟨1, 3⟩, 11, true⟩] ∧
      ∀ d ∈ s.delivered, Justified s.log.allocated s.received d.shard d.ack :=
  ⟨_, rfl, by decide, (sender_acks_neither_forgotten_nor_invented 1 sampleRun _ rfl).2.1⟩

/-- A message of the source shard {0, 0}: its entry is discarded and nothing was delivered. -/
theorem hole_discarded_unacked :
    ∃ s t, run step (newSender 1024)
        [.sendMessage ⟨⟨0, 0⟩, ⟨[⟨5, none⟩], 6, 0⟩⟩, .transmit, .recvWatermark 1] = some s ∧
      step s .finishRound = some t ∧ (⟨⟨0, 0⟩, 5⟩ : ProxyIDMapping) ∈ removed s t ∧ s.delivered = [] :=
  ⟨_, _, rfl, rfl, by decide, rfl⟩

end StreamSender
