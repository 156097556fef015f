import S2SProxy.StreamSender

/- What the target of one proxyStreamSender sees: over all messages sent, keepalives included,
   task ids increase and every message begins where the messages before it ended. -/
namespace StreamSender
open ShardData GuardedRuns

def taskIDs (m : WorkflowReplicationMessages) : List Int :=
  m.replicationTasks.map ReplicationTask.sourceTaskID

/-- A message on its own: its ids increase and stay below its watermark, and the raw task
    information carries the same id. -/
structure WellNumbered (m : WorkflowReplicationMessages) : Prop where
  increasing : (taskIDs m).Pairwise (· < ·)
  below : ∀ t ∈ m.replicationTasks, t.sourceTaskID < m.exclusiveHighWatermark
  raw : ∀ t ∈ m.replicationTasks, ∀ info ∈ t.rawTaskInfo, info.taskID = t.sourceTaskID

/-- A message that nothing up to the watermark is part of. -/
def Beyond (watermark : Int) (m : WorkflowReplicationMessages) : Prop :=
  watermark ≤ m.exclusiveHighWatermark ∧ ∀ t ∈ m.replicationTasks, watermark ≤ t.sourceTaskID

def Before (m m' : WorkflowReplicationMessages) : Prop := Beyond m.exclusiveHighWatermark m'

/-- The last watermark sent leaves room for the next proxy id, and so does the message that is
    about to be sent. -/
structure Streamed (s : SenderRun) : Prop where
  each : ∀ m ∈ s.sent, WellNumbered m
  ordered : s.sent.Pairwise Before
  last : ∀ m ∈ s.sent, m.exclusiveHighWatermark ≤ s.lastSentWatermark
  next : s.lastSentWatermark ≤ s.nextProxyTaskID + 1
  outgoing : ∀ m ∈ s.outgoing, WellNumbered m ∧ Beyond s.lastSentWatermark m ∧
    m.exclusiveHighWatermark ≤ s.nextProxyTaskID + 1

theorem Beyond.mono {w w' : Int} {m : WorkflowReplicationMessages} (h : Beyond w m) (le : w' ≤ w) :
    Beyond w' m := by
  obtain ⟨high, tasks⟩ := h
  constructor
  · omega
  · intro t member
    have := tasks t member
    omega

theorem rewriteTasks_raw (source : ClusterShardID) (tasks : List ReplicationTask) (s : Sender) :
    ∀ t ∈ (rewriteTasks source s tasks).2, ∀ info ∈ t.rawTaskInfo, info.taskID = t.sourceTaskID := by
  induction tasks generalizing s with
  | nil =>
    intro t member
    cases member
  | cons t rest ih =>
    intro t' member info here
    rcases List.mem_cons.mp member with rfl | later
    · obtain ⟨original, _, rfl⟩ := Option.mem_map.mp here
      rfl
    · exact ih (allocate s source t.sourceTaskID) t' later info here

theorem rewritten_id {source : ClusterShardID} {tasks : List ReplicationTask} {s : Sender}
    {t : ReplicationTask} (member : t ∈ (rewriteTasks source s tasks).2) :
    s.nextProxyTaskID < t.sourceTaskID ∧ t.sourceTaskID ≤ s.nextProxyTaskID + tasks.length := by
  have id := List.mem_map_of_mem (f := ReplicationTask.sourceTaskID) member
  rw [(rewriteTasks_ids source tasks s).1] at id
  obtain ⟨i, inside, same⟩ := List.mem_map.mp id
  have := List.mem_range.mp inside
  omega

theorem rewriteTasks_last (source : ClusterShardID) {tasks : List ReplicationTask} (s : Sender)
    (some : tasks ≠ []) :
    ((rewriteTasks source s tasks).2.getLast?.map ReplicationTask.sourceTaskID).getD 0 =
      s.nextProxyTaskID + tasks.length := by
  have positive := List.length_pos_iff.mpr some
  rw [← List.getLast?_map, (rewriteTasks_ids source tasks s).1, List.getLast?_map,
    List.getLast?_range, if_neg (by omega)]
  simp only [Option.map_some, Option.getD_some]
  omega

theorem rewriteMessage_next (s : Sender) (routed : RoutedMessage) :
    (rewriteMessage s routed).1.nextProxyTaskID = s.nextProxyTaskID + (entriesOf routed).length := by
  unfold rewriteMessage entriesOf
  split
  · rw [(rewriteTasks_ids _ _ s).2, List.length_map]
  · rfl

theorem rewriteMessage_wellNumbered (s : Sender) (routed : RoutedMessage) :
    WellNumbered (rewriteMessage s routed).2 ∧
      Beyond (s.nextProxyTaskID + 1) (rewriteMessage s routed).2 := by
  unfold rewriteMessage
  split
  · next some =>
    have last := rewriteTasks_last routed.sourceShard s some
    have positive := List.length_pos_iff.mpr some
    simp only [last]
    refine ⟨⟨?_, ?_, rewriteTasks_raw _ _ s⟩, ?_, ?_⟩
    · simp only [taskIDs, (rewriteTasks_ids _ _ s).1]
      refine List.pairwise_map.mpr (List.pairwise_lt_range.imp ?_)
      intro i j less
      omega
    · intro t member
      have := rewritten_id member
      dsimp only
      omega
    · dsimp only
      omega
    · intro t member
      have := rewritten_id member
      omega
  · next none =>
    have empty : routed.resp.replicationTasks = [] := not_not.mp none
    refine ⟨⟨?_, ?_, ?_⟩, Int.le_refl _, ?_⟩ <;> simp [taskIDs, empty]

theorem sendMessage_streamed {s : SenderRun} (h : Streamed s) (routed : RoutedMessage) :
    Streamed (afterSendMessage s routed) := by
  obtain ⟨numbered, beyond⟩ := rewriteMessage_wellNumbered s.toSender routed
  have high := rewriteMessage_high s.toSender routed
  have next := rewriteMessage_next s.toSender routed
  have last := h.next
  refine ⟨h.each, h.ordered, ?_, ?_, ?_⟩ <;> simp only [afterSendMessage,
    rewriteMessage_lastSentWatermark, next, Option.mem_def, Option.some.injEq]
  · exact h.last
  · omega
  · intro m same
    subst same
    exact ⟨numbered, beyond.mono last, high⟩

theorem transmit_streamed {s : SenderRun} (h : Streamed s) {m : WorkflowReplicationMessages}
    (ready : s.outgoing = some m) : Streamed (afterTransmit s m) := by
  obtain ⟨numbered, beyond, high⟩ := h.outgoing m ready
  constructor
  · intro m' member
    rcases List.mem_append.mp member with old | new
    · exact h.each m' old
    · exact List.mem_singleton.mp new ▸ numbered
  · refine List.pairwise_append.mpr ⟨h.ordered, List.pairwise_singleton _ _, ?_⟩
    intro m' old m'' new
    rw [List.mem_singleton.mp new]
    exact beyond.mono (h.last m' old)
  · intro m' member
    rcases List.mem_append.mp member with old | new
    · exact (h.last m' old).trans beyond.1
    · exact le_of_eq (congrArg _ (List.mem_singleton.mp new))
  · exact high
  · intro m' none
    cases none

theorem keepalive_streamed {s : SenderRun} (h : Streamed s) : Streamed (afterKeepalive s) := by
  constructor
  · intro m member
    rcases List.mem_append.mp member with old | new
    · exact h.each m old
    · rw [List.mem_singleton.mp new]
      constructor <;> simp [taskIDs]
  · refine List.pairwise_append.mpr ⟨h.ordered, List.pairwise_singleton _ _, ?_⟩
    intro m old m' new
    rw [List.mem_singleton.mp new]
    exact ⟨h.last m old, by simp⟩
  · intro m member
    rcases List.mem_append.mp member with old | new
    · exact h.last m old
    · exact le_of_eq (congrArg _ (List.mem_singleton.mp new))
  · exact h.next
  · exact h.outgoing

theorem step_streamed {s t : SenderRun} {a : SenderLabel} (h : Streamed s) (hs : step s a = some t) :
    Streamed t := by
  cases step_inv hs with
  | sendMessage routed free => exact sendMessage_streamed h routed
  | transmit m ready => exact transmit_streamed h ready
  | keepalive free used => exact keepalive_streamed h
  | _ => exact ⟨h.each, h.ordered, h.last, h.next, h.outgoing⟩

theorem run_streamed {capacity : Int} {labels : List SenderLabel} {s : SenderRun}
    (h : run step (newSender capacity) labels = some s) : Streamed s := by
  refine run_invariant_all (fun _ _ _ => step_streamed) ?_ h
  constructor <;> simp [newSender]

theorem target_stream_well_formed (capacity : Int) (labels : List SenderLabel) (s : SenderRun)
    (h : run step (newSender capacity) labels = some s) :
    (s.sent.flatMap taskIDs).Pairwise (· < ·) ∧
    (∀ m ∈ s.sent, ∀ t ∈ m.replicationTasks, t.sourceTaskID < m.exclusiveHighWatermark) ∧
    (∀ i m m', s.sent[i]? = some m → s.sent[i + 1]? = some m' → ∀ t ∈ m'.replicationTasks,
      m.exclusiveHighWatermark ≤ t.sourceTaskID) ∧
    (s.sent.map WorkflowReplicationMessages.exclusiveHighWatermark).Pairwise (· ≤ ·) ∧
    ∀ m ∈ s.sent, ∀ t ∈ m.replicationTasks, ∀ info ∈ t.rawTaskInfo,
      info.taskID = t.sourceTaskID := by
  have streamed := run_streamed h
  refine ⟨?_, fun m member => (streamed.each m member).below, ?_, ?_,
    fun m member => (streamed.each m member).raw⟩
  · refine List.pairwise_flatMap.mpr ⟨fun m member => (streamed.each m member).increasing, ?_⟩
    refine streamed.ordered.imp_of_mem ?_
    intro m m' member _ before x here y there
    obtain ⟨t, task, rfl⟩ := List.mem_map.mp here
    obtain ⟨t', task', rfl⟩ := List.mem_map.mp there
    have := (streamed.each m member).below t task
    have := before.2 t' task'
    omega
  · intro i m m' here next
    obtain ⟨inside, rfl⟩ := List.getElem?_eq_some_iff.mp here
    obtain ⟨inside', rfl⟩ := List.getElem?_eq_some_iff.mp next
    exact (List.pairwise_iff_getElem.mp streamed.ordered i (i + 1) inside inside' (by omega)).2
  · exact List.pairwise_map.mpr (streamed.ordered.imp fun before => before.1)

def mixedRun : List SenderLabel :=
  [.sendMessage ⟨⟨1, 3⟩, ⟨[⟨11, some ⟨"n", "w", 11⟩⟩, ⟨12, none⟩], 13, 0⟩⟩, .transmit, .keepalive,
    .sendMessage ⟨⟨1, 4⟩, ⟨[], 30, 0⟩⟩, .transmit, .keepalive,
    .sendMessage ⟨⟨1, 3⟩, ⟨[⟨20, none⟩], 21, 0⟩⟩, .transmit]

theorem target_stream_well_formed_mixed :
    ∃ s, run step (newSender 4) mixedRun = some s ∧ s.sent.flatMap taskIDs = [1, 2, 4] ∧
      s.sent.map WorkflowReplicationMessages.exclusiveHighWatermark = [3, 3, 3, 3, 5] ∧
      (s.sent.flatMap taskIDs).Pairwise (· < ·) :=
  ⟨_, rfl, by decide, by decide, (target_stream_well_formed 4 mixedRun _ rfl).1⟩

end StreamSender
