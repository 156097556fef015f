import S2SProxy.WatermarkMarks

/- What becomes of one batch between its receipt and the receipt of the next: the groups of
   recvReplicationMessages and the deliveries of its retry loop, whatever fails on the way and
   whatever the other goroutines do in between. -/
namespace Routing
open ShardData GuardedRuns

/-- The target and the message for which DeliverMessagesToShardOwner returns true in a step of
    the receiver. -/
def deliveredBy (cfg : Config) (s : Plane) :
    Label → List (ClusterShardID × WorkflowReplicationMessages)
  | .deliver l =>
    match s.phase with
    | .delivering groups priority loop pc =>
      loop.current.elim [] fun target =>
        match deliverStep cfg s cfg.home target (groupMessage groups priority target) pc l with
        | some (.returned true, _) => [(target, groupMessage groups priority target)]
        | _ => []
    | _ => []
  | _ => []

def deliveries (cfg : Config) : Plane → List Label →
    List (ClusterShardID × WorkflowReplicationMessages)
  | _, [] => []
  | s, a :: rest => deliveredBy cfg s a ++ (step cfg s a).elim [] fun t => deliveries cfg t rest

/-- Every task is in exactly one message, which goes to the target of its workflow, and a target
    gets its tasks in one message and in order. -/
structure Partitions (cfg : Config) (tasks : List ReplicationTask)
    (ds : List (ClusterShardID × WorkflowReplicationMessages)) : Prop where
  single : (ds.map Prod.fst).Nodup
  share : ∀ d ∈ ds, d.2.replicationTasks = tasks.filter (route cfg · = some d.1)
  whole : (ds.flatMap fun d => d.2.replicationTasks).Perm tasks

def Routable (t : ReplicationTask) : Prop :=
  ∃ info ∈ t.rawTaskInfo, info.namespaceID ≠ "" ∧ info.workflowID ≠ ""

theorem route_isSome (cfg : Config) (t : ReplicationTask) :
    (route cfg t).isSome = true ↔ Routable t := by
  unfold route Routable
  cases t.rawTaskInfo with
  | none => simp
  | some info => simp

theorem groups_perm {α κ : Type} [DecidableEq κ] (key : α → Option κ) (xs : List α) (keys : List κ)
    (distinct : keys.Nodup) :
    (keys.flatMap fun k => xs.filter (key · = some k)).Perm
      (xs.filter fun x => ∃ k ∈ keys, key x = some k) := by
  induction keys with
  | nil => simp
  | cons k rest ih =>
    obtain ⟨apart, distinct⟩ := List.nodup_cons.mp distinct
    have split := List.filter_append_perm (fun x => decide (key x = some k))
      (xs.filter fun x => ∃ k' ∈ k :: rest, key x = some k')
    refine List.Perm.trans ?_ split
    simp only [List.flatMap_cons, List.filter_filter]
    refine List.Perm.append (List.Perm.of_eq (List.filter_congr ?_))
      ((ih distinct).trans (List.Perm.of_eq (List.filter_congr ?_)))
    · intro x _
      simp only [List.mem_cons, decide_eq_decide, ← Bool.decide_and]
      constructor
      · intro here
        exact ⟨here, k, .inl rfl, here⟩
      · intro both
        exact both.1
    · intro x _
      by_cases here : key x = some k
      · simp [here, apart]
      · simp [here]

section Delivery
variable {cfg : Config} {s t : Plane} {groups : TaskGroups} {priority : Int}
  {ds : List (ClusterShardID × WorkflowReplicationMessages)}

def Progress (groups : TaskGroups) (priority : Int) (s : Plane)
    (ds : List (ClusterShardID × WorkflowReplicationMessages)) : Prop :=
  (∀ d ∈ ds, d.2 = groupMessage groups priority d.1) ∧ (ds.map Prod.fst).Nodup ∧
  ((∃ loop pc, s.phase = .delivering groups priority loop pc ∧ loop.Valid ∧
      loop.keys = groups.keys ∧ (ds.map Prod.fst).Perm loop.sent) ∨
    s.phase = .idle ∧ (ds.map Prod.fst).Perm groups.keys)

theorem Progress.congr (h : Progress groups priority s ds) (same : t.phase = s.phase) :
    Progress groups priority t ds := by
  obtain ⟨shares, distinct, state⟩ := h
  exact ⟨shares, distinct, same ▸ state⟩

theorem deliveredBy_other {a : Label} (other : ∀ l, a ≠ .deliver l) : deliveredBy cfg s a = [] := by
  cases a with
  | deliver l => exact absurd rfl (other l)
  | _ => rfl

theorem step_deliver {l : DeliverLabel} (h : step cfg s (.deliver l) = some t) :
    ∃ next e, receiverDeliver cfg s l = some (next, e) ∧ t = apply next e := by
  obtain ⟨⟨next, e⟩, acted, rfl⟩ := Option.map_eq_some_iff.mp h
  refine ⟨next, e, ?_, rfl⟩
  simpa [act, receiverStep, streamStep] using acted

theorem deliver_progress {l : DeliverLabel} (h : Progress groups priority s ds)
    (hs : step cfg s (.deliver l) = some t) :
    Progress groups priority t (ds ++ deliveredBy cfg s (.deliver l)) := by
  obtain ⟨next, e, delivered, rfl⟩ := step_deliver hs
  obtain ⟨shares, distinct, state⟩ := h
  have phase_eq : (apply next e).phase = next.phase := by cases e <;> rfl
  unfold receiverDeliver at delivered
  rcases state with ⟨loop, pc, phase, valid, keys, served⟩ | ⟨idle, _⟩
  · simp only [phase] at delivered
    obtain ⟨target, current, delivered⟩ := Option.bind_eq_some_iff.mp delivered
    obtain ⟨⟨result, effect⟩, stepped, same⟩ := Option.map_eq_some_iff.mp delivered
    have unserved : target ∉ loop.sent := valid.pass_unsent target (RetryLoop.current_mem current)
    have settled := RetryLoop.settle_sent current
    simp only [deliveredBy, phase, current, Option.elim_some, stepped]
    cases result with
    | running pc' =>
      cases same
      rw [List.append_nil]
      exact ⟨shares, distinct, .inl ⟨loop, pc', phase_eq, valid, keys, served⟩⟩
    | returned ok =>
      cases same
      have valid' := RetryLoop.settle_valid valid ok
      have keys' := (RetryLoop.settle_keys loop ok).trans keys
      cases ok with
      | false =>
        rw [List.append_nil]
        refine ⟨shares, distinct, .inl ⟨_, _, phase_eq, valid', keys', ?_⟩⟩
        rw [settled false]
        exact served
      | true =>
        refine ⟨?_, ?_, .inl ⟨_, _, phase_eq, valid', keys', ?_⟩⟩
        · intro d member
          rcases List.mem_append.mp member with old | new
          · exact shares d old
          · cases List.mem_singleton.mp new
            rfl
        · rw [List.map_append, List.nodup_append]
          refine ⟨distinct, List.nodup_singleton _, ?_⟩
          intro k old k' new same
          cases List.mem_singleton.mp new
          subst same
          exact unserved (served.subset old)
        · rw [settled true, List.map_append]
          exact (List.perm_append_singleton target _).trans (served.cons target)
  · simp [idle] at delivered

theorem finish_progress (h : Progress groups priority s ds) {loop : RetryLoop ClusterShardID}
    {groups' : TaskGroups} {priority' : Int} {pc : DeliveryPc}
    (phase : s.phase = .delivering groups' priority' loop pc) (done : loop.done = true) :
    Progress groups priority { s with phase := .idle } ds := by
  obtain ⟨shares, distinct, state⟩ := h
  refine ⟨shares, distinct, .inr ⟨rfl, ?_⟩⟩
  rcases state with ⟨loop', pc', phase', valid, keys, served⟩ | ⟨idle, _⟩
  · cases phase.symm.trans phase'
    refine (List.perm_ext_iff_of_nodup distinct groups.keys_nodup).mpr fun k => ?_
    rw [served.mem_iff, ← keys]
    exact ⟨valid.sent_keys k, RetryLoop.done_all_sent done⟩
  · cases phase.symm.trans idle

theorem receiver_progress {a : Label} {e : Effect} (h : Progress groups priority s ds)
    (noBatch : ∀ m, a ≠ .recvBatch m) (noDelivery : ∀ l, a ≠ .deliver l)
    (acted : ReceiverActed cfg s a t e) : Progress groups priority t ds := by
  have ⟨shares, distinct, state⟩ := h
  -- Of the other steps only those of a batch in delivery are enabled.
  have busy : ∀ m, s.phase.message ≠ some m := by
    intro m here
    rcases state with ⟨loop, pc, phase, _⟩ | ⟨idle, _⟩
    · rw [phase] at here
      cases here
    · rw [idle] at here
      cases here
  cases acted with
  | recvEmptyBatch m | recvTasks m => exact absurd rfl (noBatch m)
  | deliver | deliverRemote => exact absurd rfl (noDelivery _)
  | beginPass phase begun =>
    rcases state with ⟨loop', pc', phase', valid, keys, served⟩ | ⟨idle, _⟩
    · cases phase.symm.trans phase'
      obtain ⟨sameKeys, sameSent⟩ := RetryLoop.beginPass_fields begun
      have nodup := keys ▸ groups.keys_nodup
      exact ⟨shares, distinct, .inl ⟨_, _, rfl, RetryLoop.beginPass_valid nodup valid begun,
        sameKeys.trans keys, sameSent ▸ served⟩⟩
    · cases phase.symm.trans idle
  | finishDelivery phase done => exact finish_progress h phase done
  | snapshotChans phase | broadcastSend phase | broadcastSkip phase | remoteShards phase
  | finishBroadcast phase => exact absurd (by rw [phase]; rfl) (busy _)

theorem step_progress {a : Label} (h : Progress groups priority s ds)
    (noBatch : ∀ m, a ≠ .recvBatch m) (hs : step cfg s a = some t) :
    Progress groups priority t (ds ++ deliveredBy cfg s a) := by
  by_cases delivery : ∃ l, a = .deliver l
  · obtain ⟨l, rfl⟩ := delivery
    exact deliver_progress h hs
  · have noDelivery : ∀ l, a ≠ .deliver l := fun l same => delivery ⟨l, same⟩
    rw [deliveredBy_other noDelivery, List.append_nil]
    obtain ⟨next, e, _, acted, rfl⟩ := step_inv hs
    have phase_eq : (apply next e).phase = next.phase := by cases e <;> rfl
    rcases receiver_or_same acted with own | same
    · exact (receiver_progress h noBatch noDelivery own).congr phase_eq
    · exact h.congr (phase_eq.trans same.phase)

theorem run_progress {labels : List Label} (h : Progress groups priority s ds)
    (noBatch : ∀ a ∈ labels, ∀ m, a ≠ .recvBatch m) (hr : run (step cfg) s labels = some t) :
    Progress groups priority t (ds ++ deliveries cfg s labels) := by
  induction labels generalizing s ds with
  | nil =>
    cases hr
    rw [deliveries, List.append_nil]
    exact h
  | cons a rest ih =>
    obtain ⟨u, hs, later⟩ := run_cons_some hr
    have next := step_progress h (noBatch a (by simp)) hs
    rw [deliveries, hs, Option.elim_some, ← List.append_assoc]
    exact ih next (fun b member => noBatch b (List.mem_cons_of_mem a member)) later

end Delivery

theorem recvBatch_progress {cfg : Config} {s t : Plane} {m : WorkflowReplicationMessages}
    (tasks : m.replicationTasks ≠ []) (hs : step cfg s (.recvBatch m) = some t) :
    Progress (tasksByTargetShard cfg m.replicationTasks) m.priority t [] := by
  obtain ⟨next, e, _, acted, rfl⟩ := step_inv hs
  cases acted with
  | stream acted => cases acted
  | receiver acted =>
    cases acted with
    | recvEmptyBatch m phase empty => exact absurd empty tasks
    | recvTasks m phase =>
      refine ⟨?_, List.nodup_nil, .inl ⟨_, _, rfl, RetryLoop.start_valid _, rfl, .refl _⟩⟩
      intro d member
      cases member

theorem delivered_whole (cfg : Config) (tasks : List ReplicationTask) {keys : List ClusterShardID}
    (same : keys.Perm (tasksByTargetShard cfg tasks).keys) :
    (keys.flatMap fun k => tasks.filter (route cfg · = some k)).Perm
      (tasks.filter fun t => (route cfg t).isSome) := by
  have distinct := same.nodup_iff.mpr (AList.keys_nodup _)
  refine (groups_perm (route cfg) tasks keys distinct).trans (List.Perm.of_eq ?_)
  refine List.filter_congr fun t member => ?_
  cases routed : route cfg t with
  | none => simp
  | some target =>
    have key : target ∈ keys := by
      rw [same.mem_iff, ← AList.mem_keys, ← AList.lookup_isSome, tasksByTargetShard_lookup]
      have here : t ∈ tasks.filter (route cfg · = some target) :=
        List.mem_filter.mpr ⟨member, by simpa using routed⟩
      rw [if_neg (List.ne_nil_of_mem here)]
      rfl
    simp [key]

theorem partitions_iff {cfg : Config} {tasks : List ReplicationTask} {priority : Int}
    {ds : List (ClusterShardID × WorkflowReplicationMessages)}
    (shares : ∀ d ∈ ds, d.2 = groupMessage (tasksByTargetShard cfg tasks) priority d.1)
    (keys : (ds.map Prod.fst).Perm (tasksByTargetShard cfg tasks).keys) :
    Partitions cfg tasks ds ↔ ∀ t ∈ tasks, Routable t := by
  have share : ∀ d ∈ ds, d.2.replicationTasks = tasks.filter (route cfg · = some d.1) := by
    intro d member
    rw [shares d member, groupMessage, group_eq]
  have all : (ds.flatMap fun d => d.2.replicationTasks).Perm
      (tasks.filter fun t => (route cfg t).isSome) := by
    have whole := delivered_whole cfg tasks keys
    rw [List.flatMap_map] at whole
    exact (List.Perm.of_eq (List.flatMap_congr share)).trans whole
  constructor
  · intro partitions t member
    have kept := (all.symm.trans partitions.whole).mem_iff.mpr member
    exact (route_isSome cfg t).mp (by simpa using (List.mem_filter.mp kept).2)
  · intro routable
    refine ⟨keys.nodup_iff.mpr (AList.keys_nodup _), share, ?_⟩
    rw [List.filter_eq_self.mpr fun t member => (route_isSome cfg t).mpr (routable t member)] at all
    exact all

theorem batch_partitioned_iff_routable (cfg : Config) (s u : Plane)
    (m m' : WorkflowReplicationMessages) (labels : List Label) (tasks : m.replicationTasks ≠ [])
    (noBatch : ∀ a ∈ labels, ∀ x, a ≠ .recvBatch x)
    (h : run (step cfg) s (.recvBatch m :: labels ++ [.recvBatch m']) = some u) :
    Partitions cfg m.replicationTasks (deliveries cfg s (.recvBatch m :: labels)) ↔
      ∀ t ∈ m.replicationTasks, Routable t := by
  obtain ⟨t, batch, next⟩ := run_append.mp h
  obtain ⟨received, hs, delivered⟩ := run_cons_some batch
  have progress := run_progress (recvBatch_progress tasks hs) noBatch delivered
  have made : deliveries cfg s (.recvBatch m :: labels) = [] ++ deliveries cfg received labels := by
    rw [deliveries, hs]
    rfl
  rw [made]
  obtain ⟨shares, _, state⟩ := progress
  refine partitions_iff shares ?_
  -- The next batch is received only by an idle receiver.
  rcases state with ⟨loop, pc, phase, _⟩ | ⟨_, keys⟩
  · obtain ⟨after, stepped, _⟩ := run_cons_some next
    simp [step, act, receiverStep, streamStep, phase] at stepped
  · exact keys

/-- Three tasks for two targets; the second target registers after the first pass. -/
def partitionedLabels : List Label :=
  [.beginPass [⟨2, 1⟩, ⟨2, 2⟩], .deliver .lookup, .deliver .put, .deliver .lookup, .deliver .fail,
    .startSender 0 ⟨2, 2⟩, .beginPass [⟨2, 2⟩, ⟨2, 1⟩], .deliver .lookup, .deliver .put, .finishBatch]

def partitionedBatch : WorkflowReplicationMessages :=
  ⟨[sampleTask 1 "a", sampleTask 2 "bb", sampleTask 3 "a"], 4, 0⟩

theorem batch_partitioned_iff_routable_retried :
    (∃ u, run (step sampleConfig) (startSender (initial sampleConfig) 0 ⟨2, 1⟩)
      (.recvBatch partitionedBatch :: partitionedLabels ++ [.recvBatch ⟨[], 4, 0⟩]) = some u) ∧
    Partitions sampleConfig partitionedBatch.replicationTasks
      (deliveries sampleConfig (startSender (initial sampleConfig) 0 ⟨2, 1⟩)
        (.recvBatch partitionedBatch :: partitionedLabels)) := by
  refine ⟨⟨_, rfl⟩, ?_⟩
  refine (batch_partitioned_iff_routable sampleConfig _ _ partitionedBatch ⟨[], 4, 0⟩
    partitionedLabels (by decide) (by simp [partitionedLabels]) rfl).mpr ?_
  simp [partitionedBatch, Routable, sampleTask]

/-- A task without RawTaskInfo beside one that is delivered: the next batch is received and the
    task has gone nowhere. -/
theorem unrouted_task_dropped :
    (∃ u, run (step sampleConfig) (startSender (initial sampleConfig) 0 ⟨2, 1⟩)
      [.recvBatch ⟨[sampleTask 1 "a", ⟨2, none⟩], 3, 0⟩, .beginPass [⟨2, 1⟩], .deliver .lookup,
        .deliver .put, .finishBatch, .recvBatch ⟨[], 3, 0⟩] = some u) ∧
    deliveries sampleConfig (startSender (initial sampleConfig) 0 ⟨2, 1⟩)
      [.recvBatch ⟨[sampleTask 1 "a", ⟨2, none⟩], 3, 0⟩, .beginPass [⟨2, 1⟩], .deliver .lookup,
        .deliver .put, .finishBatch] = [(⟨2, 1⟩, ⟨[sampleTask 1 "a"], 2, 0⟩)] ∧
    ¬ Partitions sampleConfig [sampleTask 1 "a", ⟨2, none⟩]
      [(⟨2, 1⟩, ⟨[sampleTask 1 "a"], 2, 0⟩)] := by
  refine ⟨⟨_, rfl⟩, rfl, ?_⟩
  intro partitions
  exact absurd partitions.whole.length_eq (by decide)

end Routing
