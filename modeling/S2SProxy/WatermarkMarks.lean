import S2SProxy.RoutingAddresses

/- The messages of the source shard that are under way, and where they come from: a target's
   share of the batch being delivered, a watermark of an empty batch, or a message that an
   intra-proxy stream relays. -/
namespace Routing
open ShardData GuardedRuns

def IsMark (marks : List Int) (m : WorkflowReplicationMessages) : Prop :=
  m.replicationTasks = [] ∧ m.exclusiveHighWatermark ∈ marks

def RecvPhase.message : RecvPhase → Option WorkflowReplicationMessages
  | .announcing m => some m
  | .broadcastLocal m _ => some m
  | .broadcastRemote m _ _ => some m
  | _ => none

def NotifierPc.message : NotifierPc → Option WorkflowReplicationMessages
  | .read _ => none
  | .lookup m => some m
  | .sendLocal m _ => some m
  | .deliver m _ => some m

/-- The messages a stream has taken over and not yet put, in order. -/
def IntraStream.onStream (st : IntraStream) : List WorkflowReplicationMessages :=
  st.holding.toList ++ st.wire

/-- The batch in delivery: the last tasks received, all beyond every watermark so far. -/
structure Delivering (cfg : Config) (s : Plane) (groups : TaskGroups)
    (loop : RetryLoop ClusterShardID) : Prop where
  valid : loop.Valid
  keys : loop.keys = groups.keys
  batch : ∃ earlier tasks, s.received = earlier ++ tasks ∧ groups = tasksByTargetShard cfg tasks ∧
    ∀ t ∈ tasks, ∀ w ∈ s.watermarks, w ≤ t.sourceTaskID

structure StreamMarks (marks : List Int) (st : IntraStream) : Prop where
  greeting : ∀ m, st.greeting = some m → IsMark marks m
  onStream : ∀ m ∈ st.onStream, m.replicationTasks = [] → m.exclusiveHighWatermark ∈ marks
  last : ∀ m, st.lastWatermark = some m → m.replicationTasks = [] ∧
    (st.fromTasks = false → m.exclusiveHighWatermark ∈ marks)

/-- Every message without tasks that is under way is the watermark of an empty batch. -/
structure Marks (s : Plane) : Prop where
  last : ∀ m, s.lastWatermark = some m → IsMark s.watermarks m
  phase : ∀ m, s.phase.message = some m → IsMark s.watermarks m
  notifiers : ∀ n ∈ s.notifiers, ∀ m, n.pc.message = some m → IsMark s.watermarks m
  streams : ∀ i, StreamMarks s.watermarks (s.stream i)

theorem tasksByTargetShard_concat (cfg : Config) (tasks : List ReplicationTask) (t : ReplicationTask) :
    tasksByTargetShard cfg (tasks ++ [t]) = addToGroup cfg (tasksByTargetShard cfg tasks) t := by
  simp [tasksByTargetShard]

/-- A target's group is the tasks routed to it, in their order; there are no empty groups. -/
theorem tasksByTargetShard_lookup (cfg : Config) (tasks : List ReplicationTask)
    (target : ClusterShardID) :
    (tasksByTargetShard cfg tasks).lookup target =
      if tasks.filter (route cfg · = some target) = [] then none
      else some (tasks.filter (route cfg · = some target)) := by
  induction tasks using List.reverseRecOn with
  | nil => rfl
  | append_singleton tasks t ih =>
    rw [tasksByTargetShard_concat, addToGroup, List.filter_append]
    cases routed : route cfg t with
    | none => simpa [routed] using ih
    | some target' =>
      by_cases same : target = target'
      · subst same
        rw [AList.lookup_insert, ih]
        simp only [routed, List.filter_singleton]
        split
        · next none => simp [none]
        · next some => simp
      · have other : ¬ some target' = some target := by simpa using Ne.symm same
        rw [AList.lookup_insert_ne same, ih]
        simp [routed, other]

theorem group_eq (cfg : Config) (tasks : List ReplicationTask) (target : ClusterShardID) :
    ((tasksByTargetShard cfg tasks).lookup target).getD [] =
      tasks.filter (route cfg · = some target) := by
  rw [tasksByTargetShard_lookup]
  split
  · next none => simp [none]
  · rfl

theorem share_nonempty {cfg : Config} {s : Plane} {groups : TaskGroups}
    {loop : RetryLoop ClusterShardID} (d : Delivering cfg s groups loop) {target : ClusterShardID}
    (current : loop.current = some target) (priority : Int) :
    (groupMessage groups priority target).replicationTasks ≠ [] := by
  obtain ⟨earlier, tasks, _, rfl, _⟩ := d.batch
  have key : target ∈ (tasksByTargetShard cfg tasks).keys :=
    d.keys ▸ d.valid.pass_keys target (RetryLoop.current_mem current)
  rw [← AList.mem_keys, ← AList.lookup_isSome, tasksByTargetShard_lookup] at key
  simp only [groupMessage, group_eq]
  intro none
  simp [none] at key

theorem IsMark.mono {marks marks' : List Int} {m : WorkflowReplicationMessages}
    (h : IsMark marks m) (more : marks ⊆ marks') : IsMark marks' m :=
  ⟨h.1, more h.2⟩

theorem StreamMarks.mono {marks marks' : List Int} {st : IntraStream} (h : StreamMarks marks st)
    (more : marks ⊆ marks') : StreamMarks marks' st :=
  ⟨fun m here => (h.greeting m here).mono more,
    fun m member empty => more (h.onStream m member empty),
    fun m here => ⟨(h.last m here).1, fun genuine => more ((h.last m here).2 genuine)⟩⟩

/-! A step changes the variables of one goroutine: the receiver's, a stream's or a
    notification's. -/

structure SameReceiver (s t : Plane) : Prop where
  phase : t.phase = s.phase
  received : t.received = s.received
  watermarks : t.watermarks = s.watermarks
  lastWatermark : t.lastWatermark = s.lastWatermark

theorem receiver_or_same {cfg : Config} {s t : Plane} {a : Label} {e : Effect}
    (h : Acted cfg s a t e) : ReceiverActed cfg s a t e ∨ SameReceiver s t := by
  cases h with
  | receiver acted => exact .inl acted
  | notifier thread acted =>
    refine .inr ?_
    cases acted with
    | deliver pc done => cases done <;> exact ⟨rfl, rfl, rfl, rfl⟩
    | _ => exact ⟨rfl, rfl, rfl, rfl⟩
  | stream acted => exact .inr (by cases acted <;> exact ⟨rfl, rfl, rfl, rfl⟩)
  | _ => exact .inr ⟨rfl, rfl, rfl, rfl⟩

theorem stream_or_same {cfg : Config} {s t : Plane} {a : Label} {e : Effect}
    (h : Acted cfg s a t e) : StreamActed cfg s a t e ∨ t.stream = s.stream := by
  cases h with
  | stream acted => exact .inl acted
  | notifier thread acted =>
    refine .inr ?_
    cases acted with
    | deliver pc done => cases done <;> rfl
    | _ => rfl
  | receiver acted =>
    refine .inr ?_
    cases acted with
    | deliver phase current done => cases done <;> rfl
    | deliverRemote phase done => cases done <;> rfl
    | _ => rfl
  | _ => exact .inr rfl

theorem receiver_watermarks {cfg : Config} {s t : Plane} {a : Label} {e : Effect}
    (h : ReceiverActed cfg s a t e) : s.watermarks ⊆ t.watermarks := by
  cases h with
  | recvEmptyBatch m phase empty => exact List.subset_append_left _ _
  | deliver phase current done => cases done <;> exact List.Subset.refl _
  | deliverRemote phase done => cases done <;> exact List.Subset.refl _
  | _ => exact List.Subset.refl _

theorem acted_watermarks {cfg : Config} {s t : Plane} {a : Label} {e : Effect}
    (h : Acted cfg s a t e) : s.watermarks ⊆ t.watermarks := by
  rcases receiver_or_same h with acted | same
  · exact receiver_watermarks acted
  · rw [same.watermarks]
    exact List.Subset.refl _

/-- A watermark that is re-sent was received as one. -/
def GenuineMark (s : Plane) : Label → Prop
  | .notifier k _ => ∀ n i, s.notifiers[k]? = some n → n.pc = .read (.intra i) →
      (s.stream i).fromTasks = false
  | .greetRead i => ∀ j, s.activeReceivers.lookup (s.stream i).origin = some (.intra j) →
      (s.stream j).fromTasks = false
  | _ => True

theorem lastWatermarkOf_mark {s : Plane} (h : Marks s) {receiver : ActiveReceiver}
    (genuine : ∀ i, receiver = .intra i → (s.stream i).fromTasks = false)
    {m : WorkflowReplicationMessages} (last : lastWatermarkOf s receiver = some m) : IsMark s.watermarks m := by
  cases receiver with
  | proxy => exact h.last m last
  | intra i =>
    obtain ⟨empty, mark⟩ := (h.streams i).last m last
    exact ⟨empty, mark (genuine i rfl)⟩

theorem receiver_phase_mark {cfg : Config} {s t : Plane} {a : Label} {e : Effect} (h : Marks s)
    (acted : ReceiverActed cfg s a t e) {m : WorkflowReplicationMessages}
    (here : t.phase.message = some m) : IsMark t.watermarks m := by
  cases acted with
  | recvEmptyBatch m' phase empty =>
    cases here
    exact ⟨rfl, by simp [recvEmptyBatch, watermarkOf]⟩
  | deliver phase current done => cases done <;> cases here
  | deliverRemote phase done =>
    have before := h.phase _ (by rw [phase]; rfl)
    cases done <;> (cases here; exact before)
  | snapshotChans phase | broadcastSend phase accepts | broadcastSkip phase | remoteShards phase =>
    cases here
    exact h.phase _ (by rw [phase]; rfl)
  | _ => cases here

theorem receiver_last_mark {cfg : Config} {s t : Plane} {a : Label} {e : Effect} (h : Marks s)
    (acted : ReceiverActed cfg s a t e) {m : WorkflowReplicationMessages}
    (here : t.lastWatermark = some m) : IsMark t.watermarks m := by
  cases acted with
  | recvEmptyBatch m' phase empty =>
    cases here
    exact ⟨rfl, by simp [recvEmptyBatch, watermarkOf]⟩
  | deliver phase current done => cases done <;> exact h.last m here
  | deliverRemote phase done => cases done <;> exact h.last m here
  | _ => exact h.last m here

theorem notifier_marks {cfg : Config} {s t : Plane} {k : Nat} {n : Notifier} {e : Effect}
    (h : Marks s) (thread : s.notifiers[k]? = some n)
    (genuine : ∀ i, n.pc = .read (.intra i) → (s.stream i).fromTasks = false)
    (acted : NotifierActed cfg s k n t e) :
    ∀ n' ∈ t.notifiers, ∀ m, n'.pc.message = some m → IsMark s.watermarks m := by
  have own := h.notifiers n (List.mem_of_getElem? thread)
  have replaced : ∀ pc, (∀ m, pc.message = some m → IsMark s.watermarks m) →
      ∀ n' ∈ (withNotifier s k n pc).notifiers, ∀ m, n'.pc.message = some m →
        IsMark s.watermarks m := by
    intro pc good n' member m here
    rcases List.mem_or_eq_of_mem_set member with old | rfl
    · exact h.notifiers n' old m here
    · exact good m here
  have ended : ∀ n' ∈ (endNotifier s k).notifiers, ∀ m, n'.pc.message = some m →
      IsMark s.watermarks m :=
    fun n' member => h.notifiers n' (List.mem_of_mem_eraseIdx member)
  cases acted with
  | read pc last =>
    refine replaced _ ?_
    rintro _ ⟨⟩
    exact lastWatermarkOf_mark h (fun i here => genuine i (here ▸ pc)) last
  | found pc entry => exact replaced _ (by rintro _ ⟨⟩; exact own _ (by rw [pc]; rfl))
  | absent pc => exact replaced _ (by rintro _ ⟨⟩; exact own _ (by rw [pc]; rfl))
  | deliver pc done =>
    cases done with
    | put | stream | fail => exact ended
    | _ => exact replaced _ (by rintro _ ⟨⟩; exact own _ (by rw [pc]; rfl))
  | _ => exact ended

theorem withStream_marks {s : Plane} (h : ∀ j, StreamMarks s.watermarks (s.stream j)) {i : Nat}
    {f : IntraStream → IntraStream} (here : StreamMarks s.watermarks (f (s.stream i))) (j : Nat) :
    StreamMarks s.watermarks ((withStream s i f).stream j) := by
  rw [withStream_stream]
  split
  · exact here
  · exact h j

/- A message received is either a mark or comes with tasks, and that is what the flag says. -/
theorem holdMessage_marks {marks : List Int} {st : IntraStream} (h : StreamMarks marks st)
    {m : WorkflowReplicationMessages} {rest : List WorkflowReplicationMessages}
    (wire : st.wire = m :: rest) (free : st.holding = none) :
    StreamMarks marks (holdMessage st m rest) := by
  have carried : (holdMessage st m rest).onStream = st.onStream := by
    simp [IntraStream.onStream, holdMessage, wire, free]
  refine ⟨h.greeting, carried ▸ h.onStream, ?_⟩
  rintro _ ⟨⟩
  refine ⟨rfl, fun genuine => ?_⟩
  simp only [holdMessage, ne_eq, decide_not, Bool.not_eq_eq_eq_not, Bool.not_false,
    decide_eq_true_eq] at genuine
  exact h.onStream m (by simp [IntraStream.onStream, wire, free]) genuine

theorem stream_marks {cfg : Config} {s t : Plane} {a : Label} {e : Effect} (h : Marks s)
    (genuine : GenuineMark s a) (acted : StreamActed cfg s a t e) (j : Nat) :
    StreamMarks s.watermarks (t.stream j) := by
  cases acted with
  | openStream origin peer target =>
    simp only [openStream, Function.update_apply]
    split
    · exact ⟨by rintro _ ⟨⟩, by simp [IntraStream.onStream, emptyStream], by rintro _ ⟨⟩⟩
    · exact h.streams j
  | greetRead i inside =>
    refine withStream_marks h.streams ⟨?_, (h.streams i).onStream, (h.streams i).last⟩ j
    intro m here
    simp only [pendingGreeting, Option.filter_eq_some_iff, Option.bind_eq_some_iff] at here
    obtain ⟨⟨receiver, active, last⟩, _⟩ := here
    exact lastWatermarkOf_mark h (fun k same => genuine k (same ▸ active)) last
  | greetSend i m inside greeting =>
    exact withStream_marks h.streams
      ⟨by rintro _ ⟨⟩, (h.streams i).onStream, (h.streams i).last⟩ j
  | recv i m rest inside wire free =>
    exact withStream_marks h.streams (holdMessage_marks (h.streams i) wire free) j
  | put i m c inside holding sendChan accepts =>
    refine withStream_marks h.streams ⟨(h.streams i).greeting, ?_, (h.streams i).last⟩ j
    intro m' member
    exact (h.streams i).onStream m' (List.mem_append_right _ member)
  | closeStream i inside =>
    change StreamMarks s.watermarks ((withStream s i fun st => { st with closed := true }).stream j)
    exact withStream_marks h.streams
      ⟨(h.streams i).greeting, (h.streams i).onStream, (h.streams i).last⟩ j
  | registerStream i inside | unregisterStream i inside | lookup i inside | closed i inside =>
    exact withStream_marks h.streams
      ⟨(h.streams i).greeting, (h.streams i).onStream, (h.streams i).last⟩ j

theorem acted_notifiers {cfg : Config} {s t : Plane} {a : Label} {e : Effect} (h : Marks s)
    (genuine : GenuineMark s a) (acted : Acted cfg s a t e) :
    ∀ n ∈ t.notifiers, ∀ m, n.pc.message = some m → IsMark s.watermarks m := by
  cases acted with
  | notify node target =>
    intro n member m here
    rcases List.mem_append.mp member with old | new
    · exact h.notifiers n old m here
    · unfold notified at new
      split at new
      · cases new
      · split at new
        · rw [List.mem_singleton.mp new] at here
          cases here
        · cases new
  | notifier thread acted => exact notifier_marks h thread (fun i => genuine _ i thread) acted
  | receiver acted =>
    cases acted with
    | deliver phase current done => cases done <;> exact h.notifiers
    | deliverRemote phase done => cases done <;> exact h.notifiers
    | _ => exact h.notifiers
  | stream acted => cases acted <;> exact h.notifiers
  | _ => exact h.notifiers

theorem acted_marks {cfg : Config} {s t : Plane} {a : Label} {e : Effect} (h : Marks s)
    (genuine : GenuineMark s a) (acted : Acted cfg s a t e) : Marks t := by
  have more := acted_watermarks acted
  refine ⟨?_, ?_, ?_, ?_⟩
  · intro m here
    rcases receiver_or_same acted with own | same
    · exact receiver_last_mark h own here
    · exact (h.last m (same.lastWatermark ▸ here)).mono more
  · intro m here
    rcases receiver_or_same acted with own | same
    · exact receiver_phase_mark h own here
    · exact (h.phase m (same.phase ▸ here)).mono more
  · intro n member m here
    exact (acted_notifiers h genuine acted n member m here).mono more
  · intro i
    rcases stream_or_same acted with own | same
    · exact (stream_marks h genuine own i).mono more
    · rw [same]
      exact (h.streams i).mono more

/-- A message that goes onto a wire without tasks is a mark. -/
theorem enqueue_mark {cfg : Config} {s t : Plane} {a : Label} {i : Nat}
    {m : WorkflowReplicationMessages} (h : Marks s)
    (delivering : ∀ groups priority loop pc, s.phase = .delivering groups priority loop pc →
      Delivering cfg s groups loop)
    (acted : Acted cfg s a t (.enqueue i m)) (empty : m.replicationTasks = []) :
    m.exclusiveHighWatermark ∈ s.watermarks := by
  cases acted with
  | notifier thread acted =>
    cases acted with
    | deliver pc done =>
      cases done
      exact (h.notifiers _ (List.mem_of_getElem? thread) m (by rw [pc]; rfl)).2
  | receiver acted =>
    cases acted with
    | deliver phase current done =>
      cases done
      exact absurd empty (share_nonempty (delivering _ _ _ _ phase) current _)
    | deliverRemote phase done =>
      cases done
      exact (h.phase m (by rw [phase]; rfl)).2
  | stream acted =>
    cases acted with
    | greetSend i m inside greeting => exact ((h.streams i).greeting m greeting).2

theorem apply_marks {s : Plane} (h : Marks s) {e : Effect}
    (marked : ∀ i m, e = .enqueue i m → m.replicationTasks = [] →
      m.exclusiveHighWatermark ∈ s.watermarks) : Marks (apply s e) := by
  cases e with
  | silent => exact h
  | put c m => exact ⟨h.last, h.phase, h.notifiers, h.streams⟩
  | enqueue i m =>
    refine ⟨h.last, h.phase, h.notifiers, fun j => ?_⟩
    rw [apply_enqueue]
    refine withStream_marks h.streams ⟨(h.streams i).greeting, ?_, (h.streams i).last⟩ j
    intro m' member
    simp only [IntraStream.onStream, ← List.append_assoc, List.mem_append, List.mem_singleton]
      at member
    rcases member with old | rfl
    · exact (h.streams i).onStream m' (by simpa [IntraStream.onStream] using old)
    · exact marked i m' rfl

end Routing
