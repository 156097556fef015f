import S2SProxy.WatermarkMarks

/- Does a watermark reach a target's channel only after the tasks below it? The argument
   locates every task received: it has been put into a channel of its target, is on an
   intra-proxy stream, or is part of the batch in delivery. -/
namespace Routing
open ShardData GuardedRuns

def PutTo (cfg : Config) (s : Plane) (target : ClusterShardID) (t : ReplicationTask) : Prop :=
  ∃ c, (s.chan c).target = target ∧
    ∃ m ∈ (s.chan c).puts, m.sourceShard = cfg.source ∧ t ∈ m.resp.replicationTasks

def InTransit (s : Plane) (target : ClusterShardID) (t : ReplicationTask) : Prop :=
  ∃ i, (s.stream i).target = target ∧ ∃ m ∈ (s.stream i).onStream, t ∈ m.replicationTasks

def Pending (s : Plane) (target : ClusterShardID) (t : ReplicationTask) : Prop :=
  ∃ groups priority loop pc, s.phase = .delivering groups priority loop pc ∧
    t ∈ (groups.lookup target).getD [] ∧ target ∉ loop.sent

def Located (cfg : Config) (s : Plane) (target : ClusterShardID) (t : ReplicationTask) : Prop :=
  PutTo cfg s target t ∨ InTransit s target t ∨ Pending s target t

/-- Tasks behind a watermark on a stream are not below it. -/
def MarkFirst (m m' : WorkflowReplicationMessages) : Prop :=
  m.replicationTasks = [] → ∀ t ∈ m'.replicationTasks, m.exclusiveHighWatermark ≤ t.sourceTaskID

structure Routed (cfg : Config) (s : Plane) : Prop where
  addressed : Addressed s
  marks : Marks s
  delivering : ∀ groups priority loop pc, s.phase = .delivering groups priority loop pc →
    Delivering cfg s groups loop
  order : ∀ i, (s.stream i).onStream.Pairwise MarkFirst
  located : ∀ t ∈ s.received, ∀ target, route cfg t = some target → Located cfg s target t

/-- The source's tasks are not below a watermark it has announced. -/
def BeyondMarks (s : Plane) : Label → Prop
  | .recvBatch m => ∀ t ∈ m.replicationTasks, ∀ w ∈ s.watermarks, w ≤ t.sourceTaskID
  | _ => True

section Apply
variable (s : Plane) (e : Effect)

@[simp] theorem apply_phase : (apply s e).phase = s.phase := by cases e <;> rfl

@[simp] theorem apply_chanCount : (apply s e).chanCount = s.chanCount := by cases e <;> rfl

@[simp] theorem apply_received : (apply s e).received = s.received := by cases e <;> rfl

@[simp] theorem apply_watermarks : (apply s e).watermarks = s.watermarks := by cases e <;> rfl

def Effect.sentOn (i : Nat) : Effect → List WorkflowReplicationMessages
  | .enqueue j m => if i = j then [m] else []
  | _ => []

theorem apply_onStream (i : Nat) :
    ((apply s e).stream i).onStream = (s.stream i).onStream ++ e.sentOn i ∧
    ((apply s e).stream i).target = (s.stream i).target := by
  cases e with
  | enqueue j m =>
    rw [apply_enqueue, withStream_stream]
    by_cases same : i = j
    · subst same
      simp [Effect.sentOn, IntraStream.onStream]
    · simp [Effect.sentOn, same]
  | _ => simp [apply, Effect.sentOn, withChan]

end Apply

theorem Delivering.congr {cfg : Config} {s t : Plane} {groups : TaskGroups}
    {loop : RetryLoop ClusterShardID} (h : Delivering cfg s groups loop)
    (received : t.received = s.received) (watermarks : t.watermarks = s.watermarks) :
    Delivering cfg t groups loop :=
  ⟨h.valid, h.keys, by rw [received, watermarks]; exact h.batch⟩

theorem Delivering.settle {cfg : Config} {s : Plane} {groups : TaskGroups}
    {loop : RetryLoop ClusterShardID} (h : Delivering cfg s groups loop) (delivered : Bool) :
    Delivering cfg s groups (loop.settle delivered) :=
  ⟨RetryLoop.settle_valid h.valid delivered, by rw [RetryLoop.settle_keys, h.keys], h.batch⟩

theorem receiver_delivering {cfg : Config} {s t : Plane} {a : Label} {e : Effect}
    (h : ∀ groups priority loop pc, s.phase = .delivering groups priority loop pc →
      Delivering cfg s groups loop)
    (beyond : BeyondMarks s a) (acted : ReceiverActed cfg s a t e) :
    ∀ groups priority loop pc, t.phase = .delivering groups priority loop pc →
      Delivering cfg t groups loop := by
  cases acted with
  | recvTasks m phase tasks =>
    rintro _ _ _ _ ⟨⟩
    exact ⟨RetryLoop.start_valid _, rfl, s.received, m.replicationTasks, rfl, rfl, beyond⟩
  | beginPass phase begun =>
    rintro _ _ _ _ ⟨⟩
    have d := h _ _ _ _ phase
    have nodup := d.keys ▸ AList.keys_nodup _
    exact ⟨RetryLoop.beginPass_valid nodup d.valid begun,
      (RetryLoop.beginPass_fields begun).1.trans d.keys, d.batch⟩
  | deliver phase current done =>
    have d := h _ _ _ _ phase
    cases done with
    | found | absent | closed => rintro _ _ _ _ ⟨⟩; exact d.congr rfl rfl
    | _ => rintro _ _ _ _ ⟨⟩; exact (d.settle _).congr rfl rfl
  | deliverRemote phase done => cases done <;> exact fun _ _ _ _ here => nomatch here
  | _ => exact fun _ _ _ _ here => nomatch here

theorem acted_delivering {cfg : Config} {s t : Plane} {a : Label} {e : Effect}
    (h : Routed cfg s) (beyond : BeyondMarks s a) (acted : Acted cfg s a t e) :
    ∀ groups priority loop pc, t.phase = .delivering groups priority loop pc →
      Delivering cfg t groups loop := by
  rcases receiver_or_same acted with own | same
  · exact receiver_delivering h.delivering beyond own
  · intro groups priority loop pc phase
    exact (h.delivering groups priority loop pc (same.phase ▸ phase)).congr same.received
      same.watermarks

/-- The tasks of a message that goes onto a wire are not below any watermark. -/
theorem enqueue_beyond {cfg : Config} {s t : Plane} {a : Label} {i : Nat}
    {m : WorkflowReplicationMessages} (h : Routed cfg s) (acted : Acted cfg s a t (.enqueue i m)) :
    ∀ task ∈ m.replicationTasks, ∀ w ∈ s.watermarks, w ≤ task.sourceTaskID := by
  intro task member w mark
  cases acted with
  | notifier thread acted =>
    cases acted with
    | deliver pc done =>
      cases done
      rw [(h.marks.notifiers _ (List.mem_of_getElem? thread) m (by rw [pc]; rfl)).1] at member
      cases member
  | receiver acted =>
    cases acted with
    | deliver phase current done =>
      cases done
      obtain ⟨_, tasks, _, rfl, beyond⟩ := (h.delivering _ _ _ _ phase).batch
      simp only [groupMessage, group_eq] at member
      exact beyond task (List.mem_of_mem_filter member) w mark
    | deliverRemote phase done =>
      cases done
      rw [(h.marks.phase m (by rw [phase]; rfl)).1] at member
      cases member
  | stream acted =>
    cases acted with
    | greetSend i m inside greeting =>
      rw [((h.marks.streams i).greeting m greeting).1] at member
      cases member

/- Apart from its effect a step leaves the messages on a stream, except that the receiver
   takes the one it holds off the stream when it puts it. -/
theorem stream_onStream {cfg : Config} {s t : Plane} {a : Label} {e : Effect} (h : Addressed s)
    (acted : StreamActed cfg s a t e) (j : Nat) :
    (j < s.streamCount → (t.stream j).target = (s.stream j).target) ∧
    ((t.stream j).onStream = (s.stream j).onStream ∨
      ∃ m c, a = .intraPut j ∧ (s.stream j).holding = some m ∧ (s.stream j).sendChan = some c ∧
        e = .put c ⟨cfg.source, m⟩ ∧ (t.stream j).onStream = (s.stream j).wire) := by
  cases acted with
  | openStream origin peer target =>
    simp only [openStream, Function.update_apply]
    by_cases new : j = s.streamCount
    · subst new
      simp [h.freshStream _ (Nat.le_refl _), IntraStream.onStream, emptyStream]
    · simp [new]
  | put i m c inside holding sendChan accepts =>
    simp only [withStream_stream]
    by_cases here : j = i
    · subst here
      exact ⟨fun _ => by simp, .inr ⟨m, c, rfl, holding, sendChan, rfl,
        by simp [IntraStream.onStream]⟩⟩
    · simp [here]
  | recv i m rest inside wire free =>
    simp only [withStream_stream]
    by_cases here : j = i
    · subst here
      simp [IntraStream.onStream, holdMessage, wire, free]
    · simp [here]
  | closeStream i inside =>
    change (_ → ((withStream s i fun st => { st with closed := true }).stream j).target = _) ∧
      (((withStream s i fun st => { st with closed := true }).stream j).onStream = _ ∨ _)
    rw [withStream_stream]
    by_cases here : j = i
    · subst here
      simp [IntraStream.onStream]
    · simp [here]
  | registerStream i inside | unregisterStream i inside | greetRead i inside
  | greetSend i m inside greeting | lookup i inside | closed i inside =>
    simp only [withStream_stream]
    by_cases here : j = i
    · subst here
      simp [IntraStream.onStream]
    · simp [here]

theorem acted_onStream {cfg : Config} {s t : Plane} {a : Label} {e : Effect} (h : Addressed s)
    (acted : Acted cfg s a t e) (j : Nat) :
    (j < s.streamCount → (t.stream j).target = (s.stream j).target) ∧
    ((t.stream j).onStream = (s.stream j).onStream ∨
      ∃ m c, a = .intraPut j ∧ (s.stream j).holding = some m ∧ (s.stream j).sendChan = some c ∧
        e = .put c ⟨cfg.source, m⟩ ∧ (t.stream j).onStream = (s.stream j).wire) := by
  rcases stream_or_same acted with own | same
  · exact stream_onStream h own j
  · rw [same]
    exact ⟨fun _ => rfl, .inl rfl⟩

theorem step_order {cfg : Config} {s t : Plane} {a : Label} {e : Effect} (h : Routed cfg s)
    (acted : Acted cfg s a t e) (i : Nat) : ((apply t e).stream i).onStream.Pairwise MarkFirst := by
  have before : (t.stream i).onStream.Pairwise MarkFirst ∧
      ∀ m ∈ (t.stream i).onStream, m ∈ (s.stream i).onStream := by
    rcases (acted_onStream h.addressed acted i).2 with same | ⟨_, _, _, _, _, _, wire⟩
    · rw [same]
      exact ⟨h.order i, fun _ member => member⟩
    · rw [wire]
      exact ⟨(h.order i).sublist (List.sublist_append_right _ _),
        fun _ member => List.mem_append_right _ member⟩
  rw [(apply_onStream t e i).1, List.pairwise_append]
  refine ⟨before.1, ?_, ?_⟩
  · cases e with
    | enqueue j m => simp only [Effect.sentOn]; split <;> simp
    | _ => exact List.Pairwise.nil
  · intro m old m' new empty task member
    cases e with
    | enqueue j added =>
      simp only [Effect.sentOn] at new
      split at new
      · rw [List.mem_singleton.mp new] at member
        have mark := (h.marks.streams i).onStream m (before.2 m old) empty
        exact enqueue_beyond h acted task member _ mark
      · cases new
    | _ => cases new

/-! Every step keeps a located task located. -/

theorem step_putTo {cfg : Config} {s t : Plane} {a : Label} (h : Addressed s)
    (hs : step cfg s a = some t) {target : ClusterShardID} {task : ReplicationTask}
    (here : PutTo cfg s target task) : PutTo cfg t target task := by
  obtain ⟨c, address, m, member, source, carried⟩ := here
  obtain ⟨e, _, after⟩ := step_puts h hs
  have inside : c < s.chanCount := by
    by_contra outside
    rw [h.freshChan c (by omega)] at member
    cases member
  refine ⟨c, by rw [(after c).2.1 inside, address], m, ?_, source, carried⟩
  rw [(after c).1]
  exact List.mem_append_left _ member

theorem putTo_of_effect {cfg : Config} {s t : Plane} {a : Label} {e : Effect} (h : Addressed s)
    (acted : Acted cfg s a t e) {c : Nat} {m : WorkflowReplicationMessages}
    (effect : e = .put c ⟨cfg.source, m⟩) (inside : c < s.chanCount) {task : ReplicationTask}
    (carried : task ∈ m.replicationTasks) : PutTo cfg (apply t e) (s.chan c).target task := by
  refine ⟨c, ?_, ⟨cfg.source, m⟩, ?_, rfl, carried⟩
  · rw [apply_chan]
    exact (acted_chan h acted c).2 inside
  · rw [apply_chan, effect]
    simp [Effect.putsTo]

theorem step_inTransit {cfg : Config} {s t : Plane} {a : Label} {e : Effect} (h : Addressed s)
    (acted : Acted cfg s a t e) {target : ClusterShardID} {task : ReplicationTask}
    (here : InTransit s target task) : Located cfg (apply t e) target task := by
  obtain ⟨i, address, m, member, carried⟩ := here
  have inside : i < s.streamCount := by
    by_contra outside
    rw [h.freshStream i (by omega)] at member
    cases member
  have target' : ((apply t e).stream i).target = target := by
    rw [(apply_onStream t e i).2, (acted_onStream h acted i).1 inside, address]
  have stays : m ∈ (t.stream i).onStream → Located cfg (apply t e) target task := by
    intro still
    refine .inr (.inl ⟨i, target', m, ?_, carried⟩)
    rw [(apply_onStream t e i).1]
    exact List.mem_append_left _ still
  rcases (acted_onStream h acted i).2 with same | ⟨held, c, _, holding, sendChan, effect, wire⟩
  · exact stays (same ▸ member)
  · rw [IntraStream.onStream, holding] at member
    rcases List.mem_append.mp member with first | rest
    · -- The message held is the one put.
      rw [Option.toList_some, List.mem_singleton] at first
      subst first
      obtain ⟨chan, owner⟩ := h.streamChan i c sendChan
      rw [← address, ← owner]
      exact .inl (putTo_of_effect h acted effect chan carried)
    · exact stays (wire ▸ rest)

theorem step_pending {cfg : Config} {s t : Plane} {a : Label} {e : Effect} (h : Routed cfg s)
    (acted : Acted cfg s a t e) {target : ClusterShardID} {task : ReplicationTask}
    (here : Pending s target task) : Located cfg (apply t e) target task := by
  obtain ⟨groups, priority, loop, pc, phase, member, unsent⟩ := here
  have stays : ∀ loop' pc', t.phase = .delivering groups priority loop' pc' →
      target ∉ loop'.sent → Located cfg (apply t e) target task :=
    fun loop' pc' phase' unsent' =>
      .inr (.inr ⟨groups, priority, loop', pc', by rw [apply_phase, phase'], member, unsent'⟩)
  rcases receiver_or_same acted with own | same
  · cases own with
    | beginPass phase' begun =>
      cases phase.symm.trans phase'
      exact stays _ _ rfl ((RetryLoop.beginPass_fields begun).2 ▸ unsent)
    | deliver phase' current done =>
      cases phase.symm.trans phase'
      cases done with
      | found c entry => exact stays _ _ rfl unsent
      | absent => exact stays _ _ rfl unsent
      | closed c => exact stays _ _ rfl unsent
      | fail => exact stays _ _ rfl (by rwa [RetryLoop.settle_sent current])
      | put c accepts =>
        by_cases served : loop.current = some target
        · -- The share of the current target is in its channel now.
          cases current.symm.trans served
          obtain ⟨_, now, inside, owner⟩ := h.addressed.delivering _ _ _ c phase
          cases current.symm.trans now
          exact .inl (owner ▸ putTo_of_effect h.addressed acted rfl inside member)
        · exact stays _ _ rfl (RetryLoop.settle_unsent unsent served true)
      | stream i ready =>
        by_cases served : loop.current = some target
        · cases current.symm.trans served
          obtain ⟨inside, owner⟩ := usable_inside ready
          refine .inr (.inl ⟨i, ?_, groupMessage groups priority target, ?_, member⟩)
          · rw [(apply_onStream _ _ i).2, (acted_onStream h.addressed acted i).1 inside, owner]
          · rw [(apply_onStream _ _ i).1]
            simp [Effect.sentOn]
        · exact stays _ _ rfl (RetryLoop.settle_unsent unsent served true)
    | finishDelivery phase' done =>
      cases phase.symm.trans phase'
      have key : target ∈ loop.keys := by
        rw [(h.delivering _ _ _ _ phase).keys, ← AList.mem_keys, ← AList.lookup_isSome]
        cases found : groups.lookup target with
        | none => simp [found] at member
        | some _ => rfl
      exact absurd (RetryLoop.done_all_sent done key) unsent
    | recvEmptyBatch m phase' | recvTasks m phase' | deliverRemote phase' done
    | snapshotChans phase' | broadcastSend phase' accepts | broadcastSkip phase'
    | remoteShards phase' | finishBroadcast phase' => cases phase.symm.trans phase'
  · exact stays _ _ (same.phase.trans phase) unsent

/- A step either leaves what has been received, or adds a batch whose tasks are all pending. -/
theorem receiver_received {cfg : Config} {s t : Plane} {a : Label} {e : Effect}
    (acted : ReceiverActed cfg s a t e) {task : ReplicationTask} (member : task ∈ t.received) :
    task ∈ s.received ∨ ∀ target, route cfg task = some target → Pending t target task := by
  cases acted with
  | recvTasks m phase tasks =>
    rcases List.mem_append.mp member with old | new
    · exact .inl old
    · refine .inr fun target routed => ⟨_, _, _, _, rfl, ?_, List.not_mem_nil⟩
      rw [group_eq]
      exact List.mem_filter.mpr ⟨new, by simpa using routed⟩
  | deliver phase current done => cases done <;> exact .inl member
  | deliverRemote phase done => cases done <;> exact .inl member
  | _ => exact .inl member

theorem step_located {cfg : Config} {s t : Plane} {a : Label} {e : Effect} (h : Routed cfg s)
    (hs : step cfg s a = some (apply t e)) (acted : Acted cfg s a t e) {task : ReplicationTask}
    (member : task ∈ t.received) {target : ClusterShardID} (routed : route cfg task = some target) :
    Located cfg (apply t e) target task := by
  have old : task ∈ s.received → Located cfg (apply t e) target task := by
    intro earlier
    rcases h.located task earlier target routed with put | transit | pending
    · exact .inl (step_putTo h.addressed hs put)
    · exact step_inTransit h.addressed acted transit
    · exact step_pending h acted pending
  rcases receiver_or_same acted with own | same
  · rcases receiver_received own member with earlier | new
    · exact old earlier
    · obtain ⟨groups, priority, loop, pc, phase, inGroup, unsent⟩ := new target routed
      exact .inr (.inr ⟨groups, priority, loop, pc, by rw [apply_phase, phase], inGroup, unsent⟩)
  · exact old (same.received ▸ member)

theorem step_routed {cfg : Config} {s t : Plane} {a : Label} (h : Routed cfg s)
    (beyond : BeyondMarks s a) (genuine : GenuineMark s a) (hs : step cfg s a = some t) :
    Routed cfg t := by
  have addressed := step_addressed h.addressed hs
  obtain ⟨s', e, _, acted, rfl⟩ := step_inv hs
  refine ⟨addressed, apply_marks (acted_marks h.marks genuine acted) ?_, ?_, step_order h acted, ?_⟩
  · rintro i m rfl empty
    exact acted_watermarks acted (enqueue_mark h.marks h.delivering acted empty)
  · intro groups priority loop pc phase
    rw [apply_phase] at phase
    exact (acted_delivering h beyond acted groups priority loop pc phase).congr (apply_received _ _)
      (apply_watermarks _ _)
  · intro task member target routed
    rw [apply_received] at member
    exact step_located h hs acted member routed

theorem initial_routed (cfg : Config) : Routed cfg (initial cfg) where
  addressed := initial_addressed cfg
  marks :=
    { last := by rintro _ ⟨⟩
      phase := by rintro _ ⟨⟩
      notifiers := by rintro _ ⟨⟩
      streams := fun _ => ⟨by rintro _ ⟨⟩, by rintro _ ⟨⟩, by rintro _ ⟨⟩⟩ }
  delivering := by rintro _ _ _ _ ⟨⟩
  order := fun _ => List.Pairwise.nil
  located := by rintro _ ⟨⟩

/-- A watermark does not overtake a task for the same target on another stream. -/
def NotOvertaking (cfg : Config) (s : Plane) (a : Label) : Prop :=
  ∀ c m, effectOf cfg s a = some (.put c m) → m.sourceShard = cfg.source →
    m.resp.replicationTasks = [] → ∀ i, (s.stream i).target = (s.chan c).target → a ≠ .intraPut i →
      ∀ m' ∈ (s.stream i).onStream, ∀ t ∈ m'.replicationTasks,
        m.resp.exclusiveHighWatermark ≤ t.sourceTaskID

def Orderly (cfg : Config) (s : Plane) (a : Label) : Prop :=
  BeyondMarks s a ∧ GenuineMark s a ∧ NotOvertaking cfg s a

theorem run_routed {cfg : Config} {labels : List Label} {s : Plane}
    (meets : Meets (step cfg) (Orderly cfg) (initial cfg) labels)
    (h : run (step cfg) (initial cfg) labels = some s) : Routed cfg s :=
  run_invariant (fun _ _ _ routed orderly => step_routed routed orderly.1 orderly.2.1)
    (initial_routed cfg) meets h

/-! On one node there are no streams, and only the source decides whether a run is orderly. -/

def SingleNode : Label → Prop
  | .openStream _ _ _ => False
  | _ => True

structure NoStreams (s : Plane) : Prop where
  count : s.streamCount = 0
  active : ∀ node i, s.activeReceivers.lookup node ≠ some (.intra i)
  notifiers : ∀ n ∈ s.notifiers, ∀ i, n.pc ≠ .read (.intra i)

theorem NoStreams.empty {s : Plane} (h : NoStreams s) (addressed : Addressed s) (i : Nat) :
    s.stream i = emptyStream :=
  addressed.freshStream i (by rw [h.count]; exact Nat.zero_le i)

theorem initial_noStreams (cfg : Config) : NoStreams (initial cfg) := by
  refine ⟨rfl, ?_, by rintro _ ⟨⟩⟩
  intro node i active
  by_cases here : node = cfg.home
  · subst here
    simp only [initial, AList.lookup_insert] at active
    cases active
  · simp only [initial, AList.lookup_insert_ne here, AList.lookup_empty] at active
    cases active

theorem notifier_noStreams {cfg : Config} {s t : Plane} {k : Nat} {n : Notifier} {e : Effect}
    (h : NoStreams s) (acted : NotifierActed cfg s k n t e) : NoStreams t := by
  have replaced : ∀ pc, (∀ i, pc ≠ .read (.intra i)) → NoStreams (withNotifier s k n pc) := by
    intro pc other
    refine ⟨h.count, h.active, fun n' member => ?_⟩
    rcases List.mem_or_eq_of_mem_set member with old | rfl
    · exact h.notifiers n' old
    · exact other
  have ended : NoStreams (endNotifier s k) :=
    ⟨h.count, h.active, fun n' member => h.notifiers n' (List.mem_of_mem_eraseIdx member)⟩
  cases acted with
  | read pc last => exact replaced _ (by simp)
  | found pc entry => exact replaced _ (by simp)
  | absent pc => exact replaced _ (by simp)
  | panic pc closed => exact ⟨ended.count, ended.active, ended.notifiers⟩
  | deliver pc done =>
    cases done with
    | put | stream | fail => exact ended
    | _ => exact replaced _ (by simp)
  | _ => exact ended

theorem step_noStreams {cfg : Config} {s t : Plane} {a : Label} (h : NoStreams s)
    (single : SingleNode a) (hs : step cfg s a = some t) : NoStreams t := by
  obtain ⟨s', e, _, acted, rfl⟩ := step_inv hs
  suffices NoStreams s' by
    cases e <;> exact ⟨this.count, this.active, this.notifiers⟩
  cases acted with
  | notify node target =>
    refine ⟨h.count, h.active, fun n member i => ?_⟩
    rcases List.mem_append.mp member with old | new
    · exact h.notifiers n old i
    · unfold notified at new
      split at new
      · cases new
      · next receiver active =>
        split at new
        · rw [List.mem_singleton.mp new]
          rintro ⟨⟩
          exact h.active node i active
        · cases new
  | notifier thread acted => exact notifier_noStreams h acted
  | receiver acted =>
    cases acted with
    | deliver phase current done => cases done <;> exact ⟨h.count, h.active, h.notifiers⟩
    | deliverRemote phase done => cases done <;> exact ⟨h.count, h.active, h.notifiers⟩
    | _ => exact ⟨h.count, h.active, h.notifiers⟩
  | stream acted =>
    cases acted with
    | openStream => exact single.elim
    | closeStream i inside =>
      rw [h.count] at inside
      cases inside
    | _ => exact ⟨h.count, h.active, h.notifiers⟩
  | _ => exact ⟨h.count, h.active, h.notifiers⟩

theorem orderly_of_noStreams {cfg : Config} {s : Plane} {a : Label} (h : NoStreams s)
    (addressed : Addressed s) (beyond : BeyondMarks s a) : Orderly cfg s a := by
  refine ⟨beyond, ?_, ?_⟩
  · cases a with
    | notifier k l =>
      intro n i thread pc
      exact absurd pc (h.notifiers n (List.mem_of_getElem? thread) i)
    | greetRead i =>
      intro j active
      exact absurd active (h.active _ j)
    | _ => trivial
  · intro c m _ _ _ i _ _ m' onStream
    rw [h.empty addressed i] at onStream
    cases onStream

theorem meets_orderly {cfg : Config} {labels : List Label}
    (meets : Meets (step cfg) (fun s a => SingleNode a ∧ BeyondMarks s a) (initial cfg) labels) :
    Meets (step cfg) (Orderly cfg) (initial cfg) labels := by
  have preserved : ∀ s a t, NoStreams s ∧ Addressed s → SingleNode a ∧ BeyondMarks s a →
      step cfg s a = some t → NoStreams t ∧ Addressed t :=
    fun s a t inv cond hs => ⟨step_noStreams inv.1 cond.1 hs, step_addressed inv.2 hs⟩
  have implies : ∀ s a, NoStreams s ∧ Addressed s → SingleNode a ∧ BeyondMarks s a →
      Orderly cfg s a :=
    fun s a inv cond => orderly_of_noStreams inv.1 inv.2 cond.2
  exact meets_of_invariant preserved implies ⟨initial_noStreams cfg, initial_addressed cfg⟩ meets

/-- A message of the source put without tasks carries the watermark of an empty batch. -/
theorem put_mark {cfg : Config} {s t : Plane} {a : Label} {c : Nat} {m : RoutedMessage}
    (h : Routed cfg s) (acted : Acted cfg s a t (.put c m)) (source : m.sourceShard = cfg.source)
    (empty : m.resp.replicationTasks = []) : m.resp.exclusiveHighWatermark ∈ s.watermarks := by
  cases acted with
  | foreignPut c m foreign accepts => exact absurd source foreign
  | notifier thread acted =>
    have own := h.marks.notifiers _ (List.mem_of_getElem? thread)
    cases acted with
    | put pc accepts => exact (own _ (by rw [pc]; rfl)).2
    | deliver pc done =>
      cases done
      exact (own _ (by rw [pc]; rfl)).2
  | receiver acted =>
    cases acted with
    | deliver phase current done =>
      cases done
      exact absurd empty (share_nonempty (h.delivering _ _ _ _ phase) current _)
    | deliverRemote phase done =>
      cases done
      exact (h.marks.phase _ (by rw [phase]; rfl)).2
    | broadcastSend phase accepts => exact (h.marks.phase _ (by rw [phase]; rfl)).2
  | stream acted =>
    cases acted with
    | put i m c inside holding sendChan accepts =>
      exact (h.marks.streams i).onStream m (by simp [IntraStream.onStream, holding]) empty

/- On its own stream a watermark is ahead of the tasks it does not cover. -/
theorem own_stream_behind {cfg : Config} {s t : Plane} {i c : Nat} {m : RoutedMessage}
    (h : Routed cfg s) (acted : Acted cfg s (.intraPut i) t (.put c m))
    (empty : m.resp.replicationTasks = []) :
    ∀ m' ∈ (s.stream i).onStream, ∀ task ∈ m'.replicationTasks,
      m.resp.exclusiveHighWatermark ≤ task.sourceTaskID := by
  intro m' member task carried
  cases acted with
  | receiver acted => cases acted
  | stream acted =>
    cases acted with
    | put i m c inside holding sendChan accepts =>
      have order := h.order i
      rw [IntraStream.onStream, holding] at order member
      rcases List.mem_cons.mp member with rfl | behind
      · rw [empty] at carried
        cases carried
      · exact (List.pairwise_cons.mp order).1 m' behind empty task carried

theorem watermark_put_after_tasks (cfg : Config) (labels : List Label) (s : Plane) (a : Label)
    (c : Nat) (m : RoutedMessage) (meets : Meets (step cfg) (Orderly cfg) (initial cfg) labels)
    (h : run (step cfg) (initial cfg) labels = some s) (orderly : Orderly cfg s a)
    (put : effectOf cfg s a = some (.put c m)) (source : m.sourceShard = cfg.source)
    (empty : m.resp.replicationTasks = []) :
    ∀ t ∈ s.received, route cfg t = some (s.chan c).target →
      t.sourceTaskID < m.resp.exclusiveHighWatermark → PutTo cfg s (s.chan c).target t := by
  intro t member routed below
  have invariant := run_routed meets h
  obtain ⟨⟨s', e⟩, enabled, effect⟩ := Option.map_eq_some_iff.mp put
  simp only at effect
  subst effect
  have acted := act_inv enabled
  rcases invariant.located t member _ routed with there | ⟨i, address, m', onStream, carried⟩ | pending
  · exact there
  · exfalso
    have behind : m.resp.exclusiveHighWatermark ≤ t.sourceTaskID := by
      by_cases own : a = .intraPut i
      · subst own
        exact own_stream_behind invariant acted empty m' onStream t carried
      · exact orderly.2.2 c m put source empty i address own m' onStream t carried
    omega
  · exfalso
    obtain ⟨groups, priority, loop, pc, phase, inGroup, _⟩ := pending
    obtain ⟨_, tasks, _, rfl, beyond⟩ := (invariant.delivering _ _ _ _ phase).batch
    rw [group_eq] at inGroup
    have := beyond t (List.mem_of_mem_filter inGroup) _ (put_mark invariant acted source empty)
    omega

def announceRun : List Label :=
  [.startSender 0 ⟨2, 1⟩, .recvBatch ⟨[sampleTask 1 "a"], 2, 0⟩, .beginPass [⟨2, 1⟩],
    .deliver .lookup, .deliver .put, .finishBatch, .recvBatch ⟨[], 5, 0⟩, .snapshotChans [0]]

theorem announceRun_single :
    Meets (step sampleConfig) (fun s a => SingleNode a ∧ BeyondMarks s a) (initial sampleConfig)
      announceRun := by
  refine ⟨⟨trivial, trivial⟩, ⟨trivial, ?_⟩, ⟨trivial, trivial⟩, ⟨trivial, trivial⟩,
    ⟨trivial, trivial⟩, ⟨trivial, trivial⟩, ⟨trivial, ?_⟩, ⟨trivial, trivial⟩, trivial⟩
  · rintro _ _ _ ⟨⟩
  · rintro _ ⟨⟩

theorem watermark_put_after_tasks_announced :
    ∃ s, run (step sampleConfig) (initial sampleConfig) announceRun = some s ∧
      effectOf sampleConfig s .broadcastSend = some (.put 0 ⟨⟨1, 1⟩, ⟨[], 5, 0⟩⟩) ∧
      PutTo sampleConfig s ⟨2, 1⟩ (sampleTask 1 "a") := by
  have meets := meets_orderly announceRun_single
  refine ⟨_, rfl, rfl, ?_⟩
  exact watermark_put_after_tasks sampleConfig announceRun _ .broadcastSend 0
    ⟨⟨1, 1⟩, ⟨[], 5, 0⟩⟩ meets rfl
    ⟨trivial, trivial, fun c m _ _ _ i _ _ _ onStream => nomatch onStream⟩ rfl rfl rfl
    (sampleTask 1 "a") (by decide) (by decide) (by decide)

/-- Two targets on a second node. The share of {2, 2} reaches that node before the task of
    {2, 1} is delivered; then {2, 1} registers there. -/
def shareRun : List Label :=
  [.startSender 1 ⟨2, 2⟩, .openStream 0 1 ⟨2, 2⟩, .registerStream 0,
    .recvBatch ⟨[sampleTask 1 "a", sampleTask 2 "bb"], 3, 0⟩, .beginPass [⟨2, 2⟩, ⟨2, 1⟩],
    .deliver .lookup, .deliver (.stream 0), .intraRecv 0, .startSender 1 ⟨2, 1⟩,
    .notify 1 ⟨2, 1⟩, .notifier 0 .read, .notifier 0 .lookup]

/-- The high watermark of the share of {2, 2} is put into the channel of {2, 1}, whose task
    below it has been put nowhere. -/
theorem share_watermark_overtakes_task :
    ∃ s, run (step sampleConfig) (initial sampleConfig) shareRun = some s ∧
      effectOf sampleConfig s (.notifier 0 .send) =
        some (.put 1 ⟨sampleConfig.source, ⟨[], 3, 0⟩⟩) ∧
      sampleTask 1 "a" ∈ s.received ∧
      route sampleConfig (sampleTask 1 "a") = some (s.chan 1).target ∧
      (sampleTask 1 "a").sourceTaskID < 3 ∧
      ¬ PutTo sampleConfig s (s.chan 1).target (sampleTask 1 "a") := by
  refine ⟨_, rfl, rfl, by decide, by decide, by decide, ?_⟩
  rintro ⟨c, _, m, member, _⟩
  rcases c with _ | _ | c <;> cases member

end Routing
