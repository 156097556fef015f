import S2SProxy.Lib.Preceded
import S2SProxy.StreamSender
import S2SProxy.WatermarkSafety

/- One node, one sender for each target, a source whose task ids increase. Then each
   target's channel carries the source's tasks and watermarks in order: whatever is put into
   it stands behind every task for that target with a smaller id. -/
namespace Routing
open ShardData GuardedRuns StreamSender

/-- The entries of everything put into a channel, in the order in which its sender will
    number them. -/
def SendChan.pipe (ch : SendChan) : List Entry := ch.puts.flatMap entriesOf

def OneSender (s : Plane) : Label → Prop
  | .startSender _ target => ∀ c < s.chanCount, (s.chan c).target ≠ target
  | _ => True

def Increasing (s : Plane) : Label → Prop
  | .recvBatch m => m.replicationTasks.Pairwise (fun t t' => t.sourceTaskID < t'.sourceTaskID) ∧
      ∀ t ∈ s.received, ∀ t' ∈ m.replicationTasks, t.sourceTaskID < t'.sourceTaskID
  | _ => True

def Local (s : Plane) (a : Label) : Prop :=
  SingleNode a ∧ OneSender s a ∧ Increasing s a ∧ BeyondMarks s a

/-- The value is a task id or a watermark of the source so far. -/
def Known (s : Plane) (v : Int) : Prop :=
  v ∈ s.watermarks ∨ ∃ t ∈ s.received, t.sourceTaskID = v

/-- The tasks that an entry of the source must not overtake. -/
def below (cfg : Config) (s : Plane) (target : ClusterShardID) (e : Entry) : Set Entry :=
  {y | e.mapping.sourceShard = cfg.source ∧ ∃ t ∈ s.received, route cfg t = some target ∧
    t.sourceTaskID < e.mapping.sourceTask ∧ y = taskEntry cfg.source t}

structure Ordered (cfg : Config) (s : Plane) : Prop where
  routed : Routed cfg s
  noStreams : NoStreams s
  unique : ∀ c c', c < s.chanCount → c' < s.chanCount → (s.chan c).target = (s.chan c').target →
    c = c'
  increasing : s.received.Pairwise fun t t' => t.sourceTaskID < t'.sourceTaskID
  known : ∀ c, ∀ e ∈ (s.chan c).pipe, e.mapping.sourceShard = cfg.source →
    Known s e.mapping.sourceTask
  before : ∀ c, Preceded.Closed (below cfg s (s.chan c).target) (s.chan c).pipe

theorem Known.mono {s t : Plane} {v : Int} (h : Known s v) (marks : s.watermarks ⊆ t.watermarks)
    (received : s.received ⊆ t.received) : Known t v := by
  rcases h with mark | ⟨task, member, same⟩
  · exact .inl (marks mark)
  · exact .inr ⟨task, received member, same⟩

theorem entriesOf_task {routed : RoutedMessage} {t : ReplicationTask}
    (member : t ∈ routed.resp.replicationTasks) :
    taskEntry routed.sourceShard t ∈ entriesOf routed := by
  have some : routed.resp.replicationTasks ≠ [] := List.ne_nil_of_mem member
  rw [entriesOf, if_pos some]
  exact List.mem_map_of_mem member

/- With one sender for each target, a task put for the target is in its channel's pipe. -/
theorem putTo_pipe {cfg : Config} {s : Plane} (h : Ordered cfg s) {c : Nat} (inside : c < s.chanCount)
    {t : ReplicationTask} (put : PutTo cfg s (s.chan c).target t) :
    taskEntry cfg.source t ∈ (s.chan c).pipe := by
  obtain ⟨c', address, m, member, source, carried⟩ := put
  have inside' : c' < s.chanCount := by
    by_contra outside
    rw [h.routed.addressed.freshChan c' (by omega)] at member
    cases member
  rw [h.unique c' c inside' inside address] at member
  exact List.mem_flatMap.mpr ⟨m, member, source ▸ entriesOf_task carried⟩

/- Without streams a task received has been put, or is part of the batch in delivery. -/
theorem put_or_pending {cfg : Config} {s : Plane} (h : Ordered cfg s) {t : ReplicationTask}
    (member : t ∈ s.received) {target : ClusterShardID} (routed : route cfg t = some target) :
    PutTo cfg s target t ∨ Pending s target t := by
  rcases h.routed.located t member target routed with put | ⟨i, _, m, onStream, _⟩ | pending
  · exact .inl put
  · rw [h.noStreams.empty h.routed.addressed i] at onStream
    cases onStream
  · exact .inr pending

/-- A message of the source put with tasks is the current target's share of the batch. -/
theorem put_share {cfg : Config} {s t : Plane} {a : Label} {c : Nat} {m : RoutedMessage}
    (h : Ordered cfg s) (acted : Acted cfg s a t (.put c m)) (source : m.sourceShard = cfg.source)
    (tasks : m.resp.replicationTasks ≠ []) :
    ∃ groups priority loop pc, s.phase = .delivering groups priority loop pc ∧
      m.resp = groupMessage groups priority (s.chan c).target := by
  have marks := h.routed.marks
  cases acted with
  | foreignPut c m foreign accepts => exact absurd source foreign
  | notifier thread acted =>
    have own := marks.notifiers _ (List.mem_of_getElem? thread)
    cases acted with
    | put pc accepts => exact absurd (own _ (by rw [pc]; rfl)).1 tasks
    | deliver pc done =>
      cases done
      exact absurd (own _ (by rw [pc]; rfl)).1 tasks
  | receiver acted =>
    cases acted with
    | deliver phase current done =>
      cases done
      obtain ⟨target, now, _, owner⟩ := h.routed.addressed.delivering _ _ _ c phase
      cases current.symm.trans now
      exact ⟨_, _, _, _, phase, by rw [owner]⟩
    | deliverRemote phase done =>
      cases done
      exact absurd (marks.phase _ (by rw [phase]; rfl)).1 tasks
    | broadcastSend phase accepts => exact absurd (marks.phase _ (by rw [phase]; rfl)).1 tasks
  | stream acted =>
    cases acted with
    | put i m c inside holding sendChan accepts =>
      rw [h.noStreams.count] at inside
      cases inside

/- A share is sorted, and every task it must not overtake is in it or already put. -/
theorem share_before {cfg : Config} {s : Plane} (h : Ordered cfg s) {c : Nat}
    (inside : c < s.chanCount) {m : RoutedMessage} (source : m.sourceShard = cfg.source)
    (tasks : m.resp.replicationTasks ≠ []) {groups : TaskGroups} {priority : Int}
    {loop : RetryLoop ClusterShardID} {pc : DeliveryPc}
    (phase : s.phase = .delivering groups priority loop pc)
    (share : m.resp = groupMessage groups priority (s.chan c).target) (i : Nat) (x : Entry)
    (here : (entriesOf m)[i]? = some x) (y : Entry) (need : y ∈ below cfg s (s.chan c).target x) :
    y ∈ (s.chan c).pipe ∨ ∃ j < i, (entriesOf m)[j]? = some y := by
  obtain ⟨_, t, member, routed, smaller, rfl⟩ := need
  rcases put_or_pending h member routed with put | pending
  · exact .inl (putTo_pipe h inside put)
  · right
    obtain ⟨groups', priority', loop', pc', phase', inGroup, _⟩ := pending
    cases phase.symm.trans phase'
    have sorted : m.resp.replicationTasks.Pairwise fun t t' => t.sourceTaskID < t'.sourceTaskID := by
      obtain ⟨earlier, batch, all, rfl, _⟩ := (h.routed.delivering _ _ _ _ phase).batch
      have increasing := h.increasing
      rw [all] at increasing
      rw [share, groupMessage, group_eq]
      exact (increasing.sublist (List.sublist_append_right _ _)).filter _
    have inShare : t ∈ m.resp.replicationTasks := by rw [share]; exact inGroup
    rw [entriesOf, if_pos tasks, List.getElem?_map] at here
    obtain ⟨t', at_i, rfl⟩ := Option.map_eq_some_iff.mp here
    obtain ⟨j, before, at_j⟩ := Preceded.earlier_of_smaller sorted at_i inShare smaller
    refine ⟨j, before, ?_⟩
    rw [entriesOf, if_pos tasks, List.getElem?_map, at_j, source]
    rfl

/- Every task below an announced watermark has been put. -/
theorem mark_before {cfg : Config} {s : Plane} (h : Ordered cfg s) {c : Nat}
    (inside : c < s.chanCount) {m : RoutedMessage} (empty : m.resp.replicationTasks = [])
    (mark : m.resp.exclusiveHighWatermark ∈ s.watermarks) (x : Entry) (here : x ∈ entriesOf m)
    (y : Entry) (need : y ∈ below cfg s (s.chan c).target x) : y ∈ (s.chan c).pipe := by
  rw [entriesOf, if_neg (not_not.mpr empty), List.mem_singleton] at here
  subst here
  obtain ⟨_, t, member, routed, smaller, rfl⟩ := need
  rcases put_or_pending h member routed with put | pending
  · exact putTo_pipe h inside put
  · obtain ⟨groups, priority, loop, pc, phase, inGroup, _⟩ := pending
    obtain ⟨_, batch, _, rfl, beyond⟩ := (h.routed.delivering _ _ _ _ phase).batch
    rw [group_eq] at inGroup
    have := beyond t (List.mem_of_mem_filter inGroup) _ mark
    simp only [watermarkEntry] at smaller
    omega

theorem put_before {cfg : Config} {s t : Plane} {a : Label} {c : Nat} {m : RoutedMessage}
    (h : Ordered cfg s) (acted : Acted cfg s a t (.put c m)) (inside : c < s.chanCount) (i : Nat)
    (x : Entry) (here : (entriesOf m)[i]? = some x) (y : Entry)
    (need : y ∈ below cfg s (s.chan c).target x) :
    y ∈ (s.chan c).pipe ∨ ∃ j < i, (entriesOf m)[j]? = some y := by
  have source : m.sourceShard = cfg.source :=
    (entriesOf_source (List.mem_of_getElem? here)).symm.trans need.1
  by_cases empty : m.resp.replicationTasks = []
  · exact .inl (mark_before h inside empty (put_mark h.routed acted source empty) x
      (List.mem_of_getElem? here) y need)
  · obtain ⟨groups, priority, loop, pc, phase, share⟩ := put_share h acted source empty
    exact share_before h inside source empty phase share i x here y need

theorem put_known {cfg : Config} {s t : Plane} {a : Label} {c : Nat} {m : RoutedMessage}
    (h : Ordered cfg s) (acted : Acted cfg s a t (.put c m)) {e : Entry} (here : e ∈ entriesOf m)
    (source : e.mapping.sourceShard = cfg.source) : Known s e.mapping.sourceTask := by
  rw [entriesOf_source here] at source
  by_cases empty : m.resp.replicationTasks = []
  · rw [entriesOf, if_neg (not_not.mpr empty), List.mem_singleton] at here
    subst here
    exact .inl (put_mark h.routed acted source empty)
  · obtain ⟨groups, priority, loop, pc, phase, share⟩ := put_share h acted source empty
    obtain ⟨earlier, batch, all, rfl, _⟩ := (h.routed.delivering _ _ _ _ phase).batch
    rw [entriesOf, if_pos empty, share, groupMessage, group_eq] at here
    obtain ⟨task, member, rfl⟩ := List.mem_map.mp here
    refine .inr ⟨task, ?_, rfl⟩
    rw [all]
    exact List.mem_append_right _ (List.mem_of_mem_filter member)

theorem acted_received {cfg : Config} {s t : Plane} {a : Label} {e : Effect}
    (acted : Acted cfg s a t e) :
    t.received = s.received ∨ ∃ m, a = .recvBatch m ∧ t.received = s.received ++ m.replicationTasks := by
  rcases receiver_or_same acted with own | same
  · cases own with
    | recvTasks m phase tasks => exact .inr ⟨m, rfl, rfl⟩
    | deliver phase current done => cases done <;> exact .inl rfl
    | deliverRemote phase done => cases done <;> exact .inl rfl
    | _ => exact .inl rfl
  · exact .inl same.received

theorem acted_received_subset {cfg : Config} {s t : Plane} {a : Label} {e : Effect}
    (acted : Acted cfg s a t e) : s.received ⊆ t.received := by
  rcases acted_received acted with same | ⟨m, _, more⟩
  · rw [same]
    exact List.Subset.refl _
  · rw [more]
    exact List.subset_append_left _ _

/-- A task received later is not below a value known before. -/
theorem known_beyond {s : Plane} {m : WorkflowReplicationMessages} {v : Int} (known : Known s v)
    (increasing : Increasing s (.recvBatch m)) (beyond : BeyondMarks s (.recvBatch m)) :
    ∀ t ∈ m.replicationTasks, v ≤ t.sourceTaskID := by
  intro t member
  rcases known with mark | ⟨earlier, received, rfl⟩
  · exact beyond t member v mark
  · exact le_of_lt (increasing.2 earlier received t member)

theorem below_step {cfg : Config} {s t : Plane} {a : Label} {e : Effect} (cond : Local s a)
    (acted : Acted cfg s a t e) {target : ClusterShardID} {x : Entry}
    (known : x.mapping.sourceShard = cfg.source → Known s x.mapping.sourceTask) :
    below cfg t target x ⊆ below cfg s target x := by
  rintro y ⟨source, task, member, routed, smaller, rfl⟩
  refine ⟨source, task, ?_, routed, smaller, rfl⟩
  rcases acted_received acted with same | ⟨m, rfl, more⟩
  · exact same ▸ member
  · rw [more] at member
    rcases List.mem_append.mp member with old | new
    · exact old
    · have := known_beyond (known source) cond.2.2.1 cond.2.2.2 task new
      omega

theorem acted_unique {cfg : Config} {s t : Plane} {a : Label} {e : Effect} (h : Ordered cfg s)
    (one : OneSender s a) (acted : Acted cfg s a t e) :
    ∀ c c', c < t.chanCount → c' < t.chanCount → (t.chan c).target = (t.chan c').target → c = c' := by
  have kept : t.chanCount = s.chanCount → ∀ c c', c < t.chanCount → c' < t.chanCount →
      (t.chan c).target = (t.chan c').target → c = c' := by
    intro count c c' hc hc' same
    rw [count] at hc hc'
    rw [(acted_chan h.routed.addressed acted c).2 hc,
      (acted_chan h.routed.addressed acted c').2 hc'] at same
    exact h.unique c c' hc hc' same
  cases acted with
  | startSender node target =>
    intro c c' hc hc' same
    simp only [startSender, Function.update_apply] at hc hc' same
    by_cases new : c = s.chanCount <;> by_cases new' : c' = s.chanCount
    · rw [new, new']
    · rw [if_pos new, if_neg new'] at same
      exact absurd same.symm (one c' (by omega))
    · rw [if_neg new, if_pos new'] at same
      exact absurd same (one c (by omega))
    · rw [if_neg new, if_neg new'] at same
      exact h.unique c c' (by omega) (by omega) same
  | notifier thread acted => exact kept (notifier_chan acted).2.1
  | receiver acted => exact kept (receiver_chan acted).2.1
  | stream acted => exact kept (stream_chan acted).2.1
  | _ => exact kept rfl

theorem acted_increasing {cfg : Config} {s t : Plane} {a : Label} {e : Effect} (h : Ordered cfg s)
    (increasing : Increasing s a) (acted : Acted cfg s a t e) :
    t.received.Pairwise fun t t' => t.sourceTaskID < t'.sourceTaskID := by
  rcases acted_received acted with same | ⟨m, rfl, more⟩
  · rw [same]
    exact h.increasing
  · rw [more, List.pairwise_append]
    exact ⟨h.increasing, increasing.1, increasing.2⟩

theorem apply_pipe {cfg : Config} {s t : Plane} {a : Label} {e : Effect} (h : Addressed s)
    (acted : Acted cfg s a t e) (c : Nat) :
    ((apply t e).chan c).pipe = (s.chan c).pipe ++ (e.putsTo c).flatMap entriesOf := by
  rw [apply_chan, SendChan.pipe, SendChan.pipe, (acted_chan h acted c).1, List.flatMap_append]

theorem pipe_empty {s : Plane} (h : Addressed s) {c : Nat} (outside : ¬ c < s.chanCount) :
    (s.chan c).pipe = [] := by
  rw [h.freshChan c (by omega)]
  rfl

theorem putsTo_cases {e : Effect} {c : Nat} {m : RoutedMessage} (member : m ∈ e.putsTo c) :
    e = .put c m ∧ e.putsTo c = [m] := by
  cases e with
  | put c' m' =>
    simp only [Effect.putsTo] at member ⊢
    split at member
    · next same => simp_all
    · cases member
  | _ => cases member

theorem step_known {cfg : Config} {s t : Plane} {a : Label} {e : Effect} (h : Ordered cfg s)
    (acted : Acted cfg s a t e) (c : Nat) :
    ∀ x ∈ ((apply t e).chan c).pipe, x.mapping.sourceShard = cfg.source →
      Known t x.mapping.sourceTask := by
  intro x member source
  have before : Known s x.mapping.sourceTask := by
    rw [apply_pipe h.routed.addressed acted c, List.mem_append] at member
    rcases member with old | new
    · exact h.known c x old source
    · obtain ⟨m, put, here⟩ := List.mem_flatMap.mp new
      obtain ⟨rfl, _⟩ := putsTo_cases put
      exact put_known h acted here source
  exact before.mono (acted_watermarks acted) (acted_received_subset acted)

theorem step_before {cfg : Config} {s t : Plane} {a : Label} {e : Effect} (h : Ordered cfg s)
    (cond : Local s a) (acted : Acted cfg s a t e) (c : Nat) :
    Preceded.Closed (below cfg t ((apply t e).chan c).target) ((apply t e).chan c).pipe := by
  have addressed := h.routed.addressed
  rw [apply_pipe addressed acted c]
  by_cases inside : c < s.chanCount
  · have target : ((apply t e).chan c).target = (s.chan c).target := by
      rw [apply_chan]
      exact (acted_chan addressed acted c).2 inside
    rw [target]
    refine ((h.before c).mono fun x member => below_step cond acted (h.known c x member)).append ?_
    intro i x here y need
    obtain ⟨m, put, _⟩ := List.mem_flatMap.mp (List.mem_of_getElem? here)
    obtain ⟨rfl, only⟩ := putsTo_cases put
    rw [only, List.flatMap_singleton] at here ⊢
    have known := put_known h acted (List.mem_of_getElem? here)
    exact put_before h acted inside i x here y (below_step cond acted known need)
  · have nothing : e.putsTo c = [] := by
      rw [List.eq_nil_iff_forall_not_mem]
      intro m put
      obtain ⟨rfl, _⟩ := putsTo_cases put
      exact inside (acted_inside addressed acted)
    rw [pipe_empty addressed inside, nothing]
    exact Preceded.closed_nil

theorem step_ordered {cfg : Config} {s t : Plane} {a : Label} (h : Ordered cfg s) (cond : Local s a)
    (hs : step cfg s a = some t) : Ordered cfg t := by
  have orderly : Orderly cfg s a :=
    orderly_of_noStreams h.noStreams h.routed.addressed cond.2.2.2
  have routed := step_routed h.routed orderly.1 orderly.2.1 hs
  have noStreams := step_noStreams h.noStreams cond.1 hs
  obtain ⟨s', e, _, acted, rfl⟩ := step_inv hs
  refine ⟨routed, noStreams, ?_, ?_, ?_, ?_⟩
  · intro c c'
    rw [apply_chanCount, apply_chan, apply_chan]
    exact acted_unique h cond.2.1 acted c c'
  · rw [apply_received]
    exact acted_increasing h cond.2.2.1 acted
  · intro c x member source
    have known := step_known h acted c x member source
    exact known.mono (by rw [apply_watermarks]; exact List.Subset.refl _)
      (by rw [apply_received]; exact List.Subset.refl _)
  · intro c
    have same : below cfg (apply s' e) ((apply s' e).chan c).target =
        below cfg s' ((apply s' e).chan c).target := by
      funext x
      simp only [below, apply_received]
    rw [same]
    exact step_before h cond acted c

theorem initial_ordered (cfg : Config) : Ordered cfg (initial cfg) where
  routed := initial_routed cfg
  noStreams := initial_noStreams cfg
  unique := by rintro _ _ ⟨⟩
  increasing := List.Pairwise.nil
  known := by rintro _ _ ⟨⟩
  before := fun _ => Preceded.closed_nil

end Routing
