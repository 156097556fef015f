import S2SProxy.SystemPeers

/- Senders of one target that follow each other. What was put into the channel of an older
   sender is lost with it unless the target has acknowledged it, and the acks of the newer
   one speak for the whole target: they are sound only if nothing unacknowledged was left
   behind below them. -/
namespace ReplicationSystem
open ShardData Routing StreamSender GuardedRuns

def tasksPut (X : ClusterShardID) (ch : SendChan) : List ReplicationTask :=
  (ch.puts.filter fun m => m.sourceShard = X).flatMap fun m => m.resp.replicationTasks

/-- The target has acknowledged the task on the stream of this sender. -/
def Acked (cfg : Config) (s : System) (c : Nat) (t : ReplicationTask) : Prop :=
  ∃ k < (s.peer c).sender.log.allocated.length,
    (s.peer c).sender.log.allocated[k]? = some (taskEntry cfg.source t) ∧
    ∃ w ∈ (s.peer c).acks ++ (s.peer c).sender.received, (k : Int) + 1 < w

instance (cfg : Config) (s : System) (c : Nat) (t : ReplicationTask) :
    Decidable (Acked cfg s c t) :=
  inferInstanceAs (Decidable (∃ k < _, _ ∧ _))

def Replaces (s : Plane) (c c₀ : Nat) : Prop :=
  c₀ < c ∧ c < s.chanCount ∧ (s.chan c₀).target = (s.chan c).target

instance (s : Plane) (c c₀ : Nat) : Decidable (Replaces s c c₀) :=
  inferInstanceAs (Decidable (_ ∧ _ ∧ _))

/-- No entry of a sender stands above a task that was left behind with an older one. -/
def NoneStranded (cfg : Config) (s : System) : Prop :=
  ∀ c c₀, Replaces s.plane c c₀ → ∀ t ∈ tasksPut cfg.source (s.plane.chan c₀),
    ∀ e ∈ (s.plane.chan c).pipe, e.mapping.sourceShard = cfg.source →
      t.sourceTaskID < e.mapping.sourceTask →
        Acked cfg s c₀ t ∨ t ∈ tasksPut cfg.source (s.plane.chan c)

/-- The smaller tasks put to the predecessors of c are acknowledged, have been put to c as
    well or are part of the message. -/
def Resupplies (cfg : Config) (s : System) (c : Nat) (m : RoutedMessage) : Prop :=
  ∀ c₀ < c, Replaces s.plane c c₀ → ∀ t ∈ tasksPut cfg.source (s.plane.chan c₀),
    ∀ e ∈ entriesOf m, t.sourceTaskID < e.mapping.sourceTask →
      Acked cfg s c₀ t ∨ t ∈ tasksPut cfg.source (s.plane.chan c) ∨ t ∈ m.resp.replicationTasks

/-- No successor of c has been put anything above a task of the message. -/
def NotTooLate (cfg : Config) (s : System) (c : Nat) (m : RoutedMessage) : Prop :=
  ∀ c' < s.plane.chanCount, Replaces s.plane c' c → ∀ t ∈ m.resp.replicationTasks,
    ∀ e ∈ (s.plane.chan c').pipe, e.mapping.sourceShard = cfg.source →
      t.sourceTaskID < e.mapping.sourceTask → t ∈ tasksPut cfg.source (s.plane.chan c')

/-- What each put of a message of the source into a channel must respect. -/
def Resupplied (cfg : Config) (s : System) : SystemLabel → Prop
  | .plane a =>
    match effectOf cfg s.plane a with
    | some (.put c m) =>
      m.sourceShard = cfg.source → Resupplies cfg s c m ∧ NotTooLate cfg s c m
    | _ => True
  | _ => True

instance (cfg : Config) (s : System) (c : Nat) (m : RoutedMessage) :
    Decidable (Resupplies cfg s c m) :=
  inferInstanceAs (Decidable (∀ c₀ < c, _ → ∀ t ∈ _, ∀ e ∈ _, _ → _))

instance (cfg : Config) (s : System) (c : Nat) (m : RoutedMessage) :
    Decidable (NotTooLate cfg s c m) :=
  inferInstanceAs (Decidable (∀ c' < s.plane.chanCount, _ → ∀ t ∈ _, ∀ e ∈ _, _ → _ → _))

instance (cfg : Config) (s : System) (a : SystemLabel) : Decidable (Resupplied cfg s a) := by
  unfold Resupplied
  split
  · split <;> infer_instance
  · infer_instance

theorem Acked.grows {cfg : Config} {s t : System} {c : Nat} {task : ReplicationTask}
    (h : Acked cfg s c task) (grows : PeerGrows (s.peer c) (t.peer c)) : Acked cfg t c task := by
  obtain ⟨k, inside, entry, w, acked, below⟩ := h
  obtain ⟨tail, longer⟩ := grows.allocated
  have still : (t.peer c).sender.log.allocated[k]? = some (taskEntry cfg.source task) := by
    rw [← longer, List.getElem?_append_left inside, entry]
  exact ⟨k, (List.getElem?_eq_some_iff.mp still).1, still, w, grows.acked acked, below⟩

theorem mem_tasksPut {X : ClusterShardID} {ch : SendChan} {t : ReplicationTask} :
    t ∈ tasksPut X ch ↔ ∃ m ∈ ch.puts, m.sourceShard = X ∧ t ∈ m.resp.replicationTasks := by
  simp [tasksPut, and_assoc]

theorem tasksPut_grows {X : ClusterShardID} {ch ch' : SendChan} {t : ReplicationTask}
    {more : List RoutedMessage} (h : t ∈ tasksPut X ch) (puts : ch'.puts = ch.puts ++ more) :
    t ∈ tasksPut X ch' := by
  obtain ⟨m, member, rest⟩ := mem_tasksPut.mp h
  exact mem_tasksPut.mpr ⟨m, puts ▸ List.mem_append_left more member, rest⟩

theorem mem_putsTo {e : Effect} {c : Nat} {m : RoutedMessage} (member : m ∈ e.putsTo c) :
    e = .put c m := by
  cases e with
  | put c' m' =>
    rw [Effect.putsTo] at member
    split at member
    · next here => rw [here, List.mem_singleton.mp member]
    · cases member
  | _ => cases member

theorem tasksPut_cases {X : ClusterShardID} {ch ch' : SendChan} {c : Nat} {e : Effect}
    {t : ReplicationTask} (puts : ch'.puts = ch.puts ++ e.putsTo c) (h : t ∈ tasksPut X ch') :
    t ∈ tasksPut X ch ∨ ∃ m, e = .put c m ∧ m.sourceShard = X ∧ t ∈ m.resp.replicationTasks := by
  obtain ⟨m, member, rest⟩ := mem_tasksPut.mp h
  rw [puts] at member
  rcases List.mem_append.mp member with old | new
  · exact .inl (mem_tasksPut.mpr ⟨m, old, rest⟩)
  · exact .inr ⟨m, mem_putsTo new, rest⟩

theorem pipe_cases {ch ch' : SendChan} {c : Nat} {e : Effect} {entry : Entry}
    (puts : ch'.puts = ch.puts ++ e.putsTo c) (h : entry ∈ ch'.pipe) :
    entry ∈ ch.pipe ∨ ∃ m, e = .put c m ∧ entry ∈ entriesOf m := by
  rw [SendChan.pipe, puts, List.flatMap_append] at h
  rcases List.mem_append.mp h with old | new
  · exact .inl old
  · obtain ⟨m, member, inside⟩ := List.mem_flatMap.mp new
    exact .inr ⟨m, mem_putsTo member, inside⟩

/- Only the sender that is started in a step is new, and nothing has been put to it. -/
theorem Replaces.before {cfg : Config} {s t : Plane} {a : Label} {c c₀ : Nat} (h : Addressed s)
    (hs : Routing.step cfg s a = some t) (replaces : Replaces t c c₀) (used : (t.chan c).pipe ≠ []) :
    Replaces s c c₀ := by
  obtain ⟨s', e, enabled, acted, applied⟩ := Routing.step_inv hs
  obtain ⟨e', same, after⟩ := step_puts h hs
  obtain rfl : e = e' := by
    rw [effectOf, enabled] at same
    exact Option.some.inj same
  have inside : c < s.chanCount := by
    by_contra outside
    refine used ?_
    have none : e.putsTo c = [] := by
      by_contra some
      obtain ⟨m, member⟩ := List.exists_mem_of_ne_nil _ some
      have within := acted_inside h acted
      rw [mem_putsTo member] at within
      exact outside within
    rw [SendChan.pipe, (after c).1, none, h.freshChan c (by omega)]
    rfl
  obtain ⟨later, _, target⟩ := replaces
  refine ⟨later, inside, ?_⟩
  rw [← (after c₀).2.1 (by omega), ← (after c).2.1 inside]
  exact target

/- A step of the plane, with what it puts, leaves nothing stranded. -/
theorem plane_noneStranded {cfg : Config} {s t : System} {a : Label} (wired : Wired s)
    (h : NoneStranded cfg s) (cond : Resupplied cfg s (.plane a))
    (hs : Routing.step cfg s.plane a = some t.plane)
    (grows : ∀ c, PeerGrows (s.peer c) (t.peer c)) : NoneStranded cfg t := by
  intro c c₀ replaces task put entry member source above
  have before := replaces.before wired.addressed hs (List.ne_nil_of_mem member)
  obtain ⟨e, effect, after⟩ := step_puts wired.addressed hs
  simp only [Resupplied, effect] at cond
  rcases tasksPut_cases (after c₀).1 put with put | ⟨m, rfl, own, carried⟩
  · rcases pipe_cases (after c).1 member with member | ⟨m, rfl, inside⟩
    · rcases h c c₀ before task put entry member source above with acked | again
      · exact .inl (acked.grows (grows c₀))
      · exact .inr (tasksPut_grows again (after c).1)
    · have own : m.sourceShard = cfg.source := (entriesOf_source inside).symm.trans source
      rcases (cond own).1 c₀ before.1 before task put entry inside above with acked | again | here
      · exact .inl (acked.grows (grows c₀))
      · exact .inr (tasksPut_grows again (after c).1)
      · exact .inr (mem_tasksPut.mpr ⟨m, by rw [(after c).1]; simp [Effect.putsTo], own, here⟩)
  · rcases pipe_cases (after c).1 member with member | ⟨m', same, inside⟩
    · have again := (cond own).2 c before.2.1 before task carried entry member source above
      exact .inr (tasksPut_grows again (after c).1)
    · cases same
      exact absurd before.1 (Nat.lt_irrefl c)

theorem take_silent {cfg : Config} {s t : Plane} {c : Nat}
    (hs : Routing.step cfg s (.take c) = some t) : effectOf cfg s (.take c) = some .silent := by
  obtain ⟨s', e, enabled, acted, _⟩ := Routing.step_inv hs
  rw [effectOf, enabled]
  cases acted with
  | take => rfl
  | receiver acted => cases acted
  | stream acted => cases acted

theorem step_noneStranded {cfg : Config} {s t : System} {a : SystemLabel} (wired : Wired s)
    (h : NoneStranded cfg s) (cond : Resupplied cfg s a) (hs : step cfg s a = some t) :
    NoneStranded cfg t := by
  have grows := step_peers hs
  have still (same : t.plane = s.plane) : NoneStranded cfg t := by
    intro c c₀ replaces task put entry member source above
    rw [same] at replaces put member ⊢
    exact (h c c₀ replaces task put entry member source above).imp_left
      fun acked => acked.grows (grows c₀)
  cases step_inv hs with
  | plane notTake stepped => exact plane_noneStranded wired h cond stepped grows
  | @take c m plane sender head taken stepped =>
    have silent : Resupplied cfg s (.plane (.take c)) := by simp [Resupplied, take_silent taken]
    exact plane_noneStranded wired h silent taken grows
  | _ => exact still rfl

theorem initial_noneStranded (cfg : Config) : NoneStranded cfg (initial cfg) := by
  rintro c c₀ replaces t put
  obtain ⟨m, member, _⟩ := mem_tasksPut.mp put
  cases member

theorem new_sender_acks_cover_no_stranded_task (cfg : Config) (labels : List SystemLabel)
    (s : System) (meets : Meets (step cfg) (Resupplied cfg) (initial cfg) labels)
    (h : run (step cfg) (initial cfg) labels = some s) (c c₀ : Nat)
    (replaces : Replaces s.plane c c₀) (d : Delivery) (forwarded : d ∈ (s.peer c).sender.delivered)
    (source : d.shard = cfg.source) (t : ReplicationTask)
    (put : t ∈ tasksPut cfg.source (s.plane.chan c₀)) (covers : t.sourceTaskID < d.ack) :
    Acked cfg s c₀ t ∨ t ∈ tasksPut cfg.source (s.plane.chan c) := by
  have preserved (s : System) (a : SystemLabel) (t : System)
      (inv : Wired s ∧ NoneStranded cfg s) (cond : Resupplied cfg s a)
      (hs : step cfg s a = some t) : Wired t ∧ NoneStranded cfg t :=
    ⟨step_wired inv.1 hs, step_noneStranded inv.1 inv.2 cond hs⟩
  have inv := run_invariant preserved ⟨initial_wired cfg, initial_noneStranded cfg⟩ meets h
  obtain ⟨k, e, w, entry, mapped, _⟩ := (inv.1.peers c).sound.justified d forwarded
  have inPipe := (inv.1.allocated_pipe c).subset (List.mem_of_getElem? entry)
  refine inv.2 c c₀ replaces t put e inPipe ?_ ?_
  · rw [mapped, source]
  · rw [mapped]
    exact covers

set_option maxRecDepth 8000

def handoverRun : List SystemLabel :=
  [.plane (.startSender 0 ⟨2, 1⟩), .plane (.recvBatch ⟨[sampleTask 1 "a"], 2, 0⟩),
    .plane (.beginPass [⟨2, 1⟩]), .plane (.deliver .lookup), .plane (.deliver .put),
    .plane .finishBatch, .take 0, .sender 0 .transmit, .process 0 1, .targetAck 0 2,
    .plane (.closeChan 0), .plane (.removeChan 0), .plane (.startSender 0 ⟨2, 1⟩),
    .plane (.recvBatch ⟨[sampleTask 2 "a"], 3, 0⟩), .plane (.beginPass [⟨2, 1⟩]),
    .plane (.deliver .lookup), .plane (.deliver .put), .plane .finishBatch, .take 1,
    .sender 1 .transmit, .process 1 1, .targetAck 1 2, .sender 1 (.recvWatermark 2),
    .sender 1 (.beginPass [⟨1, 1⟩]), .sender 1 (.attempt true)]

theorem new_sender_acks_cover_no_stranded_task_handover :
    ∃ s, run (step sampleConfig) (initial sampleConfig) handoverRun = some s ∧
      (s.peer 1).sender.delivered = [⟨⟨1, 1⟩, 2, true⟩] ∧
      (Acked sampleConfig s 0 (sampleTask 1 "a") ∨
        sampleTask 1 "a" ∈ tasksPut ⟨1, 1⟩ (s.plane.chan 1)) := by
  have meets : Meets (step sampleConfig) (Resupplied sampleConfig) (initial sampleConfig)
      handoverRun := by
    decide +kernel
  refine ⟨_, rfl, rfl, ?_⟩
  exact new_sender_acks_cover_no_stranded_task sampleConfig handoverRun _ meets
    rfl 1 0 ⟨by decide, by decide, rfl⟩ ⟨⟨1, 1⟩, 2, true⟩ (List.mem_singleton.mpr rfl) rfl
    (sampleTask 1 "a") (by decide) (by decide)

/-- The first sender stops with task 1 still in its channel; the second is sent task 2. -/
def restartRun : List SystemLabel :=
  [.plane (.startSender 0 ⟨2, 1⟩), .plane (.recvBatch ⟨[sampleTask 1 "a"], 2, 0⟩),
    .plane (.beginPass [⟨2, 1⟩]), .plane (.deliver .lookup), .plane (.deliver .put),
    .plane .finishBatch, .plane (.closeChan 0), .plane (.removeChan 0),
    .plane (.startSender 0 ⟨2, 1⟩), .plane (.recvBatch ⟨[sampleTask 2 "a"], 3, 0⟩),
    .plane (.beginPass [⟨2, 1⟩]), .plane (.deliver .lookup), .plane (.deliver .put),
    .plane .finishBatch, .take 1, .sender 1 .transmit, .process 1 1, .targetAck 1 2,
    .sender 1 (.recvWatermark 2), .sender 1 (.beginPass [⟨1, 1⟩]), .sender 1 (.attempt true)]

/-- The ack 2 that the second sender forwards covers task 1, which reached no target. -/
theorem restarted_sender_acks_stranded_task :
    ∃ s, run (step sampleConfig) (initial sampleConfig) restartRun = some s ∧
      Replaces s.plane 1 0 ∧ ⟨⟨1, 1⟩, 2, true⟩ ∈ (s.peer 1).sender.delivered ∧
      sampleTask 1 "a" ∈ tasksPut ⟨1, 1⟩ (s.plane.chan 0) ∧
      (sampleTask 1 "a").sourceTaskID < 2 ∧
      ¬ Acked sampleConfig s 0 (sampleTask 1 "a") ∧
      sampleTask 1 "a" ∉ tasksPut ⟨1, 1⟩ (s.plane.chan 1) := by
  refine ⟨_, rfl, ?_⟩
  decide +kernel

end ReplicationSystem
