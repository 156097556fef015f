import S2SProxy.SystemPeers

/- When the receiver of a source shard acknowledges m upstream, has every task below m been
   processed by its target? The value travels from a target's acknowledgement through the
   sender's ring and the minimum over targets; at each place it is safe for the target it
   came from. The minimum is safe for the source only if it is taken over every target that
   still has something to process. -/
namespace ReplicationSystem
open ShardData Routing StreamSender GuardedRuns

def Processed (cfg : Config) (s : System) (target : ClusterShardID) (t : ReplicationTask) : Prop :=
  ∃ (c k : Nat), (s.plane.chan c).target = target ∧
    (s.peer c).sender.log.allocated[k]? = some (taskEntry cfg.source t) ∧
    (k : Int) + 1 ∈ (s.peer c).processed

/-- Whatever was acknowledged upstream, all received tasks below it have been processed. -/
def AckSafe (cfg : Config) (s : System) : Prop :=
  ∀ m ∈ s.upstream, ∀ t ∈ s.plane.received, t.sourceTaskID < m →
    ∀ target, route cfg t = some target → Processed cfg s target t

/-- One node, one sender for each target, increasing task ids. -/
def LocalStep (s : System) : SystemLabel → Prop
  | .plane a => Local s.plane a
  | _ => True

/-- A target acknowledges at most the exclusive high watermark it was last sent. -/
def WithinSent (s : System) : SystemLabel → Prop
  | .targetAck c w => w ≤ (s.peer c).sender.lastSentWatermark
  | _ => True

/-- When an ack is taken, each target with an unprocessed task has an entry in ackByTarget. -/
def AllReported (cfg : Config) (s : System) : SystemLabel → Prop
  | .takeAck => ∀ t ∈ s.plane.received, ∀ target, route cfg t = some target →
      Processed cfg s target t ∨ target ∈ s.ackByTarget ∨
        s.ackChan.head?.map RoutedAck.targetShard = some target
  | _ => True

def AckConditions (cfg : Config) (s : System) (a : SystemLabel) : Prop :=
  LocalStep s a ∧ WithinSent s a ∧ AllReported cfg s a

def Covered (p : Peer) : Prop :=
  ∀ w ∈ p.acks ++ p.sender.received, w ≤ p.sender.log.allocated.length + 1 ∧
    ∀ (k : Nat) (e : Entry), p.sender.log.allocated[k]? = some e → e.isTask = true →
      (k : Int) + 1 < w → (k : Int) + 1 ∈ p.processed

/-- The value is one of the source's, and all tasks for the target below it are processed. -/
def SafeAck (cfg : Config) (s : System) (target : ClusterShardID) (v : Int) : Prop :=
  Known s.plane v ∧ ∀ t ∈ s.plane.received, route cfg t = some target → t.sourceTaskID < v →
    Processed cfg s target t

def Final (cfg : Config) (s : System) (m : Int) : Prop :=
  (∃ v, Known s.plane v ∧ m ≤ v) ∧ ∀ t ∈ s.plane.received, t.sourceTaskID < m →
    ∀ target, route cfg t = some target → Processed cfg s target t

structure AckInv (cfg : Config) (s : System) : Prop where
  wired : Wired s
  ordered : Ordered cfg s.plane
  covered : ∀ c, Covered (s.peer c)
  acks : ∀ r ∈ s.ackChan ++ s.relay, SafeAck cfg s r.targetShard r.inclusiveLowWatermark
  table : ∀ target v, s.ackByTarget.lookup target = some v → SafeAck cfg s target v
  final : ∀ m, m ∈ s.upstream ∨ s.sending = some m ∨ s.lastSentAck = some m → Final cfg s m

structure Later (cfg : Config) (s t : System) : Prop where
  processed : ∀ target task, Processed cfg s target task → Processed cfg t target task
  known : ∀ v, Known s.plane v → Known t.plane v
  fresh : ∀ task ∈ t.plane.received, task ∈ s.plane.received ∨
    ∀ v, Known s.plane v → v ≤ task.sourceTaskID

theorem SafeAck.later {cfg : Config} {s t : System} {target : ClusterShardID} {v : Int}
    (h : SafeAck cfg s target v) (later : Later cfg s t) : SafeAck cfg t target v := by
  refine ⟨later.known v h.1, fun task member routed below => ?_⟩
  rcases later.fresh task member with old | new
  · exact later.processed target task (h.2 task old routed below)
  · have := new v h.1
    omega

theorem Final.later {cfg : Config} {s t : System} {m : Int} (h : Final cfg s m)
    (later : Later cfg s t) : Final cfg t m := by
  obtain ⟨⟨v, known, bound⟩, all⟩ := h
  refine ⟨⟨v, later.known v known, bound⟩, fun task member below target routed => ?_⟩
  rcases later.fresh task member with old | new
  · exact later.processed target task (all task old below target routed)
  · have := new v known
    omega

theorem processed_mono {cfg : Config} {s t : System} {target : ClusterShardID} {task : ReplicationTask}
    (wired : Wired s)
    (peers : ∀ c, PeerGrows (s.peer c) (t.peer c))
    (targets : ∀ c < s.plane.chanCount, (t.plane.chan c).target = (s.plane.chan c).target)
    (h : Processed cfg s target task) : Processed cfg t target task := by
  obtain ⟨c, k, address, entry, done⟩ := h
  obtain ⟨tail, longer⟩ := (peers c).allocated
  have inside : c < s.plane.chanCount := by
    by_contra outside
    have log := (wired.peers c).log
    rw [wired.addressed.freshChan c (by omega)] at log
    rw [log] at entry
    simp [emptyChan] at entry
  refine ⟨c, k, (targets c inside).trans address, ?_, (peers c).processed done⟩
  rw [← longer, List.getElem?_append_left (List.getElem?_eq_some_iff.mp entry).1, entry]

/- The acknowledgement of an entry is safe: the tasks it must not overtake are numbered
   before it, hence below the target's watermark. -/
theorem justified_safe {cfg : Config} {s : System} (wired : Wired s) (ordered : Ordered cfg s.plane)
    {c : Nat} (covered : Covered (s.peer c)) {v : Int}
    (h : Justified (s.peer c).sender.log.allocated (s.peer c).sender.received cfg.source v) :
    SafeAck cfg s (s.plane.chan c).target v := by
  obtain ⟨k, e, w, entry, mapped, received, within⟩ := h
  obtain ⟨tail, longer⟩ := wired.allocated_pipe c
  have inside := (List.getElem?_eq_some_iff.mp entry).1
  have inPipe : (s.plane.chan c).pipe[k]? = some e := by
    rw [← longer, List.getElem?_append_left inside, entry]
  have source : e.mapping.sourceShard = cfg.source := by rw [mapped]
  have value : e.mapping.sourceTask = v := by rw [mapped]
  refine ⟨value ▸ ordered.known c e (List.mem_of_getElem? inPipe) source, ?_⟩
  intro task member routed below
  obtain ⟨j, before, at_j⟩ := ordered.before c k e inPipe (taskEntry cfg.source task)
    ⟨source, task, member, routed, by omega, rfl⟩
  rw [← longer, List.getElem?_append_left (by omega)] at at_j
  have done := (covered w (List.mem_append_right _ received)).2 j _ at_j rfl (by omega)
  exact ⟨c, j, rfl, at_j, done⟩

/-! The minimum over the targets. -/

def lower (min : Option Int) (e : Sigma fun _ : ClusterShardID => Int) : Option Int :=
  match min with
  | none => some e.2
  | some low => if e.2 < low then some e.2 else some low

theorem minAck_loop (es : List (Sigma fun _ : ClusterShardID => Int)) (start : Option Int) {v : Int}
    (h : es.foldl lower start = some v) :
    (start = some v ∨ ∃ e ∈ es, e.2 = v) ∧ (∀ u, start = some u → v ≤ u) ∧ ∀ e ∈ es, v ≤ e.2 := by
  induction es generalizing start with
  | nil =>
    simp only [List.foldl_nil] at h
    subst h
    simp
  | cons e rest ih =>
    obtain ⟨origin, bound, all⟩ := ih (lower start e) h
    have here : v ≤ e.2 ∧ (∀ u, start = some u → v ≤ u) ∧
        (lower start e = some v → start = some v ∨ e.2 = v) := by
      cases start with
      | none => exact ⟨bound _ rfl, by simp, fun same => .inr (Option.some.inj same)⟩
      | some low =>
        simp only [lower] at bound ⊢
        split at bound <;> split <;> grind
    refine ⟨?_, here.2.1, ?_⟩
    · rcases origin with first | ⟨e', member, value⟩
      · exact (here.2.2 first).imp_right fun value => ⟨e, by simp, value⟩
      · exact .inr ⟨e', List.mem_cons_of_mem e member, value⟩
    · intro e' member
      rcases List.mem_cons.mp member with rfl | later
      · exact here.1
      · exact all e' later

theorem minAck_spec {acks : ShardMap} {v : Int} (h : minAck acks = some v) :
    (∃ target, acks.lookup target = some v) ∧ ∀ target u, acks.lookup target = some u → v ≤ u := by
  obtain ⟨origin, _, all⟩ := minAck_loop acks.entries none h
  constructor
  · rcases origin with none | ⟨⟨target, value⟩, member, rfl⟩
    · cases none
    · exact ⟨target, AList.mem_lookup_iff.mpr member⟩
  · intro target u found
    exact all ⟨target, u⟩ (AList.mem_lookup_iff.mp found)

theorem clamp_le (high min : Int) : clamp high min ≤ min := by
  unfold clamp
  split <;> omega

/- The minimum over a table with an entry for every target that has work left. -/
theorem aggregated_final {cfg : Config} {s : System} {table : ShardMap}
    (safe : ∀ target v, table.lookup target = some v → SafeAck cfg s target v)
    (reported : ∀ t ∈ s.plane.received, ∀ target, route cfg t = some target →
      Processed cfg s target t ∨ target ∈ table)
    {m : Int} (h : s.aggregatedAck s.plane.lastExclusiveHighOriginal table = some m) : Final cfg s m := by
  obtain ⟨min, least, bounded⟩ := Option.bind_eq_some_iff.mp h
  simp only [Option.ite_none_right_eq_some, Option.some.injEq] at bounded
  obtain ⟨_, rfl⟩ := bounded
  obtain ⟨⟨target, found⟩, smallest⟩ := minAck_spec least
  have low := clamp_le s.plane.lastExclusiveHighOriginal min
  refine ⟨⟨min, (safe target min found).1, low⟩, ?_⟩
  intro task member below target' routed
  rcases reported task member target' routed with done | entry
  · exact done
  · obtain ⟨v, value⟩ := Option.isSome_iff_exists.mp (AList.lookup_isSome.mpr entry)
    have := smallest target' v value
    exact (safe target' v value).2 task member routed (by omega)

/-! One step. -/

theorem covered_sender {p : Peer} (h : Covered p) {l : SenderLabel} {sender : SenderRun}
    {acks : List Int} (incoming : p.acks = l.watermarks ++ acks)
    (stepped : StreamSender.step p.sender l = some sender) :
    Covered { p with sender := sender, acks := acks } := by
  intro w member
  have before : w ∈ p.acks ++ p.sender.received := by
    simp only [step_received stepped, incoming, List.mem_append] at member ⊢
    tauto
  obtain ⟨bound, done⟩ := h w before
  rw [step_allocated stepped]
  refine ⟨?_, ?_⟩
  · rw [List.length_append]
    push_cast
    omega
  · intro k e here task below
    by_cases old : k < p.sender.log.allocated.length
    · rw [List.getElem?_append_left old] at here
      exact done k e here task below
    · omega

theorem covered_targetAck {p : Peer} (h : Covered p) (transmitted : Transmitted p.sender) {w : Int}
    (allowed : AckAllowed p w) (within : w ≤ p.sender.lastSentWatermark) :
    Covered { p with acks := p.acks ++ [w] } := by
  intro w' member
  simp only [List.mem_append, List.mem_singleton] at member
  rcases member with (old | rfl) | old
  · exact h w' (List.mem_append_left _ old)
  · constructor
    · obtain ⟨n, bound, last, _⟩ := transmitted
      change w' ≤ (p.sender.log.allocated.length : Int) + 1
      omega
    · intro k e here task below
      obtain ⟨m, sent, t, carried, id⟩ := sent_below transmitted within here task below
      exact id ▸ allowed m sent t carried (by omega)
  · exact h w' (List.mem_append_right _ old)

theorem step_covered {cfg : Config} {s t : System} {a : SystemLabel} (h : AckInv cfg s)
    (within : WithinSent s a) (hs : step cfg s a = some t) (c : Nat) : Covered (t.peer c) := by
  cases step_inv hs with
  | plane notTake stepped => exact h.covered c
  | @take c' m plane sender head taken stepped =>
    change Covered ((withPeer s c' fun p => { p with sender := sender }).peer c)
    rw [withPeer_peer]
    split
    · exact covered_sender (h.covered c') rfl stepped
    · exact h.covered c
  | @sender c' l sender acks toChan toRelay noMessage incoming stepped outgoing =>
    rw [afterSender_peer]
    split
    · exact covered_sender (h.covered c') incoming stepped
    · exact h.covered c
  | @process c' id =>
    rw [withPeer_peer]
    split
    · intro w member
      obtain ⟨bound, done⟩ := h.covered c' w member
      exact ⟨bound, fun k e here task below => List.mem_cons_of_mem id (done k e here task below)⟩
    · exact h.covered c
  | @targetAck c' w allowed =>
    rw [withPeer_peer]
    split
    · exact covered_targetAck (h.covered c') (h.wired.peers c').transmitted allowed within
    · exact h.covered c
  | relayAck | takeAck | sendUp | keepalive => exact h.covered c

theorem step_plane {cfg : Config} {s t : System} {a : SystemLabel} (hs : step cfg s a = some t)
    (cond : LocalStep s a) :
    t.plane = s.plane ∨ ∃ l, Local s.plane l ∧ Routing.step cfg s.plane l = some t.plane := by
  cases step_inv hs with
  | plane notTake stepped => exact .inr ⟨_, cond, stepped⟩
  | @take c m plane sender head taken stepped =>
    exact .inr ⟨.take c, ⟨trivial, trivial, trivial, trivial⟩, taken⟩
  | _ => exact .inl rfl

theorem step_later {cfg : Config} {s t : System} {a : SystemLabel} (h : AckInv cfg s)
    (cond : LocalStep s a) (hs : step cfg s a = some t) : Later cfg s t := by
  have peers := step_peers hs
  rcases step_plane hs cond with same | ⟨l, permitted, stepped⟩
  · refine ⟨fun target task => processed_mono h.wired peers (by simp [same]), ?_, ?_⟩
    · rw [same]
      exact fun v known => known
    · rw [same]
      exact fun task member => .inl member
  · obtain ⟨e, _, after⟩ := step_puts h.wired.addressed stepped
    refine ⟨fun target task => processed_mono h.wired peers fun c inside => (after c).2.1 inside, ?_, ?_⟩
    all_goals
      obtain ⟨s', e, _, acted, applied⟩ := Routing.step_inv stepped
      rw [applied]
    · intro v known
      exact known.mono (by rw [apply_watermarks]; exact acted_watermarks acted)
        (by rw [apply_received]; exact acted_received_subset acted)
    · intro task member
      rw [apply_received] at member
      rcases acted_received acted with same | ⟨m, rfl, more⟩
      · exact .inl (same ▸ member)
      · rw [more] at member
        exact (List.mem_append.mp member).imp_right fun new v known =>
          known_beyond known permitted.2.2.1 permitted.2.2.2 task new

theorem delivered_safe {cfg : Config} {s : System} (wired : Wired s) (ordered : Ordered cfg s.plane)
    (covered : ∀ c, Covered (s.peer c)) {c : Nat} {sender : SenderRun} {target : ClusterShardID}
    (own : (s.peer c).sender = sender ∧ (s.plane.chan c).target = target) {r : RoutedAck}
    (delivered : r ∈ routedAcks cfg target sender.delivered) :
    SafeAck cfg s r.targetShard r.inclusiveLowWatermark := by
  obtain ⟨rfl, rfl⟩ := own
  obtain ⟨d, member, rfl⟩ := List.mem_map.mp delivered
  obtain ⟨inside, source⟩ := List.mem_filter.mp member
  have justified := (wired.peers c).sound.justified d inside
  rw [of_decide_eq_true source] at justified
  exact justified_safe wired ordered (covered c) justified

theorem recorded_safe {cfg : Config} {s : System} (h : AckInv cfg s) {r : RoutedAck}
    (own : SafeAck cfg s r.targetShard r.inclusiveLowWatermark) {target : ClusterShardID} {v : Int}
    (found : (s.ackByTarget.insert r.targetShard r.inclusiveLowWatermark).lookup target = some v) :
    SafeAck cfg s target v := by
  by_cases here : target = r.targetShard
  · subst here
    rw [AList.lookup_insert] at found
    exact Option.some.inj found ▸ own
  · rw [AList.lookup_insert_ne here] at found
    exact h.table target v found

theorem step_keeps_order {cfg : Config} {s t : System} {a : SystemLabel} (h : AckInv cfg s)
    (cond : LocalStep s a) (hs : step cfg s a = some t) : Ordered cfg t.plane := by
  rcases step_plane hs cond with same | ⟨l, permitted, stepped⟩
  · rw [same]
    exact h.ordered
  · exact step_ordered h.ordered permitted stepped

theorem step_ackInv {cfg : Config} {s t : System} {a : SystemLabel} (h : AckInv cfg s)
    (cond : AckConditions cfg s a) (hs : step cfg s a = some t) : AckInv cfg t := by
  have wired := step_wired h.wired hs
  have later := step_later h cond.1 hs
  have covered := step_covered h cond.2.1 hs
  have ordered := step_keeps_order h cond.1 hs
  have acks : ∀ r ∈ s.ackChan ++ s.relay, SafeAck cfg t r.targetShard r.inclusiveLowWatermark :=
    fun r member => (h.acks r member).later later
  have table : ∀ target v, s.ackByTarget.lookup target = some v → SafeAck cfg t target v :=
    fun target v found => (h.table target v found).later later
  have final : ∀ m, m ∈ s.upstream ∨ s.sending = some m ∨ s.lastSentAck = some m → Final cfg t m :=
    fun m here => (h.final m here).later later
  cases step_inv hs with
  | @sender c l sender acked toChan toRelay noMessage incoming stepped outgoing =>
    refine ⟨wired, ordered, covered, ?_, table, final⟩
    intro r member
    have split : r ∈ s.ackChan ++ s.relay ∨ r ∈ toChan ++ toRelay := by
      simp only [afterSender, List.mem_append] at member ⊢
      tauto
    rcases split with old | new
    · exact acks r old
    · have own : ((afterSender s c sender acked toChan toRelay).peer c).sender = sender := by
        simp [afterSender_peer]
      exact delivered_safe wired ordered covered ⟨own, rfl⟩ (outgoing r new)
  | @relayAck k r here =>
    refine ⟨wired, ordered, covered, ?_, table, final⟩
    intro r' member
    refine acks r' ?_
    simp only [List.mem_append, List.mem_singleton] at member ⊢
    rcases member with (old | rfl) | rest
    · exact .inl old
    · exact .inr (List.mem_of_getElem? here)
    · exact .inr (List.mem_of_mem_eraseIdx rest)
  | @takeAck r rest head =>
    have recorded : ∀ target v,
        (s.ackByTarget.insert r.targetShard r.inclusiveLowWatermark).lookup target = some v →
          SafeAck cfg s target v :=
      fun target v => recorded_safe h (h.acks r (by simp [head]))
    have reported : ∀ t ∈ s.plane.received, ∀ target, route cfg t = some target →
        Processed cfg s target t ∨
          target ∈ s.ackByTarget.insert r.targetShard r.inclusiveLowWatermark := by
      intro task member target routed
      have := cond.2.2 task member target routed
      simp only [head, List.head?_cons, Option.map_some, Option.some.injEq] at this
      rw [AList.mem_insert]
      tauto
    refine ⟨wired, ordered, covered, ?_, ?_, ?_⟩
    · intro r' member
      refine acks r' ?_
      rw [head]
      exact List.mem_cons_of_mem r member
    · exact fun target v found => (recorded target v found).later later
    · rintro m (sent | sending | last)
      · exact final m (.inl sent)
      · exact (aggregated_final recorded reported sending).later later
      · exact final m (.inr (.inr last))
  | @sendUp m ready =>
    refine ⟨wired, ordered, covered, acks, table, ?_⟩
    rintro m' (sent | sending | last)
    · rcases List.mem_append.mp sent with old | new
      · exact final m' (.inl old)
      · rw [List.mem_singleton.mp new]
        exact final m (.inr (.inl ready))
    · cases sending
    · exact Option.some.inj last ▸ final m (.inr (.inl ready))
  | @keepalive m last =>
    refine ⟨wired, ordered, covered, acks, table, ?_⟩
    rintro m' (sent | rest)
    · rcases List.mem_append.mp sent with old | new
      · exact final m' (.inl old)
      · rw [List.mem_singleton.mp new]
        exact final m (.inr (.inr last))
    · exact final m' (.inr rest)
  | plane | take | process | targetAck => exact ⟨wired, ordered, covered, acks, table, final⟩

theorem initial_ackInv (cfg : Config) : AckInv cfg (initial cfg) where
  wired := initial_wired cfg
  ordered := initial_ordered cfg
  covered := by rintro _ _ ⟨⟩
  acks := by rintro _ ⟨⟩
  table := by rintro _ _ ⟨⟩
  final := by simp [initial, newSendAck]

theorem upstream_ack_safe (cfg : Config) (labels : List SystemLabel) (s : System)
    (meets : Meets (step cfg) (AckConditions cfg) (initial cfg) labels)
    (h : run (step cfg) (initial cfg) labels = some s) : AckSafe cfg s := by
  have inv : AckInv cfg s :=
    run_invariant (fun _ _ _ inv cond => step_ackInv inv cond) (initial_ackInv cfg) meets h
  intro m sent
  exact (inv.final m (.inl sent)).2

set_option maxRecDepth 8000

def sendBatch (m : WorkflowReplicationMessages) : List SystemLabel :=
  [.plane (.recvBatch m), .plane (.beginPass [⟨2, 1⟩, ⟨2, 2⟩]), .plane (.deliver .lookup),
    .plane (.deliver .put), .plane (.deliver .lookup), .plane (.deliver .put), .plane .finishBatch,
    .take 0, .sender 0 .transmit, .take 1, .sender 1 .transmit]

def ackUpstream (c : Nat) (w : Int) : List SystemLabel :=
  [.targetAck c w, .sender c (.recvWatermark w), .sender c (.beginPass [⟨1, 1⟩]),
    .sender c (.attempt true), .sender c .finishRound, .takeAck, .sendUp]

/-- Two targets, two batches. The second target (channel 1) lags behind in the first batch and
    holds the minimum down; the first one does so in the second batch. -/
def settledRun : List SystemLabel :=
  List.flatten [[.plane (.startSender 0 ⟨2, 1⟩), .plane (.startSender 0 ⟨2, 2⟩)],
    sendBatch ⟨[sampleTask 1 "bb", sampleTask 2 "a"], 3, 0⟩, [.process 0 1, .process 1 1],
    ackUpstream 1 2, ackUpstream 0 2,
    sendBatch ⟨[sampleTask 3 "bb", sampleTask 4 "a"], 5, 0⟩, [.process 1 2], ackUpstream 1 3,
    [.process 0 2], ackUpstream 0 3]

theorem settledRun_meets :
    Meets (step sampleConfig) (AckConditions sampleConfig) (initial sampleConfig) settledRun := by
  have silent : True ∧ True ∧ True := ⟨trivial, trivial, trivial⟩
  have inner : (True ∧ True ∧ True ∧ True) ∧ True ∧ True := ⟨⟨trivial, silent⟩, trivial, trivial⟩
  have first : OneSender (initial sampleConfig).plane (.startSender 0 ⟨2, 1⟩) := by
    rintro _ ⟨⟩
  have second : ∀ c < 1, ((startSender (initial sampleConfig).plane 0 ⟨2, 1⟩).chan c).target ≠
      ⟨2, 2⟩ := by decide
  refine ⟨⟨⟨trivial, first, trivial, trivial⟩, trivial, trivial⟩,
    ⟨⟨trivial, second, trivial, trivial⟩, trivial, trivial⟩,
    ⟨⟨trivial, trivial, ⟨by decide, by decide⟩, by rintro _ _ _ ⟨⟩⟩, trivial, trivial⟩,
    inner, inner, inner, inner, inner, inner, silent, silent, silent, silent, silent, silent,
    ⟨trivial, Int.le_refl 2, trivial⟩, silent, silent, silent, silent, ⟨trivial, trivial, ?_⟩, silent,
    ⟨trivial, Int.le_refl 2, trivial⟩, silent, silent, silent, silent, ⟨trivial, trivial, ?_⟩, silent,
    ⟨⟨trivial, trivial, ⟨by decide, by decide⟩, by rintro _ _ _ ⟨⟩⟩, trivial, trivial⟩,
    inner, inner, inner, inner, inner, inner, silent, silent, silent, silent, silent,
    ⟨trivial, Int.le_refl 3, trivial⟩, silent, silent, silent, silent, ⟨trivial, trivial, ?_⟩, silent,
    silent, ⟨trivial, Int.le_refl 3, trivial⟩, silent, silent, silent, silent,
    ⟨trivial, trivial, ?_⟩, silent, trivial⟩
  · intro t member target routed
    fin_cases member
    · exact .inr (.inr routed)
    · cases routed
      exact .inl ⟨0, 0, rfl, rfl, by decide⟩
  · intro t member target routed
    fin_cases member <;> cases routed
    · exact .inr (.inl (by decide))
    · exact .inr (.inr rfl)
  -- from here on both targets have an entry
  all_goals
    intro t member target routed
    fin_cases member <;> cases routed <;> exact .inr (.inl (by decide))

theorem upstream_ack_safe_settled :
    ∃ s, run (step sampleConfig) (initial sampleConfig) settledRun = some s ∧
      s.upstream = [1, 1, 2, 3] ∧ Processed sampleConfig s ⟨2, 2⟩ (sampleTask 1 "bb") ∧
      Processed sampleConfig s ⟨2, 1⟩ (sampleTask 2 "a") := by
  have safe := upstream_ack_safe sampleConfig settledRun _ settledRun_meets rfl 3 (by decide)
  refine ⟨_, rfl, rfl, ?_, ?_⟩
  · exact safe (sampleTask 1 "bb") (by decide) (by decide) _ (by decide)
  · exact safe (sampleTask 2 "a") (by decide) (by decide) _ (by decide)

/-- The first target acknowledges its task before the second one has been heard of. -/
def lazyRun : List SystemLabel :=
  [.plane (.startSender 0 ⟨2, 1⟩), .plane (.startSender 0 ⟨2, 2⟩),
    .plane (.recvBatch ⟨[sampleTask 1 "bb", sampleTask 2 "a"], 3, 0⟩),
    .plane (.beginPass [⟨2, 1⟩, ⟨2, 2⟩]), .plane (.deliver .lookup), .plane (.deliver .put),
    .plane (.deliver .lookup), .plane (.deliver .put), .plane .finishBatch, .take 0,
    .sender 0 .transmit, .process 0 1, .targetAck 0 2, .sender 0 (.recvWatermark 2),
    .sender 0 (.beginPass [⟨1, 1⟩]), .sender 0 (.attempt true), .sender 0 .finishRound, .takeAck,
    .sendUp]

/-- The minimum is taken over the first target alone: 2 is acknowledged upstream, although
    task 1 has been put into the channel of the second target and no further. -/
theorem minimum_skips_silent_target :
    ∃ s, run (step sampleConfig) (initial sampleConfig) lazyRun = some s ∧
      2 ∈ s.upstream ∧ sampleTask 1 "bb" ∈ s.plane.received ∧
      route sampleConfig (sampleTask 1 "bb") = some ⟨2, 2⟩ ∧
      (sampleTask 1 "bb").sourceTaskID < 2 ∧
      ¬ Processed sampleConfig s ⟨2, 2⟩ (sampleTask 1 "bb") := by
  refine ⟨_, rfl, by decide, by decide, by decide, by decide, ?_⟩
  rintro ⟨c, k, address, entry, _⟩
  rcases c with _ | _ | c
  · exact absurd address (by decide)
  · cases entry
  · cases entry

end ReplicationSystem
