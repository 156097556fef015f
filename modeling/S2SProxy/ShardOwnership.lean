import S2SProxy.Lib.GuardedRuns
import S2SProxy.ShardData

/- The shards that each proxy node holds. RegisterShard, UnregisterShard and NotifyMsg run in
   goroutines of their own; each of their locked sections is one step, and between two
   sections any other call may take its own. -/
namespace ShardOwnership
open ShardData GuardedRuns

/-- An entry of localShards. Times are read off the common clock of the nodes. -/
structure ShardInfo where
  id : ClusterShardID
  created : Nat
  deriving DecidableEq, Repr

abbrev LocalShards := AList fun _ : ClusterShardID => ShardInfo

inductive MessageType where
  | register
  | unregister
  deriving DecidableEq, Repr

structure ShardMessage where
  type : MessageType
  nodeName : String
  clientShard : ClusterShardID
  timestamp : Nat
  deriving DecidableEq, Repr

/-- A goroutine, by the section it takes next. -/
inductive Call where
  | addLocalShard (shard : ClusterShardID)
  | broadcastRegister (shard : ClusterShardID)
  | compare (shard : ClusterShardID) (expectedRegisteredAt : Nat)
  | removeLocalShard (shard : ClusterShardID) (expectedRegisteredAt : Nat)
  | broadcastUnregister (shard : ClusterShardID)
  | notifyMsg (msg : ShardMessage)
  | returned
  deriving DecidableEq, Repr

/-- The shard and time of the UnregisterShard that the call is in. -/
def Call.unregisters : Call → Option (ClusterShardID × Nat)
  | .compare shard expected => some (shard, expected)
  | .removeLocalShard shard expected => some (shard, expected)
  | _ => none

structure Section where
  shards : LocalShards
  next : Call
  sent : List (String × ShardMessage)

/-- broadcastShardChange sends to every node of remoteNodeStates but its own. -/
def broadcastShardChange (peers : String → List String) (node : String) (type : MessageType)
    (shard : ClusterShardID) (now : Nat) : List (String × ShardMessage) :=
  ((peers node).filter (· ≠ node)).map fun peer => (peer, ⟨type, node, shard, now⟩)

def notifyMsg (shards : LocalShards) (msg : ShardMessage) : Call :=
  match msg.type with
  | .unregister => .returned
  | .register =>
    match shards.lookup msg.clientShard with
    | none => .returned
    | some localShard =>
      if localShard.created < msg.timestamp then .compare msg.clientShard localShard.created
      else .returned

/-- One section of a call. -/
def advance (peers : String → List String) (node : String) (shards : LocalShards) (now : Nat) :
    Call → Option Section
  | .addLocalShard shard => some ⟨shards.insert shard ⟨shard, now⟩, .broadcastRegister shard, []⟩
  | .broadcastRegister shard =>
    some ⟨shards, .returned, broadcastShardChange peers node .register shard now⟩
  | .compare shard expected =>
    if (shards.lookup shard).any (·.created = expected) then
      some ⟨shards.erase shard, .removeLocalShard shard expected, []⟩
    else some ⟨shards, .returned, []⟩
  | .removeLocalShard shard _ => some ⟨shards.erase shard, .broadcastUnregister shard, []⟩
  | .broadcastUnregister shard =>
    some ⟨shards, .returned, broadcastShardChange peers node .unregister shard now⟩
  | .notifyMsg msg => some ⟨shards, notifyMsg shards msg, []⟩
  | .returned => none

/-- A time a node has taken for a shard. -/
structure Stamp where
  node : String
  shard : ClusterShardID
  time : Nat
  deriving DecidableEq, Repr

structure Removal where
  expected : Nat
  entry : ShardInfo
  deriving DecidableEq, Repr

/-- The nodes, their goroutines and the messages under way; with the history of
    registrations, of register messages and of removals. -/
structure Cluster where
  localShards : String → LocalShards
  calls : List (String × Call)
  network : List (String × ShardMessage)
  now : Nat
  registered : List Stamp
  announced : List Stamp
  removals : List Removal

def initial : Cluster := ⟨fun _ => ∅, [], [], 0, [], [], []⟩

inductive Label where
  | registerShard (node : String) (shard : ClusterShardID)
  | unregisterShard (node : String) (shard : ClusterShardID) (expectedRegisteredAt : Nat)
  | deliver (index : Nat)
  | proceed (call : Nat) (time : Nat)
  deriving DecidableEq, Repr

def registration (node : String) (now : Nat) : Call → List Stamp
  | .addLocalShard shard => [⟨node, shard, now⟩]
  | _ => []

def announcement (node : String) (now : Nat) : Call → List Stamp
  | .broadcastRegister shard => [⟨node, shard, now⟩]
  | _ => []

/-- The entry that was there before a section of UnregisterShard and is not there after it. -/
def removal (before after : LocalShards) (call : Call) : List Removal :=
  match call.unregisters with
  | none => []
  | some (shard, expected) =>
    match before.lookup shard, after.lookup shard with
    | some entry, none => [⟨expected, entry⟩]
    | _, _ => []

def Cluster.proceed (s : Cluster) (i : Nat) (node : String) (call : Call) (time : Nat)
    (done : Section) : Cluster where
  localShards := Function.update s.localShards node done.shards
  calls := s.calls.set i (node, done.next)
  network := s.network ++ done.sent
  now := time
  registered := s.registered ++ registration node time call
  announced := s.announced ++ announcement node time call
  removals := s.removals ++ removal (s.localShards node) done.shards call

def step (peers : String → List String) (s : Cluster) : Label → Option Cluster
  | .registerShard node shard => some { s with calls := s.calls ++ [(node, .addLocalShard shard)] }
  | .unregisterShard node shard expected =>
    some { s with calls := s.calls ++ [(node, .compare shard expected)] }
  | .deliver i =>
    match s.network[i]? with
    | none => none
    | some (node, msg) =>
      some { s with network := s.network.eraseIdx i, calls := s.calls ++ [(node, .notifyMsg msg)] }
  | .proceed i time =>
    if time < s.now then none
    else
      match s.calls[i]? with
      | none => none
      | some (node, call) =>
        (advance peers node (s.localShards node) time call).map (s.proceed i node call time)

inductive Stepped (peers : String → List String) (s : Cluster) : Label → Cluster → Prop
  | start {node : String} {label : Label} (call : Call)
      (fresh : (∃ shard, label = .registerShard node shard ∧ call = .addLocalShard shard) ∨
        ∃ shard expected, label = .unregisterShard node shard expected ∧
          call = .compare shard expected) :
      Stepped peers s label { s with calls := s.calls ++ [(node, call)] }
  | deliver {i : Nat} {node : String} {msg : ShardMessage} (sent : s.network[i]? = some (node, msg)) :
      Stepped peers s (.deliver i)
        { s with network := s.network.eraseIdx i, calls := s.calls ++ [(node, .notifyMsg msg)] }
  | proceed {i : Nat} {time : Nat} {node : String} {call : Call} {done : Section}
      (later : s.now ≤ time) (running : s.calls[i]? = some (node, call))
      (section_ : advance peers node (s.localShards node) time call = some done) :
      Stepped peers s (.proceed i time) (s.proceed i node call time done)

theorem step_inv {peers : String → List String} {s t : Cluster} {a : Label}
    (h : step peers s a = some t) : Stepped peers s a t := by
  cases a with
  | registerShard node shard =>
    cases h
    exact .start _ (.inl ⟨shard, rfl, rfl⟩)
  | unregisterShard node shard expected =>
    cases h
    exact .start _ (.inr ⟨shard, expected, rfl, rfl⟩)
  | deliver i =>
    simp only [step] at h
    split at h
    · cases h
    · next node msg sent =>
      cases h
      exact .deliver sent
  | proceed i time =>
    simp only [step] at h
    split at h
    · cases h
    · next later =>
      split at h
      · cases h
      · next node call running =>
        obtain ⟨done, done_eq, rfl⟩ := Option.map_eq_some_iff.mp h
        exact .proceed (by omega) running done_eq

/-- Registration times differ from the earlier ones of the same shard on the node. -/
def DistinctTimes (s : Cluster) : Label → Prop
  | .proceed i time => ∀ c ∈ s.calls[i]?, ∀ r ∈ registration c.1 time c.2, r ∉ s.registered
  | _ => True

def Call.removes : Call → Option ClusterShardID
  | .removeLocalShard shard _ => some shard
  | _ => none

/-- When removeLocalShard runs, the shard has no entry: none was put since the comparison. -/
def NoneSinceCompare (s : Cluster) : Label → Prop
  | .proceed i _ =>
    ∀ c ∈ s.calls[i]?, ∀ shard ∈ c.2.removes, (s.localShards c.1).lookup shard = none
  | _ => True

instance (s : Cluster) : ∀ a, Decidable (DistinctTimes s a)
  | .proceed i time =>
    inferInstanceAs (Decidable (∀ c ∈ s.calls[i]?, ∀ r ∈ registration c.1 time c.2, r ∉ s.registered))
  | .registerShard _ _ => .isTrue trivial
  | .unregisterShard _ _ _ => .isTrue trivial
  | .deliver _ => .isTrue trivial

instance (s : Cluster) : ∀ a, Decidable (NoneSinceCompare s a)
  | .proceed i _ =>
    inferInstanceAs (Decidable (∀ c ∈ s.calls[i]?, ∀ shard ∈ c.2.removes,
      (s.localShards c.1).lookup shard = none))
  | .registerShard _ _ => .isTrue trivial
  | .unregisterShard _ _ _ => .isTrue trivial
  | .deliver _ => .isTrue trivial

/-- The step neither registers the shard on the node nor starts to unregister it for the time. -/
def Spares (node : String) (shard : ClusterShardID) (time : Nat) (s : Cluster) : Label → Prop
  | .proceed i _ =>
    s.calls[i]? ≠ some (node, .addLocalShard shard) ∧
      s.calls[i]? ≠ some (node, .compare shard time)
  | _ => True

section Sections
variable {peers : String → List String} {node : String} {shards : LocalShards} {now : Nat}
  {call : Call} {done : Section}

inductive Advanced (peers : String → List String) (node : String) (shards : LocalShards) (now : Nat) :
    Call → Section → Prop
  | add (shard : ClusterShardID) :
      Advanced peers node shards now (.addLocalShard shard)
        ⟨shards.insert shard ⟨shard, now⟩, .broadcastRegister shard, []⟩
  | announce (shard : ClusterShardID) :
      Advanced peers node shards now (.broadcastRegister shard)
        ⟨shards, .returned, broadcastShardChange peers node .register shard now⟩
  | compareOwn {shard : ClusterShardID} {expected : Nat} {entry : ShardInfo}
      (found : shards.lookup shard = some entry) (own : entry.created = expected) :
      Advanced peers node shards now (.compare shard expected)
        ⟨shards.erase shard, .removeLocalShard shard expected, []⟩
  | compareOther {shard : ClusterShardID} {expected : Nat}
      (other : ∀ entry, shards.lookup shard = some entry → entry.created ≠ expected) :
      Advanced peers node shards now (.compare shard expected) ⟨shards, .returned, []⟩
  | remove (shard : ClusterShardID) (expected : Nat) :
      Advanced peers node shards now (.removeLocalShard shard expected)
        ⟨shards.erase shard, .broadcastUnregister shard, []⟩
  | retract (shard : ClusterShardID) :
      Advanced peers node shards now (.broadcastUnregister shard)
        ⟨shards, .returned, broadcastShardChange peers node .unregister shard now⟩
  | giveUp {msg : ShardMessage} {entry : ShardInfo} (type : msg.type = .register)
      (found : shards.lookup msg.clientShard = some entry) (older : entry.created < msg.timestamp) :
      Advanced peers node shards now (.notifyMsg msg)
        ⟨shards, .compare msg.clientShard entry.created, []⟩
  | ignore {msg : ShardMessage} (newest : msg.type = .register →
        ∀ entry, shards.lookup msg.clientShard = some entry → msg.timestamp ≤ entry.created) :
      Advanced peers node shards now (.notifyMsg msg) ⟨shards, .returned, []⟩

theorem compare_inv {shard : ClusterShardID} {expected : Nat}
    (h : advance peers node shards now (.compare shard expected) = some done) :
    Advanced peers node shards now (.compare shard expected) done := by
  simp only [advance] at h
  split at h
  · next own =>
    cases h
    cases found : shards.lookup shard with
    | none => simp [found] at own
    | some entry => exact .compareOwn found (by simpa [found] using own)
  · next other =>
    cases h
    refine .compareOther fun entry found same => other ?_
    simp [found, same]

theorem notifyMsg_inv {msg : ShardMessage} :
    Advanced peers node shards now (.notifyMsg msg) ⟨shards, notifyMsg shards msg, []⟩ := by
  unfold notifyMsg
  cases type : msg.type with
  | unregister => exact .ignore (by simp [type])
  | register =>
    cases found : shards.lookup msg.clientShard with
    | none => exact .ignore (by simp [found])
    | some entry =>
      by_cases older : entry.created < msg.timestamp
      · simp only [older, ↓reduceIte]
        exact .giveUp type found older
      · simp only [older, ↓reduceIte]
        refine .ignore fun _ entry' found' => ?_
        cases found.symm.trans found'
        exact Nat.le_of_not_lt older

theorem advance_inv (h : advance peers node shards now call = some done) :
    Advanced peers node shards now call done := by
  cases call with
  | addLocalShard shard =>
    cases h
    exact .add shard
  | broadcastRegister shard =>
    cases h
    exact .announce shard
  | compare shard expected => exact compare_inv h
  | removeLocalShard shard expected =>
    cases h
    exact .remove shard expected
  | broadcastUnregister shard =>
    cases h
    exact .retract shard
  | notifyMsg msg =>
    cases h
    exact notifyMsg_inv
  | returned => cases h

theorem lookup_erase_some {shard shard' : ClusterShardID} {entry : ShardInfo}
    (h : (shards.erase shard).lookup shard' = some entry) : shards.lookup shard' = some entry := by
  by_cases same : shard' = shard
  · rw [same, AList.lookup_erase] at h
    cases h
  · rwa [AList.lookup_erase_ne same] at h

/- An entry after a section was there before it, or the section has put it. -/
theorem advance_entry (h : advance peers node shards now call = some done) {shard : ClusterShardID}
    {entry : ShardInfo} (found : done.shards.lookup shard = some entry) :
    shards.lookup shard = some entry ∨ call = .addLocalShard shard ∧ entry = ⟨shard, now⟩ := by
  cases advance_inv h with
  | add shard' =>
    by_cases same : shard = shard'
    · subst same
      rw [AList.lookup_insert] at found
      exact .inr ⟨rfl, (Option.some.inj found).symm⟩
    · rw [AList.lookup_insert_ne same] at found
      exact .inl found
  | compareOwn => exact .inl (lookup_erase_some found)
  | remove => exact .inl (lookup_erase_some found)
  | _ => exact .inl found

/- A call comes to removeLocalShard from its comparison, with the entry deleted. -/
theorem advance_removing (h : advance peers node shards now call = some done)
    {shard : ClusterShardID} {expected : Nat} (next : done.next = .removeLocalShard shard expected) :
    call = .compare shard expected ∧
      (∃ entry, shards.lookup shard = some entry ∧ entry.created = expected) ∧
      done.shards.lookup shard = none := by
  cases advance_inv h with
  | compareOwn found own =>
    cases next
    exact ⟨rfl, ⟨_, found, own⟩, AList.lookup_erase _ _⟩
  | _ => cases next

theorem mem_removal {before after : LocalShards} {r : Removal} (h : r ∈ removal before after call) :
    ∃ shard, call.unregisters = some (shard, r.expected) ∧ before.lookup shard = some r.entry ∧
      after.lookup shard = none := by
  unfold removal at h
  split at h
  · cases h
  · next shard expected unregisters =>
    split at h
    · next entry found gone =>
      cases List.mem_singleton.mp h
      exact ⟨shard, unregisters, found, gone⟩
    · cases h

end Sections

/-- Entries stand for registrations; an UnregisterShard past its comparison has deleted the
    entry of its own time. -/
structure Recorded (s : Cluster) : Prop where
  entry : ∀ node shard info, (s.localShards node).lookup shard = some info →
    ⟨node, shard, info.created⟩ ∈ s.registered
  removing : ∀ node shard expected, (node, .removeLocalShard shard expected) ∈ s.calls →
    ⟨node, shard, expected⟩ ∈ s.registered ∧
      ∀ info, (s.localShards node).lookup shard = some info → info.created ≠ expected

theorem initial_recorded : Recorded initial where
  entry := by simp [initial]
  removing := by simp [initial]

section Steps
variable {peers : String → List String} {s t : Cluster} {a : Label}

theorem proceed_entry {i time : Nat} {node : String} {call : Call} {done : Section}
    (section_ : advance peers node (s.localShards node) time call = some done) {node' : String}
    {shard : ClusterShardID} {info : ShardInfo}
    (found : ((s.proceed i node call time done).localShards node').lookup shard = some info) :
    (s.localShards node').lookup shard = some info ∨
      node' = node ∧ call = .addLocalShard shard ∧ info = ⟨shard, time⟩ := by
  by_cases same : node' = node
  · subst same
    simp only [Cluster.proceed, Function.update_self] at found
    exact (advance_entry section_ found).imp_right fun new => ⟨rfl, new⟩
  · simp only [Cluster.proceed, Function.update_of_ne same] at found
    exact .inl found

theorem proceed_registered {i time : Nat} {node : String} {call : Call} {done : Section} {r : Stamp}
    (h : r ∈ s.registered) : r ∈ (s.proceed i node call time done).registered :=
  List.mem_append_left _ h

theorem proceed_recorded {i time : Nat} {node : String} {call : Call} {done : Section}
    (recorded : Recorded s) (distinct : DistinctTimes s (.proceed i time))
    (running : s.calls[i]? = some (node, call))
    (section_ : advance peers node (s.localShards node) time call = some done) :
    Recorded (s.proceed i node call time done) where
  entry := by
    intro node' shard info found
    rcases proceed_entry section_ found with old | ⟨rfl, rfl, rfl⟩
    · exact proceed_registered (recorded.entry node' shard info old)
    · simp [Cluster.proceed, registration]
  removing := by
    intro node' shard expected member
    rcases List.mem_or_eq_of_mem_set member with old | new
    · obtain ⟨known, other⟩ := recorded.removing node' shard expected old
      refine ⟨proceed_registered known, fun info found => ?_⟩
      rcases proceed_entry section_ found with there | ⟨rfl, rfl, rfl⟩
      · exact other info there
      · -- The time of the new entry is not that of the entry deleted before.
        rintro rfl
        exact distinct _ running _ (List.mem_singleton.mpr rfl) known
    · obtain ⟨rfl, next⟩ := Prod.mk.inj new
      obtain ⟨_, ⟨entry, found, own⟩, gone⟩ := advance_removing section_ next.symm
      have known := recorded.entry node' shard entry found
      rw [own] at known
      refine ⟨proceed_registered known, fun info present => ?_⟩
      simp only [Cluster.proceed, Function.update_self] at present
      cases gone.symm.trans present

theorem step_recorded (recorded : Recorded s) (distinct : DistinctTimes s a)
    (h : step peers s a = some t) : Recorded t := by
  cases step_inv h with
  | start call fresh =>
    refine ⟨recorded.entry, fun node shard expected member => ?_⟩
    rcases List.mem_append.mp member with old | new
    · exact recorded.removing node shard expected old
    · cases List.mem_singleton.mp new
      rcases fresh with ⟨_, _, same⟩ | ⟨_, _, _, same⟩ <;> cases same
  | deliver sent =>
    refine ⟨recorded.entry, fun node shard expected member => ?_⟩
    rcases List.mem_append.mp member with old | new
    · exact recorded.removing node shard expected old
    · cases List.mem_singleton.mp new
  | proceed later running section_ => exact proceed_recorded recorded distinct running section_

/-- Every entry an UnregisterShard has removed is the one of its registration. -/
def OwnRemovals (s : Cluster) : Prop := ∀ r ∈ s.removals, r.entry.created = r.expected

/- A section removes an entry of its own time, unless it is a removeLocalShard that finds one. -/
theorem removal_own {i time : Nat} {node : String} {call : Call} {done : Section}
    (recorded : Recorded s) (running : s.calls[i]? = some (node, call))
    (section_ : advance peers node (s.localShards node) time call = some done) :
    (∀ r ∈ removal (s.localShards node) done.shards call, r.entry.created = r.expected) ↔
      NoneSinceCompare s (.proceed i time) := by
  have here : NoneSinceCompare s (.proceed i time) ↔
      ∀ shard ∈ call.removes, (s.localShards node).lookup shard = none := by
    simp [NoneSinceCompare, running]
  rw [here]
  cases call with
  | compare shard expected =>
    refine ⟨fun _ _ removes => (nomatch removes), fun _ r member => ?_⟩
    obtain ⟨shard', unregisters, found, gone⟩ := mem_removal member
    cases unregisters
    cases compare_inv section_ with
    | compareOwn there own =>
      cases there.symm.trans found
      exact own
    | compareOther => cases found.symm.trans gone
  | removeLocalShard shard expected =>
    cases section_
    have other := (recorded.removing node shard expected (List.mem_of_getElem? running)).2
    constructor
    · intro own shard' removes
      cases removes
      cases found : (s.localShards node).lookup shard with
      | none => rfl
      | some entry =>
        refine absurd (own ⟨expected, entry⟩ ?_) (other entry found)
        simp [removal, Call.unregisters, found]
    · intro none r member
      obtain ⟨shard', unregisters, found, _⟩ := mem_removal member
      cases unregisters
      cases (none _ rfl).symm.trans found
  | _ =>
    refine ⟨fun _ _ removes => (nomatch removes), fun _ r member => ?_⟩
    obtain ⟨_, unregisters, _⟩ := mem_removal member
    cases unregisters

theorem step_removals (recorded : Recorded s) (h : step peers s a = some t) :
    OwnRemovals t ↔ OwnRemovals s ∧ NoneSinceCompare s a := by
  cases step_inv h with
  | start call fresh =>
    rcases fresh with ⟨_, rfl, _⟩ | ⟨_, _, rfl, _⟩ <;> exact (and_iff_left trivial).symm
  | deliver sent => exact (and_iff_left trivial).symm
  | proceed later running section_ =>
    rw [← removal_own recorded running section_]
    simp only [OwnRemovals, Cluster.proceed, List.mem_append, or_imp, forall_and]

/- The entry of a registration stays while nobody replaces it or unregisters its time. -/
theorem step_spares {node : String} {shard : ClusterShardID} {time : Nat}
    (kept : (s.localShards node).lookup shard = some ⟨shard, time⟩)
    (none : NoneSinceCompare s a) (spares : Spares node shard time s a)
    (h : step peers s a = some t) : (t.localShards node).lookup shard = some ⟨shard, time⟩ := by
  cases step_inv h with
  | start call fresh => exact kept
  | deliver sent => exact kept
  | @proceed i now node' call done later running section_ =>
    by_cases same : node = node'
    · subst same
      simp only [Cluster.proceed, Function.update_self]
      cases advance_inv section_ with
      | add shard' =>
        have other : shard ≠ shard' := by
          rintro rfl
          exact spares.1 running
        rw [AList.lookup_insert_ne other, kept]
      | @compareOwn shard' expected entry found own =>
        have other : shard ≠ shard' := by
          rintro rfl
          cases kept.symm.trans found
          cases own
          exact spares.2 running
        rw [AList.lookup_erase_ne other, kept]
      | remove shard' expected =>
        have other : shard ≠ shard' := by
          rintro rfl
          cases kept.symm.trans (none _ running _ rfl)
        rw [AList.lookup_erase_ne other, kept]
      | _ => exact kept
    · simpa only [Cluster.proceed, Function.update_of_ne same] using kept

end Steps

theorem unregister_removes_only_own_iff (peers : String → List String) (labels : List Label)
    (s : Cluster) (h : run (step peers) initial labels = some s)
    (distinct : Meets (step peers) DistinctTimes initial labels) :
    (OwnRemovals s ↔ Meets (step peers) NoneSinceCompare initial labels) ∧
      (Meets (step peers) NoneSinceCompare initial labels →
        ∀ before after node shard time mid, labels = before ++ after →
          run (step peers) initial before = some mid →
          (mid.localShards node).lookup shard = some ⟨shard, time⟩ →
          Meets (step peers) (Spares node shard time) mid after →
          (s.localShards node).lookup shard = some ⟨shard, time⟩) := by
  constructor
  · rw [run_exact_under (fun s a t => step_recorded) (fun s a t recorded _ => step_removals recorded)
      initial_recorded distinct h]
    exact and_iff_right (by simp [OwnRemovals, initial])
  · rintro none before after node shard time mid rfl toMid there spares
    obtain ⟨mid', toMid', fromMid⟩ := run_append.mp h
    cases toMid.symm.trans toMid'
    obtain ⟨_, noneAfter⟩ := meets_append toMid none
    exact run_invariant (fun s a t kept both stepped => step_spares kept both.1 both.2 stepped) there
      (meets_and noneAfter spares) fromMid

def sampleShard : ClusterShardID := ⟨2, 1⟩

def noPeers : String → List String := fun _ => []

/-- The shard registers anew while the UnregisterShard of its first registration is between
    its two sections. -/
def reregisterRun : List Label :=
  [.registerShard "node" sampleShard, .proceed 0 1, .unregisterShard "node" sampleShard 1,
    .proceed 1 2, .registerShard "node" sampleShard, .proceed 2 3, .proceed 1 4]

theorem unregister_removes_new_registration :
    ∃ s, run (step noPeers) initial reregisterRun = some s ∧
      Meets (step noPeers) DistinctTimes initial reregisterRun ∧
      s.removals = [⟨1, ⟨sampleShard, 1⟩⟩, ⟨1, ⟨sampleShard, 3⟩⟩] ∧
      (s.localShards "node").lookup sampleShard = none :=
  ⟨_, rfl, by decide +kernel, rfl, rfl⟩

def inTurnRun : List Label :=
  [.registerShard "node" sampleShard, .proceed 0 1, .unregisterShard "node" sampleShard 1,
    .proceed 1 2, .proceed 1 3, .registerShard "node" sampleShard, .proceed 2 4]

theorem unregister_removes_only_own_iff_in_turn :
    ∃ s, run (step noPeers) initial inTurnRun = some s ∧
      OwnRemovals s ∧ (s.localShards "node").lookup sampleShard = some ⟨sampleShard, 4⟩ := by
  have distinct : Meets (step noPeers) DistinctTimes initial inTurnRun := by decide +kernel
  have none : Meets (step noPeers) NoneSinceCompare initial inTurnRun := by decide +kernel
  exact ⟨_, rfl, (unregister_removes_only_own_iff noPeers inTurnRun _ rfl distinct).1.mpr none, rfl⟩

end ShardOwnership
