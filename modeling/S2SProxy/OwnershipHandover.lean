import S2SProxy.ShardOwnership

/- Two nodes register one shard. Each tells the other, and a node gives the shard up when it
   hears of a registration that looks newer than its own. The message carries the time it was
   made, not the time of the registration it announces. -/
namespace ShardOwnership
open ShardData GuardedRuns

def Superseded (shard : ClusterShardID) (s : Cluster) (node : String) (time : Nat) : Prop :=
  ∃ other timestamp, other ≠ node ∧ ⟨other, shard, timestamp⟩ ∈ s.announced ∧ time < timestamp

/-- Each node registers the shard at one time only. -/
def RegisteredOnce (shard : ClusterShardID) (s : Cluster) : Prop :=
  ∀ node time time', ⟨node, shard, time⟩ ∈ s.registered → ⟨node, shard, time'⟩ ∈ s.registered →
    time = time'

/-- A message of the other node has still to take the entry of the node away. -/
def Pending (shard : ClusterShardID) (s : Cluster) (other : String) (timestamp : Nat)
    (node : String) (time : Nat) : Prop :=
  (node, ⟨.register, other, shard, timestamp⟩) ∈ s.network ∨
    (node, .notifyMsg ⟨.register, other, shard, timestamp⟩) ∈ s.calls ∨
    (node, .compare shard time) ∈ s.calls

structure Handover (peers : String → List String) (shard : ClusterShardID) (s : Cluster) : Prop where
  clock : ∀ r, r ∈ s.registered ∨ r ∈ s.announced → r.time ≤ s.now
  entry : ∀ node info, (s.localShards node).lookup shard = some info →
    info.id = shard ∧ ⟨node, shard, info.created⟩ ∈ s.registered
  announcing : ∀ node, (node, .broadcastRegister shard) ∈ s.calls →
    ∃ time, ⟨node, shard, time⟩ ∈ s.registered
  announced : ∀ node timestamp, ⟨node, shard, timestamp⟩ ∈ s.announced →
    ∃ time ≤ timestamp, ⟨node, shard, time⟩ ∈ s.registered
  message : ∀ node msg, (node, msg) ∈ s.network ∨ (node, .notifyMsg msg) ∈ s.calls →
    msg.type = .register → msg.clientShard = shard →
    msg.nodeName ≠ node ∧ ⟨msg.nodeName, shard, msg.timestamp⟩ ∈ s.announced
  losing : ∀ node time, (node, .compare shard time) ∈ s.calls ∨
      (node, .removeLocalShard shard time) ∈ s.calls →
    ⟨node, shard, time⟩ ∈ s.registered ∧ Superseded shard s node time
  kept : RegisteredOnce shard s → ∀ node time, ⟨node, shard, time⟩ ∈ s.registered →
    (s.localShards node).lookup shard = some ⟨shard, time⟩ ∨ Superseded shard s node time
  taken : RegisteredOnce shard s → ∀ other timestamp node time,
    ⟨other, shard, timestamp⟩ ∈ s.announced → node ∈ peers other → node ≠ other →
    ⟨node, shard, time⟩ ∈ s.registered → time < timestamp →
    (s.localShards node).lookup shard = none ∨ Pending shard s other timestamp node time

def NotForced (shard : ClusterShardID) (_ : Cluster) (a : Label) : Prop :=
  ∀ node expected, a ≠ .unregisterShard node shard expected

theorem initial_handover (peers : String → List String) (shard : ClusterShardID) :
    Handover peers shard initial := by
  constructor <;> simp [initial]

theorem mem_set_or {α : Type} {l : List α} {i : Nat} {x y : α} (h : x ∈ l) :
    x ∈ l.set i y ∨ l[i]? = some x := by
  obtain ⟨j, inside, rfl⟩ := List.mem_iff_getElem.mp h
  by_cases same : i = j
  · exact .inr (same ▸ List.getElem?_eq_getElem inside)
  · refine .inl (List.mem_iff_getElem.mpr ⟨j, by simpa using inside, ?_⟩)
    exact List.getElem_set_ne same _

section Next
variable {peers : String → List String} {node : String} {shards : LocalShards} {now : Nat}
  {call : Call} {done : Section}

/- What a call can come to, by what it comes from. -/
theorem advance_announcing (h : advance peers node shards now call = some done)
    {shard : ClusterShardID} (next : done.next = .broadcastRegister shard) :
    call = .addLocalShard shard := by
  cases advance_inv h with
  | add =>
    cases next
    rfl
  | _ => cases next

theorem advance_comparing (h : advance peers node shards now call = some done)
    {shard : ClusterShardID} {time : Nat} (next : done.next = .compare shard time) :
    ∃ msg entry, call = .notifyMsg msg ∧ msg.type = .register ∧ msg.clientShard = shard ∧
      shards.lookup shard = some entry ∧ entry.created = time ∧ time < msg.timestamp := by
  cases advance_inv h with
  | @giveUp msg entry type found older =>
    cases next
    exact ⟨msg, entry, rfl, type, rfl, found, rfl, older⟩
  | _ => cases next

theorem advance_notifying (h : advance peers node shards now call = some done) {msg : ShardMessage} :
    done.next ≠ .notifyMsg msg := by
  cases advance_inv h <;> simp

theorem advance_sent (h : advance peers node shards now call = some done) {peer : String}
    {msg : ShardMessage} (sent : (peer, msg) ∈ done.sent) (type : msg.type = .register) :
    call = .broadcastRegister msg.clientShard ∧ peer ≠ node ∧
      msg = ⟨.register, node, msg.clientShard, now⟩ := by
  cases advance_inv h with
  | announce shard =>
    simp only [broadcastShardChange, List.mem_map, List.mem_filter, Prod.mk.injEq] at sent
    obtain ⟨_, ⟨_, other⟩, rfl, rfl⟩ := sent
    exact ⟨rfl, by simpa using other, rfl⟩
  | retract shard =>
    simp only [broadcastShardChange, List.mem_map, Prod.mk.injEq] at sent
    obtain ⟨_, _, _, rfl⟩ := sent
    cases type
  | _ => cases sent

end Next

section Proceed
variable {peers : String → List String} {shard : ClusterShardID} {s : Cluster} {i now : Nat}
  {node : String} {call : Call} {done : Section}

theorem mem_registered {r : Stamp} (h : r ∈ (s.proceed i node call now done).registered) :
    r ∈ s.registered ∨ call = .addLocalShard r.shard ∧ r = ⟨node, r.shard, now⟩ := by
  refine (List.mem_append.mp h).imp_right fun new => ?_
  cases call <;> simp [registration] at new
  subst new
  exact ⟨rfl, rfl⟩

theorem mem_announced {r : Stamp} (h : r ∈ (s.proceed i node call now done).announced) :
    r ∈ s.announced ∨ call = .broadcastRegister r.shard ∧ r = ⟨node, r.shard, now⟩ := by
  refine (List.mem_append.mp h).imp_right fun new => ?_
  cases call <;> simp [announcement] at new
  subst new
  exact ⟨rfl, rfl⟩

theorem Superseded.proceed {n : String} {time : Nat} (h : Superseded shard s n time) :
    Superseded shard (s.proceed i node call now done) n time := by
  obtain ⟨other, timestamp, differ, announced, older⟩ := h
  exact ⟨other, timestamp, differ, List.mem_append_left _ announced, older⟩

theorem RegisteredOnce.before (h : RegisteredOnce shard (s.proceed i node call now done)) :
    RegisteredOnce shard s :=
  fun n time time' first second =>
    h n time time' (proceed_registered first) (proceed_registered second)

theorem mem_calls {n : String} {c : Call} (h : (n, c) ∈ (s.proceed i node call now done).calls) :
    (n, c) ∈ s.calls ∨ n = node ∧ done.next = c :=
  (List.mem_or_eq_of_mem_set h).imp_right fun same =>
    ⟨(Prod.mk.inj same).1, (Prod.mk.inj same).2.symm⟩

theorem next_mem (running : s.calls[i]? = some (node, call)) :
    (node, done.next) ∈ (s.proceed i node call now done).calls :=
  List.mem_set (List.getElem?_eq_some_iff.mp running).1 _

theorem call_stays {n : String} {c : Call} (h : (n, c) ∈ s.calls)
    (running : s.calls[i]? = some (node, call)) :
    (n, c) ∈ (s.proceed i node call now done).calls ∨ n = node ∧ c = call := by
  refine (mem_set_or h).imp_right fun same => ?_
  exact Prod.mk.inj (Option.some.inj (same.symm.trans running))

theorem proceed_message (hand : Handover peers shard s)
    (section_ : advance peers node (s.localShards node) now call = some done) (n : String)
    (msg : ShardMessage)
    (there : (n, msg) ∈ (s.proceed i node call now done).network ∨
      (n, .notifyMsg msg) ∈ (s.proceed i node call now done).calls)
    (type : msg.type = .register) (same : msg.clientShard = shard) :
    msg.nodeName ≠ n ∧
      ⟨msg.nodeName, shard, msg.timestamp⟩ ∈ (s.proceed i node call now done).announced := by
  have old : ∀ (_ : (n, msg) ∈ s.network ∨ (n, .notifyMsg msg) ∈ s.calls), msg.nodeName ≠ n ∧
      ⟨msg.nodeName, shard, msg.timestamp⟩ ∈ (s.proceed i node call now done).announced := by
    intro before
    obtain ⟨differ, announced⟩ := hand.message n msg before type same
    exact ⟨differ, List.mem_append_left _ announced⟩
  rcases there with inFlight | handled
  · rcases List.mem_append.mp inFlight with before | sent
    · exact old (.inl before)
    · obtain ⟨rfl, differ, made⟩ := advance_sent section_ sent type
      rw [same] at made
      rw [made]
      refine ⟨differ.symm, List.mem_append_right _ ?_⟩
      simp [announcement]
  · rcases mem_calls handled with before | ⟨_, next⟩
    · exact old (.inr before)
    · exact absurd next (advance_notifying section_)

theorem proceed_losing (hand : Handover peers shard s) (running : s.calls[i]? = some (node, call))
    (section_ : advance peers node (s.localShards node) now call = some done) (n : String)
    (time : Nat)
    (there : (n, .compare shard time) ∈ (s.proceed i node call now done).calls ∨
      (n, .removeLocalShard shard time) ∈ (s.proceed i node call now done).calls) :
    ⟨n, shard, time⟩ ∈ (s.proceed i node call now done).registered ∧
      Superseded shard (s.proceed i node call now done) n time := by
  have old : ∀ (_ : (n, .compare shard time) ∈ s.calls ∨ (n, .removeLocalShard shard time) ∈ s.calls),
      ⟨n, shard, time⟩ ∈ (s.proceed i node call now done).registered ∧
        Superseded shard (s.proceed i node call now done) n time := by
    intro before
    obtain ⟨known, superseded⟩ := hand.losing n time before
    exact ⟨proceed_registered known, superseded.proceed⟩
  have here := List.mem_of_getElem? running
  rcases there with comparing | removing
  · rcases mem_calls comparing with before | ⟨rfl, next⟩
    · exact old (.inl before)
    · obtain ⟨msg, entry, rfl, type, same, found, rfl, older⟩ := advance_comparing section_ next
      obtain ⟨differ, announced⟩ := hand.message n msg (.inr here) type same
      obtain ⟨_, known⟩ := hand.entry n entry found
      refine ⟨proceed_registered known, msg.nodeName, msg.timestamp, differ, ?_, older⟩
      exact List.mem_append_left _ announced
  · rcases mem_calls removing with before | ⟨rfl, next⟩
    · exact old (.inr before)
    · obtain ⟨rfl, _⟩ := advance_removing section_ next
      exact old (.inl here)

/- The entry of a section's own node is there, or gone for a newer message. -/
theorem section_kept (hand : Handover peers shard s) (once : RegisteredOnce shard s)
    (running : s.calls[i]? = some (node, call))
    (section_ : advance peers node (s.localShards node) now call = some done) {time : Nat}
    (known : ⟨node, shard, time⟩ ∈ s.registered)
    (held : (s.localShards node).lookup shard = some ⟨shard, time⟩) :
    done.shards.lookup shard = some ⟨shard, time⟩ ∨ call = .addLocalShard shard ∨
      Superseded shard s node time := by
  have here := List.mem_of_getElem? running
  cases advance_inv section_ with
  | add shard' =>
    by_cases same : shard = shard'
    · exact .inr (.inl (same ▸ rfl))
    · exact .inl ((AList.lookup_insert_ne same).trans held)
  | @compareOwn shard' expected entry found own =>
    by_cases same : shard = shard'
    · subst same
      obtain ⟨known', superseded⟩ := hand.losing node expected (.inl here)
      exact .inr (.inr (once node expected time known' known ▸ superseded))
    · exact .inl ((AList.lookup_erase_ne same).trans held)
  | remove shard' expected =>
    by_cases same : shard = shard'
    · subst same
      obtain ⟨known', superseded⟩ := hand.losing node expected (.inr here)
      exact .inr (.inr (once node expected time known' known ▸ superseded))
    · exact .inl ((AList.lookup_erase_ne same).trans held)
  | _ => exact .inl held

theorem proceed_kept (hand : Handover peers shard s) (running : s.calls[i]? = some (node, call))
    (section_ : advance peers node (s.localShards node) now call = some done)
    (once : RegisteredOnce shard (s.proceed i node call now done)) (n : String) (time : Nat)
    (known : ⟨n, shard, time⟩ ∈ (s.proceed i node call now done).registered) :
    ((s.proceed i node call now done).localShards n).lookup shard = some ⟨shard, time⟩ ∨
      Superseded shard (s.proceed i node call now done) n time := by
  have added : n = node → call = .addLocalShard shard →
      ((s.proceed i node call now done).localShards n).lookup shard = some ⟨shard, time⟩ := by
    rintro rfl rfl
    cases section_
    have new : ⟨n, shard, now⟩ ∈ (s.registered ++ registration n now (.addLocalShard shard)) := by
      simp [registration]
    cases once n now time new known
    simp [Cluster.proceed]
  rcases mem_registered known with old | ⟨rfl, same⟩
  · rcases hand.kept once.before n time old with held | superseded
    · by_cases here : n = node
      · subst here
        rcases section_kept hand once.before running section_ old held with kept | add | superseded
        · exact .inl (by simpa [Cluster.proceed] using kept)
        · exact .inl (added rfl add)
        · exact .inr superseded.proceed
      · exact .inl (by simpa [Cluster.proceed, Function.update_of_ne here] using held)
    · exact .inr superseded.proceed
  · exact .inl (added (congrArg Stamp.node same) rfl)

theorem section_taken (hand : Handover peers shard s) (once : RegisteredOnce shard s)
    (running : s.calls[i]? = some (node, call))
    (section_ : advance peers node (s.localShards node) now call = some done) {other : String}
    {time timestamp : Nat} (known : ⟨node, shard, time⟩ ∈ s.registered) (older : time < timestamp)
    (waiting : call = .notifyMsg ⟨.register, other, shard, timestamp⟩ ∨ call = .compare shard time) :
    done.shards.lookup shard = none ∨
      (node, .compare shard time) ∈ (s.proceed i node call now done).calls := by
  have own : ∀ entry, (s.localShards node).lookup shard = some entry → entry.created = time :=
    fun entry found => once node entry.created time (hand.entry node entry found).2 known
  rcases waiting with rfl | rfl
  · cases advance_inv section_ with
    | giveUp _ found _ =>
      cases own _ found
      exact .inr (next_mem running)
    | ignore newest =>
      refine .inl (Option.eq_none_iff_forall_ne_some.mpr fun entry found => ?_)
      have bound := newest rfl entry found
      rw [own entry found] at bound
      simp only at bound
      omega
  · cases advance_inv section_ with
    | compareOwn => exact .inl (AList.lookup_erase _ _)
    | compareOther others =>
      exact .inl (Option.eq_none_iff_forall_ne_some.mpr fun entry found =>
        others entry found (own entry found))

/- Only a registration at the present time could put an entry where there is none. -/
theorem proceed_absent (section_ : advance peers node (s.localShards node) now call = some done)
    (once : RegisteredOnce shard (s.proceed i node call now done)) {n : String} {time : Nat}
    (known : ⟨n, shard, time⟩ ∈ (s.proceed i node call now done).registered) (older : time < now)
    (gone : (s.localShards n).lookup shard = none) :
    ((s.proceed i node call now done).localShards n).lookup shard = none := by
  refine Option.eq_none_iff_forall_ne_some.mpr fun entry found => ?_
  rcases proceed_entry section_ found with there | ⟨rfl, rfl, rfl⟩
  · cases gone.symm.trans there
  · have new : ⟨n, shard, now⟩ ∈ (s.registered ++ registration n now (.addLocalShard shard)) := by
      simp [registration]
    have same := once n now time new known
    omega

/- A call that waits goes on waiting, or its section takes the entry away. -/
theorem proceed_waits (hand : Handover peers shard s) (running : s.calls[i]? = some (node, call))
    (section_ : advance peers node (s.localShards node) now call = some done)
    (once : RegisteredOnce shard s) {other n : String} {time timestamp : Nat}
    (known : ⟨n, shard, time⟩ ∈ s.registered) (older : time < timestamp) {c : Call}
    (member : (n, c) ∈ s.calls)
    (waiting : c = .notifyMsg ⟨.register, other, shard, timestamp⟩ ∨ c = .compare shard time) :
    (n, c) ∈ (s.proceed i node call now done).calls ∨
      ((s.proceed i node call now done).localShards n).lookup shard = none ∨
      (n, .compare shard time) ∈ (s.proceed i node call now done).calls := by
  rcases call_stays member running with stays | ⟨rfl, rfl⟩
  · exact .inl stays
  · refine .inr ((section_taken hand once running section_ known older waiting).imp_left ?_)
    intro gone
    simpa [Cluster.proceed] using gone

theorem proceed_taken (hand : Handover peers shard s) (later : s.now ≤ now)
    (running : s.calls[i]? = some (node, call))
    (section_ : advance peers node (s.localShards node) now call = some done)
    (once : RegisteredOnce shard (s.proceed i node call now done)) (other : String)
    (timestamp : Nat) (n : String) (time : Nat)
    (announced : ⟨other, shard, timestamp⟩ ∈ (s.proceed i node call now done).announced)
    (listed : n ∈ peers other) (differ : n ≠ other)
    (known : ⟨n, shard, time⟩ ∈ (s.proceed i node call now done).registered)
    (older : time < timestamp) :
    ((s.proceed i node call now done).localShards n).lookup shard = none ∨
      Pending shard (s.proceed i node call now done) other timestamp n time := by
  rcases mem_announced announced with oldAnnounced | ⟨rfl, made⟩
  · have stamped := hand.clock _ (.inr oldAnnounced)
    rcases mem_registered known with oldKnown | ⟨rfl, same⟩
    · have waits := @proceed_waits _ _ _ _ _ _ _ _ hand running section_ once.before other n time
        timestamp oldKnown older
      rcases hand.taken once.before other timestamp n time oldAnnounced listed differ oldKnown older with
        gone | inFlight | handled | comparing
      · simp only at stamped
        exact .inl (proceed_absent section_ once known (by omega) gone)
      · exact .inr (.inl (List.mem_append_left _ inFlight))
      · rcases waits handled (.inl rfl) with stays | gone | comparing
        · exact .inr (.inr (.inl stays))
        · exact .inl gone
        · exact .inr (.inr (.inr comparing))
      · rcases waits comparing (.inr rfl) with stays | gone | comparing
        · exact .inr (.inr (.inr stays))
        · exact .inl gone
        · exact .inr (.inr (.inr comparing))
    · have now_eq : time = now := congrArg Stamp.time same
      simp only at stamped
      omega
  · obtain ⟨rfl, rfl⟩ : other = node ∧ timestamp = now :=
      ⟨congrArg Stamp.node made, congrArg Stamp.time made⟩
    cases section_
    refine .inr (.inl (List.mem_append_right _ ?_))
    simp [broadcastShardChange, listed, differ]

theorem proceed_handover (hand : Handover peers shard s) (later : s.now ≤ now)
    (running : s.calls[i]? = some (node, call))
    (section_ : advance peers node (s.localShards node) now call = some done) :
    Handover peers shard (s.proceed i node call now done) where
  clock := by
    intro r member
    have old : r ∈ s.registered ∨ r ∈ s.announced → r.time ≤ now :=
      fun before => Nat.le_trans (hand.clock r before) later
    rcases member with known | announced
    · rcases mem_registered known with before | ⟨_, same⟩
      · exact old (.inl before)
      · exact Nat.le_of_eq (congrArg Stamp.time same)
    · rcases mem_announced announced with before | ⟨_, same⟩
      · exact old (.inr before)
      · exact Nat.le_of_eq (congrArg Stamp.time same)
  entry := by
    intro n info found
    rcases proceed_entry section_ found with before | ⟨rfl, rfl, rfl⟩
    · obtain ⟨id, known⟩ := hand.entry n info before
      exact ⟨id, proceed_registered known⟩
    · exact ⟨rfl, by simp [Cluster.proceed, registration]⟩
  announcing := by
    intro n member
    rcases mem_calls member with before | ⟨rfl, next⟩
    · obtain ⟨time, known⟩ := hand.announcing n before
      exact ⟨time, proceed_registered known⟩
    · cases advance_announcing section_ next
      exact ⟨now, by simp [Cluster.proceed, registration]⟩
  announced := by
    intro n timestamp member
    rcases mem_announced member with before | ⟨rfl, same⟩
    · obtain ⟨time, bound, known⟩ := hand.announced n timestamp before
      exact ⟨time, bound, proceed_registered known⟩
    · obtain ⟨rfl, rfl⟩ : n = node ∧ timestamp = now :=
        ⟨congrArg Stamp.node same, congrArg Stamp.time same⟩
      obtain ⟨time, known⟩ := hand.announcing n (List.mem_of_getElem? running)
      exact ⟨time, Nat.le_trans (hand.clock _ (.inl known)) later, proceed_registered known⟩
  message := proceed_message hand section_
  losing := proceed_losing hand running section_
  kept := proceed_kept hand running section_
  taken := proceed_taken hand later running section_

end Proceed

section Steps
variable {peers : String → List String} {shard : ClusterShardID} {s : Cluster}

theorem Handover.withCall (hand : Handover peers shard s) {node : String} {call : Call}
    {network : List (String × ShardMessage)}
    (announcing : call ≠ .broadcastRegister shard)
    (losing : ∀ time, call ≠ .compare shard time ∧ call ≠ .removeLocalShard shard time)
    (handled : ∀ msg, call = .notifyMsg msg → (node, msg) ∈ s.network)
    (fewer : ∀ m ∈ network, m ∈ s.network)
    (moved : ∀ n msg, (n, msg) ∈ s.network →
      (n, msg) ∈ network ∨ (n, .notifyMsg msg) = (node, call)) :
    Handover peers shard { s with calls := s.calls ++ [(node, call)], network := network } where
  clock := hand.clock
  entry := hand.entry
  announcing := by
    intro n member
    rcases List.mem_append.mp member with old | new
    · exact hand.announcing n old
    · exact absurd (Prod.mk.inj (List.mem_singleton.mp new)).2.symm announcing
  announced := hand.announced
  message := by
    intro n msg there
    refine hand.message n msg ?_
    rcases there with inFlight | member
    · exact .inl (fewer _ inFlight)
    · rcases List.mem_append.mp member with old | new
      · exact .inr old
      · obtain ⟨rfl, same⟩ := Prod.mk.inj (List.mem_singleton.mp new)
        exact .inl (handled msg same.symm)
  losing := by
    intro n time there
    refine hand.losing n time ?_
    rcases there with member | member
    · rcases List.mem_append.mp member with old | new
      · exact .inl old
      · exact absurd (Prod.mk.inj (List.mem_singleton.mp new)).2.symm (losing time).1
    · rcases List.mem_append.mp member with old | new
      · exact .inr old
      · exact absurd (Prod.mk.inj (List.mem_singleton.mp new)).2.symm (losing time).2
  kept := hand.kept
  taken := by
    intro once other timestamp n time announced listed differ known older
    refine (hand.taken once other timestamp n time announced listed differ known older).imp_right ?_
    rintro (inFlight | member | member)
    · rcases moved n _ inFlight with stays | same
      · exact .inl stays
      · exact .inr (.inl (List.mem_append_right _ (List.mem_singleton.mpr same)))
    · exact .inr (.inl (List.mem_append_left _ member))
    · exact .inr (.inr (List.mem_append_left _ member))

theorem step_handover {a : Label} {t : Cluster} (hand : Handover peers shard s)
    (notForced : NotForced shard s a) (h : step peers s a = some t) : Handover peers shard t := by
  cases step_inv h with
  | start call fresh =>
    rcases fresh with ⟨shard', rfl, rfl⟩ | ⟨shard', expected, rfl, rfl⟩
    · exact hand.withCall (by simp) (by simp) (by simp) (fun _ member => member)
        (fun _ _ member => .inl member)
    · refine hand.withCall (by simp) (fun time => ⟨?_, by simp⟩) (by simp) (fun _ member => member)
        (fun _ _ member => .inl member)
      rintro ⟨⟩
      exact notForced _ _ rfl
  | @deliver i node msg sent =>
    refine hand.withCall (by simp) (by simp) ?_ (fun _ member => List.mem_of_mem_eraseIdx member) ?_
    · rintro _ ⟨⟩
      exact List.mem_of_getElem? sent
    · intro n msg' member
      by_cases same : (n, msg') = (node, msg)
      · cases same
        exact .inr rfl
      · refine .inl ?_
        obtain ⟨j, at_j⟩ := List.mem_iff_getElem?.mp member
        refine List.mem_eraseIdx_iff_getElem?.mpr ⟨j, ?_, at_j⟩
        rintro rfl
        exact same (Option.some.inj (at_j.symm.trans sent))
  | proceed later running section_ => exact proceed_handover hand later running section_

end Steps

/-- All messages are delivered and all calls have returned. -/
def Cluster.Settled (s : Cluster) : Prop := s.network = [] ∧ ∀ c ∈ s.calls, c.2 = .returned

/-- The shard's registrations and register messages are one each of the two nodes. -/
structure TwoRegistrations (shard : ClusterShardID) (s : Cluster) (first second : String)
    (createdFirst createdSecond timestampFirst timestampSecond : Nat) : Prop where
  registered : ∀ r, r ∈ s.registered ∧ r.shard = shard ↔
    r = ⟨first, shard, createdFirst⟩ ∨ r = ⟨second, shard, createdSecond⟩
  announced : ∀ r, r ∈ s.announced ∧ r.shard = shard ↔
    r = ⟨first, shard, timestampFirst⟩ ∨ r = ⟨second, shard, timestampSecond⟩

section Outcome
variable {peers : String → List String} {shard : ClusterShardID} {s : Cluster} {first second : String}
variable {createdFirst createdSecond timestampFirst timestampSecond : Nat}

theorem TwoRegistrations.once (differ : first ≠ second)
    (two : TwoRegistrations shard s first second createdFirst createdSecond timestampFirst
      timestampSecond) : RegisteredOnce shard s := by
  intro node time time' here here'
  have one := (two.registered _).mp ⟨here, rfl⟩
  have one' := (two.registered _).mp ⟨here', rfl⟩
  simp only [Stamp.mk.injEq, true_and] at one one'
  rcases one with ⟨rfl, rfl⟩ | ⟨rfl, rfl⟩ <;> rcases one' with ⟨same, rfl⟩ | ⟨same, rfl⟩
  · rfl
  · exact absurd same differ
  · exact absurd same.symm differ
  · rfl

theorem Cluster.Settled.not_pending (settled : s.Settled) {other node : String} {timestamp time : Nat} :
    ¬ Pending shard s other timestamp node time := by
  rintro (inFlight | member | member)
  · rw [settled.1] at inFlight
    cases inFlight
  · cases settled.2 _ member
  · cases settled.2 _ member

theorem Handover.lost (hand : Handover peers shard s) (once : RegisteredOnce shard s)
    (settled : s.Settled) {other node : String} {timestamp time : Nat}
    (told : ⟨other, shard, timestamp⟩ ∈ s.announced) (listed : node ∈ peers other)
    (differ : node ≠ other) (known : ⟨node, shard, time⟩ ∈ s.registered) (older : time < timestamp) :
    (s.localShards node).lookup shard = none :=
  (hand.taken once other timestamp node time told listed differ known older).resolve_right
    settled.not_pending

/- An entry stays if the only other message is not newer. -/
theorem Handover.second_kept (hand : Handover peers shard s) (once : RegisteredOnce shard s)
    (two : TwoRegistrations shard s first second createdFirst createdSecond timestampFirst
      timestampSecond) (stamped : timestampFirst ≤ createdSecond) :
    (s.localShards second).lookup shard = some ⟨shard, createdSecond⟩ := by
  have known := ((two.registered _).mpr (.inr rfl)).1
  refine (hand.kept once second createdSecond known).resolve_right ?_
  rintro ⟨other, timestamp, ne, told, older⟩
  have one := (two.announced _).mp ⟨told, rfl⟩
  simp only [Stamp.mk.injEq, true_and] at one
  rcases one with ⟨rfl, rfl⟩ | ⟨rfl, _⟩
  · omega
  · exact ne rfl

end Outcome

theorem later_registration_keeps_shard_iff (peers : String → List String) (first second : String)
    (differ : first ≠ second) (toSecond : second ∈ peers first) (toFirst : first ∈ peers second)
    (shard : ClusterShardID) (labels : List Label) (s : Cluster)
    (h : run (step peers) initial labels = some s)
    (notForced : ∀ node expected, Label.unregisterShard node shard expected ∉ labels)
    (settled : s.Settled) (createdFirst createdSecond timestampFirst timestampSecond : Nat)
    (two : TwoRegistrations shard s first second createdFirst createdSecond timestampFirst
      timestampSecond)
    (later : createdFirst < createdSecond) :
    ((s.localShards second).lookup shard = some ⟨shard, createdSecond⟩ ↔
        timestampFirst ≤ createdSecond) ∧
      ((∃ node ∈ [first, second], ((s.localShards node).lookup shard).isSome) ↔
        timestampFirst ≤ createdSecond) := by
  have unforced : Meets (step peers) (NotForced shard) initial labels := by
    refine meets_of_forall (fun a member _ node expected same => ?_) initial
    exact notForced node expected (same ▸ member)
  have hand : Handover peers shard s :=
    run_invariant (fun s a t => step_handover) (initial_handover peers shard) unforced h
  have knownFirst := ((two.registered _).mpr (.inl rfl)).1
  have knownSecond := ((two.registered _).mpr (.inr rfl)).1
  have toldFirst := ((two.announced _).mpr (.inl rfl)).1
  have toldSecond := ((two.announced _).mpr (.inr rfl)).1
  have once : RegisteredOnce shard s := two.once differ
  have second_told : createdSecond ≤ timestampSecond := by
    obtain ⟨time, bound, known⟩ := hand.announced second timestampSecond toldSecond
    exact once second time createdSecond known knownSecond ▸ bound
  have firstLost := hand.lost once settled toldSecond toFirst differ knownFirst (by omega)
  have exact_ : (s.localShards second).lookup shard = some ⟨shard, createdSecond⟩ ↔
      timestampFirst ≤ createdSecond := by
    constructor
    · intro held
      by_contra newer
      have gone := hand.lost once settled toldFirst toSecond differ.symm knownSecond (by omega)
      cases held.symm.trans gone
    · exact hand.second_kept once two
  refine ⟨exact_, ?_⟩
  rw [← exact_]
  constructor
  · rintro ⟨node, member, present⟩
    rcases List.mem_pair.mp member with rfl | rfl
    · simp [firstLost] at present
    · obtain ⟨info, found⟩ := Option.isSome_iff_exists.mp present
      obtain ⟨id, known⟩ := hand.entry node info found
      rw [found, ← once node info.created createdSecond known knownSecond, ← id]
  · intro held
    exact ⟨second, by simp, by simp [held]⟩

def twoNodes (node : String) : List String := if node = "a" then ["b"] else ["a"]

def crossedRun : List Label :=
  [.registerShard "a" sampleShard, .registerShard "b" sampleShard, .proceed 0 1, .proceed 1 2,
    .proceed 0 3, .proceed 1 4, .deliver 0, .proceed 2 5, .proceed 2 6, .proceed 2 7, .proceed 2 8,
    .deliver 0, .proceed 3 9, .proceed 3 10, .proceed 3 11, .proceed 3 12, .deliver 0, .proceed 4 13,
    .deliver 0, .proceed 5 14]

def orderedRun : List Label :=
  [.registerShard "a" sampleShard, .proceed 0 1, .proceed 0 2, .registerShard "b" sampleShard,
    .proceed 1 3, .deliver 0, .proceed 2 4, .proceed 1 5, .deliver 0, .proceed 3 6, .proceed 3 7,
    .proceed 3 8, .proceed 3 9, .deliver 0, .proceed 4 10]

def endOf (labels : List Label) : Cluster := (run (step twoNodes) initial labels).getD initial

theorem two_of_lists {shard : ClusterShardID} {s : Cluster} {first second : String}
    {createdFirst createdSecond timestampFirst timestampSecond : Nat}
    (registered : s.registered = [⟨first, shard, createdFirst⟩, ⟨second, shard, createdSecond⟩])
    (announced : s.announced = [⟨first, shard, timestampFirst⟩, ⟨second, shard, timestampSecond⟩]) :
    TwoRegistrations shard s first second createdFirst createdSecond timestampFirst
      timestampSecond := by
  constructor
  · intro r
    rw [registered, List.mem_pair]
    exact and_iff_left_of_imp fun same => by rcases same with rfl | rfl <;> rfl
  · intro r
    rw [announced, List.mem_pair]
    exact and_iff_left_of_imp fun same => by rcases same with rfl | rfl <;> rfl

theorem crossed_messages_leave_shard_unowned :
    run (step twoNodes) initial crossedRun = some (endOf crossedRun) ∧ (endOf crossedRun).Settled ∧
      TwoRegistrations sampleShard (endOf crossedRun) "a" "b" 1 2 3 4 ∧
      ((endOf crossedRun).localShards "a").lookup sampleShard = none ∧
      ((endOf crossedRun).localShards "b").lookup sampleShard = none :=
  ⟨rfl, ⟨rfl, by decide +kernel⟩, two_of_lists rfl rfl, rfl, rfl⟩

theorem later_registration_keeps_shard_iff_ordered :
    run (step twoNodes) initial orderedRun = some (endOf orderedRun) ∧
      ((endOf orderedRun).localShards "b").lookup sampleShard = some ⟨sampleShard, 3⟩ := by
  have settled : (endOf orderedRun).Settled := ⟨rfl, by decide +kernel⟩
  have two : TwoRegistrations sampleShard (endOf orderedRun) "a" "b" 1 3 2 5 := two_of_lists rfl rfl
  have unforced : ∀ node expected, Label.unregisterShard node sampleShard expected ∉ orderedRun := by
    simp [orderedRun]
  have exact_ := later_registration_keeps_shard_iff twoNodes "a" "b" (by decide +kernel)
    (by decide +kernel) (by decide +kernel) sampleShard orderedRun (endOf orderedRun) rfl unforced
    settled 1 3 2 5 two (by omega)
  exact ⟨rfl, exact_.1.mpr (by omega)⟩

end ShardOwnership
