import S2SProxy.ShardData

/- ReconcilePeerStreams: the desired sets are built from the local shards and the shards of all
   peers, receivers are opened for them, and what every peer holds is compared with them. Only
   the keys of a peer's maps are modelled; a peer without an entry holds no stream. -/
namespace PeerReconcile
open ShardData

structure PeerStreamKey where
  targetShard : ClusterShardID
  sourceShard : ClusterShardID
  deriving DecidableEq, Repr

structure PeerState where
  receivers : List PeerStreamKey
  senders : List PeerStreamKey
  deriving DecidableEq, Repr

abbrev Peers := String → PeerState

/-- What the shard manager answers; the lists stand in the order in which the maps yield them. -/
structure View where
  nodeName : String
  started : Bool
  localShards : List ClusterShardID
  remoteNodeStates : AList fun _ : String => List ClusterShardID

def View.isLocalShard (v : View) (shard : ClusterShardID) : Bool :=
  if !v.started then true else shard ∈ v.localShards

def getRemoteShardsForPeer (v : View) (peerNodeName : String) :
    List (Sigma fun _ : String => List ClusterShardID) :=
  v.remoteNodeStates.entries.filter fun e =>
    e.1 ≠ v.nodeName && (peerNodeName = "" || e.1 = peerNodeName)

structure CrossPair where
  peer : String
  own : ClusterShardID
  other : ClusterShardID
  deriving DecidableEq, Repr

/-- The three nested loops behind both desired sets. -/
def crossPairs (v : View) (peerNodeName : String) : List CrossPair :=
  v.localShards.flatMap fun l =>
    (getRemoteShardsForPeer v peerNodeName).flatMap fun e =>
      (e.2.filter fun r => l.clusterID ≠ r.clusterID).map fun r => ⟨e.1, l, r⟩

abbrev Desired := AList fun _ : PeerStreamKey => String

def collect (key : CrossPair → PeerStreamKey) (pairs : List CrossPair) : Desired :=
  pairs.foldl (fun desired pair => desired.insert (key pair) pair.peer) ∅

def desiredReceivers (v : View) (peerNodeName : String) : Desired :=
  collect (fun pair => ⟨pair.own, pair.other⟩) (crossPairs v peerNodeName)

def desiredSenders (v : View) (peerNodeName : String) : Desired :=
  collect (fun pair => ⟨pair.other, pair.own⟩) (crossPairs v peerNodeName)

/-- opened says whether ensureStream finds or makes a receiver. -/
def ensureReceiverForPeerShard (v : View) (opened : PeerStreamKey → Bool) (peers : Peers)
    (peerNodeName : String) (key : PeerStreamKey) : Peers :=
  if key.targetShard.clusterID = key.sourceShard.clusterID then peers
  else if peerNodeName = v.nodeName then peers
  else if !v.isLocalShard key.targetShard && !v.isLocalShard key.sourceShard then peers
  else if opened key then
    Function.update peers peerNodeName
      { peers peerNodeName with receivers := key :: (peers peerNodeName).receivers }
  else peers

/-- The entries under the key are deleted from both maps. -/
def closePeerShardLocked (ps : PeerState) (key : PeerStreamKey) : PeerState :=
  ⟨ps.receivers.filter (· ≠ key), ps.senders.filter (· ≠ key)⟩

def check (receivers senders : Desired) (ps : PeerState) : PeerState :=
  let ps := (ps.receivers.filter (· ∉ receivers)).foldl closePeerShardLocked ps
  (ps.senders.filter (· ∉ senders)).foldl closePeerShardLocked ps

def ensureAll (v : View) (opened : PeerStreamKey → Bool) (receivers : Desired) (peers : Peers) : Peers :=
  receivers.entries.foldl (fun peers e => ensureReceiverForPeerShard v opened peers e.2 e.1) peers

def reconcilePeerStreams (v : View) (opened : PeerStreamKey → Bool) (peerNodeName : String)
    (peers : Peers) : Peers :=
  let receivers := desiredReceivers v peerNodeName
  let senders := desiredSenders v peerNodeName
  let peers := ensureAll v opened receivers peers
  fun p => if peerNodeName ≠ "" ∧ p ≠ peerNodeName then peers p else check receivers senders (peers p)

def Owns (v : View) (p : String) (shard : ClusterShardID) : Prop :=
  ∃ shards ∈ v.remoteNodeStates.lookup p, shard ∈ shards

def ReceiverFits (v : View) (p : String) (k : PeerStreamKey) : Prop :=
  k.targetShard ∈ v.localShards ∧ Owns v p k.sourceShard ∧
    k.targetShard.clusterID ≠ k.sourceShard.clusterID

def SenderFits (v : View) (p : String) (k : PeerStreamKey) : Prop :=
  k.sourceShard ∈ v.localShards ∧ Owns v p k.targetShard

/-- Some other node should have the receiver, or the sender. -/
def WantedReceiver (v : View) (k : PeerStreamKey) : Prop :=
  k.targetShard ∈ v.localShards ∧ k.targetShard.clusterID ≠ k.sourceShard.clusterID ∧
    ∃ p, p ≠ v.nodeName ∧ Owns v p k.sourceShard

def WantedSender (v : View) (k : PeerStreamKey) : Prop :=
  k.sourceShard ∈ v.localShards ∧ k.sourceShard.clusterID ≠ k.targetShard.clusterID ∧
    ∃ p, p ≠ v.nodeName ∧ Owns v p k.targetShard

/-- A wanted stream is held by an owner of its remote shard, unless the same key is about to be
    closed because of the other map. -/
structure InPlace (v : View) (p : String) (ps : PeerState) : Prop where
  receivers : ∀ k ∈ ps.receivers, WantedReceiver v k → (k ∈ ps.senders → WantedSender v k) →
    Owns v p k.sourceShard
  senders : ∀ k ∈ ps.senders, WantedSender v k → (k ∈ ps.receivers → WantedReceiver v k) →
    Owns v p k.targetShard

theorem mem_crossPairs {v : View} {pair : CrossPair} :
    pair ∈ crossPairs v "" ↔ pair.own ∈ v.localShards ∧ pair.peer ≠ v.nodeName ∧
      Owns v pair.peer pair.other ∧ pair.own.clusterID ≠ pair.other.clusterID := by
  obtain ⟨peer, own, other⟩ := pair
  simp only [crossPairs, getRemoteShardsForPeer, List.mem_flatMap, List.mem_map, List.mem_filter,
    CrossPair.mk.injEq, Owns, Option.mem_def, decide_true, Bool.true_or, Bool.and_true,
    decide_eq_true_eq]
  constructor
  · intro member
    obtain ⟨l, here, e, ⟨entry, elsewhere⟩, r, ⟨shard, apart⟩, rfl, rfl, rfl⟩ := member
    exact ⟨here, elsewhere, ⟨e.2, AList.mem_lookup_iff.mpr entry, shard⟩, apart⟩
  · intro member
    obtain ⟨here, elsewhere, ⟨shards, entry, shard⟩, apart⟩ := member
    exact ⟨own, here, ⟨peer, shards⟩, ⟨AList.mem_lookup_iff.mp entry, elsewhere⟩, other, ⟨shard, apart⟩,
      rfl, rfl, rfl⟩

/- A key of a desired set stems from a pair, and so does the peer stored under it. -/
theorem lookup_collect {key : CrossPair → PeerStreamKey} {pairs : List CrossPair} {k : PeerStreamKey}
    {p : String} (h : (collect key pairs).lookup k = some p) :
    ∃ pair ∈ pairs, key pair = k ∧ pair.peer = p := by
  unfold collect at h
  induction pairs using List.reverseRecOn with
  | nil => cases h
  | append_singleton pairs pair ih =>
    rw [List.foldl_append] at h
    simp only [List.foldl_cons, List.foldl_nil] at h
    by_cases same : k = key pair
    · subst same
      rw [AList.lookup_insert, Option.some.injEq] at h
      exact ⟨pair, by simp, rfl, h⟩
    · rw [AList.lookup_insert_ne same] at h
      obtain ⟨pair', member, found⟩ := ih h
      exact ⟨pair', List.mem_append_left _ member, found⟩

theorem mem_collect {key : CrossPair → PeerStreamKey} {pairs : List CrossPair} {k : PeerStreamKey} :
    k ∈ collect key pairs ↔ ∃ pair ∈ pairs, key pair = k := by
  unfold collect
  induction pairs using List.reverseRecOn with
  | nil => simp
  | append_singleton pairs pair ih =>
    rw [List.foldl_append]
    simp only [List.foldl_cons, List.foldl_nil, AList.mem_insert, ih, List.mem_append,
      List.mem_singleton]
    constructor
    · intro found
      rcases found with rfl | ⟨pair', member, rfl⟩
      · exact ⟨pair, .inr rfl, rfl⟩
      · exact ⟨pair', .inl member, rfl⟩
    · intro found
      obtain ⟨pair', member | rfl, rfl⟩ := found
      · exact .inr ⟨pair', member, rfl⟩
      · exact .inl rfl

theorem mem_desiredReceivers {v : View} {k : PeerStreamKey} :
    k ∈ desiredReceivers v "" ↔ WantedReceiver v k := by
  simp only [desiredReceivers, mem_collect, mem_crossPairs, WantedReceiver]
  constructor
  · intro found
    obtain ⟨pair, ⟨here, elsewhere, owns, apart⟩, rfl⟩ := found
    exact ⟨here, apart, pair.peer, elsewhere, owns⟩
  · intro wanted
    obtain ⟨here, apart, p, elsewhere, owns⟩ := wanted
    exact ⟨⟨p, k.targetShard, k.sourceShard⟩, ⟨here, elsewhere, owns, apart⟩, rfl⟩

theorem mem_desiredSenders {v : View} {k : PeerStreamKey} :
    k ∈ desiredSenders v "" ↔ WantedSender v k := by
  simp only [desiredSenders, mem_collect, mem_crossPairs, WantedSender]
  constructor
  · intro found
    obtain ⟨pair, ⟨here, elsewhere, owns, apart⟩, rfl⟩ := found
    exact ⟨here, apart, pair.peer, elsewhere, owns⟩
  · intro wanted
    obtain ⟨here, apart, p, elsewhere, owns⟩ := wanted
    exact ⟨⟨p, k.sourceShard, k.targetShard⟩, ⟨here, elsewhere, owns, apart⟩, rfl⟩

/-- What opening receivers does to the maps of the peers: an old key stays, a new one is among
    the given entries, and the senders are left alone. -/
structure Ensured (entries : List (Sigma fun _ : PeerStreamKey => String)) (peers peers' : Peers) :
    Prop where
  kept : ∀ p, (peers p).receivers ⊆ (peers' p).receivers
  added : ∀ p, ∀ k ∈ (peers' p).receivers, k ∈ (peers p).receivers ∨ ⟨k, p⟩ ∈ entries
  senders : ∀ p, (peers' p).senders = (peers p).senders

theorem ensureReceiver_ensured (v : View) (opened : PeerStreamKey → Bool) (peers : Peers)
    (e : Sigma fun _ : PeerStreamKey => String) :
    Ensured [e] peers (ensureReceiverForPeerShard v opened peers e.2 e.1) := by
  have same : Ensured [e] peers peers :=
    ⟨fun _ => List.Subset.refl _, fun _ _ member => .inl member, fun _ => rfl⟩
  unfold ensureReceiverForPeerShard
  split
  · exact same
  split
  · exact same
  split
  · exact same
  split
  · constructor
    · intro p
      by_cases here : p = e.2
      · subst here
        simp
      · simp [Function.update_of_ne here]
    · intro p k member
      by_cases here : p = e.2
      · subst here
        simp only [Function.update_self, List.mem_cons] at member
        rcases member with rfl | old
        · exact .inr (List.mem_singleton_self _)
        · exact .inl old
      · rw [Function.update_of_ne here] at member
        exact .inl member
    · intro p
      by_cases here : p = e.2
      · subst here
        simp
      · simp [Function.update_of_ne here]
  · exact same

theorem ensureAll_ensured (v : View) (opened : PeerStreamKey → Bool) (receivers : Desired)
    (peers : Peers) : Ensured receivers.entries peers (ensureAll v opened receivers peers) := by
  unfold ensureAll
  induction receivers.entries generalizing peers with
  | nil => exact ⟨fun _ => List.Subset.refl _, fun _ _ member => .inl member, fun _ => rfl⟩
  | cons e rest ih =>
    have first := ensureReceiver_ensured v opened peers e
    have later := ih (ensureReceiverForPeerShard v opened peers e.2 e.1)
    constructor
    · intro p
      exact List.Subset.trans (first.kept p) (later.kept p)
    · intro p k member
      rcases later.added p k member with old | new
      · rcases first.added p k old with older | here
        · exact .inl older
        · exact .inr (List.mem_cons.mpr (.inl (List.mem_singleton.mp here)))
      · exact .inr (List.mem_cons_of_mem e new)
    · intro p
      exact (later.senders p).trans (first.senders p)

theorem ensured_owns {v : View} {k : PeerStreamKey} {p : String}
    (entry : ⟨k, p⟩ ∈ (desiredReceivers v "").entries) :
    WantedReceiver v k ∧ Owns v p k.sourceShard := by
  have found : (desiredReceivers v "").lookup k = some p := AList.mem_lookup_iff.mpr entry
  obtain ⟨pair, member, rfl, rfl⟩ := lookup_collect found
  obtain ⟨here, elsewhere, owns, apart⟩ := mem_crossPairs.mp member
  exact ⟨⟨here, apart, pair.peer, elsewhere, owns⟩, owns⟩

theorem mem_closed {keys : List PeerStreamKey} {ps : PeerState} {k : PeerStreamKey} :
    (k ∈ (keys.foldl closePeerShardLocked ps).receivers ↔ k ∈ ps.receivers ∧ k ∉ keys) ∧
    (k ∈ (keys.foldl closePeerShardLocked ps).senders ↔ k ∈ ps.senders ∧ k ∉ keys) := by
  induction keys generalizing ps with
  | nil => simp
  | cons key rest ih =>
    simp only [List.foldl_cons, ih, closePeerShardLocked, List.mem_filter, List.mem_cons, not_or,
      decide_eq_true_eq, and_assoc, ne_eq, and_self]

theorem mem_check {receivers senders : Desired} {ps : PeerState} {k : PeerStreamKey} :
    (k ∈ (check receivers senders ps).receivers ↔
      k ∈ ps.receivers ∧ k ∈ receivers ∧ (k ∈ ps.senders → k ∈ senders)) ∧
    (k ∈ (check receivers senders ps).senders ↔
      k ∈ ps.senders ∧ k ∈ senders ∧ (k ∈ ps.receivers → k ∈ receivers)) := by
  simp only [check, mem_closed, List.mem_filter, decide_eq_true_eq, not_and, not_not]
  constructor
  · tauto
  · tauto

theorem reconcile_leaves_owned_streams_iff (v : View) (opened : PeerStreamKey → Bool) (peers : Peers) :
    (∀ p, (∀ k ∈ (reconcilePeerStreams v opened "" peers p).receivers, ReceiverFits v p k) ∧
      ∀ k ∈ (reconcilePeerStreams v opened "" peers p).senders, SenderFits v p k) ↔
    ∀ p, InPlace v p (peers p) := by
  have ensured := ensureAll_ensured v opened (desiredReceivers v "") peers
  have left : ∀ p, reconcilePeerStreams v opened "" peers p =
      check (desiredReceivers v "") (desiredSenders v "")
        (ensureAll v opened (desiredReceivers v "") peers p) := fun p => by
    simp [reconcilePeerStreams]
  simp only [left, mem_check, mem_desiredReceivers, mem_desiredSenders, ensured.senders]
  refine forall_congr' fun p => ?_
  constructor
  · intro fits
    constructor
    · intro k held wanted closed
      exact (fits.1 k ⟨ensured.kept p held, wanted, closed⟩).2.1
    · intro k held wanted closed
      refine (fits.2 k ⟨held, wanted, fun receiver => ?_⟩).2
      exact (ensured.added p k receiver).elim closed fun new => (ensured_owns new).1
  · intro place
    constructor
    · intro k remains
      obtain ⟨held, wanted, closed⟩ := remains
      refine ⟨wanted.1, ?_, wanted.2.1⟩
      rcases ensured.added p k held with old | new
      · exact place.receivers k old wanted closed
      · exact (ensured_owns new).2
    · intro k remains
      obtain ⟨held, wanted, closed⟩ := remains
      exact ⟨wanted.1, place.senders k held wanted fun old => closed (ensured.kept p old)⟩

def movedView : View where
  nodeName := "n"
  started := true
  localShards := [⟨2, 1⟩]
  remoteNodeStates :=
    ((∅ : AList fun _ : String => List ClusterShardID).insert "a" []).insert "b" [⟨1, 1⟩]

def formerlyHeld : Peers := fun p =>
  if p = "a" then ⟨[⟨⟨2, 1⟩, ⟨1, 1⟩⟩], [⟨⟨1, 1⟩, ⟨2, 1⟩⟩]⟩ else ⟨[], []⟩

theorem former_owner_owns_nothing (shard : ClusterShardID) : ¬ Owns movedView "a" shard := by
  intro owns
  obtain ⟨shards, found, member⟩ := owns
  cases found
  cases member

/-- The new owner gets its receiver, and the former owner keeps both streams. -/
theorem streams_of_former_owner_stay :
    (reconcilePeerStreams movedView (fun _ => true) "" formerlyHeld "b").receivers =
      [⟨⟨2, 1⟩, ⟨1, 1⟩⟩] ∧
    (∃ k ∈ (reconcilePeerStreams movedView (fun _ => true) "" formerlyHeld "a").receivers,
      ¬ ReceiverFits movedView "a" k) ∧
    ∃ k ∈ (reconcilePeerStreams movedView (fun _ => true) "" formerlyHeld "a").senders,
      ¬ SenderFits movedView "a" k := by
  refine ⟨rfl, ⟨⟨⟨2, 1⟩, ⟨1, 1⟩⟩, List.mem_singleton_self _, ?_⟩,
    ⟨⟨⟨1, 1⟩, ⟨2, 1⟩⟩, List.mem_singleton_self _, ?_⟩⟩
  · intro fits
    exact former_owner_owns_nothing _ fits.2.1
  · intro fits
    exact former_owner_owns_nothing _ fits.2

end PeerReconcile
