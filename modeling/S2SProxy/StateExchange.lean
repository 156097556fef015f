import S2SProxy.ShardOwnership

/- The exchange of shard sets between proxy nodes: the bytes that LocalState of one node gives, as
   MergeRemoteState of another one takes them. -/
namespace StateExchange
open ShardData ShardOwnership

structure NodeShardState where
  nodeName : String
  shards : LocalShards
  updated : Nat

/-- What encoding/json makes of a NodeShardState, and the bytes of a string. -/
structure Encoding (β : Type) where
  marshal : NodeShardState → Option β
  unmarshal : β → Option NodeShardState
  ofString : String → β
  length : β → Nat

structure MemberlistConfig where
  nodeName : String

structure ShardManager where
  memberlistConfig : Option MemberlistConfig
  localShards : LocalShards
  remoteNodeStates : AList fun _ : String => NodeShardState

def ShardManager.getNodeName (manager : ShardManager) : String :=
  match manager.memberlistConfig with
  | none => ""
  | some config => config.nodeName

variable {β : Type}

def ShardManager.ownState (manager : ShardManager) (now : Nat) : NodeShardState :=
  ⟨manager.getNodeName, manager.localShards, now⟩

def nodeMeta (enc : Encoding β) (delegate : Option ShardManager) (now limit : Nat) : Option β := do
  let manager ← delegate
  let _ ← manager.memberlistConfig
  let data ← enc.marshal (manager.ownState now)
  if enc.length data > limit then return enc.ofString manager.getNodeName
  return data

def localState (enc : Encoding β) (delegate : Option ShardManager) (now : Nat) : Option β :=
  nodeMeta enc delegate now 4096

def mergeRemoteState (enc : Encoding β) (manager : ShardManager) (buf : Option β) : ShardManager :=
  match buf.bind enc.unmarshal with
  | none => manager
  | some state =>
    { manager with remoteNodeStates := manager.remoteNodeStates.insert state.nodeName state }

/-- The entry of the sender lists the sender's shards, each with what is known of it. -/
def Knows (receiver sender : ShardManager) : Prop :=
  ∃ state, receiver.remoteNodeStates.lookup sender.getNodeName = some state ∧
    ∀ shard, state.shards.lookup shard = sender.localShards.lookup shard

/-- The exchange tells the receiver the sender's shards, and nothing else. -/
def Transferred (enc : Encoding β) (sender receiver : ShardManager) (now : Nat) : Prop :=
  let merged := mergeRemoteState enc receiver (localState enc (some sender) now)
  Knows merged sender ∧
    ∀ other, other ≠ sender.getNodeName →
      merged.remoteNodeStates.lookup other = receiver.remoteNodeStates.lookup other

/-- The node takes part in the memberlist and its state is within the limit. -/
def SentWhole (enc : Encoding β) (sender : ShardManager) (now : Nat) : Prop :=
  sender.memberlistConfig ≠ none ∧
    ∀ data, enc.marshal (sender.ownState now) = some data → enc.length data ≤ 4096

/-- The bare name, where it can be sent, does not read as a state, or as one that the receiver
    holds already. -/
def NameIsNoNews (enc : Encoding β) (sender receiver : ShardManager) : Prop :=
  sender.memberlistConfig ≠ none → ∀ state, enc.unmarshal (enc.ofString sender.getNodeName) = some state →
    receiver.remoteNodeStates.lookup state.nodeName = some state

/-- Every state can be written, and reads back as the same name, shards and time. -/
def RoundTrips (enc : Encoding β) : Prop :=
  ∀ state, ∃ data read, enc.marshal state = some data ∧ enc.unmarshal data = some read ∧
    read.nodeName = state.nodeName ∧ read.updated = state.updated ∧
    ∀ shard, read.shards.lookup shard = state.shards.lookup shard

/-- A JSON text is longer than the strings in it: the bytes of a name are not the text of a state
    that has the name. -/
def NamesAreNoStates (enc : Encoding β) : Prop :=
  ∀ name state, enc.unmarshal (enc.ofString name) = some state → state.nodeName ≠ name

theorem mergeRemoteState_read (enc : Encoding β) (receiver : ShardManager) {buf : Option β}
    {state : NodeShardState} (read : buf.bind enc.unmarshal = some state) :
    (mergeRemoteState enc receiver buf).remoteNodeStates =
      receiver.remoteNodeStates.insert state.nodeName state := by
  simp [mergeRemoteState, read]

theorem mergeRemoteState_unread (enc : Encoding β) (receiver : ShardManager) {buf : Option β}
    (unread : buf.bind enc.unmarshal = none) : mergeRemoteState enc receiver buf = receiver := by
  simp [mergeRemoteState, unread]

theorem localState_whole {enc : Encoding β} (roundTrips : RoundTrips enc) {sender : ShardManager}
    {now : Nat} (whole : SentWhole enc sender now) :
    enc.marshal (sender.ownState now) = localState enc (some sender) now := by
  obtain ⟨running, fits⟩ := whole
  obtain ⟨data, -, written, -⟩ := roundTrips (sender.ownState now)
  obtain ⟨config, configured⟩ := Option.ne_none_iff_exists'.mp running
  have short : ¬ enc.length data > 4096 := Nat.not_lt.mpr (fits data written)
  simp [localState, nodeMeta, configured, written, short]

theorem localState_unconfigured (enc : Encoding β) {sender : ShardManager} (now : Nat)
    (configured : sender.memberlistConfig = none) : localState enc (some sender) now = none := by
  simp [localState, nodeMeta, configured]

/-- A configured node that does not send its state whole sends the bare name. -/
theorem localState_cut {enc : Encoding β} (roundTrips : RoundTrips enc) {sender : ShardManager}
    {now : Nat} (running : sender.memberlistConfig ≠ none) (cut : ¬ SentWhole enc sender now) :
    localState enc (some sender) now = some (enc.ofString sender.getNodeName) := by
  obtain ⟨data, -, written, -⟩ := roundTrips (sender.ownState now)
  obtain ⟨config, configured⟩ := Option.ne_none_iff_exists'.mp running
  have long : enc.length data > 4096 := by
    by_contra short
    apply cut
    constructor
    · exact running
    · intro data' written'
      obtain rfl : data = data' := Option.some.inj (written.symm.trans written')
      omega
  simp [localState, nodeMeta, configured, written, long]

theorem whole_transferred {enc : Encoding β} (roundTrips : RoundTrips enc)
    {sender : ShardManager} (receiver : ShardManager) {now : Nat} (whole : SentWhole enc sender now) :
    Transferred enc sender receiver now := by
  obtain ⟨data, read, written, decoded, name, -, shards⟩ := roundTrips (sender.ownState now)
  have sent := localState_whole roundTrips whole
  have received : (localState enc (some sender) now).bind enc.unmarshal = some read := by
    simp [← sent, written, decoded]
  have merged := mergeRemoteState_read enc receiver received
  have named : read.nodeName = sender.getNodeName := name
  constructor
  · refine ⟨read, ?_, shards⟩
    rw [merged, named]
    exact AList.lookup_insert _
  · intro other different
    rw [merged, named]
    exact AList.lookup_insert_ne different

/-- The state that a bare name reads as is merged; the entry of the name itself stays. -/
theorem cut_merges {enc : Encoding β} (roundTrips : RoundTrips enc)
    {sender : ShardManager} (receiver : ShardManager) {now : Nat}
    (running : sender.memberlistConfig ≠ none) (cut : ¬ SentWhole enc sender now)
    {state : NodeShardState} (read : enc.unmarshal (enc.ofString sender.getNodeName) = some state) :
    (mergeRemoteState enc receiver (localState enc (some sender) now)).remoteNodeStates =
      receiver.remoteNodeStates.insert state.nodeName state := by
  apply mergeRemoteState_read
  rw [localState_cut roundTrips running cut]
  exact read

theorem unread_merges_nothing {enc : Encoding β} (roundTrips : RoundTrips enc)
    {sender : ShardManager} (receiver : ShardManager) {now : Nat} (cut : ¬ SentWhole enc sender now)
    (unread : sender.memberlistConfig ≠ none → enc.unmarshal (enc.ofString sender.getNodeName) = none) :
    mergeRemoteState enc receiver (localState enc (some sender) now) = receiver := by
  apply mergeRemoteState_unread
  by_cases configured : sender.memberlistConfig = none
  · simp [localState_unconfigured enc now configured]
  · simp [localState_cut roundTrips configured cut, unread configured]

theorem cut_transferred_iff {enc : Encoding β} (roundTrips : RoundTrips enc)
    (names : NamesAreNoStates enc) (sender receiver : ShardManager) {now : Nat}
    (cut : ¬ SentWhole enc sender now) :
    Transferred enc sender receiver now ↔
      Knows receiver sender ∧ NameIsNoNews enc sender receiver := by
  by_cases read : sender.memberlistConfig ≠ none ∧
      ∃ state, enc.unmarshal (enc.ofString sender.getNodeName) = some state
  · obtain ⟨running, state, read⟩ := read
    have merged := cut_merges roundTrips receiver running cut read
    have other : sender.getNodeName ≠ state.nodeName := (names _ _ read).symm
    simp only [Transferred, Knows, NameIsNoNews, merged, AList.lookup_insert_ne other]
    refine and_congr_right fun _ => ?_
    constructor
    · intro unchanged _ state' read'
      obtain rfl : state = state' := Option.some.inj (read.symm.trans read')
      rw [← unchanged _ other.symm]
      exact AList.lookup_insert _
    · intro held node different
      by_cases same : node = state.nodeName
      · rw [same, AList.lookup_insert, held running state read]
      · exact AList.lookup_insert_ne same
  · push Not at read
    have unread : sender.memberlistConfig ≠ none →
        enc.unmarshal (enc.ofString sender.getNodeName) = none :=
      fun running => Option.eq_none_iff_forall_ne_some.mpr (read running)
    unfold Transferred
    rw [unread_merges_nothing roundTrips receiver cut unread]
    refine and_congr_right fun _ => ⟨fun _ running state some => ?_, fun _ _ _ => rfl⟩
    exact absurd some (read running state)

/-- The shard set arrives exactly if it is sent whole, unless the receiver has had it before and
    the bare name means nothing new to it. -/
theorem state_exchange_transfers_iff (enc : Encoding β) (roundTrips : RoundTrips enc)
    (names : NamesAreNoStates enc) (sender receiver : ShardManager) (now : Nat) :
    Transferred enc sender receiver now ↔
      SentWhole enc sender now ∨ (Knows receiver sender ∧ NameIsNoNews enc sender receiver) := by
  by_cases whole : SentWhole enc sender now
  · exact iff_of_true (whole_transferred roundTrips receiver whole) (.inl whole)
  · rw [cut_transferred_iff roundTrips names sender receiver whole]
    exact (or_iff_right whole).symm

inductive Text where
  | json (state : NodeShardState)
  | plain (name : String)

def decimals (n : Int) : Nat := (toString n).length

/-- A member of the object of shards, with its key, its id and a time of twenty characters. -/
def memberLength (shard : ClusterShardID) : Nat :=
  69 + 2 * (decimals shard.clusterID + decimals shard.shardID)

def Text.length : Text → Nat
  | .json state =>
    56 + state.nodeName.length + (state.shards.keys.map memberLength).sum + (state.shards.keys.length - 1)
  | .plain name => name.length

def textEncoding : Encoding Text where
  marshal state := some (.json state)
  unmarshal
    | .json state => some state
    | .plain _ => none
  ofString := .plain
  length := Text.length

theorem textEncoding_roundTrips : RoundTrips textEncoding := fun state =>
  ⟨.json state, state, rfl, rfl, rfl, rfl, fun _ => rfl⟩

theorem textEncoding_names : NamesAreNoStates textEncoding := fun _ _ read => nomatch read

def shardsUpTo (count : Nat) : LocalShards :=
  (List.range count).foldr (fun i shards => shards.insert ⟨1, i + 1⟩ ⟨⟨1, i + 1⟩, 100⟩) ∅

def nodeWith (count : Nat) : ShardManager where
  memberlistConfig := some ⟨"proxy-a"⟩
  localShards := shardsUpTo count
  remoteNodeStates := ∅

def joiningNode : ShardManager where
  memberlistConfig := some ⟨"proxy-b"⟩
  localShards := ∅
  remoteNodeStates := (∅ : AList fun _ : String => NodeShardState).insert "proxy-c" ⟨"proxy-c", ∅, 90⟩

theorem three_shards_transferred :
    SentWhole textEncoding (nodeWith 3) 120 ∧ Transferred textEncoding (nodeWith 3) joiningNode 120 := by
  have whole : SentWhole textEncoding (nodeWith 3) 120 := by
    constructor
    · exact Option.some_ne_none _
    · intro data written
      obtain rfl := Option.some.inj written
      decide
  exact ⟨whole, (state_exchange_transfers_iff textEncoding textEncoding_roundTrips textEncoding_names
    (nodeWith 3) joiningNode 120).mpr (.inl whole)⟩

/-- Of sixty shards the joining node hears nothing but the name of their node, which it cannot read. -/
theorem sixty_shards_not_transferred :
    localState textEncoding (some (nodeWith 60)) 120 = some (.plain "proxy-a") ∧
    mergeRemoteState textEncoding joiningNode (localState textEncoding (some (nodeWith 60)) 120) =
      joiningNode ∧
    ¬ Transferred textEncoding (nodeWith 60) joiningNode 120 := by
  have long : Text.length (.json ((nodeWith 60).ownState 120)) > 4096 := by decide +kernel
  have sent : localState textEncoding (some (nodeWith 60)) 120 = some (.plain "proxy-a") := by
    have name : (nodeWith 60).getNodeName = "proxy-a" := rfl
    have configured : (nodeWith 60).memberlistConfig = some ⟨"proxy-a"⟩ := rfl
    simp [localState, nodeMeta, textEncoding, configured, long, name]
  have ignored : mergeRemoteState textEncoding joiningNode (some (.plain "proxy-a")) = joiningNode := rfl
  refine ⟨sent, by rw [sent, ignored], ?_⟩
  intro transferred
  unfold Transferred at transferred
  rw [sent, ignored] at transferred
  obtain ⟨state, found, -⟩ := transferred.1
  have absent : joiningNode.remoteNodeStates.lookup "proxy-a" = none := by decide
  cases absent.symm.trans found

end StateExchange
