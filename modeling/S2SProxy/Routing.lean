import S2SProxy.Lib.GuardedRuns
import S2SProxy.Lib.RetryLoop
import S2SProxy.ShardData

/- How the messages of one source shard reach the send channels of the target shards: the
   proxyStreamReceiver that splits batches, the registry of send channels on every node, the
   intra-proxy streams between nodes and the callbacks that re-send a watermark to a newly
   registered shard. Every goroutine is a program counter with its local variables; a step is
   one access to shared state. Messages of other source shards appear as puts of the
   environment. Which node is believed to own a shard is not modelled: a delivery that looks
   for a remote owner may use any registered stream to the target, or fail. -/
namespace Routing
open ShardData

abbrev Node := Nat

structure Config where
  /-- The source shard and the node that runs its proxyStreamReceiver. -/
  source : ClusterShardID
  home : Node
  targetCluster : Int
  localShardCount : Int
  workflowIDToHistoryShard : String → String → Int → Int

/-- The target shard of a task; a task that does not name its workflow is dropped. -/
def route (cfg : Config) (t : ReplicationTask) : Option ClusterShardID :=
  match t.rawTaskInfo with
  | none => none
  | some info =>
    if info.namespaceID ≠ "" ∧ info.workflowID ≠ "" then
      some ⟨cfg.targetCluster,
        cfg.workflowIDToHistoryShard info.namespaceID info.workflowID cfg.localShardCount⟩
    else none

abbrev TaskGroups := AList (fun _ : ClusterShardID => List ReplicationTask)

def addToGroup (cfg : Config) (groups : TaskGroups) (t : ReplicationTask) : TaskGroups :=
  match route cfg t with
  | none => groups
  | some target => groups.insert target ((groups.lookup target).getD [] ++ [t])

def tasksByTargetShard (cfg : Config) (tasks : List ReplicationTask) : TaskGroups :=
  tasks.foldl (addToGroup cfg) ∅

def lastTaskID (tasks : List ReplicationTask) : Int :=
  ((tasks.getLast?.bind ReplicationTask.rawTaskInfo).map RawTaskInfo.taskID).getD 0

def groupMessage (groups : TaskGroups) (priority : Int) (target : ClusterShardID) :
    WorkflowReplicationMessages :=
  let tasks := (groups.lookup target).getD []
  ⟨tasks, lastTaskID tasks + 1, priority⟩

def watermarkOf (m : WorkflowReplicationMessages) : WorkflowReplicationMessages :=
  ⟨[], m.exclusiveHighWatermark, m.priority⟩

/-- A sendMsgChan with everything ever put into it; the first taken messages have been
    received by the sender. -/
structure SendChan where
  node : Node
  target : ClusterShardID
  puts : List RoutedMessage
  taken : Nat
  closed : Bool

def SendChan.accepts (ch : SendChan) : Bool := !ch.closed && ch.puts.length - ch.taken < 100

/-- An intra-proxy stream for the source shard and one target. Its intraProxyStreamSender
    runs on the origin, its intraProxyStreamReceiver on the peer. -/
structure IntraStream where
  origin : Node
  peer : Node
  target : ClusterShardID
  registered : Bool
  greeted : Bool
  /-- The pending watermark the sender has read on registration and not yet sent. -/
  greeting : Option WorkflowReplicationMessages
  wire : List WorkflowReplicationMessages
  /-- The message the receiver is trying to put, and the channel it has looked up. -/
  holding : Option WorkflowReplicationMessages
  sendChan : Option Nat
  lastWatermark : Option WorkflowReplicationMessages
  fromTasks : Bool
  closed : Bool

inductive DeliveryPc where
  | lookup
  | sendLocal (c : Nat)
  | forward
  deriving DecidableEq

inductive RecvPhase where
  | idle
  | delivering (groups : TaskGroups) (priority : Int) (loop : RetryLoop ClusterShardID)
      (pc : DeliveryPc)
  | announcing (m : WorkflowReplicationMessages)
  | broadcastLocal (m : WorkflowReplicationMessages) (chans : List Nat)
  | broadcastRemote (m : WorkflowReplicationMessages) (shards : List ClusterShardID)
      (pc : DeliveryPc)

inductive ActiveReceiver where
  | proxy
  | intra (i : Nat)

inductive NotifierPc where
  | read (receiver : ActiveReceiver)
  | lookup (m : WorkflowReplicationMessages)
  | sendLocal (m : WorkflowReplicationMessages) (c : Nat)
  | deliver (m : WorkflowReplicationMessages) (pc : DeliveryPc)

structure Notifier where
  node : Node
  target : ClusterShardID
  pc : NotifierPc

structure Plane where
  chan : Nat → SendChan
  chanCount : Nat
  remoteSendChannels : AList (fun _ : Node × ClusterShardID => Nat)
  /-- The target shards for which a register message has gone out. -/
  announced : List ClusterShardID
  activeReceivers : AList (fun _ : Node => ActiveReceiver)
  lastExclusiveHighOriginal : Int
  lastWatermark : Option WorkflowReplicationMessages
  phase : RecvPhase
  stream : Nat → IntraStream
  streamCount : Nat
  notifiers : List Notifier
  /-- History: the tasks and the watermarks of empty batches received from the source, and
      the channels on which an unprotected send has panicked. -/
  received : List ReplicationTask
  watermarks : List Int
  panics : List Nat

def emptyChan : SendChan := ⟨0, default, [], 0, true⟩

def emptyStream : IntraStream :=
  ⟨0, 0, default, false, false, none, [], none, none, none, false, true⟩

def initial (cfg : Config) : Plane where
  chan := fun _ => emptyChan
  chanCount := 0
  remoteSendChannels := ∅
  announced := []
  activeReceivers := (∅ : AList fun _ : Node => ActiveReceiver).insert cfg.home .proxy
  lastExclusiveHighOriginal := 0
  lastWatermark := none
  phase := .idle
  stream := fun _ => emptyStream
  streamCount := 0
  notifiers := []
  received := []
  watermarks := []
  panics := []

/-- What a step does to a channel or to a stream's wire. -/
inductive Effect where
  | silent
  | put (c : Nat) (m : RoutedMessage)
  | enqueue (i : Nat) (m : WorkflowReplicationMessages)
  deriving DecidableEq

def withChan (s : Plane) (c : Nat) (f : SendChan → SendChan) : Plane :=
  { s with chan := Function.update s.chan c (f (s.chan c)) }

def withStream (s : Plane) (i : Nat) (f : IntraStream → IntraStream) : Plane :=
  { s with stream := Function.update s.stream i (f (s.stream i)) }

def apply (s : Plane) : Effect → Plane
  | .silent => s
  | .put c m => withChan s c fun ch => { ch with puts := ch.puts ++ [m] }
  | .enqueue i m => withStream s i fun st => { st with wire := st.wire ++ [m] }

/-! The steps of one call of DeliverMessagesToShardOwner. -/

inductive DeliverLabel where
  | lookup
  | put
  /-- The channel is closed: the panic is recovered and a remote owner is tried. -/
  | closed
  | stream (i : Nat)
  | fail

inductive DeliverResult where
  | running (pc : DeliveryPc)
  | returned (delivered : Bool)

def usable (s : Plane) (i : Nat) (node : Node) (target : ClusterShardID) : Bool :=
  i < s.streamCount && (s.stream i).registered && (s.stream i).origin = node &&
    (s.stream i).target = target

def deliverStep (cfg : Config) (s : Plane) (node : Node) (target : ClusterShardID)
    (m : WorkflowReplicationMessages) : DeliveryPc → DeliverLabel → Option (DeliverResult × Effect)
  | .lookup, .lookup =>
    match s.remoteSendChannels.lookup (node, target) with
    | some c => some (.running (.sendLocal c), .silent)
    | none => some (.running .forward, .silent)
  | .sendLocal c, .put =>
    if (s.chan c).accepts then some (.returned true, .put c ⟨cfg.source, m⟩) else none
  | .sendLocal c, .closed => if (s.chan c).closed then some (.running .forward, .silent) else none
  | .forward, .stream i =>
    if usable s i node target then some (.returned true, .enqueue i m) else none
  | .forward, .fail => some (.returned false, .silent)
  | _, _ => none

/-! The goroutines. recvReplicationMessages takes a batch from the source: -/

def recvEmptyBatch (s : Plane) (m : WorkflowReplicationMessages) : Plane :=
  { s with
    lastExclusiveHighOriginal := m.exclusiveHighWatermark
    lastWatermark := some (watermarkOf m)
    phase := .announcing (watermarkOf m)
    watermarks := s.watermarks ++ [m.exclusiveHighWatermark] }

def recvTasks (cfg : Config) (s : Plane) (m : WorkflowReplicationMessages) : Plane :=
  let groups := tasksByTargetShard cfg m.replicationTasks
  { s with
    lastExclusiveHighOriginal := m.exclusiveHighWatermark
    phase := .delivering groups m.priority (RetryLoop.start groups.keys) .lookup
    received := s.received ++ m.replicationTasks }

def recvBatch (cfg : Config) (s : Plane) (m : WorkflowReplicationMessages) : Plane :=
  if m.replicationTasks = [] then recvEmptyBatch s m else recvTasks cfg s m

def sendChansByCluster (s : Plane) (node : Node) (clusterID : Int) : List Nat :=
  (s.remoteSendChannels.entries.filter fun e =>
    e.1.1 = node && e.1.2.clusterID = clusterID).map fun e => e.2

def receiverDeliver (cfg : Config) (s : Plane) (l : DeliverLabel) : Option (Plane × Effect) :=
  match s.phase with
  | .delivering groups priority loop pc =>
    loop.current.bind fun target =>
      (deliverStep cfg s cfg.home target (groupMessage groups priority target) pc l).map fun r =>
        match r.1 with
        | .running pc => ({ s with phase := .delivering groups priority loop pc }, r.2)
        | .returned delivered =>
          ({ s with phase := .delivering groups priority (loop.settle delivered) .lookup }, r.2)
  | .broadcastRemote m (target :: rest) pc =>
    (deliverStep cfg s cfg.home target m pc l).map fun r =>
      match r.1 with
      | .running pc => ({ s with phase := .broadcastRemote m (target :: rest) pc }, r.2)
      | .returned _ => ({ s with phase := .broadcastRemote m rest .lookup }, r.2)
  | _ => none

/-- GetLastWatermark, or the field itself, of a receiver of the source shard. -/
def lastWatermarkOf (s : Plane) : ActiveReceiver → Option WorkflowReplicationMessages
  | .proxy => s.lastWatermark
  | .intra i => (s.stream i).lastWatermark

def targetClusterOf (cfg : Config) (s : Plane) : ActiveReceiver → Int
  | .proxy => cfg.targetCluster
  | .intra i => (s.stream i).target.clusterID

inductive NotifierLabel where
  | read
  | lookup
  | send
  | deliver (l : DeliverLabel)

def withNotifier (s : Plane) (k : Nat) (n : Notifier) (pc : NotifierPc) : Plane :=
  { s with notifiers := s.notifiers.set k { n with pc := pc } }

def endNotifier (s : Plane) (k : Nat) : Plane := { s with notifiers := s.notifiers.eraseIdx k }

def notifierStep (cfg : Config) (s : Plane) (k : Nat) (n : Notifier) :
    NotifierPc → NotifierLabel → Option (Plane × Effect)
  | .read receiver, .read =>
    match lastWatermarkOf s receiver with
    | none => some (endNotifier s k, .silent)
    | some m =>
      if m.exclusiveHighWatermark = 0 then some (endNotifier s k, .silent)
      else some (withNotifier s k n (.lookup m), .silent)
  | .lookup m, .lookup =>
    match s.remoteSendChannels.lookup (n.node, n.target) with
    | some c => some (withNotifier s k n (.sendLocal m c), .silent)
    | none => some (withNotifier s k n (.deliver m .lookup), .silent)
  | .sendLocal m c, .send =>
    -- A send on a closed channel panics, in a select with a default as well, and nothing
    -- here recovers.
    if (s.chan c).closed then
      some ({ endNotifier s k with panics := s.panics ++ [c] }, .silent)
    else if (s.chan c).accepts then some (endNotifier s k, .put c ⟨cfg.source, m⟩)
    else some (endNotifier s k, .silent)
  | .deliver m pc, .deliver l =>
    (deliverStep cfg s n.node n.target m pc l).map fun r =>
      match r.1 with
      | .running pc => (withNotifier s k n (.deliver m pc), r.2)
      | .returned _ => (endNotifier s k, r.2)
  | _, _ => none

inductive Label where
  | startSender (node : Node) (target : ClusterShardID)
  /-- The sender's shutdown: close(sendMsgChan), later RemoveRemoteSendChan. -/
  | closeChan (c : Nat)
  | removeChan (c : Nat)
  | take (c : Nat)
  | foreignPut (c : Nat) (m : RoutedMessage)
  | recvBatch (m : WorkflowReplicationMessages)
  | beginPass (order : List ClusterShardID)
  | deliver (l : DeliverLabel)
  | snapshotChans (order : List Nat)
  | broadcastSend
  /-- The remote shards of the target cluster, as this node knows them. -/
  | remoteShards (shards : List ClusterShardID)
  | finishBatch
  /-- notifyReceiversOfNewShard on a node, for an announced shard. -/
  | notify (node : Node) (target : ClusterShardID)
  | notifier (k : Nat) (l : NotifierLabel)
  | openStream (origin peer : Node) (target : ClusterShardID)
  | registerStream (i : Nat)
  | unregisterStream (i : Nat)
  | greetRead (i : Nat)
  | greetSend (i : Nat)
  | intraRecv (i : Nat)
  | intraLookup (i : Nat)
  | intraPut (i : Nat)
  | intraClosed (i : Nat)
  | closeStream (i : Nat)

def startSender (s : Plane) (node : Node) (target : ClusterShardID) : Plane :=
  { s with
    chan := Function.update s.chan s.chanCount ⟨node, target, [], 0, false⟩
    chanCount := s.chanCount + 1
    remoteSendChannels := s.remoteSendChannels.insert (node, target) s.chanCount
    announced := target :: s.announced }

def removeChan (s : Plane) (c : Nat) : Plane :=
  let key := ((s.chan c).node, (s.chan c).target)
  { s with
    remoteSendChannels :=
      if s.remoteSendChannels.lookup key = some c then s.remoteSendChannels.erase key
      else s.remoteSendChannels }

def openStream (s : Plane) (origin peer : Node) (target : ClusterShardID) : Plane :=
  { s with
    stream := Function.update s.stream s.streamCount
      { emptyStream with origin := origin, peer := peer, target := target, closed := false }
    streamCount := s.streamCount + 1
    activeReceivers := s.activeReceivers.insert peer (.intra s.streamCount) }

def pendingGreeting (s : Plane) (origin : Node) : Option WorkflowReplicationMessages :=
  ((s.activeReceivers.lookup origin).bind (lastWatermarkOf s)).filter
    fun m => 0 < m.exclusiveHighWatermark

def holdMessage (st : IntraStream) (m : WorkflowReplicationMessages)
    (rest : List WorkflowReplicationMessages) : IntraStream :=
  { st with
    wire := rest
    holding := some m
    lastWatermark := some (watermarkOf m)
    fromTasks := m.replicationTasks ≠ [] }

/-- The call the active receiver of the source shard gets, if it routes to the shard's
    cluster. -/
def notified (cfg : Config) (s : Plane) (node : Node) (target : ClusterShardID) : List Notifier :=
  match s.activeReceivers.lookup node with
  | none => []
  | some receiver =>
    if targetClusterOf cfg s receiver = target.clusterID then [⟨node, target, .read receiver⟩]
    else []

def spawnNotifier (cfg : Config) (s : Plane) (node : Node) (target : ClusterShardID) : Plane :=
  { s with notifiers := s.notifiers ++ notified cfg s node target }

def receiverStep (cfg : Config) (s : Plane) : Label → Option (Plane × Effect)
  | .recvBatch m =>
    match s.phase with
    | .idle => some (recvBatch cfg s m, .silent)
    | _ => none
  | .beginPass order =>
    match s.phase with
    | .delivering groups priority loop pc =>
      (loop.beginPass order).map fun loop =>
        ({ s with phase := .delivering groups priority loop pc }, .silent)
    | _ => none
  | .deliver l => receiverDeliver cfg s l
  | .snapshotChans order =>
    match s.phase with
    | .announcing m =>
      if order.Perm (sendChansByCluster s cfg.home cfg.targetCluster) then
        some ({ s with phase := .broadcastLocal m order }, .silent)
      else none
    | _ => none
  | .broadcastSend =>
    match s.phase with
    | .broadcastLocal m (c :: rest) =>
      -- Full and closed channels are skipped; the panic of a closed one is recovered.
      let effect := if (s.chan c).accepts then Effect.put c ⟨cfg.source, m⟩ else .silent
      some ({ s with phase := .broadcastLocal m rest }, effect)
    | _ => none
  | .remoteShards shards =>
    match s.phase with
    | .broadcastLocal m [] =>
      if ∀ shard ∈ shards, shard.clusterID = cfg.targetCluster then
        some ({ s with phase := .broadcastRemote m shards .lookup }, .silent)
      else none
    | _ => none
  | .finishBatch =>
    match s.phase with
    | .delivering _ _ loop _ => if loop.done then some ({ s with phase := .idle }, .silent) else none
    | .broadcastRemote _ [] _ => some ({ s with phase := .idle }, .silent)
    | _ => none
  | _ => none

def streamStep (cfg : Config) (s : Plane) : Label → Option (Plane × Effect)
  | .openStream origin peer target =>
    if origin ≠ peer then some (openStream s origin peer target, .silent) else none
  | .registerStream i =>
    if i < s.streamCount then some (withStream s i fun st => { st with registered := true }, .silent)
    else none
  | .unregisterStream i =>
    if i < s.streamCount then
      some (withStream s i fun st => { st with registered := false }, .silent)
    else none
  | .greetRead i =>
    if i < s.streamCount ∧ (s.stream i).registered ∧ !(s.stream i).greeted then
      some (withStream s i fun st =>
        { st with greeted := true, greeting := pendingGreeting s st.origin }, .silent)
    else none
  | .greetSend i =>
    if i < s.streamCount then
      (s.stream i).greeting.map fun m =>
        (withStream s i fun st => { st with greeting := none }, .enqueue i m)
    else none
  | .intraRecv i =>
    match (s.stream i).wire, (s.stream i).holding with
    | m :: rest, none =>
      if i < s.streamCount ∧ !(s.stream i).closed then
        some (withStream s i fun st => holdMessage st m rest, .silent)
      else none
    | _, _ => none
  | .intraLookup i =>
    if i < s.streamCount ∧ (s.stream i).holding.isSome ∧ (s.stream i).sendChan.isNone then
      some (withStream s i fun st =>
        { st with sendChan := s.remoteSendChannels.lookup (st.peer, st.target) }, .silent)
    else none
  | .intraPut i =>
    match (s.stream i).holding, (s.stream i).sendChan with
    | some m, some c =>
      if i < s.streamCount ∧ (s.chan c).accepts then
        some (withStream s i fun st => { st with holding := none, sendChan := none },
          .put c ⟨cfg.source, m⟩)
      else none
    | _, _ => none
  | .intraClosed i =>
    match (s.stream i).sendChan with
    | some c =>
      if i < s.streamCount ∧ (s.chan c).closed then
        some (withStream s i fun st => { st with sendChan := none }, .silent)
      else none
    | none => none
  | .closeStream i =>
    if i < s.streamCount then
      some ({ withStream s i fun st => { st with closed := true } with
        activeReceivers := s.activeReceivers.erase (s.stream i).peer }, .silent)
    else none
  | _ => none

/-- A step before its effect. -/
def act (cfg : Config) (s : Plane) : Label → Option (Plane × Effect)
  | .startSender node target => some (startSender s node target, .silent)
  | .closeChan c =>
    if c < s.chanCount then some (withChan s c fun ch => { ch with closed := true }, .silent) else none
  | .removeChan c =>
    if c < s.chanCount ∧ (s.chan c).closed then some (removeChan s c, .silent) else none
  | .take c =>
    if (s.chan c).taken < (s.chan c).puts.length then
      some (withChan s c fun ch => { ch with taken := ch.taken + 1 }, .silent)
    else none
  | .foreignPut c m =>
    if m.sourceShard ≠ cfg.source ∧ (s.chan c).accepts then some (s, .put c m) else none
  | .notify node target =>
    if target ∈ s.announced then some (spawnNotifier cfg s node target, .silent) else none
  | .notifier k l =>
    match s.notifiers[k]? with
    | none => none
    | some n => notifierStep cfg s k n n.pc l
  | a => (receiverStep cfg s a).or (streamStep cfg s a)

def step (cfg : Config) (s : Plane) (a : Label) : Option Plane :=
  (act cfg s a).map fun r => apply r.1 r.2

def effectOf (cfg : Config) (s : Plane) (a : Label) : Option Effect := (act cfg s a).map Prod.snd

/-- One source shard and two target shards of cluster 2; a workflow's shard is the length
    of its id. -/
def sampleConfig : Config :=
  ⟨⟨1, 1⟩, 0, 2, 2, fun _ workflowID _ => workflowID.length⟩

def sampleTask (id : Int) (workflowID : String) : ReplicationTask :=
  ⟨id, some ⟨"namespace", workflowID, id⟩⟩

end Routing
