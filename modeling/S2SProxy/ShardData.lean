import Mathlib

/- The messages the proxy routes between shards. Task ids and watermarks are 64-bit in the
   program; here they are integers. -/
namespace ShardData

structure ClusterShardID where
  clusterID : Int
  shardID : Int
  deriving DecidableEq, Repr, Inhabited

structure RawTaskInfo where
  namespaceID : String
  workflowID : String
  taskID : Int
  deriving DecidableEq, Repr

structure ReplicationTask where
  sourceTaskID : Int
  rawTaskInfo : Option RawTaskInfo
  deriving DecidableEq, Repr

structure WorkflowReplicationMessages where
  replicationTasks : List ReplicationTask
  exclusiveHighWatermark : Int
  priority : Int
  deriving DecidableEq, Repr

/-- A replication response with the shard it comes from. Every producer fills the Messages
    attribute of the response, so the response is its messages. -/
structure RoutedMessage where
  sourceShard : ClusterShardID
  resp : WorkflowReplicationMessages
  deriving DecidableEq, Repr

/-- An acknowledgement with the target shard it comes from; its request carries one
    SyncReplicationState. -/
structure RoutedAck where
  targetShard : ClusterShardID
  inclusiveLowWatermark : Int
  deriving DecidableEq, Repr

/-- The Go maps from shards to 64-bit integers. -/
abbrev ShardMap := AList (fun _ : ClusterShardID => Int)

end ShardData
