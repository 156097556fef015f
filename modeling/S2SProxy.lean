import S2SProxy.Lib.CircularWindow
import S2SProxy.Lib.GuardedRuns
import S2SProxy.Lib.NumberedQueue
import S2SProxy.Lib.RetryLoop
import S2SProxy.Lib.Preceded
import S2SProxy.Lib.StoppingUpdate
import S2SProxy.Lib.OwnedRegistry
import S2SProxy.Lib.StoppableRelay
import S2SProxy.Lib.NodeChain
import S2SProxy.Lib.LoopExit
import S2SProxy.Lib.CountingSemaphore
import S2SProxy.Lib.MemoSearch
import S2SProxy.Lib.PathTrie
import S2SProxy.ShardData
import S2SProxy.RingBuffer
import S2SProxy.StreamSender
import S2SProxy.SenderSafety
import S2SProxy.Routing
import S2SProxy.RoutingSteps
import S2SProxy.ChannelClose
import S2SProxy.RoutingAddresses
import S2SProxy.WatermarkMarks
import S2SProxy.WatermarkSafety
import S2SProxy.RoutingOrder
import S2SProxy.ReplicationSystem
import S2SProxy.SystemPeers
import S2SProxy.AckSafety
import S2SProxy.SenderGenerations
import S2SProxy.MessageTree
import S2SProxy.EventRepair
import S2SProxy.MessageVisitor
import S2SProxy.VisitPlaces
import S2SProxy.TranslationInterceptor
import S2SProxy.NameOccurrences
import S2SProxy.NameMapping
import S2SProxy.NamespaceTranslation
import S2SProxy.SkipStability
import S2SProxy.BiMapLaws
import S2SProxy.TranslationReversal
import S2SProxy.AccessControl
import S2SProxy.ShardOwnership
import S2SProxy.OwnershipHandover
import S2SProxy.StreamRegistries
import S2SProxy.StreamTurns
import S2SProxy.IntraProxyStreams
import S2SProxy.StreamLifecycle
import S2SProxy.ShardMapping
import S2SProxy.StreamForwarder
import S2SProxy.FailureEncoding
import S2SProxy.FailureRoundTrip
import S2SProxy.EncryptionConfig
import S2SProxy.FailureSecrecy
import S2SProxy.VisitErrors
import S2SProxy.TargetStream
import S2SProxy.AckOrder
import S2SProxy.UpstreamAcks
import S2SProxy.BatchDelivery
import S2SProxy.RetryTermination
import S2SProxy.PeerReconcile
import S2SProxy.BlobRepair
import S2SProxy.SkippedEvents
import S2SProxy.MuxPermits
import S2SProxy.MuxConservation
import S2SProxy.PayloadTables
import S2SProxy.PayloadWalk
import S2SProxy.PayloadEmitter
import S2SProxy.EmittedCode
import S2SProxy.PayloadDue
import S2SProxy.WalkCoverage
import S2SProxy.WalkPlacement
import S2SProxy.PayloadCoverage
import S2SProxy.Lib.GatherScatter
import S2SProxy.PayloadSealing
import S2SProxy.Lib.Rekey
import S2SProxy.SearchAttributes
import S2SProxy.StateExchange
import S2SProxy.Lib.AtomicPointer
import S2SProxy.MuxSession
import S2SProxy.MuxConnections
import S2SProxy.Lib.AppendingBuild
import S2SProxy.VaultKeys
import S2SProxy.Lib.StoppingCalls
import S2SProxy.AdminBlobs
import S2SProxy.NamespaceContext
import S2SProxy.RingGaps
import S2SProxy.StreamObserver
import S2SProxy.FailureRepair
import S2SProxy.ExtensionKeys
import S2SProxy.Lib.SharedCalls
import S2SProxy.NamespaceNames
import S2SProxy.SearchAttributeWalk
import S2SProxy.AttributeReversal
import S2SProxy.HalfTranslation
import S2SProxy.TranslatorOrder
import S2SProxy.NamespaceBinding
import S2SProxy.EncryptedCalls
import S2SProxy.Lib.NumberedRecords
import S2SProxy.AckForwarding
