import Shortstack.AckFailure
import Shortstack.AckQueues
import Shortstack.AckRouting
import Shortstack.AnswerRuns
import Shortstack.AnswerTokens
import Shortstack.BatchAcks
import Shortstack.BatchQueue
import Shortstack.BatchSmoothing
import Shortstack.BlockName
import Shortstack.CacheAgreement
import Shortstack.ChainAcks
import Shortstack.ChainErasure
import Shortstack.ChainFlow
import Shortstack.ChainInvariant
import Shortstack.ChainLocal
import Shortstack.ChainModule
import Shortstack.ChainModuleSpec
import Shortstack.ChainNet
import Shortstack.ChainRelease
import Shortstack.ChainRepair
import Shortstack.ChainReplication
import Shortstack.ConsistentHash
import Shortstack.Deployment
import Shortstack.DistributionUpdate
import Shortstack.Egress
import Shortstack.EgressFailover
import Shortstack.EgressInvariant
import Shortstack.EncProxy
import Shortstack.EncProxyItems
import Shortstack.EncProxyRuns
import Shortstack.HostInfo
import Shortstack.Ingest
import Shortstack.IngestCalm
import Shortstack.IngestChange
import Shortstack.IngestFlow
import Shortstack.IngestOnce
import Shortstack.IngestSpec
import Shortstack.IngestTickets
import Shortstack.Initializer
import Shortstack.JumpHash
import Shortstack.JumpSequence
import Shortstack.KeyValues
import Shortstack.KvConnections
import Shortstack.KvPlacement
import Shortstack.KvQueues
import Shortstack.L1Proxy
import Shortstack.L1ProxySpec
import Shortstack.L2Column
import Shortstack.L2ColumnSpec
import Shortstack.L2Forwarding
import Shortstack.L2Operation
import Shortstack.L2Proxy
import Shortstack.L2ProxySpec
import Shortstack.L3Proxy
import Shortstack.L3Removal
import Shortstack.LibDecimal
import Shortstack.LibGrouping
import Shortstack.LibHighWater
import Shortstack.LibLinearizable
import Shortstack.LibOutcome
import Shortstack.LibTokens
import Shortstack.LibTransition
import Shortstack.LibWeighted
import Shortstack.ManagerRelink
import Shortstack.MissingReplicas
import Shortstack.PProxy
import Shortstack.PProxyComplete
import Shortstack.PProxyItems
import Shortstack.PProxyOrder
import Shortstack.PProxyRuns
import Shortstack.PProxyService
import Shortstack.PancakeProxy
import Shortstack.Pipeline
import Shortstack.PipelineDeployment
import Shortstack.PipelineErasure
import Shortstack.PipelineFlow
import Shortstack.PipelineSteady
import Shortstack.PipelineTurn
import Shortstack.ProxyManager
import Shortstack.RedisBatch
import Shortstack.ReplicaLabels
import Shortstack.ReplicaUpdates
import Shortstack.ResendOnce
import Shortstack.ReverseConnector
import Shortstack.Smoothing
import Shortstack.Storage
import Shortstack.StorageSpec
import Shortstack.StorageValues
import Shortstack.StoreAccess
import Shortstack.StoreStock
import Shortstack.TraceFrequencies
import Shortstack.UpdateCache
import Shortstack.WorkerIndex
import Shortstack.ClientDeployment
import Shortstack.ClientHistory
import Shortstack.ClientKinds
import Shortstack.ClientRegisters
import Shortstack.ClientRuns
import Shortstack.ClientTickets
