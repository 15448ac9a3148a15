import Bob.Math.Sequencing
import Bob.Math.Dict
import Bob.Math.Words
import Bob.Math.Decimal
import Bob.Math.LittleEndian
import Bob.Common.Types
import Bob.Common.Status
import Bob.Common.Validation
import Bob.Common.ClusterConfig
import Bob.Common.NodeConfig
import Bob.Common.Mapper
import Bob.Common.Routing
import Bob.Common.Checked
import Bob.Common.VdiskOfKey
import Bob.Backend.Core
import Bob.Common.SupportNodes
import Bob.Math.Completion
import Bob.Cluster.Operations
import Bob.Cluster.Put
import Bob.Cluster.Delete
import Bob.Cluster.Exist
import Bob.Cluster.ExistSpec
import Bob.Cluster.Get
import Bob.Server.Decode
import Bob.Math.NewestWins
import Bob.Backend.Group
import Bob.Backend.DiskController
import Bob.Backend.Pearl
import Bob.Backend.DiskRouting
import Bob.Backend.AlienGroups
import Bob.Backend.Reading
import Bob.Math.Filing
import Bob.Backend.Truthful
import Bob.Backend.History
import Bob.Backend.LastWriter
import Bob.Backend.Skipping
import Bob.Backend.Lifecycle
import Bob.Backend.Agreement
import Bob.Backend.Slots
import Bob.Backend.SlotRaces
import Bob.Math.Children
import Bob.Backend.Holders
import Bob.Backend.Attach
import Bob.Backend.HolderIds
import Bob.Backend.Closing
import Bob.Math.Gaps
import Bob.Backend.SafeStep
import Bob.Backend.Remount
import Bob.Math.Stepwise
import Bob.Backend.Erasing
import Bob.Cluster.DeleteCoverage
import Bob.Cluster.Network
import Bob.Cluster.Simple
import Bob.Backend.Periods
import Bob.Backend.Marking
import Bob.Cluster.PutSafety
import Bob.Math.Window
import Bob.Common.Uniform
import Bob.Math.Base64
import Bob.Access.Credentials
import Bob.Access.Extractor
import Bob.Access.Basic
import Bob.Access.Resolving
import Bob.Math.Trace
import Bob.Backend.Restart
import Bob.Math.Greedy
import Bob.Generator.Center
import Bob.Generator.Generate
import Bob.Generator.Expand
import Bob.Backend.KeyOrder
import Bob.Backend.PartitionName
import Bob.Math.Sextets
import Bob.Backend.OwnerHash
import Bob.Backend.HolderProtocol
import Bob.Math.KeyedSet
import Bob.Backend.FilterMemory
import Bob.Math.PopWhile
import Bob.Backend.ActiveBlobs
import Bob.Generator.NewHardware
import Bob.Generator.Balance
import Bob.Server.Cleaner
import Bob.Backend.Serialized
import Bob.Common.Metrics
import Bob.Client.KeyPattern
import Bob.Api.DataKey
import Bob.Api.S3
import Bob.Cluster.PeerAnswers
import Bob.Math.While
import Bob.Common.OffsetSearch
import Bob.Cluster.Grouping
import Bob.Backend.Retries
import Bob.Server.DiskStats
import Bob.Backend.Records
import Bob.Backend.Copies
import Bob.Cluster.Serving
import Bob.Cluster.Durability
import Bob.Access.Users
import Bob.Server.Handlers
import Bob.Server.Rpc
