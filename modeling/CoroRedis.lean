import CoroRedis.Lib.RunProofs
import CoroRedis.Lib.PiecesProofs
import CoroRedis.Lib.PipelineProofs
import CoroRedis.Lib.NumeralProofs
import CoroRedis.Lib.FloatNumeralProofs
import CoroRedis.Lib.CursorProofs
import CoroRedis.Lib.BlockMemoryProofs
import CoroRedis.Lib.RoundingProofs
import CoroRedis.Lib.LinearProofs
import CoroRedis.Lib.SimulationProofs
import CoroRedis.BytesProofs
import CoroRedis.CommandTextProofs
import CoroRedis.ReplyProofs
import CoroRedis.StdReaderProofs
import CoroRedis.TaskAwaiterProofs
import CoroRedis.TaskProofs
import CoroRedis.DecodeProofs
import CoroRedis.ScanProofs
import CoroRedis.MethodTableProofs
import CoroRedis.MethodCallProofs
import CoroRedis.ArgvProofs
import CoroRedis.VerbProofs
import CoroRedis.VariadicProofs
import CoroRedis.SetOptionProofs
import CoroRedis.FixedArityProofs
import CoroRedis.SignedProofs
import CoroRedis.MultiValueProofs
import CoroRedis.ScanRequestProofs
import CoroRedis.ScanLoopProofs
import CoroRedis.ScoreTextProofs
import CoroRedis.ZaddProofs
import CoroRedis.ZunionstoreProofs
import CoroRedis.ScoreOrderProofs
import CoroRedis.ReawaitProofs
import CoroRedis.CommandProofs
import CoroRedis.CommandOrderProofs
import CoroRedis.CommandSubmitProofs
import CoroRedis.ClusterProofs
import CoroRedis.ClusterOrderProofs
import CoroRedis.ClusterGuaranteeProofs
import CoroRedis.BlockingProofs
import CoroRedis.BlockingLinkProofs
import CoroRedis.BlockingRefinementProofs
import CoroRedis.BlockingRealisationProofs
import CoroRedis.ConversationProofs
import CoroRedis.SharedScanProofs
import CoroRedis.TypedProgramProofs
import CoroRedis.ConnectProofs
import CoroRedis.PoolProofs
import CoroRedis.LeaseProofs
import CoroRedis.SharedPoolProofs
import CoroRedis.ClientRunProofs
import CoroRedis.ClientAwaitProofs
import CoroRedis.ClientSlotProofs
import CoroRedis.ClientOrphanProofs
import CoroRedis.ClientFetchProofs
import CoroRedis.FetchLockProofs
import CoroRedis.PoolCapacityProofs
import CoroRedis.PoolWaiterProofs
import CoroRedis.PoolStarvationProofs
import CoroRedis.ScriptProofs
import CoroRedis.ReconnectProofs
