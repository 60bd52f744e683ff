import FrbL1.Run
import FrbL1.RpcServer
import FrbL1.RpcReplies
import FrbL1.RpcShutdown
import FrbL1.RpcClientCalls
import FrbL1.RfiMask
import FrbL1.AcqStart
import FrbL1.RpcArguments
import FrbL1.AcqOptions
import FrbL1.InventoryRuns
import FrbL1.InventoryBackup
import FrbL1.BonsaiCounts
import FrbL1.AcqFiles
import FrbL1.ChunkFiles
import FrbL1.RpcTokens
import FrbL1.StartupReaders
import FrbL1.ChunkReplay
import FrbL1.PacketMatrix
import FrbL1.RpcWriteChunks
import FrbL1.RpcClientTimeouts
import FrbL1.InventoryParts
import FrbL1.RpcFrames
import FrbL1.StreamRequest
import FrbL1.L1Buffers
import FrbL1.L1Overflow
import FrbL1.L0Packets
import FrbL1.ReplayTimes
import FrbL1.ChunkViews
import FrbL1.ChunkInit
import FrbL1.CncClient
import FrbL1.CncOutput
import FrbL1.AcqOverride
import FrbL1.MapAddresses
import FrbL1.ProcStat
import FrbL1.ChLogger
import FrbL1.MaskCounterSetup
import FrbL1.ChunkTimes
import FrbL1.CxxoptsValues
import FrbL1.LowBudgetParser
import FrbL1.CorePinning
import FrbL1.RpcStatus
import FrbL1.RpcMaskedFrequencies
import FrbL1.PrometheusMetrics
import FrbL1.NodeServers
import FrbL1.CncSsh
import FrbL1.AsyncRpcServer
