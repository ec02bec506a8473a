import LiteRpc.Rust.Collections
import LiteRpc.Rust.Numeric
import LiteRpc.Bench.Rpc
import LiteRpc.Bench.SlotPoll
import LiteRpc.Bench.BulkPoll
import LiteRpc.Bench.BulkInvariant
import LiteRpc.Bench.BulkSend
import LiteRpc.Bench.BulkRounds
import LiteRpc.Bench.BulkCap
import LiteRpc.Bench.BulkOrder
import LiteRpc.Bench.ConfirmationSlot
import LiteRpc.PrioFees.Stats
import LiteRpc.PrioFees.ByIndex
import LiteRpc.PrioFees.ByCu
import LiteRpc.PrioFees.Laws
import LiteRpc.Blockstore.SlotRange
import LiteRpc.Blockstore.QueryBlockStore
import LiteRpc.Cli.Config
import LiteRpc.Tokio.Broadcast
import LiteRpc.ClusterEndpoints.GrpcStreamUtils
import LiteRpc.Core.SolanaUtils
