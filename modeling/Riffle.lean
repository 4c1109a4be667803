import Riffle.Lib.Transition
import Riffle.Lib.FixedWidth
import Riffle.Lib.KeyedTotal
import Riffle.Lib.ByteFile
import Riffle.Lib.BitField
import Riffle.Lib.PathPrefix
import Riffle.Lib.SortedGroups
import Riffle.Lib.ByteCursor
import Riffle.Store.Block
import Riffle.Store.IndexCodec
import Riffle.Store.MemoryBuffer
import Riffle.Store.MemoryRead
import Riffle.Store.BufferLedger
import Riffle.Store.Budget
import Riffle.Store.MemoryStore
import Riffle.Store.SpillSelection
import Riffle.Store.HotStore
import Riffle.Store.Accounting
import Riffle.Store.UsedMemory
import Riffle.Store.Durability
import Riffle.Store.PurgeFinality
import Riffle.Spill.Pipeline
import Riffle.Spill.Lifecycle
import Riffle.Spill.Delivery
import Riffle.Local.DirectIO
import Riffle.Local.FileStore
import Riffle.Local.ShuffleFormat
import Riffle.Local.Purge
import Riffle.BlockId.IdLayout
import Riffle.BlockId.Manager
import Riffle.Hdfs.Purge
import Riffle.Hdfs.WriterSlots
import Riffle.Hdfs.WriteConcurrency
import Riffle.Hdfs.PermitSlots
import Riffle.Hdfs.Insert
import Riffle.App.HugePartition
import Riffle.App.InsertSize
import Riffle.App.Lifecycle
import Riffle.Urpc.Frame
import Riffle.Urpc.Write
import Riffle.Urpc.ComposedLength
import Riffle.Spill.EventBus
import Riffle.Spill.Buses
import Riffle.Local.Limiter
import Riffle.Local.Read
import Riffle.Server.Health
import Riffle.Server.Decommission
