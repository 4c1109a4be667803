import Riffle.Lib.FixedWidth

/-!
# Blocks, partition ids and byte containers

The data every store of the server moves around (`src/store/mod.rs`,
`src/composed_bytes.rs`, `src/app.rs`):

* `Block` is one shuffle block as a client sends it.  Its `length` field is
  the client's declaration; nothing in the server checks it against
  `data.length`, and the model keeps both.
* `PartitionedUId` names the partition a buffer or a file belongs to.
* `ComposedBytes` is a list of byte chunks with a separately stored
  `total_len`; `BytesWrapper` is either one chunk or a composed value.
* `WorkerError` has the variants of `crate::error::WorkerError` that the
  modelled functions return.

Rust's `i32`/`i64` fields are integers here; where a cast of them matters the
modules that use them apply `FixedWidth`.
-/

namespace Riffle.Store

/-- `crate::store::Block`. -/
structure Block where
  blockId : Int
  length : Int
  uncompressLength : Int
  crc : Int
  data : List UInt8
  taskAttemptId : Int
  deriving DecidableEq, Repr

/-- A block whose declared length is the length of its bytes, as the
clients of the shuffle protocol send them. -/
def Block.WellFormed (block : Block) : Prop :=
  block.length = block.data.length

instance (block : Block) : Decidable block.WellFormed :=
  inferInstanceAs (Decidable (_ = _))

/-- `crate::app::PartitionedUId`. -/
structure PartitionedUId where
  appId : String
  shuffleId : Int
  partitionId : Int
  deriving DecidableEq, Repr

/-- `crate::app::PurgeReason`: what an app or shuffle is purged for. -/
inductive PurgeReason where
  | shuffleLevelExplicitUnregister (appId : String) (shuffleId : Int)
  | appLevelExplicitUnregister (appId : String)
  | appLevelHeartbeatTimeout (appId : String)
  deriving DecidableEq, Repr

/-- `PurgeReason::extract`: the app, and the shuffle for a shuffle-level purge. -/
def PurgeReason.extract : PurgeReason → String × Option Int
  | .shuffleLevelExplicitUnregister appId shuffleId => (appId, some shuffleId)
  | .appLevelExplicitUnregister appId => (appId, none)
  | .appLevelHeartbeatTimeout appId => (appId, none)

/-- `crate::store::DataSegment`: where one block lies in a read response. -/
structure DataSegment where
  blockId : Int
  offset : Int
  length : Int
  uncompressLength : Int
  crc : Int
  taskAttemptId : Int
  deriving DecidableEq, Repr

/-- `crate::composed_bytes::ComposedBytes`: chunks and a recorded total. -/
structure ComposedBytes where
  composed : List (List UInt8)
  totalLen : Nat
  deriving DecidableEq, Repr

namespace ComposedBytes

/-- `ComposedBytes::from(all, total_size)`: the total is taken as given. -/
def «from» (all : List (List UInt8)) (totalSize : Nat) : ComposedBytes :=
  ⟨all, totalSize⟩

/-- `ComposedBytes::put`. -/
def put (composedBytes : ComposedBytes) (bytes : List UInt8) : ComposedBytes :=
  ⟨composedBytes.composed ++ [bytes], composedBytes.totalLen + bytes.length⟩

/-- `ComposedBytes::len`: the recorded total, not a count of the chunks. -/
def len (composedBytes : ComposedBytes) : Nat :=
  composedBytes.totalLen

/-- `ComposedBytes::freeze`: the chunks concatenated. -/
def freeze (composedBytes : ComposedBytes) : List UInt8 :=
  composedBytes.composed.flatten

/-- `ComposedBytes::to_vec`. -/
def toVec (composedBytes : ComposedBytes) : List (List UInt8) :=
  composedBytes.composed

end ComposedBytes

/-- `crate::store::BytesWrapper`. -/
inductive BytesWrapper where
  | direct (bytes : List UInt8)
  | composed (bytes : ComposedBytes)
  deriving DecidableEq, Repr

namespace BytesWrapper

/-- `BytesWrapper::len`. -/
def len : BytesWrapper → Nat
  | .direct bytes => bytes.length
  | .composed bytes => bytes.len

/-- `BytesWrapper::freeze`. -/
def freeze : BytesWrapper → List UInt8
  | .direct bytes => bytes
  | .composed bytes => bytes.freeze

/-- `BytesWrapper::always_composed`. -/
def alwaysComposed : BytesWrapper → ComposedBytes
  | .composed bytes => bytes
  | .direct bytes => ComposedBytes.from [bytes] bytes.length

/-- The chunks a writer hands to the file system in turn:
`vec![bytes]` for a direct value, `to_vec()` for a composed one. -/
def chunks : BytesWrapper → List (List UInt8)
  | .direct bytes => [bytes]
  | .composed bytes => bytes.toVec

@[simp]
theorem flatten_chunks (wrapper : BytesWrapper) :
    wrapper.chunks.flatten = wrapper.freeze := by
  cases wrapper with
  | direct bytes => simp [chunks, freeze]
  | composed bytes => rfl

@[simp]
theorem flatten_alwaysComposed (wrapper : BytesWrapper) :
    wrapper.alwaysComposed.composed.flatten = wrapper.freeze := by
  cases wrapper with
  | direct bytes => simp [alwaysComposed, ComposedBytes.from, freeze]
  | composed bytes => rfl

end BytesWrapper

/-- `crate::error::WorkerError`, with the variants the model tells apart;
`other` stands for every variant no modelled path distinguishes. -/
inductive WorkerError where
  | appIsNotFound
  | noCandidateStore
  | partialDataLost (path : String)
  | noEnoughMemoryToBeAllocated
  | ticketIdNotExist (ticketId : Int)
  | appHasBeenPurged
  | spillEventExceedRetryMaxLimit (appId : String)
  | dirOrFileNotFound
  | futureExecTimeout
  | noAvailableLocalDisk
  | localDiskUnhealthy (root : String)
  | localDiskOwnedByPartitionCorrupted (root : String)
  | outOfMemory (message : String)
  | hdfsUnhealthy
  | streamIncomplete
  | streamIncorrect (message : String)
  | streamAbnormal
  | streamMessageTypeNotFound
  | other (message : String)
  deriving DecidableEq, Repr

/-- Whether an error is `WorkerError::OUT_OF_MEMORY`. -/
def WorkerError.isOutOfMemory : WorkerError → Bool
  | .outOfMemory _ => true
  | _ => false

/-- `crate::store::PartitionedMemoryData`: the answer to a memory read. -/
structure PartitionedMemoryData where
  shuffleDataBlockSegments : List DataSegment
  data : BytesWrapper
  deriving DecidableEq, Repr

end Riffle.Store
