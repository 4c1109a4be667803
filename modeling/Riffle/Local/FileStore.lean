import Riffle.Local.DirectIO
import Riffle.Store.IndexCodec
import Riffle.Lib.Transition

/-!
# The local file store: a partition's data and index files

`LocalFileStore::data_insert` (`src/store/localfile.rs`) stores a batch of
blocks of one partition under the partition's write lock.  It appends the
blocks' bytes to the data file (with `direct_append` from the pointer when
direct-I/O appends are enabled, with a plain `append` otherwise), appends
one 40-byte index record per block to the index file, whose offsets
`create_shuffle_format` counts from the pointer, and only then stores the
new offset in the pointer.  Each step may fail, and a failed append may have
written any prefix of its bytes: the writes run on blocking threads under a
timeout, which may fire after some or all of them landed.

Nothing rolls a failed insert back, so what a failure leaves behind decides
whether the files stay consistent:

* with direct appends, the next insert writes again from the pointer, so a
  data append that failed anywhere is harmless, and an index append that
  failed is harmless when it wrote nothing;
* with plain appends, the next insert appends at the end of the data file
  while its records count from the pointer, so the data append must fail
  before writing, and the index append must not fail after it.

`FailsCleanly` states that discipline, and `BlocksFit` what the blocks must
satisfy (declared lengths that are the data lengths, fields that fit their
types).  Under both, every reachable partition stores exactly the blocks of
the inserts that returned `Ok` (`Stored`), which gives what a reader relies
on (`IndexConsistent`) and makes `detect_index_inconsistency` find nothing.
-/

namespace Riffle.Local

open Riffle.ByteFile Riffle.FixedWidth Riffle.Store Riffle.Transition

/-! ## The model -/

/-- The index records of `create_shuffle_format`: each block's record at the
running offset, which then moves on by the block's declared length in `i64`
arithmetic. -/
def indexBlocks : List Block → Int → List IndexBlock
  | [], _ => []
  | block :: rest, offset =>
      IndexBlock.ofBlock block offset :: indexBlocks rest (wrapSigned 64 (offset + block.length))

/-- The running offset of `create_shuffle_format` after the blocks. -/
def offsetAfter : List Block → Int → Int
  | [], offset => offset
  | block :: rest, offset => offsetAfter rest (wrapSigned 64 (offset + block.length))

/-- `total_size` of `create_shuffle_format`: the declared lengths summed as
`usize`. -/
def totalSize (blocks : List Block) : Nat :=
  blocks.foldl (fun total block => (total + toUnsigned 64 block.length) % 2 ^ 64) 0

/-- `ShuffleFileFormat`; `len` is only read by the metrics. -/
structure ShuffleFileFormat where
  data : BytesWrapper
  index : BytesWrapper
  len : Nat
  offset : Int

/-- `Store::create_shuffle_format`. -/
def createShuffleFormat (blocks : List Block) (offset : Int) : ShuffleFileFormat where
  data := .composed (ComposedBytes.from (blocks.map Block.data) (totalSize blocks))
  index := .direct ((indexBlocks blocks offset).flatMap IndexCodec.encode)
  len := totalSize blocks
  offset := offsetAfter blocks offset

/-- The bytes of blocks written one after another. -/
def blockData (blocks : List Block) : List UInt8 :=
  (blocks.map Block.data).flatten

/-- How one disk append ends: `Ok`, or an error after the first `written`
bytes it writes have landed, possibly all of them. -/
inductive AppendOutcome where
  | appended
  | failed (error : WorkerError) (written : Nat)
  deriving DecidableEq, Repr

/-- The append succeeds, or it fails before writing anything. -/
def AppendOutcome.WritesAllOrNothing : AppendOutcome → Prop
  | .appended => True
  | .failed _ written => written = 0

instance : (outcome : AppendOutcome) → Decidable outcome.WritesAllOrNothing
  | .appended => isTrue trivial
  | .failed _ written => inferInstanceAs (Decidable (written = 0))

/-- What the disk answers one `data_insert`. -/
structure DiskAnswers where
  /-- `select_disk`, asked only for a partition without a lock entry. -/
  selectedDisk : Except WorkerError String
  corrupted : Bool
  healthy : Bool
  createDir : Except WorkerError Unit
  buffers : AcquiredBuffers
  dataAppend : AppendOutcome
  indexAppend : AppendOutcome

/-- The text of the `io::Error` that `direct_append` makes of a
`DirectIoError`. -/
def DirectIoError.message : DirectIoError → String
  | .directRead expected actual =>
      "Errors on direct read. expected: " ++ toString expected ++ ", actual: " ++ toString actual
  | .directAppend expected actual =>
      "Errors on direct appending. expected: " ++ toString expected ++ ", actual: " ++
        toString actual

namespace LocalDiskDelegator

/-- `LocalDiskDelegator::append`: the bytes go to the end of the file. -/
def append (file : List UInt8) (data : BytesWrapper) :
    AppendOutcome → List UInt8 × Except WorkerError Unit
  | .appended => (file ++ data.freeze, .ok ())
  | .failed error written => (file ++ data.freeze.take written, .error error)

/-- `LocalDiskDelegator::direct_append`: the writes and the result of
`SyncLocalIO::direct_append`; a failure lands a prefix of what it writes
from its start offset. -/
def directAppend (buffers : AcquiredBuffers) (file : List UInt8) (writtenBytes : Nat)
    (data : BytesWrapper) : AppendOutcome → List UInt8 × Except WorkerError Unit
  | .appended =>
      ((directAppendWrites buffers file writtenBytes data).elim file Prod.snd,
        match Riffle.Local.directAppend buffers file writtenBytes data with
        | .ok _ => .ok ()
        | .error error => .error (.other error.message))
  | .failed error written =>
      match directAppendWrites buffers file writtenBytes data with
      | none => (file, .error error)
      | some (start, appended) =>
          (writeAt 0 file start ((appended.drop start).take written), .error error)

@[simp]
theorem append_appended (file : List UInt8) (data : BytesWrapper) :
    append file data .appended = (file ++ data.freeze, .ok ()) :=
  rfl

@[simp]
theorem append_failed (file : List UInt8) (data : BytesWrapper) (error : WorkerError)
    (written : Nat) :
    append file data (.failed error written) = (file ++ data.freeze.take written, .error error) :=
  rfl

end LocalDiskDelegator

/-- One partition of `LocalFileStore`: the disk of its `partition_locks`
entry (`none` while it has none), the `LockedObj` pointer, and its data and
index files (a file not created yet is empty). -/
structure PartitionFiles where
  disk : Option String
  pointer : Int
  dataFile : List UInt8
  indexFile : List UInt8
  deriving DecidableEq, Repr

/-- A partition no insert has reached. -/
def PartitionFiles.empty : PartitionFiles :=
  ⟨none, 0, [], []⟩

/-- The `partition_locks` entry `data_insert` finds, or makes with the
selected disk: the disk, and `parent_dir_is_created`. -/
def lockEntry (disk : Option String) (selectedDisk : Except WorkerError String) :
    Except WorkerError (String × Bool) :=
  match disk with
  | some root => .ok (root, true)
  | none => selectedDisk.map fun root => (root, false)

/-- The data append of `data_insert`: `direct_append` from the pointer when
direct-I/O appends are enabled, a plain append otherwise. -/
def appendData (directAppendEnable : Bool) (answers : DiskAnswers) (files : PartitionFiles)
    (data : BytesWrapper) : List UInt8 × Except WorkerError Unit :=
  if directAppendEnable then
    LocalDiskDelegator.directAppend answers.buffers files.dataFile (toUnsigned 64 files.pointer) data
      answers.dataAppend
  else LocalDiskDelegator.append files.dataFile data answers.dataAppend

/-- The writes of `data_insert` once the disk has passed its checks: the data
append, the index append, and the pointer store, each only after the step
before succeeded. -/
def writeShuffleFormat (directAppendEnable : Bool) (answers : DiskAnswers)
    (files : PartitionFiles) (format : ShuffleFileFormat) :
    PartitionFiles × Except WorkerError Unit :=
  let data := appendData directAppendEnable answers files format.data
  match data.2 with
  | .error error => ({ files with dataFile := data.1 }, .error error)
  | .ok () =>
      let index := LocalDiskDelegator.append files.indexFile format.index answers.indexAppend
      match index.2 with
      | .error error => ({ files with dataFile := data.1, indexFile := index.1 }, .error error)
      | .ok () =>
          ({ files with dataFile := data.1, indexFile := index.1, pointer := format.offset }, .ok ())

namespace LocalFileStore

/-- `LocalFileStore::data_insert` on one partition, under its write lock. -/
def dataInsert (directAppendEnable : Bool) (files : PartitionFiles) (blocks : List Block)
    (answers : DiskAnswers) : PartitionFiles × Except WorkerError Unit :=
  match lockEntry files.disk answers.selectedDisk with
  | .error error => (files, .error error)
  | .ok (root, parentDirIsCreated) =>
      -- the entry stays even when a check below fails
      let files := { files with disk := some root }
      if answers.corrupted then (files, .error (.partialDataLost root))
      else if !answers.healthy then (files, .error (.localDiskUnhealthy root))
      else
        match (if parentDirIsCreated then .ok () else answers.createDir :
            Except WorkerError Unit) with
        | .error error => (files, .error error)
        | .ok () =>
            writeShuffleFormat directAppendEnable answers files
              (createShuffleFormat blocks files.pointer)

/-- `LocalFileStore::insert`: nothing happens for no blocks. -/
def insert (directAppendEnable : Bool) (files : PartitionFiles) (blocks : List Block)
    (answers : DiskAnswers) : PartitionFiles × Except WorkerError Unit :=
  if blocks.length ≤ 0 then (files, .ok ()) else dataInsert directAppendEnable files blocks answers

/-- The order `spill_insert` writes a flight's blocks in: by task attempt,
with a stable sort. -/
def sortByTaskAttemptId (blocks : List Block) : List Block :=
  blocks.mergeSort fun first second => decide (first.taskAttemptId ≤ second.taskAttemptId)

/-- `LocalFileStore::spill_insert`: the blocks of all batches of a flight. -/
def spillInsert (directAppendEnable : Bool) (files : PartitionFiles) (batches : List (List Block))
    (answers : DiskAnswers) : PartitionFiles × Except WorkerError Unit :=
  dataInsert directAppendEnable files (sortByTaskAttemptId batches.flatten) answers

end LocalFileStore

/-- The writes that reach a partition's files, with what the disk answers. -/
inductive FileRequest where
  | insert (blocks : List Block) (answers : DiskAnswers)
  | spillInsert (batches : List (List Block)) (answers : DiskAnswers)

namespace FileRequest

def answers : FileRequest → DiskAnswers
  | .insert _ answers => answers
  | .spillInsert _ answers => answers

/-- The blocks `data_insert` is called with; `none` when it is not called. -/
def insertedBlocks : FileRequest → Option (List Block)
  | .insert blocks _ => if blocks.length ≤ 0 then none else some blocks
  | .spillInsert batches _ => some (LocalFileStore.sortByTaskAttemptId batches.flatten)

end FileRequest

/-- A request handled on the partition. -/
def LocalFileStore.handle (directAppendEnable : Bool) (files : PartitionFiles) :
    FileRequest → PartitionFiles × Except WorkerError Unit
  | .insert blocks answers => LocalFileStore.insert directAppendEnable files blocks answers
  | .spillInsert batches answers =>
      LocalFileStore.spillInsert directAppendEnable files batches answers

/-- The blocks an insert adds to those acknowledged: all of them when it
returned `Ok`. -/
def acknowledgedBy (result : Except WorkerError Unit) (blocks : List Block) : List Block :=
  match result with
  | .ok () => blocks
  | .error _ => []

/-- A partition together with the blocks of the inserts that returned `Ok`,
in order.  The second component is a record of the history for the
statements; the server does not keep it. -/
structure PartitionHistory where
  files : PartitionFiles
  acknowledged : List Block

def PartitionHistory.empty : PartitionHistory :=
  ⟨PartitionFiles.empty, []⟩

/-- One request, one step of the partition. -/
def historyNext (directAppendEnable : Bool) (history : PartitionHistory) (request : FileRequest) :
    Option PartitionHistory :=
  let handled := LocalFileStore.handle directAppendEnable history.files request
  some ⟨handled.1,
    history.acknowledged ++ acknowledgedBy handled.2 (request.insertedBlocks.getD [])⟩

/-- `LocalFileStore::get_index`: the whole index file and the pointer, read
under the partition's read lock; nothing for a partition without an entry. -/
def LocalFileStore.getIndex (files : PartitionFiles) (corrupted : Bool) :
    Except WorkerError (List UInt8 × Int) :=
  match files.disk with
  | none => .ok ([], 0)
  | some root =>
      if corrupted then .error (.localDiskOwnedByPartitionCorrupted root)
      else .ok (files.indexFile, files.pointer)

/-- `LocalFileStore::detect_index_inconsistency`, without the copies it
makes for debugging: whether the last record ends where the pointer says the
data ends. -/
def detectIndexInconsistency (data : List UInt8) (dataFileLen : Int) : Bool :=
  match IndexCodec.decode (data.drop (data.length - indexBlockSize)) with
  | .ok indexBlock => dataFileLen == indexBlock.offset + indexBlock.length
  | .error _ => false

/-! ## What a reader relies on -/

/-- Records that lie one after another from `start`, the last ending at
`stop`. -/
def Contiguous : List IndexBlock → Int → Int → Prop
  | [], start, stop => start = stop
  | record :: rest, start, stop =>
      record.offset = start ∧ Contiguous rest (start + record.length) stop

/-- The files of a partition that stores the blocks `written`: the index
file decodes to their records; the records start at offset 0, follow one
another and end at the pointer; the pointer is the length of their data,
which the data file holds at its front (and is all of it after plain
appends); and each record's range of the data file holds its block's
bytes. -/
def IndexConsistent (directAppendEnable : Bool) (files : PartitionFiles)
    (written : List Block) : Prop :=
  decodeIndexFile files.indexFile = some (indexBlocks written 0) ∧
    Contiguous (indexBlocks written 0) 0 files.pointer ∧
    files.pointer = (blockData written).length ∧
    files.dataFile.take (blockData written).length = blockData written ∧
    (directAppendEnable = false → files.dataFile = blockData written) ∧
    ∀ record block, (record, block) ∈ (indexBlocks written 0).zip written →
      readAt files.dataFile record.offset.toNat record.length.toNat = block.data

/-! ## The discipline -/

/-- The blocks of one insert: each declared length is the length of the
block's bytes, the index fields fit their types, and the data ends below
`2^63`. -/
def BlocksFit (pointer : Int) (blocks : List Block) : Prop :=
  (∀ block ∈ blocks, block.WellFormed) ∧ (∀ record ∈ indexBlocks blocks pointer, record.InRange) ∧
    pointer + (blockData blocks).length < 2 ^ 63

instance (pointer : Int) (blocks : List Block) : Decidable (BlocksFit pointer blocks) :=
  inferInstanceAs (Decidable (_ ∧ _ ∧ _))

/-- Failures that leave nothing behind that a later insert trips over: an
index append writes all or nothing; with plain appends so does the data
append, and the index append after a data append that succeeded succeeds. -/
def FailsCleanly (directAppendEnable : Bool) (answers : DiskAnswers) : Prop :=
  answers.indexAppend.WritesAllOrNothing ∧
    (directAppendEnable = false → answers.dataAppend.WritesAllOrNothing ∧
      (answers.dataAppend = .appended → answers.indexAppend = .appended))

instance (directAppendEnable : Bool) (answers : DiskAnswers) :
    Decidable (FailsCleanly directAppendEnable answers) :=
  inferInstanceAs (Decidable (_ ∧ _))

/-- The requests of a client and a disk that keep the discipline. -/
def KeepsFilesConsistent (directAppendEnable : Bool) (files : PartitionFiles)
    (request : FileRequest) : Prop :=
  match request.insertedBlocks with
  | none => True
  | some blocks => BlocksFit files.pointer blocks ∧ FailsCleanly directAppendEnable request.answers

instance (directAppendEnable : Bool) (files : PartitionFiles) (request : FileRequest) :
    Decidable (KeepsFilesConsistent directAppendEnable files request) :=
  match inserted : request.insertedBlocks with
  | none => isTrue (by rw [KeepsFilesConsistent, inserted]; trivial)
  | some blocks =>
      decidable_of_iff (BlocksFit files.pointer blocks ∧ FailsCleanly directAppendEnable request.answers)
        (by rw [KeepsFilesConsistent, inserted])

/-! ## The records of a batch -/

@[simp]
theorem blockData_nil : blockData [] = [] :=
  rfl

@[simp]
theorem blockData_cons (block : Block) (rest : List Block) :
    blockData (block :: rest) = block.data ++ blockData rest :=
  rfl

@[simp]
theorem blockData_append (first second : List Block) :
    blockData (first ++ second) = blockData first ++ blockData second := by
  simp [blockData]

@[simp]
theorem acknowledgedBy_ok (blocks : List Block) : acknowledgedBy (.ok ()) blocks = blocks :=
  rfl

@[simp]
theorem acknowledgedBy_error (error : WorkerError) (blocks : List Block) :
    acknowledgedBy (.error error) blocks = [] :=
  rfl

@[simp]
theorem createShuffleFormat_data (blocks : List Block) (offset : Int) :
    (createShuffleFormat blocks offset).data.freeze = blockData blocks :=
  rfl

@[simp]
theorem createShuffleFormat_index (blocks : List Block) (offset : Int) :
    (createShuffleFormat blocks offset).index.freeze =
      (indexBlocks blocks offset).flatMap IndexCodec.encode :=
  rfl

@[simp]
theorem createShuffleFormat_offset (blocks : List Block) (offset : Int) :
    (createShuffleFormat blocks offset).offset = offsetAfter blocks offset :=
  rfl

@[simp]
theorem createShuffleFormat_len (blocks : List Block) (offset : Int) :
    (createShuffleFormat blocks offset).len = totalSize blocks :=
  rfl

/-- The records of two batches are those of the first and then those of the
second, from where the first ends. -/
theorem indexBlocks_append (first second : List Block) (offset : Int) :
    indexBlocks (first ++ second) offset =
      indexBlocks first offset ++ indexBlocks second (offsetAfter first offset) := by
  induction first generalizing offset with
  | nil => rfl
  | cons block rest inductionHypothesis =>
      rw [List.cons_append, indexBlocks, indexBlocks, inductionHypothesis, offsetAfter,
        List.cons_append]

section NoWrap

variable {block : Block} {offset : Int}

/-- The running offset does not wrap while the data ends below `2^63`. -/
theorem nextOffset_eq (wellFormed : block.WellFormed) (nonneg : 0 ≤ offset)
    (fits : offset + block.data.length < 2 ^ 63) :
    wrapSigned 64 (offset + block.length) = offset + block.data.length := by
  have lengthEq : block.length = block.data.length := wellFormed
  rw [lengthEq]
  apply wrapSigned_of_inRange (by decide)
  constructor
  · have lengthNonneg : (0 : Int) ≤ block.data.length := Int.natCast_nonneg _
    norm_num
    omega
  · norm_num at fits ⊢
    exact fits

/-- A batch of well-formed blocks that fits moves the offset by its length. -/
theorem offsetAfter_eq :
    ∀ (blocks : List Block) {offset : Int}, (∀ block ∈ blocks, block.WellFormed) → 0 ≤ offset →
      offset + (blockData blocks).length < 2 ^ 63 →
      offsetAfter blocks offset = offset + (blockData blocks).length
  | [], offset, _, _, _ => by
      rw [offsetAfter, blockData_nil, List.length_nil, Nat.cast_zero, Int.add_zero]
  | block :: rest, offset, wellFormed, nonneg, fits => by
      rw [blockData_cons, List.length_append, Nat.cast_add] at fits ⊢
      have next := nextOffset_eq (wellFormed block List.mem_cons_self) nonneg (by omega)
      rw [offsetAfter, next, offsetAfter_eq rest
        (fun other member => wellFormed other (List.mem_cons_of_mem block member)) (by omega)
        (by omega), Int.add_assoc]

/-- The records of a batch that fits lie one after another. -/
theorem contiguous_indexBlocks :
    ∀ (blocks : List Block) {offset : Int}, (∀ block ∈ blocks, block.WellFormed) → 0 ≤ offset →
      offset + (blockData blocks).length < 2 ^ 63 →
      Contiguous (indexBlocks blocks offset) offset (offset + (blockData blocks).length)
  | [], offset, _, _, _ => by
      rw [indexBlocks, blockData_nil, List.length_nil, Nat.cast_zero, Int.add_zero, Contiguous]
  | block :: rest, offset, wellFormed, nonneg, fits => by
      have blockWellFormed : block.length = block.data.length := wellFormed block List.mem_cons_self
      rw [blockData_cons, List.length_append, Nat.cast_add] at fits ⊢
      have next := nextOffset_eq (wellFormed block List.mem_cons_self) nonneg (by omega)
      have restContiguous : Contiguous (indexBlocks rest (offset + block.data.length))
          (offset + block.data.length) (offset + block.data.length + (blockData rest).length) :=
        contiguous_indexBlocks rest
          (fun other member => wellFormed other (List.mem_cons_of_mem block member)) (by omega)
          (by omega)
      rw [indexBlocks, next, Contiguous]
      refine ⟨rfl, ?_⟩
      rw [← Int.add_assoc]
      simpa only [IndexBlock.ofBlock, blockWellFormed] using restContiguous

/-- Each record of a batch that fits names the range where its block's bytes
follow the bytes before the batch. -/
theorem readAt_indexBlocks :
    ∀ (blocks : List Block) (front tail : List UInt8), (∀ block ∈ blocks, block.WellFormed) →
      front.length + (blockData blocks).length < 2 ^ 63 →
      ∀ record block, (record, block) ∈ (indexBlocks blocks front.length).zip blocks →
        readAt (front ++ blockData blocks ++ tail) record.offset.toNat record.length.toNat =
          block.data
  | [], _, _, _, _, record, block, member => by
      rw [indexBlocks, List.zip_nil_left] at member
      cases member
  | first :: rest, front, tail, wellFormed, fits, record, block, member => by
      have firstWellFormed : first.length = first.data.length :=
        wellFormed first List.mem_cons_self
      rw [blockData_cons, List.length_append] at fits
      have next := nextOffset_eq (wellFormed first List.mem_cons_self)
        (Int.natCast_nonneg front.length) (by push_cast at fits ⊢; omega)
      rw [indexBlocks, List.zip_cons_cons, next, List.mem_cons] at member
      rcases member with found | later
      · -- the batch's first record names the bytes right after the front
        obtain ⟨rfl, rfl⟩ := Prod.mk.inj found
        simp only [IndexBlock.ofBlock, firstWellFormed, Int.toNat_natCast, blockData_cons]
        rw [← List.append_assoc front, List.append_assoc (front ++ _), readAt_middle]
      · -- a later record: the first block's bytes join the front
        have frontLength : ((front.length : Int) + first.data.length) =
            ((front ++ first.data).length : Int) := by
          rw [List.length_append, Nat.cast_add]
        rw [frontLength] at later
        have restRead := readAt_indexBlocks rest (front ++ first.data) tail
          (fun other member => wellFormed other (List.mem_cons_of_mem first member))
          (by rw [List.length_append]; omega) record block later
        rwa [blockData_cons, ← List.append_assoc front]

end NoWrap

/-! ## One insert -/

section Steps

variable {directAppendEnable : Bool} {answers : DiskAnswers} {files : PartitionFiles}
  {format : ShuffleFileFormat}

theorem writeShuffleFormat_of_dataFailed {dataFile : List UInt8} {error : WorkerError}
    (failed : appendData directAppendEnable answers files format.data = (dataFile, .error error)) :
    writeShuffleFormat directAppendEnable answers files format =
      ({ files with dataFile }, .error error) := by
  simp only [writeShuffleFormat, failed]

theorem writeShuffleFormat_of_indexFailed {dataFile indexFile : List UInt8} {error : WorkerError}
    (appended : appendData directAppendEnable answers files format.data = (dataFile, .ok ()))
    (failed : LocalDiskDelegator.append files.indexFile format.index answers.indexAppend =
      (indexFile, .error error)) :
    writeShuffleFormat directAppendEnable answers files format =
      ({ files with dataFile, indexFile }, .error error) := by
  simp only [writeShuffleFormat, appended, failed]

theorem writeShuffleFormat_of_appended {dataFile indexFile : List UInt8}
    (appended : appendData directAppendEnable answers files format.data = (dataFile, .ok ()))
    (indexed : LocalDiskDelegator.append files.indexFile format.index answers.indexAppend =
      (indexFile, .ok ())) :
    writeShuffleFormat directAppendEnable answers files format =
      ({ files with dataFile, indexFile, pointer := format.offset }, .ok ()) := by
  simp only [writeShuffleFormat, appended, indexed]

/-- `data_insert` fails before it writes, leaving at most a new lock entry,
or it goes on to the writes. -/
theorem LocalFileStore.dataInsert_cases (blocks : List Block) :
    (∃ disk error, LocalFileStore.dataInsert directAppendEnable files blocks answers =
        ({ files with disk }, .error error)) ∨
      ∃ root, LocalFileStore.dataInsert directAppendEnable files blocks answers =
        writeShuffleFormat directAppendEnable answers { files with disk := some root }
          (createShuffleFormat blocks files.pointer) := by
  unfold LocalFileStore.dataInsert
  split
  · rename_i error _
    exact .inl ⟨files.disk, error, rfl⟩
  · rename_i root parentDirIsCreated _
    dsimp only
    split_ifs
    · exact .inl ⟨some root, _, rfl⟩
    · exact .inl ⟨some root, _, rfl⟩
    · exact .inr ⟨root, rfl⟩
    · -- a new entry: the directory is created first
      split
      · exact .inl ⟨some root, _, rfl⟩
      · exact .inr ⟨root, rfl⟩

/-- A request calls `data_insert` with its blocks, or returns `Ok` at once. -/
theorem LocalFileStore.handle_eq (request : FileRequest) :
    LocalFileStore.handle directAppendEnable files request =
      match request.insertedBlocks with
      | none => (files, .ok ())
      | some blocks => LocalFileStore.dataInsert directAppendEnable files blocks request.answers := by
  cases request with
  | insert blocks answers =>
      by_cases noBlocks : blocks.length ≤ 0
      · simp only [LocalFileStore.handle, LocalFileStore.insert, FileRequest.insertedBlocks,
          if_pos noBlocks]
      · simp only [LocalFileStore.handle, LocalFileStore.insert, FileRequest.insertedBlocks,
          FileRequest.answers, if_neg noBlocks]
  | spillInsert batches answers => rfl

end Steps

/-! ## The invariant -/

/-- What the data file holds of `content`: exactly the content after plain
appends; the content at its front, padded at least to the aligned end, after
direct appends. -/
def DataFileHolds : Bool → List UInt8 → List UInt8 → Prop
  | true, file, content => Covers file content
  | false, file, content => file = content

/-- A partition whose files store the blocks `written`, in order. -/
structure Stored (directAppendEnable : Bool) (files : PartitionFiles) (written : List Block) :
    Prop where
  wellFormed : ∀ block ∈ written, block.WellFormed
  inRange : ∀ record ∈ indexBlocks written 0, record.InRange
  fits : (blockData written).length < 2 ^ 63
  index : files.indexFile = (indexBlocks written 0).flatMap IndexCodec.encode
  pointer : files.pointer = (blockData written).length
  data : DataFileHolds directAppendEnable files.dataFile (blockData written)

section Invariant

variable {directAppendEnable : Bool} {files : PartitionFiles} {written : List Block}

theorem stored_empty (directAppendEnable : Bool) :
    Stored directAppendEnable PartitionFiles.empty [] where
  wellFormed := fun _ member => by cases member
  inRange := fun _ member => by cases member
  fits := by decide
  index := rfl
  pointer := rfl
  data := by
    cases directAppendEnable with
    | false => exact rfl
    | true => exact holds_empty.covers

theorem Stored.withDisk (stored : Stored directAppendEnable files written) (disk : Option String) :
    Stored directAppendEnable { files with disk } written :=
  ⟨stored.wellFormed, stored.inRange, stored.fits, stored.index, stored.pointer, stored.data⟩

/-- A failed write that leaves the index as it was keeps what is stored, when
the data file still holds the data. -/
theorem Stored.withDataFile (stored : Stored directAppendEnable files written)
    {dataFile : List UInt8} (holds : DataFileHolds directAppendEnable dataFile (blockData written))
    {indexFile : List UInt8} (sameIndex : indexFile = files.indexFile) :
    Stored directAppendEnable { files with dataFile, indexFile } written :=
  ⟨stored.wellFormed, stored.inRange, stored.fits, sameIndex.trans stored.index, stored.pointer,
    holds⟩

theorem Stored.offsetAfter_written (stored : Stored directAppendEnable files written) :
    offsetAfter written 0 = files.pointer := by
  rw [offsetAfter_eq written stored.wellFormed (Int.le_refl 0)
    (by rw [Int.zero_add]; exact_mod_cast stored.fits), Int.zero_add, stored.pointer]

theorem Stored.pointer_nonneg (stored : Stored directAppendEnable files written) :
    0 ≤ files.pointer := by
  rw [stored.pointer]
  exact Int.natCast_nonneg _

/-- An insert whose writes all succeeded stores its blocks after the others. -/
theorem Stored.extend (stored : Stored directAppendEnable files written) {blocks : List Block}
    (fit : BlocksFit files.pointer blocks) {dataFile : List UInt8}
    (holds : DataFileHolds directAppendEnable dataFile (blockData (written ++ blocks))) :
    Stored directAppendEnable
      { files with
        dataFile := dataFile
        indexFile := files.indexFile ++ (indexBlocks blocks files.pointer).flatMap IndexCodec.encode
        pointer := offsetAfter blocks files.pointer } (written ++ blocks) := by
  obtain ⟨blocksWellFormed, blocksInRange, blocksFit⟩ := fit
  have pointerEq := stored.pointer
  have records : indexBlocks (written ++ blocks) 0 =
      indexBlocks written 0 ++ indexBlocks blocks files.pointer := by
    rw [indexBlocks_append, stored.offsetAfter_written]
  have dataLength : ((blockData (written ++ blocks)).length : Int) =
      files.pointer + (blockData blocks).length := by
    rw [blockData_append, List.length_append, Nat.cast_add, pointerEq]
  refine ⟨?_, ?_, ?_, ?_, ?_, holds⟩
  · intro block member
    rcases List.mem_append.mp member with old | new
    · exact stored.wellFormed block old
    · exact blocksWellFormed block new
  · intro record member
    rw [records] at member
    rcases List.mem_append.mp member with old | new
    · exact stored.inRange record old
    · exact blocksInRange record new
  · have : ((blockData (written ++ blocks)).length : Int) < 2 ^ 63 := by
      rw [dataLength]
      exact blocksFit
    exact_mod_cast this
  · rw [records, List.flatMap_append, stored.index]
  · rw [offsetAfter_eq blocks blocksWellFormed stored.pointer_nonneg blocksFit, dataLength]

end Invariant

/-! ## Plain appends -/

section Plain

variable {answers : DiskAnswers} {files : PartitionFiles} {written blocks : List Block}

theorem appendData_plain (data : BytesWrapper) :
    appendData false answers files data =
      LocalDiskDelegator.append files.dataFile data answers.dataAppend :=
  rfl

/-- With plain appends, an insert that keeps the discipline either fails
before writing or stores its blocks. -/
theorem Stored.writeShuffleFormat_plain (stored : Stored false files written)
    (fit : BlocksFit files.pointer blocks) (clean : FailsCleanly false answers) :
    Stored false (writeShuffleFormat false answers files (createShuffleFormat blocks files.pointer)).1
      (written ++ acknowledgedBy
        (writeShuffleFormat false answers files (createShuffleFormat blocks files.pointer)).2
          blocks) := by
  obtain ⟨dataAllOrNothing, indexAfterData⟩ := clean.2 rfl
  cases dataOutcome : answers.dataAppend with
  | failed error landed =>
      -- the data append failed before writing: nothing changed
      have nothingLanded : landed = 0 := by
        rw [dataOutcome] at dataAllOrNothing
        exact dataAllOrNothing
      have failed : appendData false answers files (createShuffleFormat blocks files.pointer).data =
          (files.dataFile ++ (blockData blocks).take landed, .error error) := by
        rw [appendData_plain, dataOutcome, LocalDiskDelegator.append_failed, createShuffleFormat_data]
      rw [writeShuffleFormat_of_dataFailed failed, acknowledgedBy_error, List.append_nil,
        nothingLanded, List.take_zero, List.append_nil]
      exact stored.withDataFile stored.data rfl
  | appended =>
      -- the data append succeeded, and so did the index append after it
      have indexOutcome := indexAfterData dataOutcome
      have appended : appendData false answers files (createShuffleFormat blocks files.pointer).data =
          (files.dataFile ++ blockData blocks, .ok ()) := by
        rw [appendData_plain, dataOutcome, LocalDiskDelegator.append_appended,
          createShuffleFormat_data]
      have indexed : LocalDiskDelegator.append files.indexFile
          (createShuffleFormat blocks files.pointer).index answers.indexAppend =
            (files.indexFile ++ (indexBlocks blocks files.pointer).flatMap IndexCodec.encode,
              .ok ()) := by
        rw [indexOutcome, LocalDiskDelegator.append_appended, createShuffleFormat_index]
      rw [writeShuffleFormat_of_appended appended indexed, acknowledgedBy_ok,
        createShuffleFormat_offset]
      have plainData : files.dataFile = blockData written := stored.data
      refine stored.extend fit ?_
      show files.dataFile ++ blockData blocks = blockData (written ++ blocks)
      rw [plainData, blockData_append]

end Plain

/-! ## Direct appends -/

section Direct

variable {file content : List UInt8}

/-- A direct append at the end of the content that succeeds leaves the file
covering the new content. -/
theorem Covers.delegatorDirectAppend (covers : Covers file content) (buffers : AcquiredBuffers)
    (data : BytesWrapper) (small : content.length + data.freeze.length + 4095 < 2 ^ 64) :
    ∃ appended, LocalDiskDelegator.directAppend buffers file content.length data .appended =
        (appended, .ok ()) ∧ Covers appended (content ++ data.freeze) := by
  obtain ⟨appended, succeeded, appendedCovers, -⟩ := covers.directAppend buffers data small
  obtain ⟨start, writes⟩ := directAppendWrites_of_directAppend succeeded
  refine ⟨appended, ?_, appendedCovers⟩
  simp only [LocalDiskDelegator.directAppend, writes, succeeded, Option.elim_some]

/-- A direct append at the end of the content that fails, after any prefix
of its writes, leaves the file covering the content: it starts by writing
the tail of the content again. -/
theorem Covers.delegatorDirectAppend_failed (covers : Covers file content)
    (buffers : AcquiredBuffers) (data : BytesWrapper)
    (small : content.length + data.freeze.length + 4095 < 2 ^ 64) (error : WorkerError)
    (landed : Nat) :
    ∃ failedFile, LocalDiskDelegator.directAppend buffers file content.length data
        (.failed error landed) = (failedFile, .error error) ∧ Covers failedFile content := by
  obtain ⟨more, writes⟩ := covers.directAppendWrites buffers data small
  have contentWithin : content.length ≤ file.length := covers.length_le (by omega)
  have startBefore : content.length / 4096 * 4096 ≤ content.length := Nat.div_mul_le_self _ _
  generalize content.length / 4096 * 4096 = start at writes startBefore
  have startWithin : start ≤ file.length := Nat.le_trans startBefore contentWithin
  have repeated : content.drop start = (file.take content.length).drop start := by
    rw [covers.front]
  refine ⟨writeAt 0 file start (((writeAt 0 file start (content.drop start ++ more)).drop start).take
    landed), ?_, ?_, ?_⟩
  · simp only [LocalDiskDelegator.directAppend, writes]
  · rw [drop_writeAt_self 0 startWithin, repeated, List.append_assoc,
      take_writeAt_repeating 0 startBefore contentWithin, covers.front]
  · rw [length_writeAt 0 startWithin]
    exact Nat.le_trans covers.covered (le_max_left _ _)

variable {answers : DiskAnswers} {files : PartitionFiles} {written blocks : List Block}

theorem appendData_direct (data : BytesWrapper) :
    appendData true answers files data =
      LocalDiskDelegator.directAppend answers.buffers files.dataFile (toUnsigned 64 files.pointer)
        data answers.dataAppend :=
  rfl

/-- With direct appends, an insert that keeps the discipline either stores
its blocks, or fails and leaves the data file covering the stored data,
whatever its data append wrote. -/
theorem Stored.writeShuffleFormat_direct (stored : Stored true files written)
    (fit : BlocksFit files.pointer blocks) (clean : FailsCleanly true answers) :
    Stored true (writeShuffleFormat true answers files (createShuffleFormat blocks files.pointer)).1
      (written ++ acknowledgedBy
        (writeShuffleFormat true answers files (createShuffleFormat blocks files.pointer)).2
          blocks) := by
  have covers : Covers files.dataFile (blockData written) := stored.data
  have storedFits := stored.fits
  have batchFits := fit.2.2
  rw [stored.pointer] at batchFits
  have pointerBytes : toUnsigned 64 files.pointer = (blockData written).length := by
    rw [stored.pointer]
    exact toUnsigned_natCast (by omega)
  have small : (blockData written).length +
      (createShuffleFormat blocks files.pointer).data.freeze.length + 4095 < 2 ^ 64 := by
    rw [createShuffleFormat_data]
    omega
  cases dataOutcome : answers.dataAppend with
  | failed error landed =>
      -- the writes of a failed direct append repeat the stored tail
      obtain ⟨failedFile, failed, stillCovers⟩ :=
        covers.delegatorDirectAppend_failed answers.buffers _ small error landed
      have dataFailed : appendData true answers files (createShuffleFormat blocks files.pointer).data =
          (failedFile, .error error) := by
        rw [appendData_direct, dataOutcome, pointerBytes, failed]
      rw [writeShuffleFormat_of_dataFailed dataFailed, acknowledgedBy_error, List.append_nil]
      exact stored.withDataFile stillCovers rfl
  | appended =>
      obtain ⟨appendedFile, succeeded, newCovers⟩ :=
        covers.delegatorDirectAppend answers.buffers _ small
      rw [createShuffleFormat_data] at newCovers
      have dataAppended : appendData true answers files
          (createShuffleFormat blocks files.pointer).data = (appendedFile, .ok ()) := by
        rw [appendData_direct, dataOutcome, pointerBytes, succeeded]
      cases indexOutcome : answers.indexAppend with
      | failed error landed =>
          -- the index append wrote nothing; the next insert writes the data again
          have nothingLanded : landed = 0 := by
            have indexClean := clean.1
            rw [indexOutcome] at indexClean
            exact indexClean
          have indexFailed : LocalDiskDelegator.append files.indexFile
              (createShuffleFormat blocks files.pointer).index answers.indexAppend =
                (files.indexFile, .error error) := by
            rw [indexOutcome, LocalDiskDelegator.append_failed, nothingLanded, List.take_zero,
              List.append_nil]
          rw [writeShuffleFormat_of_indexFailed dataAppended indexFailed, acknowledgedBy_error,
            List.append_nil]
          exact stored.withDataFile (newCovers.of_append (by rw [List.length_append]; omega)) rfl
      | appended =>
          have indexed : LocalDiskDelegator.append files.indexFile
              (createShuffleFormat blocks files.pointer).index answers.indexAppend =
                (files.indexFile ++ (indexBlocks blocks files.pointer).flatMap IndexCodec.encode,
                  .ok ()) := by
            rw [indexOutcome, LocalDiskDelegator.append_appended, createShuffleFormat_index]
          rw [writeShuffleFormat_of_appended dataAppended indexed, acknowledgedBy_ok,
            createShuffleFormat_offset]
          refine stored.extend fit ?_
          rw [blockData_append]
          exact newCovers

end Direct

/-! ## Every run -/

section Runs

variable {directAppendEnable : Bool} {answers : DiskAnswers} {files : PartitionFiles}
  {written blocks : List Block}

theorem Stored.writeShuffleFormat (stored : Stored directAppendEnable files written)
    (fit : BlocksFit files.pointer blocks) (clean : FailsCleanly directAppendEnable answers) :
    Stored directAppendEnable
      (writeShuffleFormat directAppendEnable answers files (createShuffleFormat blocks files.pointer)).1
      (written ++ acknowledgedBy (writeShuffleFormat directAppendEnable answers files
        (createShuffleFormat blocks files.pointer)).2 blocks) := by
  cases directAppendEnable with
  | false => exact stored.writeShuffleFormat_plain fit clean
  | true => exact stored.writeShuffleFormat_direct fit clean

/-- The step lemma: an insert that keeps the discipline stores its blocks
after the others when it returns `Ok`, and keeps what was stored when it
fails. -/
theorem Stored.dataInsert (stored : Stored directAppendEnable files written)
    (fit : BlocksFit files.pointer blocks) (clean : FailsCleanly directAppendEnable answers) :
    Stored directAppendEnable (LocalFileStore.dataInsert directAppendEnable files blocks answers).1
      (written ++ acknowledgedBy
        (LocalFileStore.dataInsert directAppendEnable files blocks answers).2 blocks) := by
  rcases @LocalFileStore.dataInsert_cases directAppendEnable answers files blocks with
    ⟨disk, error, early⟩ | ⟨root, writes⟩
  · rw [early, acknowledgedBy_error, List.append_nil]
    exact stored.withDisk disk
  · rw [writes]
    exact (stored.withDisk (some root)).writeShuffleFormat fit clean

theorem Stored.handle (stored : Stored directAppendEnable files written) {request : FileRequest}
    (allowed : KeepsFilesConsistent directAppendEnable files request) :
    Stored directAppendEnable (LocalFileStore.handle directAppendEnable files request).1
      (written ++ acknowledgedBy (LocalFileStore.handle directAppendEnable files request).2
        (request.insertedBlocks.getD [])) := by
  rw [LocalFileStore.handle_eq]
  unfold KeepsFilesConsistent at allowed
  cases inserted : request.insertedBlocks with
  | none =>
      rw [acknowledgedBy_ok, Option.getD_none, List.append_nil]
      exact stored
  | some blocks =>
      rw [inserted] at allowed
      rw [Option.getD_some]
      exact stored.dataInsert allowed.1 allowed.2

/-- The run lemma: every partition reached by inserts that keep the
discipline stores exactly the blocks of those that returned `Ok`. -/
theorem stored_of_reachable {history : PartitionHistory}
    (reached : Relation.ReflTransGen
      (Steps (historyNext directAppendEnable) fun history request =>
        KeepsFilesConsistent directAppendEnable history.files request)
      PartitionHistory.empty history) :
    Stored directAppendEnable history.files history.acknowledged := by
  refine @invariant_of_steps _ _ (historyNext directAppendEnable) _
    (fun history => Stored directAppendEnable history.files history.acknowledged) ?_ _ _ reached
    (stored_empty directAppendEnable)
  intro source target request allowed stored fired
  simp only [historyNext, Option.some.injEq] at fired
  subst fired
  exact stored.handle allowed

theorem Stored.dataFront (stored : Stored directAppendEnable files written) :
    files.dataFile.take (blockData written).length = blockData written := by
  cases directAppendEnable with
  | false =>
      have plain : files.dataFile = blockData written := stored.data
      rw [plain, List.take_length]
  | true => exact (stored.data : Covers files.dataFile (blockData written)).front

/-- What is stored is what a reader relies on. -/
theorem Stored.indexConsistent (stored : Stored directAppendEnable files written) :
    IndexConsistent directAppendEnable files written := by
  have contentFits : (0 : Int) + (blockData written).length < 2 ^ 63 := by
    rw [Int.zero_add]
    exact_mod_cast stored.fits
  refine ⟨?_, ?_, stored.pointer, stored.dataFront, ?_, ?_⟩
  · rw [stored.index]
    exact decodeIndexFile_flatMap_encode stored.inRange
  · have contiguous := contiguous_indexBlocks written stored.wellFormed (Int.le_refl 0) contentFits
    rwa [Int.zero_add, ← stored.pointer] at contiguous
  · intro plain
    subst plain
    exact stored.data
  · intro record block member
    -- the data file is the stored data and whatever lies past it
    have dataSplit : files.dataFile =
        [] ++ blockData written ++ files.dataFile.drop (blockData written).length := by
      conv_lhs => rw [← List.take_append_drop (blockData written).length files.dataFile]
      rw [stored.dataFront, List.nil_append]
    rw [dataSplit]
    exact readAt_indexBlocks written [] _ stored.wellFormed
      (by rw [List.length_nil, Nat.zero_add]; exact stored.fits) record block
      (by rwa [List.length_nil, Nat.cast_zero])

end Runs

/-- Inserts on one partition, in either append mode, each of which may fail
at any step, keep its index and data files consistent: as long as failed
appends leave nothing a later insert trips over, and the blocks' declared
lengths are their data lengths, the index decodes to one record per block of
the inserts that returned `Ok`, in order; the records follow one another from
offset 0 to the pointer, which is the length of the blocks' data; and each
record's range of the data file holds its block's bytes. -/
theorem dataInsert_keeps_index_consistent (directAppendEnable : Bool) {history : PartitionHistory}
    (reached : Relation.ReflTransGen
      (Steps (historyNext directAppendEnable) fun history request =>
        KeepsFilesConsistent directAppendEnable history.files request)
      PartitionHistory.empty history) :
    IndexConsistent directAppendEnable history.files history.acknowledged :=
  (stored_of_reachable reached).indexConsistent

/-- A disk that answers every step of an insert with success, but for the
data append. -/
def healthyDisk (dataAppend : AppendOutcome) : DiskAnswers where
  selectedDisk := .ok "/data1"
  corrupted := false
  healthy := true
  createDir := .ok ()
  buffers := staleBuffers
  dataAppend := dataAppend
  indexAppend := .appended

theorem dataInsert_keeps_index_consistent_afterFailedAppend :
    ∃ history, Relation.ReflTransGen
        (Steps (historyNext false) fun history request =>
          KeepsFilesConsistent false history.files request)
        PartitionHistory.empty history ∧
      history.acknowledged = [⟨1, 3, 3, 0, [1, 2, 3], 0⟩, ⟨2, 1, 1, 0, [4], 1⟩] ∧
      IndexConsistent false history.files history.acknowledged := by
  have replay : checkedRun (historyNext false)
      (fun history request => KeepsFilesConsistent false history.files request)
      PartitionHistory.empty
      [.insert [⟨1, 3, 3, 0, [1, 2, 3], 0⟩] (healthyDisk (.failed .futureExecTimeout 0)),
        .insert [⟨1, 3, 3, 0, [1, 2, 3], 0⟩, ⟨2, 1, 1, 0, [4], 1⟩] (healthyDisk .appended),
        .insert [] (healthyDisk .appended)] = some _ := rfl
  have reached := reflTransGen_of_checkedRun replay
  exact ⟨_, reached, rfl, dataInsert_keeps_index_consistent false reached⟩

/-- Plain appends, and an index append that fails after the data append
succeeded.  The next insert counts its record from the pointer, which the
failure left where it was, while its bytes go to the end of the data file:
the record names the failed insert's bytes. -/
theorem plain_append_after_failed_index_misplaces_block :
    ∃ history, Relation.ReflTransGen (Steps (historyNext false) fun _ _ => True)
        PartitionHistory.empty history ∧
      history.acknowledged = [⟨2, 1, 1, 0, [4], 1⟩] ∧
      decodeIndexFile history.files.indexFile =
        some [IndexBlock.ofBlock ⟨2, 1, 1, 0, [4], 1⟩ 0] ∧
      readAt history.files.dataFile 0 1 = [1] ∧
      ¬IndexConsistent false history.files history.acknowledged := by
  have replay : checkedRun (historyNext false) (fun _ _ => True) PartitionHistory.empty
      [.insert [⟨1, 3, 3, 0, [1, 2, 3], 0⟩]
          { healthyDisk .appended with indexAppend := .failed .futureExecTimeout 0 },
        .insert [⟨2, 1, 1, 0, [4], 1⟩] (healthyDisk .appended)] = some _ := rfl
  refine ⟨_, reflTransGen_of_checkedRun replay, rfl, rfl, rfl, ?_⟩
  rintro ⟨-, -, -, -, -, records⟩
  have misplaced := records (IndexBlock.ofBlock ⟨2, 1, 1, 0, [4], 1⟩ 0) ⟨2, 1, 1, 0, [4], 1⟩
    (by decide)
  exact absurd misplaced (by decide)

/-! ## The consistency detection of `get_index` -/

section Detection

variable {directAppendEnable : Bool} {files : PartitionFiles} {written : List Block}

/-- The last record of what is stored ends at the pointer. -/
theorem Stored.detectIndexInconsistency (stored : Stored directAppendEnable files written)
    (nonempty : written ≠ []) :
    detectIndexInconsistency files.indexFile files.pointer = true := by
  obtain ⟨earlier, last, rfl⟩ : ∃ earlier last, written = earlier ++ [last] :=
    (List.eq_nil_or_concat' written).resolve_left nonempty
  have lastWellFormed : last.length = last.data.length :=
    stored.wellFormed last (List.mem_append_right earlier List.mem_cons_self)
  have earlierWellFormed : ∀ block ∈ earlier, block.WellFormed :=
    fun block member => stored.wellFormed block (List.mem_append_left [last] member)
  have earlierFits : (0 : Int) + (blockData earlier).length < 2 ^ 63 := by
    have fits := stored.fits
    rw [blockData_append, List.length_append] at fits
    rw [Int.zero_add]
    exact_mod_cast (by omega : (blockData earlier).length < 2 ^ 63)
  have lastRecord : indexBlocks (earlier ++ [last]) 0 =
      indexBlocks earlier 0 ++ [IndexBlock.ofBlock last (blockData earlier).length] := by
    rw [indexBlocks_append, offsetAfter_eq earlier earlierWellFormed (Int.le_refl 0) earlierFits,
      Int.zero_add, indexBlocks, indexBlocks]
  have lastInRange : (IndexBlock.ofBlock last (blockData earlier).length).InRange :=
    stored.inRange _ (by rw [lastRecord]; exact List.mem_append_right _ List.mem_cons_self)
  rw [stored.index, stored.pointer, lastRecord, List.flatMap_append, List.flatMap_singleton]
  unfold Riffle.Local.detectIndexInconsistency
  -- the last 40 bytes are the last record
  rw [List.length_append, IndexCodec.length_encode, Nat.add_sub_cancel, List.drop_left,
    ← List.append_nil (IndexCodec.encode _), IndexCodec.decode_encode_append lastInRange]
  simp [IndexBlock.ofBlock, lastWellFormed]

/-- What `get_index` answers on a partition whose inserts keep the discipline
passes its consistency detection: whenever there is more than one record's
bytes to check, the last record ends at the pointer it returns. -/
theorem getIndex_passes_detection (directAppendEnable : Bool) {history : PartitionHistory}
    (reached : Relation.ReflTransGen
      (Steps (historyNext directAppendEnable) fun history request =>
        KeepsFilesConsistent directAppendEnable history.files request)
      PartitionHistory.empty history)
    {data : List UInt8} {dataFileLen : Int}
    (answered : LocalFileStore.getIndex history.files false = .ok (data, dataFileLen))
    (checked : indexBlockSize < data.length) :
    detectIndexInconsistency data dataFileLen = true := by
  have stored := stored_of_reachable reached
  unfold LocalFileStore.getIndex at answered
  split at answered
  · -- no lock entry: an empty answer, which is not checked
    cases answered
    exact absurd checked (by decide)
  · rw [if_neg Bool.false_ne_true] at answered
    cases answered
    have nonempty : history.acknowledged ≠ [] := by
      intro empty
      rw [stored.index, empty] at checked
      exact absurd checked (by decide)
    exact stored.detectIndexInconsistency nonempty

/-- Two blocks inserted at once: `get_index` answers both records and the
pointer, and the second record ends at the pointer. -/
theorem getIndex_of_two_blocks_passes_detection :
    ∃ history, Relation.ReflTransGen
        (Steps (historyNext false) fun history request =>
          KeepsFilesConsistent false history.files request)
        PartitionHistory.empty history ∧
      history.acknowledged = [⟨1, 3, 3, 0, [1, 2, 3], 0⟩, ⟨2, 1, 1, 0, [4], 1⟩] ∧
      detectIndexInconsistency history.files.indexFile history.files.pointer = true := by
  have replay : checkedRun (historyNext false)
      (fun history request => KeepsFilesConsistent false history.files request)
      PartitionHistory.empty
      [.insert [⟨1, 3, 3, 0, [1, 2, 3], 0⟩, ⟨2, 1, 1, 0, [4], 1⟩] (healthyDisk .appended)] =
        some _ := rfl
  have reached := reflTransGen_of_checkedRun replay
  exact ⟨_, reached, rfl, getIndex_passes_detection false reached rfl (by decide)⟩

end Detection

end Riffle.Local
