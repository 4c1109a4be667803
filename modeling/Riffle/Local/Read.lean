import Mathlib
import Riffle.Local.FileStore

/-!
# Reading a partition back: `LocalFileStore::get`

A reader first asks `get_index` for a partition's index, then calls `get`
with the `(offset, length)` of each record (`src/store/localfile.rs`).
`get` answers an empty read for a length of 0 and for a partition without a
lock entry, fails on a corrupted disk, and otherwise reads the data file:
with `inner_direct_read` when `direct_io_enable && direct_io_read_enable`,
with one plain `read` call into a buffer of the length otherwise
(`src/store/local/sync_io.rs`).

The direct and plain modes of reads and appends are configured apart
(`direct_io_read_enable`, `direct_io_append_enable`).  Over every history of
inserts that keep the discipline of `Riffle.Local.FileStore`, a read of a
record of the blocks acknowledged returns the block's bytes, in every mode
but one: direct reads of a data file written with plain appends.  A direct
read widens its range to whole pages, and a plain data file ends where the
data ends, so a block in the last, partial page of the file gets a short
read, which `inner_direct_read` refuses.
-/

namespace Riffle.Local

open Riffle.ByteFile Riffle.FixedWidth Riffle.Store Riffle.Transition

/-- What the disk answers one `get`: whether it is marked corrupted, a
failure of the read itself (the file cannot be opened, the
`io_duration_threshold_sec` timeout fires), and the buffers
`inner_direct_read` would acquire. -/
structure ReadAnswers where
  corrupted : Bool
  readFailure : Option WorkerError
  pooled : List UInt8
  fresh : Nat → List UInt8

/-- `SyncLocalIO::read`.  Without a length, the whole file (`fs::read`,
which ignores the offset).  With one, a single `read` call from the offset
into a zeroed buffer of that length, which a regular file fills as far as
it reaches; a short read is an error. -/
def SyncLocalIo.read (file : List UInt8) (offset : Int) :
    Option Int → Except WorkerError (List UInt8)
  | none => .ok file
  | some length =>
      let len := toUnsigned 64 length
      let read := readAt file (toUnsigned 64 offset) len
      if read.length ≠ len then
        .error (.other ("Not expected bytes reading. expected: " ++ toString len ++
          ", actual: " ++ toString read.length))
      else .ok read

/-- `SyncLocalIO::direct_read`: `inner_direct_read` on the `usize` casts of
the offset and length, its `io::Error` turned into `WorkerError::Other`. -/
def SyncLocalIo.directRead (pooled : List UInt8) (fresh : Nat → List UInt8) (file : List UInt8)
    (offset len : Int) : Except WorkerError (List UInt8) :=
  match innerDirectRead pooled fresh file (toUnsigned 64 offset) (toUnsigned 64 len) with
  | .ok data => .ok data
  | .error error => .error (.other error.message)

/-- `LocalFileStore::get` on one partition, under its read lock, for the
`FILE_OFFSET_AND_LEN(offset, len)` of the request (the other reading
options read as `(0, 0)`); the direct read once `get_permit` granted its
permit. -/
def LocalFileStore.get (directIoEnable directIoReadEnable : Bool) (files : PartitionFiles)
    (answers : ReadAnswers) (offset len : Int) : Except WorkerError (List UInt8) :=
  if len = 0 then .ok []
  else
    match files.disk with
    | none => .ok []
    | some root =>
        if answers.corrupted then .error (.localDiskOwnedByPartitionCorrupted root)
        else
          match answers.readFailure with
          | some error => .error error
          | none =>
              if directIoEnable && directIoReadEnable then
                SyncLocalIo.directRead answers.pooled answers.fresh files.dataFile offset len
              else SyncLocalIo.read files.dataFile offset (some len)

/-! ## The two reads -/

section Reads

variable {file : List UInt8} {offset len : Int}

/-- A plain read of a range the file holds returns it. -/
theorem SyncLocalIo.read_inside (nonneg : 0 ≤ offset) (bounded : offset < 2 ^ 64)
    {length : Nat} (shortLength : length < 2 ^ 64)
    (inside : offset.toNat + length ≤ file.length) :
    SyncLocalIo.read file offset (some length) = .ok (readAt file offset.toNat length) := by
  have full : (readAt file offset.toNat length).length = length := by
    rw [length_readAt]
    omega
  simp only [SyncLocalIo.read, toUnsigned_of_nonneg nonneg bounded, toUnsigned_natCast shortLength,
    full, ne_eq, not_true_eq_false, if_false]

/-- A direct read of a range inside what a direct-append file covers
returns it. -/
theorem Covers.directRead {content : List UInt8} (covers : Covers file content)
    (small : content.length + 4095 < 2 ^ 64) (pooled : List UInt8) (fresh : Nat → List UInt8)
    (nonneg : 0 ≤ offset) {length : Nat} (inside : offset.toNat + length ≤ content.length) :
    SyncLocalIo.directRead pooled fresh file offset length = .ok (readAt content offset.toNat length) := by
  have offsetBounded : offset < 2 ^ 64 := by omega
  have lengthBounded : length < 2 ^ 64 := by omega
  rw [SyncLocalIo.directRead, toUnsigned_of_nonneg nonneg offsetBounded,
    toUnsigned_natCast lengthBounded, covers.innerDirectRead small pooled fresh inside]

/-- A direct read whose pages pass the end of a file of unaligned length
reads short and fails. -/
theorem innerDirectRead_past_unaligned_end (pooled : List UInt8) (fresh : Nat → List UInt8)
    {offset len : Nat} (small : offset + len + 4095 < 2 ^ 64) (before : offset ≤ file.length)
    (unaligned : file.length % 4096 ≠ 0) (past : file.length < alignUp align (offset + len)) :
    ∃ expected, innerDirectRead pooled fresh file offset len =
      .error (.directRead expected (file.length - offset / 4096 * 4096)) := by
  have leftEq : alignDown align offset = offset / 4096 * 4096 := alignDown_eq (by omega)
  have rightEq : alignUp align (offset + len) = (offset + len + 4095) / 4096 * 4096 :=
    alignUp_eq small
  have shortRead : (readAt file (alignDown align offset)
      (alignUp align (offset + len) - alignDown align offset)).length =
        file.length - offset / 4096 * 4096 := by
    rw [length_readAt, leftEq]
    rw [rightEq] at past
    omega
  have notAligned : isAligned align (file.length - offset / 4096 * 4096) = false := by
    rw [Bool.eq_false_iff, ne_eq, isAligned_iff]
    omega
  unfold innerDirectRead
  simp only [shortRead, notAligned, Bool.not_false, if_true]
  exact ⟨_, rfl⟩

end Reads

/-! ## Who holds a lock entry -/

section Entries

variable {directAppendEnable : Bool} {answers : DiskAnswers} {files : PartitionFiles}

@[simp]
theorem writeShuffleFormat_disk (format : ShuffleFileFormat) :
    (writeShuffleFormat directAppendEnable answers files format).1.disk = files.disk := by
  unfold writeShuffleFormat
  dsimp only
  split
  · rfl
  · split <;> rfl

/-- `data_insert` that found or made a lock entry leaves it. -/
theorem LocalFileStore.dataInsert_disk {root : String} {parentDirIsCreated : Bool}
    (entry : lockEntry files.disk answers.selectedDisk = .ok (root, parentDirIsCreated))
    (blocks : List Block) :
    (LocalFileStore.dataInsert directAppendEnable files blocks answers).1.disk = some root := by
  unfold LocalFileStore.dataInsert
  rw [entry]
  dsimp only
  split_ifs
  · rfl
  · rfl
  · split <;> simp
  · split <;> simp

theorem LocalFileStore.dataInsert_of_entry_error {error : WorkerError}
    (entry : lockEntry files.disk answers.selectedDisk = .error error) (blocks : List Block) :
    LocalFileStore.dataInsert directAppendEnable files blocks answers = (files, .error error) := by
  unfold LocalFileStore.dataInsert
  rw [entry]

/-- A partition acknowledges blocks only once it holds a lock entry. -/
def PartitionHistory.Claimed (history : PartitionHistory) : Prop :=
  history.files.disk = none → history.acknowledged = []

theorem PartitionHistory.Claimed.next {history after : PartitionHistory}
    (claimed : history.Claimed) {request : FileRequest}
    (fired : historyNext directAppendEnable history request = some after) : after.Claimed := by
  simp only [historyNext, Option.some.injEq] at fired
  subst fired
  intro unclaimed
  rw [LocalFileStore.handle_eq] at unclaimed ⊢
  cases inserted : request.insertedBlocks with
  | none =>
      simp only [inserted] at unclaimed ⊢
      simp [claimed unclaimed]
  | some blocks =>
      simp only [inserted, Option.getD_some] at unclaimed ⊢
      cases entry : lockEntry history.files.disk request.answers.selectedDisk with
      | error error =>
          -- no entry: nothing written, nothing acknowledged
          rw [LocalFileStore.dataInsert_of_entry_error entry] at unclaimed ⊢
          simp [claimed unclaimed]
      | ok found =>
          rw [LocalFileStore.dataInsert_disk entry] at unclaimed
          cases unclaimed

theorem claimed_of_reachable {allowed : PartitionHistory → FileRequest → Prop}
    {history : PartitionHistory}
    (reached : Relation.ReflTransGen (Steps (historyNext directAppendEnable) allowed)
      PartitionHistory.empty history) :
    history.Claimed :=
  @invariant_of_steps _ _ (historyNext directAppendEnable) _ PartitionHistory.Claimed
    (fun _ _ _ _ claimed fired => claimed.next fired) _ _ reached (fun _ => rfl)

end Entries

/-! ## Where the records point -/

/-- Each record of a batch that fits lies inside the batch's range and has
its block's length. -/
theorem indexBlocks_zip_within :
    ∀ (blocks : List Block) {offset : Int}, (∀ block ∈ blocks, block.WellFormed) → 0 ≤ offset →
      offset + (blockData blocks).length < 2 ^ 63 →
      ∀ record block, (record, block) ∈ (indexBlocks blocks offset).zip blocks →
        offset ≤ record.offset ∧ record.length = block.data.length ∧
          record.offset + record.length ≤ offset + (blockData blocks).length
  | [], _, _, _, _, record, block, member => by
      rw [indexBlocks, List.zip_nil_left] at member
      cases member
  | first :: rest, offset, wellFormed, nonneg, fits, record, block, member => by
      have firstWellFormed : first.length = first.data.length :=
        wellFormed first List.mem_cons_self
      rw [blockData_cons, List.length_append, Nat.cast_add] at fits ⊢
      have next := nextOffset_eq (wellFormed first List.mem_cons_self) nonneg (by omega)
      rw [indexBlocks, List.zip_cons_cons, next, List.mem_cons] at member
      rcases member with found | later
      · obtain ⟨rfl, rfl⟩ := Prod.mk.inj found
        refine ⟨le_rfl, firstWellFormed, ?_⟩
        simp only [IndexBlock.ofBlock, firstWellFormed]
        omega
      · have within := indexBlocks_zip_within rest
          (fun other member => wellFormed other (List.mem_cons_of_mem first member))
          (by omega) (by omega) record block later
        omega

/-! ## Reading back what was acknowledged -/

section ReadBack

variable {directAppendEnable : Bool} {files : PartitionFiles} {written : List Block}
  {record : IndexBlock} {block : Block}

/-- The record of a stored block lies inside the stored data, which holds
the block there. -/
theorem Stored.record_inside (stored : Stored directAppendEnable files written)
    (member : (record, block) ∈ (indexBlocks written 0).zip written) :
    0 ≤ record.offset ∧ record.length = block.data.length ∧
      record.offset.toNat + block.data.length ≤ (blockData written).length ∧
      readAt (blockData written) record.offset.toNat block.data.length = block.data := by
  have fits : (0 : Int) + (blockData written).length < 2 ^ 63 := by
    rw [Int.zero_add]
    exact_mod_cast stored.fits
  obtain ⟨nonneg, lengthEq, within⟩ :=
    indexBlocks_zip_within written stored.wellFormed (Int.le_refl 0) fits record block member
  have fromContent := readAt_indexBlocks written [] [] stored.wellFormed
    (by rw [List.length_nil, Nat.zero_add]; exact stored.fits) record block
    (by rwa [List.length_nil, Nat.cast_zero])
  rw [List.nil_append, List.append_nil, lengthEq, Int.toNat_natCast] at fromContent
  refine ⟨nonneg, lengthEq, by omega, fromContent⟩

/-- `get` of a stored record returns its block, unless it reads directly
from a file written with plain appends. -/
theorem Stored.get (stored : Stored directAppendEnable files written)
    (claimed : files.disk = none → written = [])
    {directIoEnable directIoReadEnable : Bool}
    (readsAsWritten : (directIoEnable && directIoReadEnable) = true → directAppendEnable = true)
    {answers : ReadAnswers} (sound : answers.corrupted = false)
    (noFailure : answers.readFailure = none)
    (member : (record, block) ∈ (indexBlocks written 0).zip written) :
    LocalFileStore.get directIoEnable directIoReadEnable files answers record.offset
      record.length = .ok block.data := by
  obtain ⟨nonneg, lengthEq, inside, fromContent⟩ := stored.record_inside member
  have dataFits : (blockData written).length < 2 ^ 63 := stored.fits
  by_cases empty : block.data = []
  · -- a record of no bytes is answered at once
    simp [LocalFileStore.get, lengthEq, empty]
  have nonzero : record.length ≠ 0 := by
    rw [lengthEq]
    exact_mod_cast mt List.length_eq_zero_iff.mp empty
  obtain ⟨root, entry⟩ : ∃ root, files.disk = some root := by
    cases disk : files.disk with
    | none => exact absurd (claimed disk ▸ List.of_mem_zip member).2 List.not_mem_nil
    | some root => exact ⟨root, rfl⟩
  rw [LocalFileStore.get, if_neg nonzero, entry]
  simp only [sound, noFailure, Bool.false_eq_true, if_false]
  rw [lengthEq]
  split_ifs with direct
  · -- direct reads of a direct-append file: the file covers the data
    have covers : Covers files.dataFile (blockData written) := by
      have holds := stored.data
      rw [readsAsWritten direct] at holds
      exact holds
    rw [covers.directRead (by omega) _ _ nonneg inside, fromContent]
  · -- plain reads: the data file holds the block at its record
    have front : files.dataFile.take (blockData written).length = blockData written :=
      stored.dataFront
    have inFile : record.offset.toNat + block.data.length ≤ files.dataFile.length := by
      have := congrArg List.length front
      rw [List.length_take] at this
      omega
    rw [SyncLocalIo.read_inside nonneg (by omega) (by omega) inFile,
      ← readAt_take inside, front, fromContent]

/-- A direct `get` of a block stored by plain appends, which ends in the
last, partial page of the data file, reads short and fails. -/
theorem Stored.directGet_of_plain (stored : Stored false files written)
    (claimed : files.disk = none → written = [])
    {answers : ReadAnswers} (sound : answers.corrupted = false)
    (noFailure : answers.readFailure = none)
    (member : (record, block) ∈ (indexBlocks written 0).zip written)
    (nonempty : block.data ≠ [])
    (lastPage : files.pointer / 4096 * 4096 < record.offset + record.length) :
    ∃ expected actual, LocalFileStore.get true true files answers record.offset record.length =
      .error (.other (DirectIoError.directRead expected actual).message) := by
  obtain ⟨nonneg, lengthEq, inside, -⟩ := stored.record_inside member
  have dataFits : (blockData written).length < 2 ^ 63 := stored.fits
  have plain : files.dataFile = blockData written := stored.data
  have pointerEq : files.pointer = (blockData written).length := stored.pointer
  have nonzero : record.length ≠ 0 := by
    rw [lengthEq]
    exact_mod_cast mt List.length_eq_zero_iff.mp nonempty
  obtain ⟨root, entry⟩ : ∃ root, files.disk = some root := by
    cases disk : files.disk with
    | none => exact absurd (claimed disk ▸ List.of_mem_zip member).2 List.not_mem_nil
    | some root => exact ⟨root, rfl⟩
  -- the pages of the block's range end past the end of the plain file
  have past : files.dataFile.length <
      alignUp align (record.offset.toNat + block.data.length) := by
    rw [alignUp_eq (by omega), plain]
    rw [pointerEq, lengthEq] at lastPage
    omega
  -- a block can end past the last page boundary only of data that ends off one
  have unalignedFile : files.dataFile.length % 4096 ≠ 0 := by
    rw [pointerEq, lengthEq] at lastPage
    rw [plain]
    omega
  obtain ⟨expected, failed⟩ := innerDirectRead_past_unaligned_end answers.pooled answers.fresh
    (by omega) (by rw [plain]; omega) unalignedFile past
  rw [LocalFileStore.get, if_neg nonzero, entry]
  simp only [sound, noFailure, Bool.false_eq_true, Bool.and_self, if_false, if_true]
  rw [SyncLocalIo.directRead, lengthEq, toUnsigned_of_nonneg nonneg (by omega),
    toUnsigned_natCast (by omega), failed]
  exact ⟨expected, _, rfl⟩

end ReadBack

/-- Read-after-write for the local file store: over every history of
inserts that keep the discipline of `KeepsFilesConsistent`, each record of
the blocks acknowledged, read with `get` from a disk that answers, returns
exactly the block's bytes; in every mode of reads and appends, except that
direct reads need direct appends. -/
theorem get_reads_back_acknowledged (directAppendEnable : Bool) {history : PartitionHistory}
    (reached : Relation.ReflTransGen
      (Steps (historyNext directAppendEnable) fun history request =>
        KeepsFilesConsistent directAppendEnable history.files request)
      PartitionHistory.empty history)
    {directIoEnable directIoReadEnable : Bool}
    (readsAsWritten : (directIoEnable && directIoReadEnable) = true → directAppendEnable = true)
    {answers : ReadAnswers} (sound : answers.corrupted = false)
    (noFailure : answers.readFailure = none)
    {record : IndexBlock} {block : Block}
    (member : (record, block) ∈ (indexBlocks history.acknowledged 0).zip history.acknowledged) :
    LocalFileStore.get directIoEnable directIoReadEnable history.files answers record.offset
      record.length = .ok block.data :=
  (stored_of_reachable reached).get (claimed_of_reachable reached) readsAsWritten sound noFailure
    member

/-- A disk that answers every read. -/
def answeringDisk : ReadAnswers :=
  ⟨false, none, [], fun _ => []⟩

/-- Two blocks inserted with plain appends, the second read back with a
plain read from its record. -/
theorem get_reads_back_second_block :
    ∃ history, Relation.ReflTransGen
        (Steps (historyNext false) fun history request =>
          KeepsFilesConsistent false history.files request)
        PartitionHistory.empty history ∧
      history.acknowledged = [⟨1, 3, 3, 0, [1, 2, 3], 0⟩, ⟨2, 1, 1, 0, [4], 1⟩] ∧
      LocalFileStore.get false false history.files answeringDisk
        (IndexBlock.ofBlock ⟨2, 1, 1, 0, [4], 1⟩ 3).offset
        (IndexBlock.ofBlock ⟨2, 1, 1, 0, [4], 1⟩ 3).length = .ok [4] := by
  have replay : checkedRun (historyNext false)
      (fun history request => KeepsFilesConsistent false history.files request)
      PartitionHistory.empty
      [.insert [⟨1, 3, 3, 0, [1, 2, 3], 0⟩, ⟨2, 1, 1, 0, [4], 1⟩] (healthyDisk .appended)] =
        some _ := rfl
  have reached := reflTransGen_of_checkedRun replay
  exact ⟨_, reached, rfl, @get_reads_back_acknowledged false _ reached false false (by decide)
    answeringDisk rfl rfl (IndexBlock.ofBlock ⟨2, 1, 1, 0, [4], 1⟩ 3) ⟨2, 1, 1, 0, [4], 1⟩
    (by decide)⟩

/-- Direct reads need direct appends: with plain appends, a direct `get` of
an acknowledged block that ends in the last, partial page of the data file
fails with the short read `inner_direct_read` refuses, though the file holds
the block.  Such blocks exist whenever the data ends off a page boundary:
the last one is. -/
theorem direct_read_of_plain_tail_fails {history : PartitionHistory}
    (reached : Relation.ReflTransGen
      (Steps (historyNext false) fun history request =>
        KeepsFilesConsistent false history.files request)
      PartitionHistory.empty history)
    {answers : ReadAnswers} (sound : answers.corrupted = false)
    (noFailure : answers.readFailure = none)
    {record : IndexBlock} {block : Block}
    (member : (record, block) ∈ (indexBlocks history.acknowledged 0).zip history.acknowledged)
    (nonempty : block.data ≠ [])
    (lastPage : history.files.pointer / 4096 * 4096 < record.offset + record.length) :
    ∃ expected actual, LocalFileStore.get true true history.files answers record.offset
      record.length = .error (.other (DirectIoError.directRead expected actual).message) :=
  (stored_of_reachable reached).directGet_of_plain (claimed_of_reachable reached) sound noFailure
    member nonempty lastPage

/-- One block of three bytes with plain appends, read directly: the page
read returns the three bytes of the file, which are not a whole page. -/
theorem direct_read_of_plain_block_fails :
    ∃ history, Relation.ReflTransGen
        (Steps (historyNext false) fun history request =>
          KeepsFilesConsistent false history.files request)
        PartitionHistory.empty history ∧
      history.acknowledged = [⟨1, 3, 3, 0, [1, 2, 3], 0⟩] ∧
      ∃ expected actual, LocalFileStore.get true true history.files answeringDisk
        (IndexBlock.ofBlock ⟨1, 3, 3, 0, [1, 2, 3], 0⟩ 0).offset
        (IndexBlock.ofBlock ⟨1, 3, 3, 0, [1, 2, 3], 0⟩ 0).length =
          .error (.other (DirectIoError.directRead expected actual).message) := by
  have replay : checkedRun (historyNext false)
      (fun history request => KeepsFilesConsistent false history.files request)
      PartitionHistory.empty [.insert [⟨1, 3, 3, 0, [1, 2, 3], 0⟩] (healthyDisk .appended)] =
        some _ := rfl
  have reached := reflTransGen_of_checkedRun replay
  exact ⟨_, reached, rfl, @direct_read_of_plain_tail_fails _ reached answeringDisk rfl rfl
    (IndexBlock.ofBlock ⟨1, 3, 3, 0, [1, 2, 3], 0⟩ 0) ⟨1, 3, 3, 0, [1, 2, 3], 0⟩ (by decide)
    (by decide) (by decide)⟩

end Riffle.Local
