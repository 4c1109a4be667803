import Riffle.Local.FileStore

/-!
# The writer slots of an HDFS partition

`HdfsStore::data_insert` (`src/store/hdfs.rs`) lets up to
`partition_write_concurrency` inserts write one partition `P` at once: each
holds a slot `k` of the partition's `SemaphoreWithIndex` and writes only the
files of that slot, `{P}_{k}_{r}.data` and `{P}_{k}_{r}.index`, where `r` is
the slot's retry count.  The slot's `WritingHandler` in
`partition_cached_meta` (key `{P}_{k}`) holds `r` and `data_len`, the offset
the next batch's index records count from.

An insert on a slot no insert has set up creates the parent directory and
touches the files of retry 0, then caches a default handler.  It appends the
blocks' bytes and then their index records, and on success stores the offset
after the batch as `data_len`.  When either append fails, after writing any
prefix of its bytes, the handler moves to retry `r + 1` with `data_len` 0 and
the files of the new retry are touched.  A failed retry is abandoned, never
repaired.

An insert holds its slot from before it reads the handler until it returns,
and reads or writes nothing of another slot, so the inserts on one slot run
one after another and those on different slots commute: the model takes an
insert as one step on the partition.  `Riffle.Hdfs.Insert` runs this model
together with the permits of `Riffle.Hdfs.WriteConcurrency` and proves what
the reduction rests on.  A file is named by its slot, its retry
and its kind, which the file names `{P}_{k}_{r}.data` and `.index` spell
without clashes.

`SlotKept` is what every slot keeps: no file of a later retry exists yet, and
the files of the current retry store, in order, the blocks of the inserts
that wrote them, with `data_len` the length of their bytes (the local store's
`Stored` for plain appends).  Inserts keep it when each batch's declared
lengths are its data lengths and its offsets fit `i64` (`BlocksFit`), with
failures at any point.  Whatever the blocks, a failed write moves its slot to
the next retry with `data_len` 0, and no insert changes a file of an earlier
retry.
-/

namespace Riffle.Hdfs

open Riffle.Local Riffle.Store Riffle.Transition

/-! ## The model -/

/-- The two files of a retry. -/
inductive FileKind where
  | data
  | index
  deriving DecidableEq, Repr

/-- The file `{P}_{slot}_{retry}.data` or `{P}_{slot}_{retry}.index`. -/
structure SlotFile where
  slot : Nat
  retry : Nat
  kind : FileKind
  deriving DecidableEq, Repr

/-- `WritingHandler`, without `is_file_created`, which nothing reads. -/
structure WritingHandler where
  dataLen : Int
  retryTime : Nat
  deriving DecidableEq, Repr

/-- `WritingHandler::default()`. -/
def WritingHandler.default : WritingHandler :=
  ⟨0, 0⟩

/-- One partition of `HdfsStore`: the store's `health`, whether
`app_remote_clients` holds the partition's app, the handlers of the
partition's slots in `partition_cached_meta`, and the partition's files on
HDFS (`none` for a file that does not exist). -/
structure HdfsPartition where
  health : Bool
  hasRemoteClient : Bool
  partitionCachedMeta : Nat → Option WritingHandler
  files : SlotFile → Option (List UInt8)

/-- A partition no insert has reached. -/
def HdfsPartition.fresh (health hasRemoteClient : Bool) : HdfsPartition :=
  ⟨health, hasRemoteClient, fun _ => none, fun _ => none⟩

/-- How an HDFS `touch` ends: `Ok` with the file empty (created, or
truncated, as `hdrs` opens it for writing), or an error, after which the file
may have been created empty or left as it was. -/
inductive TouchOutcome where
  | touched
  | failed (error : WorkerError) (created : Bool)
  deriving DecidableEq, Repr

namespace HdfsDelegator

/-- `touch`. -/
def touch (files : SlotFile → Option (List UInt8)) (file : SlotFile) :
    TouchOutcome → (SlotFile → Option (List UInt8)) × Except WorkerError Unit
  | .touched => (Function.update files file (some []), .ok ())
  | .failed error true => (Function.update files file (some []), .error error)
  | .failed error false => (files, .error error)

/-- `append`: HDFS appends only to a file that exists, and there the outcome
says how much of the data lands; a missing file gives the delegator's
not-found error. -/
def append (files : SlotFile → Option (List UInt8)) (file : SlotFile) (data : BytesWrapper)
    (outcome : AppendOutcome) : (SlotFile → Option (List UInt8)) × Except WorkerError Unit :=
  match files file, outcome with
  | none, _ => (files, .error .dirOrFileNotFound)
  | some bytes, .appended => (Function.update files file (some (bytes ++ data.freeze)), .ok ())
  | some bytes, .failed error written =>
      (Function.update files file (some (bytes ++ data.freeze.take written)), .error error)

end HdfsDelegator

/-- What the partition's semaphore and HDFS answer one `data_insert`. -/
structure HdfsAnswers where
  /-- `permit.get_index()`: the slot the insert holds. -/
  slot : Nat
  createDir : Except WorkerError Unit
  touchData : TouchOutcome
  touchIndex : TouchOutcome
  dataAppend : AppendOutcome
  indexAppend : AppendOutcome
  /-- The touches of the next retry's files after a failed write. -/
  retryTouchData : TouchOutcome
  retryTouchIndex : TouchOutcome

namespace HdfsPartition

/-- The slot's retry count; 0 for a slot no insert has set up. -/
def retryOf (store : HdfsPartition) (slot : Nat) : Nat :=
  ((store.partitionCachedMeta slot).map WritingHandler.retryTime).getD 0

/-- The slot's `data_len`; 0 for a slot no insert has set up. -/
def nextOffsetOf (store : HdfsPartition) (slot : Nat) : Int :=
  ((store.partitionCachedMeta slot).map WritingHandler.dataLen).getD 0

/-- Cache a handler for the slot. -/
def setMeta (store : HdfsPartition) (slot : Nat) (handler : WritingHandler) : HdfsPartition :=
  { store with partitionCachedMeta := Function.update store.partitionCachedMeta slot (some handler) }

/-- The `match` of `data_insert` on the slot's handler, giving its
`data_len` and `retry_time`; for a slot no insert has set up, the parent
directory and the files of retry 0 are made first and a default handler is
cached. -/
def slotHandler (store : HdfsPartition) (answers : HdfsAnswers) :
    HdfsPartition × Except WorkerError (Int × Nat) :=
  match store.partitionCachedMeta answers.slot with
  | some handler => (store, .ok (handler.dataLen, handler.retryTime))
  | none =>
      match answers.createDir with
      | .error error => (store, .error error)
      | .ok () =>
          let data := HdfsDelegator.touch store.files ⟨answers.slot, 0, .data⟩ answers.touchData
          match data.2 with
          | .error error => ({ store with files := data.1 }, .error error)
          | .ok () =>
              let index := HdfsDelegator.touch data.1 ⟨answers.slot, 0, .index⟩ answers.touchIndex
              match index.2 with
              | .error error => ({ store with files := index.1 }, .error error)
              | .ok () =>
                  ({ store with files := index.1 }.setMeta answers.slot WritingHandler.default,
                    .ok (0, 0))

/-- The error path of `data_insert` after a failed write: an out-of-memory
error marks the store unhealthy; the slot's handler moves to the next retry
with `data_len` 0 (`reset_offset(0)` and `inc_retry_time()`), and the new
retry's files are touched.  The write's error is returned, unless a touch
fails first. -/
def retryAfter (store : HdfsPartition) (answers : HdfsAnswers) (error : WorkerError) :
    HdfsPartition × Except WorkerError Unit :=
  let marked := { store with health := store.health && !error.isOutOfMemory }
  match marked.partitionCachedMeta answers.slot with
  | none => (marked, .error .appHasBeenPurged)
  | some handler =>
      let retried := marked.setMeta answers.slot
        { handler with dataLen := 0, retryTime := handler.retryTime + 1 }
      let data := HdfsDelegator.touch retried.files ⟨answers.slot, handler.retryTime + 1, .data⟩
        answers.retryTouchData
      match data.2 with
      | .error touchError => ({ retried with files := data.1 }, .error touchError)
      | .ok () =>
          let index := HdfsDelegator.touch data.1 ⟨answers.slot, handler.retryTime + 1, .index⟩
            answers.retryTouchIndex
          match index.2 with
          | .error touchError => ({ retried with files := index.1 }, .error touchError)
          | .ok () => ({ retried with files := index.1 }, .error error)

end HdfsPartition

namespace HdfsStore

/-- `HdfsStore::write_data_and_index`: the data append, then the index
append once the data append succeeded. -/
def writeDataAndIndex (files : SlotFile → Option (List UInt8)) (dataFilePath : SlotFile)
    (dataBytesHolder : BytesWrapper) (indexFilePath : SlotFile) (indexBytesHolder : BytesWrapper)
    (dataAppend indexAppend : AppendOutcome) :
    (SlotFile → Option (List UInt8)) × Except WorkerError Unit :=
  let data := HdfsDelegator.append files dataFilePath dataBytesHolder dataAppend
  match data.2 with
  | .error error => (data.1, .error error)
  | .ok () => HdfsDelegator.append data.1 indexFilePath indexBytesHolder indexAppend

/-- The rest of `HdfsStore::data_insert` once the slot's `data_len` and
retry are known: the batch's files at that offset, written to the retry's
files; on success the offset after the batch becomes `data_len`, on failure
the slot moves to the next retry. -/
def writeBatch (store : HdfsPartition) (blocks : List Block) (answers : HdfsAnswers)
    (nextOffset : Int) (retryTime : Nat) : HdfsPartition × Except WorkerError Unit :=
  let format := createShuffleFormat blocks nextOffset
  let written := writeDataAndIndex store.files ⟨answers.slot, retryTime, .data⟩ format.data
    ⟨answers.slot, retryTime, .index⟩ format.index answers.dataAppend answers.indexAppend
  let afterWrite := { store with files := written.1 }
  match written.2 with
  | .error error => afterWrite.retryAfter answers error
  | .ok () =>
      match afterWrite.partitionCachedMeta answers.slot with
      | none => (afterWrite, .error .appHasBeenPurged)
      | some handler =>
          (afterWrite.setMeta answers.slot { handler with dataLen := format.offset }, .ok ())

/-- `HdfsStore::data_insert` of a batch on one partition, in the slot the
answers name. -/
def dataInsert (store : HdfsPartition) (blocks : List Block) (answers : HdfsAnswers) :
    HdfsPartition × Except WorkerError Unit :=
  if !store.health then (store, .error .hdfsUnhealthy)
  else if !store.hasRemoteClient then (store, .error .appHasBeenPurged)
  else
    let setUp := store.slotHandler answers
    match setUp.2 with
    | .error error => (setUp.1, .error error)
    | .ok (nextOffset, retryTime) => writeBatch setUp.1 blocks answers nextOffset retryTime

end HdfsStore

/-- One `data_insert` of a batch, with the answers it gets. -/
structure HdfsInsert where
  blocks : List Block
  answers : HdfsAnswers

/-- The partition after one insert. -/
def next (store : HdfsPartition) (insert : HdfsInsert) : Option HdfsPartition :=
  some (HdfsStore.dataInsert store insert.blocks insert.answers).1

/-- Batches whose declared lengths are their data lengths, whose records fit
their types and whose offsets stay below `2^63`, counted from the slot's
`data_len`. -/
def KeepsBlocksFit (store : HdfsPartition) (insert : HdfsInsert) : Prop :=
  BlocksFit (store.nextOffsetOf insert.answers.slot) insert.blocks

instance (store : HdfsPartition) (insert : HdfsInsert) :
    Decidable (KeepsBlocksFit store insert) :=
  inferInstanceAs (Decidable (BlocksFit _ _))

/-! ## Which files a call changes -/

/-- `files'` differs from `files` at most in the files of one retry of one
slot. -/
def ChangesOnly (slot retry : Nat) (files files' : SlotFile → Option (List UInt8)) : Prop :=
  ∀ file : SlotFile, (file.slot ≠ slot ∨ file.retry ≠ retry) → files' file = files file

/-- What touches do: each file is as it was, or is a file of one retry of one
slot and is now empty. -/
def Touches (slot retry : Nat) (files files' : SlotFile → Option (List UInt8)) : Prop :=
  ∀ file : SlotFile, files' file = files file ∨
    file.slot = slot ∧ file.retry = retry ∧ files' file = some []

section Changes

variable {slot retry : Nat} {files middle files' : SlotFile → Option (List UInt8)}

theorem ChangesOnly.trans (first : ChangesOnly slot retry files middle)
    (second : ChangesOnly slot retry middle files') : ChangesOnly slot retry files files' :=
  fun file away => (second file away).trans (first file away)

theorem Touches.trans (first : Touches slot retry files middle)
    (second : Touches slot retry middle files') : Touches slot retry files files' := by
  intro file
  rcases second file with same | ⟨atSlot, atRetry, emptied⟩
  · rw [same]
    exact first file
  · exact Or.inr ⟨atSlot, atRetry, emptied⟩

theorem Touches.changesOnly (touches : Touches slot retry files files') :
    ChangesOnly slot retry files files' := by
  intro file away
  rcases touches file with same | ⟨atSlot, atRetry, -⟩
  · exact same
  · rcases away with otherSlot | otherRetry
    · exact absurd atSlot otherSlot
    · exact absurd atRetry otherRetry

/-- A touched file that did not exist is empty now, or still missing. -/
theorem Touches.getD_eq_nil (touches : Touches slot retry files files') {file : SlotFile}
    (absent : files file = none) : (files' file).getD [] = [] := by
  rcases touches file with same | ⟨-, -, emptied⟩
  · rw [same, absent, Option.getD_none]
  · rw [emptied, Option.getD_some]

end Changes

namespace HdfsDelegator

variable {files : SlotFile → Option (List UInt8)} {file : SlotFile}

theorem touches_touch (files : SlotFile → Option (List UInt8)) (file : SlotFile)
    (outcome : TouchOutcome) :
    Touches file.slot file.retry files (touch files file outcome).1 := by
  intro other
  by_cases same : other = file
  · subst same
    cases outcome with
    | touched => exact Or.inr ⟨rfl, rfl, Function.update_self _ _ _⟩
    | failed error created =>
        cases created with
        | true => exact Or.inr ⟨rfl, rfl, Function.update_self _ _ _⟩
        | false => exact Or.inl rfl
  · left
    cases outcome with
    | touched => exact Function.update_of_ne same _ _
    | failed error created =>
        cases created with
        | true => exact Function.update_of_ne same _ _
        | false => rfl

/-- A touch that returns `Ok` leaves the file empty. -/
theorem touch_ok {outcome : TouchOutcome} (succeeded : (touch files file outcome).2 = .ok ()) :
    (touch files file outcome).1 file = some [] := by
  cases outcome with
  | touched => exact Function.update_self _ _ _
  | failed error created => cases created <;> cases succeeded

theorem changesOnly_append (files : SlotFile → Option (List UInt8)) (file : SlotFile)
    (data : BytesWrapper) (outcome : AppendOutcome) :
    ChangesOnly file.slot file.retry files (append files file data outcome).1 := by
  intro other away
  have different : other ≠ file := by
    rintro rfl
    rcases away with otherSlot | otherRetry
    · exact otherSlot rfl
    · exact otherRetry rfl
  unfold append
  split
  · rfl
  · exact Function.update_of_ne different _ _
  · exact Function.update_of_ne different _ _

/-- An append that returns `Ok` found the file and added all the data to
it. -/
theorem append_ok {data : BytesWrapper} {outcome : AppendOutcome}
    (succeeded : (append files file data outcome).2 = .ok ()) :
    ∃ bytes, files file = some bytes ∧
      (append files file data outcome).1 = Function.update files file (some (bytes ++ data.freeze)) := by
  unfold append at succeeded ⊢
  split at succeeded
  · cases succeeded
  · next bytes found => exact ⟨bytes, found, rfl⟩
  · cases succeeded

end HdfsDelegator

namespace HdfsStore

open HdfsDelegator

variable {files : SlotFile → Option (List UInt8)} {slot retry : Nat}
  {dataBytesHolder indexBytesHolder : BytesWrapper} {dataAppend indexAppend : AppendOutcome}

theorem changesOnly_writeDataAndIndex :
    ChangesOnly slot retry files (writeDataAndIndex files ⟨slot, retry, .data⟩ dataBytesHolder
      ⟨slot, retry, .index⟩ indexBytesHolder dataAppend indexAppend).1 := by
  unfold writeDataAndIndex
  dsimp only
  split
  · exact changesOnly_append files ⟨slot, retry, .data⟩ _ _
  · exact (changesOnly_append files ⟨slot, retry, .data⟩ _ _).trans
      (changesOnly_append _ ⟨slot, retry, .index⟩ _ _)

/-- A write that returns `Ok` found both files and added all of each
holder's bytes to its file. -/
theorem writeDataAndIndex_ok
    (succeeded : (writeDataAndIndex files ⟨slot, retry, .data⟩ dataBytesHolder
      ⟨slot, retry, .index⟩ indexBytesHolder dataAppend indexAppend).2 = .ok ()) :
    ∃ dataBytes indexBytes, files ⟨slot, retry, .data⟩ = some dataBytes ∧
      files ⟨slot, retry, .index⟩ = some indexBytes ∧
      (writeDataAndIndex files ⟨slot, retry, .data⟩ dataBytesHolder
        ⟨slot, retry, .index⟩ indexBytesHolder dataAppend indexAppend).1 =
        Function.update (Function.update files ⟨slot, retry, .data⟩
            (some (dataBytes ++ dataBytesHolder.freeze)))
          ⟨slot, retry, .index⟩ (some (indexBytes ++ indexBytesHolder.freeze)) := by
  unfold writeDataAndIndex at succeeded ⊢
  dsimp only at succeeded ⊢
  split at succeeded
  · cases succeeded
  · next dataWritten =>
      obtain ⟨dataBytes, dataFound, dataFile⟩ := append_ok dataWritten
      obtain ⟨indexBytes, indexFound, indexFile⟩ := append_ok succeeded
      rw [dataFile, Function.update_of_ne (by simp)] at indexFound
      exact ⟨dataBytes, indexBytes, dataFound, indexFound, by rw [indexFile, dataFile]⟩

end HdfsStore

/-! ## What each step of an insert can do -/

namespace HdfsPartition

open HdfsDelegator

variable {store : HdfsPartition} {slot : Nat} {handler : WritingHandler}

@[simp]
theorem setMeta_files (store : HdfsPartition) (slot : Nat) (handler : WritingHandler) :
    (store.setMeta slot handler).files = store.files :=
  rfl

@[simp]
theorem setMeta_partitionCachedMeta (store : HdfsPartition) (slot : Nat) (handler : WritingHandler) :
    (store.setMeta slot handler).partitionCachedMeta =
      Function.update store.partitionCachedMeta slot (some handler) :=
  rfl

theorem retryOf_of_found (found : store.partitionCachedMeta slot = some handler) :
    store.retryOf slot = handler.retryTime := by
  rw [retryOf, found, Option.map_some, Option.getD_some]

theorem retryOf_of_absent (absent : store.partitionCachedMeta slot = none) :
    store.retryOf slot = 0 := by
  rw [retryOf, absent, Option.map_none, Option.getD_none]

theorem nextOffsetOf_of_found (found : store.partitionCachedMeta slot = some handler) :
    store.nextOffsetOf slot = handler.dataLen := by
  rw [nextOffsetOf, found, Option.map_some, Option.getD_some]

theorem nextOffsetOf_of_absent (absent : store.partitionCachedMeta slot = none) :
    store.nextOffsetOf slot = 0 := by
  rw [nextOffsetOf, absent, Option.map_none, Option.getD_none]

theorem retryOf_setMeta_self (store : HdfsPartition) (slot : Nat) (handler : WritingHandler) :
    (store.setMeta slot handler).retryOf slot = handler.retryTime :=
  retryOf_of_found (Function.update_self _ _ _)

theorem retryOf_setMeta_of_ne {other : Nat} (different : other ≠ slot) (handler : WritingHandler) :
    (store.setMeta slot handler).retryOf other = store.retryOf other := by
  rw [retryOf, setMeta_partitionCachedMeta, Function.update_of_ne different, retryOf]

/-- What the set-up of a slot can do: return the handler it finds, or, for
a slot no insert has set up, touch the files of retry 0 and then either fail
or cache a default handler with both files empty. -/
theorem slotHandler_cases (store : HdfsPartition) (answers : HdfsAnswers) :
    (∃ handler, store.partitionCachedMeta answers.slot = some handler ∧
        store.slotHandler answers = (store, .ok (handler.dataLen, handler.retryTime))) ∨
      store.partitionCachedMeta answers.slot = none ∧
        ∃ files, Touches answers.slot 0 store.files files ∧
          ((∃ error, store.slotHandler answers = ({ store with files }, .error error)) ∨
            files ⟨answers.slot, 0, .data⟩ = some [] ∧ files ⟨answers.slot, 0, .index⟩ = some [] ∧
              store.slotHandler answers =
                ({ store with files }.setMeta answers.slot WritingHandler.default, .ok (0, 0))) := by
  have dataTouched := touches_touch store.files ⟨answers.slot, 0, .data⟩ answers.touchData
  unfold slotHandler
  dsimp only
  split
  · next handler found => exact Or.inl ⟨handler, found, rfl⟩
  · next absent =>
      refine Or.inr ⟨absent, ?_⟩
      split
      · next error _ => exact ⟨store.files, fun _ => Or.inl rfl, Or.inl ⟨error, rfl⟩⟩
      split
      · next error _ => exact ⟨_, dataTouched, Or.inl ⟨error, rfl⟩⟩
      · next dataOk =>
          have indexTouched := touches_touch
            (touch store.files ⟨answers.slot, 0, .data⟩ answers.touchData).1
            ⟨answers.slot, 0, .index⟩ answers.touchIndex
          split
          · next error _ => exact ⟨_, dataTouched.trans indexTouched, Or.inl ⟨error, rfl⟩⟩
          · next indexOk =>
              refine ⟨_, dataTouched.trans indexTouched, Or.inr ⟨?_, touch_ok indexOk, rfl⟩⟩
              -- the index touch leaves the data file as the data touch left it
              rcases indexTouched ⟨answers.slot, 0, .data⟩ with same | ⟨-, -, emptied⟩
              · rw [same]
                exact touch_ok dataOk
              · exact emptied

/-- A set-up that returns a slot's offset and retry leaves that handler
cached, and the offset is the slot's `data_len` before it. -/
theorem slotHandler_ok {answers : HdfsAnswers} {nextOffset : Int} {retryTime : Nat}
    (setUpOk : (store.slotHandler answers).2 = .ok (nextOffset, retryTime)) :
    (store.slotHandler answers).1.partitionCachedMeta answers.slot = some ⟨nextOffset, retryTime⟩ ∧
      store.nextOffsetOf answers.slot = nextOffset := by
  rcases slotHandler_cases store answers with
    ⟨handler, found, setUp⟩ | ⟨absent, files, -, ⟨error, setUp⟩ | ⟨-, -, setUp⟩⟩
  · rw [setUp] at setUpOk ⊢
    cases setUpOk
    exact ⟨found, nextOffsetOf_of_found found⟩
  · rw [setUp] at setUpOk
    cases setUpOk
  · rw [setUp] at setUpOk ⊢
    cases setUpOk
    exact ⟨Function.update_self _ _ _, nextOffsetOf_of_absent absent⟩

/-- What the error path can do: with no handler it only marks the store;
with one it moves the slot to the next retry, touches that retry's files and
returns an error. -/
theorem retryAfter_cases (store : HdfsPartition) (answers : HdfsAnswers) (error : WorkerError) :
    (store.partitionCachedMeta answers.slot = none ∧
        store.retryAfter answers error =
          ({ store with health := store.health && !error.isOutOfMemory }, .error .appHasBeenPurged)) ∨
      ∃ handler files, store.partitionCachedMeta answers.slot = some handler ∧
        Touches answers.slot (handler.retryTime + 1) store.files files ∧
        (store.retryAfter answers error).1 =
          { store with health := store.health && !error.isOutOfMemory, files }.setMeta answers.slot
            ⟨0, handler.retryTime + 1⟩ ∧
        (store.retryAfter answers error).2 ≠ .ok () := by
  unfold retryAfter
  dsimp only
  split
  · next absent => exact Or.inl ⟨absent, rfl⟩
  · next handler found =>
      have dataTouched := touches_touch store.files
        ⟨answers.slot, handler.retryTime + 1, .data⟩ answers.retryTouchData
      have indexTouched := touches_touch
        (touch store.files ⟨answers.slot, handler.retryTime + 1, .data⟩ answers.retryTouchData).1
        ⟨answers.slot, handler.retryTime + 1, .index⟩ answers.retryTouchIndex
      refine Or.inr ⟨handler, ?_⟩
      split
      · exact ⟨_, found, dataTouched, rfl, nofun⟩
      split
      · exact ⟨_, found, dataTouched.trans indexTouched, rfl, nofun⟩
      · exact ⟨_, found, dataTouched.trans indexTouched, rfl, nofun⟩

end HdfsPartition

namespace HdfsStore

open HdfsPartition

variable {store : HdfsPartition} {answers : HdfsAnswers} {handler : WritingHandler}

/-- What the write of a batch into a set-up slot can do: change the files of
the slot's retry and take the error path, or add the batch's bytes and
records to both files and store the offset after it. -/
theorem writeBatch_cases (found : store.partitionCachedMeta answers.slot = some handler)
    (blocks : List Block) :
    (∃ files error, ChangesOnly answers.slot handler.retryTime store.files files ∧
        writeBatch store blocks answers handler.dataLen handler.retryTime =
          { store with files }.retryAfter answers error) ∨
      ∃ dataBytes indexBytes,
        store.files ⟨answers.slot, handler.retryTime, .data⟩ = some dataBytes ∧
        store.files ⟨answers.slot, handler.retryTime, .index⟩ = some indexBytes ∧
        writeBatch store blocks answers handler.dataLen handler.retryTime =
          ({ store with
              files := Function.update
                (Function.update store.files ⟨answers.slot, handler.retryTime, .data⟩
                  (some (dataBytes ++ blockData blocks)))
                ⟨answers.slot, handler.retryTime, .index⟩
                (some (indexBytes ++ (indexBlocks blocks handler.dataLen).flatMap IndexCodec.encode)) }.setMeta
            answers.slot ⟨offsetAfter blocks handler.dataLen, handler.retryTime⟩, .ok ()) := by
  unfold writeBatch
  dsimp only
  split
  · next error _ => exact Or.inl ⟨_, error, changesOnly_writeDataAndIndex, rfl⟩
  · next succeeded =>
      obtain ⟨dataBytes, indexBytes, dataFound, indexFound, written⟩ :=
        writeDataAndIndex_ok succeeded
      refine Or.inr ⟨dataBytes, indexBytes, dataFound, indexFound, ?_⟩
      rw [written]
      rw [found]
      rfl

end HdfsStore

/-! ## What every slot keeps -/

/-- The files of a slot's current retry as the files of a local partition,
with `data_len` for the pointer; a missing file reads as empty. -/
def HdfsPartition.currentFiles (store : HdfsPartition) (slot : Nat) (handler : WritingHandler) :
    PartitionFiles :=
  ⟨none, handler.dataLen, (store.files ⟨slot, handler.retryTime, .data⟩).getD [],
    (store.files ⟨slot, handler.retryTime, .index⟩).getD []⟩

/-- What a slot keeps: no file of a retry after the current one exists yet,
and the files of the current retry store the blocks of the inserts that
wrote them. -/
structure SlotKept (store : HdfsPartition) (slot : Nat) : Prop where
  laterAbsent : ∀ retry kind, store.retryOf slot < retry → store.files ⟨slot, retry, kind⟩ = none
  stored : ∀ handler, store.partitionCachedMeta slot = some handler →
    ∃ written, Stored false (store.currentFiles slot handler) written

section Kept

open HdfsPartition HdfsStore

variable {store store' : HdfsPartition} {slot : Nat} {answers : HdfsAnswers}
  {handler : WritingHandler}

theorem slotKept_fresh (health hasRemoteClient : Bool) (slot : Nat) :
    SlotKept (HdfsPartition.fresh health hasRemoteClient) slot where
  laterAbsent := fun _ _ _ => rfl
  stored := fun _ found => by cases found

/-- A slot keeps what it keeps while its handler and its files stay. -/
theorem SlotKept.congr (kept : SlotKept store slot)
    (sameMeta : store'.partitionCachedMeta slot = store.partitionCachedMeta slot)
    (sameFiles : ∀ retry kind, store'.files ⟨slot, retry, kind⟩ = store.files ⟨slot, retry, kind⟩) :
    SlotKept store' slot := by
  have sameRetry : store'.retryOf slot = store.retryOf slot := by
    rw [retryOf, retryOf, sameMeta]
  refine ⟨fun retry kind later => ?_, fun handler found => ?_⟩
  · rw [sameFiles]
    exact kept.laterAbsent retry kind (sameRetry ▸ later)
  · have current : store'.currentFiles slot handler = store.currentFiles slot handler := by
      simp only [currentFiles, sameFiles]
    rw [current]
    exact kept.stored handler (sameMeta ▸ found)

/-- Files that were missing and were at most touched read as empty, which is
what a fresh retry stores. -/
theorem stored_touched {files : SlotFile → Option (List UInt8)} {retry : Nat}
    (touches : Touches slot retry store.files files)
    (dataAbsent : store.files ⟨slot, retry, .data⟩ = none)
    (indexAbsent : store.files ⟨slot, retry, .index⟩ = none) :
    Stored false ({ store with files }.currentFiles slot ⟨0, retry⟩) [] := by
  have dataEmpty := touches.getD_eq_nil dataAbsent
  have indexEmpty := touches.getD_eq_nil indexAbsent
  have current : { store with files }.currentFiles slot ⟨0, retry⟩ = PartitionFiles.empty := by
    simp only [currentFiles, dataEmpty, indexEmpty]
    rfl
  rw [current]
  exact stored_empty false

/-- The set-up keeps the slot: a handler it finds stays, touches of retry 0
leave a slot without handler with nothing to keep, and a handler it caches
finds both files empty. -/
theorem SlotKept.slotHandler (kept : SlotKept store answers.slot) :
    SlotKept (store.slotHandler answers).1 answers.slot := by
  rcases slotHandler_cases store answers with
    ⟨handler, -, setUp⟩ | ⟨absent, files, touches, ⟨error, setUp⟩ | ⟨dataEmpty, indexEmpty, setUp⟩⟩
  · rw [setUp]
    exact kept
  · rw [setUp]
    have noRetry : ({ store with files } : HdfsPartition).retryOf answers.slot = 0 :=
      retryOf_of_absent absent
    refine ⟨fun retry kind later => ?_, fun handler found => by cases absent.symm.trans found⟩
    rw [noRetry] at later
    show files _ = none
    rw [touches.changesOnly ⟨answers.slot, retry, kind⟩ (Or.inr (Nat.ne_of_gt later))]
    exact kept.laterAbsent retry kind (by rw [retryOf_of_absent absent]; exact later)
  · rw [setUp]
    refine ⟨fun retry kind later => ?_, fun handler found => ?_⟩
    · rw [retryOf_setMeta_self] at later
      have laterThanZero : retry ≠ 0 := Nat.ne_of_gt later
      rw [setMeta_files]
      show files _ = none
      rw [touches.changesOnly ⟨answers.slot, retry, kind⟩ (Or.inr laterThanZero)]
      exact kept.laterAbsent retry kind (by rw [retryOf_of_absent absent]; exact later)
    · rw [setMeta_partitionCachedMeta, Function.update_self, Option.some.injEq] at found
      subst found
      have current : ({ store with files }.setMeta answers.slot WritingHandler.default).currentFiles
          answers.slot WritingHandler.default = PartitionFiles.empty := by
        simp only [currentFiles, WritingHandler.default, setMeta_files, dataEmpty, indexEmpty]
        rfl
      exact ⟨[], current ▸ stored_empty false⟩

/-- The error path puts the slot on a retry whose files did not exist, so it
keeps the slot whatever the failed write left in the files of the retry
before. -/
theorem slotKept_retryAfter (error : WorkerError)
    (laterAbsent : ∀ retry kind, store.retryOf answers.slot < retry →
      store.files ⟨answers.slot, retry, kind⟩ = none) :
    SlotKept (store.retryAfter answers error).1 answers.slot := by
  rcases retryAfter_cases store answers error with
    ⟨absent, retried⟩ | ⟨handler, files, found, touches, retried, -⟩
  · rw [retried]
    exact ⟨laterAbsent, fun handler found => by cases absent.symm.trans found⟩
  · have current := retryOf_of_found found
    rw [retried]
    refine ⟨fun retry kind later => ?_, fun handler' found' => ?_⟩
    · rw [retryOf_setMeta_self] at later
      have afterNext : handler.retryTime + 1 < retry := later
      show files _ = none
      rw [touches.changesOnly ⟨answers.slot, retry, kind⟩ (Or.inr (Nat.ne_of_gt afterNext))]
      exact laterAbsent retry kind (by omega)
    · have newHandler : handler' = ⟨0, handler.retryTime + 1⟩ := by
        simpa using found'.symm
      subst newHandler
      exact ⟨[], stored_touched touches
        (laterAbsent _ _ (by rw [current]; exact Nat.lt_succ_self _))
        (laterAbsent _ _ (by rw [current]; exact Nat.lt_succ_self _))⟩

/-- The write of a batch that fits keeps the slot: on success the batch's
blocks are stored after the others, on failure the slot moves on to a fresh
retry. -/
theorem SlotKept.writeBatch (kept : SlotKept store answers.slot)
    (found : store.partitionCachedMeta answers.slot = some handler) {blocks : List Block}
    (fit : BlocksFit handler.dataLen blocks) :
    SlotKept (writeBatch store blocks answers handler.dataLen handler.retryTime).1 answers.slot := by
  have current := retryOf_of_found found
  rcases writeBatch_cases found blocks with
    ⟨files, error, changes, written⟩ | ⟨dataBytes, indexBytes, dataFound, indexFound, written⟩
  · -- the write changed only the files of the current retry
    rw [written]
    refine slotKept_retryAfter error fun retry kind later => ?_
    show files _ = none
    rw [changes ⟨answers.slot, retry, kind⟩ (Or.inr (Nat.ne_of_gt (current ▸ later)))]
    exact kept.laterAbsent retry kind later
  · rw [written]
    refine ⟨fun retry kind later => ?_, fun handler' found' => ?_⟩
    · rw [retryOf_setMeta_self] at later
      have different : retry ≠ handler.retryTime := Nat.ne_of_gt later
      simp only [setMeta_files]
      rw [Function.update_of_ne (by simp [different]), Function.update_of_ne (by simp [different])]
      exact kept.laterAbsent retry kind (current ▸ later)
    · rw [setMeta_partitionCachedMeta, Function.update_self, Option.some.injEq] at found'
      subst found'
      obtain ⟨written, stored⟩ := kept.stored handler found
      have before : store.currentFiles answers.slot handler =
          ⟨none, handler.dataLen, dataBytes, indexBytes⟩ := by
        simp only [currentFiles, dataFound, indexFound, Option.getD_some]
      rw [before] at stored
      have plain : dataBytes = blockData written := stored.data
      have holds : DataFileHolds false (dataBytes ++ blockData blocks) (blockData (written ++ blocks)) := by
        show dataBytes ++ blockData blocks = blockData (written ++ blocks)
        rw [plain, blockData_append]
      have extended := stored.extend fit holds
      refine ⟨written ++ blocks, ?_⟩
      have after : ({ store with
          files := Function.update
            (Function.update store.files ⟨answers.slot, handler.retryTime, .data⟩
              (some (dataBytes ++ blockData blocks)))
            ⟨answers.slot, handler.retryTime, .index⟩
            (some (indexBytes ++ (indexBlocks blocks handler.dataLen).flatMap IndexCodec.encode)) }.setMeta
          answers.slot ⟨offsetAfter blocks handler.dataLen, handler.retryTime⟩).currentFiles answers.slot
            ⟨offsetAfter blocks handler.dataLen, handler.retryTime⟩ =
          ⟨none, offsetAfter blocks handler.dataLen, dataBytes ++ blockData blocks,
            indexBytes ++ (indexBlocks blocks handler.dataLen).flatMap IndexCodec.encode⟩ := by
        simp [currentFiles]
      rw [after]
      exact extended

/-- An insert whose batch fits keeps its slot. -/
theorem SlotKept.dataInsert (kept : SlotKept store answers.slot) {blocks : List Block}
    (fit : BlocksFit (store.nextOffsetOf answers.slot) blocks) :
    SlotKept (HdfsStore.dataInsert store blocks answers).1 answers.slot := by
  have setUpKept : SlotKept (store.slotHandler answers).1 answers.slot := kept.slotHandler
  unfold HdfsStore.dataInsert
  split_ifs
  · exact kept
  · exact kept
  dsimp only
  split
  · exact setUpKept
  · next nextOffset retryTime setUpOk =>
      -- the handler the set-up returns is cached, and the batch counts from its offset
      obtain ⟨found, offset⟩ := slotHandler_ok setUpOk
      rw [offset] at fit
      exact setUpKept.writeBatch found fit

end Kept

/-! ## What an insert leaves alone -/

/-- `store'` agrees with `store` on every slot but `slot`. -/
def OnlySlot (slot : Nat) (store store' : HdfsPartition) : Prop :=
  ∀ other, other ≠ slot → store'.partitionCachedMeta other = store.partitionCachedMeta other ∧
    ∀ retry kind, store'.files ⟨other, retry, kind⟩ = store.files ⟨other, retry, kind⟩

/-- `store'` keeps every slot's retry or moves it on, and leaves every file of
a retry before its slot's current one as it was. -/
def KeepsEarlier (store store' : HdfsPartition) : Prop :=
  (∀ slot, store.retryOf slot ≤ store'.retryOf slot) ∧
    ∀ file : SlotFile, file.retry < store.retryOf file.slot → store'.files file = store.files file

section Frames

open HdfsPartition HdfsStore

variable {store middle store' : HdfsPartition} {slot : Nat} {answers : HdfsAnswers}
  {blocks : List Block}

theorem OnlySlot.refl (slot : Nat) (store : HdfsPartition) : OnlySlot slot store store :=
  fun _ _ => ⟨rfl, fun _ _ => rfl⟩

theorem OnlySlot.trans (first : OnlySlot slot store middle) (second : OnlySlot slot middle store') :
    OnlySlot slot store store' := by
  intro other different
  obtain ⟨firstMeta, firstFiles⟩ := first other different
  obtain ⟨secondMeta, secondFiles⟩ := second other different
  exact ⟨secondMeta.trans firstMeta, fun retry kind => (secondFiles retry kind).trans (firstFiles retry kind)⟩

theorem onlySlot_of_changesOnly {retry : Nat} (changes : ChangesOnly slot retry store.files store'.files)
    (sameMeta : ∀ other, other ≠ slot →
      store'.partitionCachedMeta other = store.partitionCachedMeta other) :
    OnlySlot slot store store' :=
  fun other different => ⟨sameMeta other different, fun _ _ => changes _ (Or.inl different)⟩

theorem KeepsEarlier.refl (store : HdfsPartition) : KeepsEarlier store store :=
  ⟨fun _ => le_refl _, fun _ _ => rfl⟩

theorem KeepsEarlier.trans (first : KeepsEarlier store middle) (second : KeepsEarlier middle store') :
    KeepsEarlier store store' := by
  refine ⟨fun slot => (first.1 slot).trans (second.1 slot), fun file earlier => ?_⟩
  rw [second.2 file (lt_of_lt_of_le earlier (first.1 file.slot)), first.2 file earlier]

/-- Changes to the files of one retry of one slot, at or after the slot's
current retry, keep every earlier retry's files. -/
theorem keepsEarlier_of_changesOnly {retry : Nat}
    (changes : ChangesOnly slot retry store.files store'.files) (atLeast : store.retryOf slot ≤ retry)
    (retries : ∀ other, store.retryOf other ≤ store'.retryOf other) : KeepsEarlier store store' := by
  refine ⟨retries, fun file earlier => changes file ?_⟩
  by_cases atSlot : file.slot = slot
  · rw [atSlot] at earlier
    exact Or.inr (Nat.ne_of_lt (lt_of_lt_of_le earlier atLeast))
  · exact Or.inl atSlot

theorem changesOnly_update (files : SlotFile → Option (List UInt8)) (file : SlotFile)
    (contents : Option (List UInt8)) :
    ChangesOnly file.slot file.retry files (Function.update files file contents) := by
  intro other away
  refine Function.update_of_ne ?_ _ _
  rintro rfl
  rcases away with otherSlot | otherRetry
  · exact otherSlot rfl
  · exact otherRetry rfl

theorem setMeta_of_ne (store : HdfsPartition) (handler : WritingHandler) {other : Nat}
    (different : other ≠ slot) :
    (store.setMeta slot handler).partitionCachedMeta other = store.partitionCachedMeta other :=
  Function.update_of_ne different _ _

theorem onlySlot_slotHandler : OnlySlot answers.slot store (store.slotHandler answers).1 := by
  rcases slotHandler_cases store answers with
    ⟨handler, -, setUp⟩ | ⟨-, files, touches, ⟨error, setUp⟩ | ⟨-, -, setUp⟩⟩
  · rw [setUp]
    exact OnlySlot.refl _ _
  · rw [setUp]
    exact onlySlot_of_changesOnly touches.changesOnly fun _ _ => rfl
  · rw [setUp]
    exact onlySlot_of_changesOnly touches.changesOnly fun other different =>
      setMeta_of_ne _ _ different

theorem keepsEarlier_slotHandler : KeepsEarlier store (store.slotHandler answers).1 := by
  rcases slotHandler_cases store answers with
    ⟨handler, -, setUp⟩ | ⟨absent, files, touches, ⟨error, setUp⟩ | ⟨-, -, setUp⟩⟩
  · rw [setUp]
    exact KeepsEarlier.refl _
  · rw [setUp]
    exact keepsEarlier_of_changesOnly touches.changesOnly
      (retryOf_of_absent absent).le fun _ => le_refl _
  · rw [setUp]
    refine keepsEarlier_of_changesOnly touches.changesOnly (retryOf_of_absent absent).le
      fun other => ?_
    by_cases atSlot : other = answers.slot
    · rw [atSlot, retryOf_of_absent absent]
      exact Nat.zero_le _
    · rw [retryOf_setMeta_of_ne atSlot]
      rfl

/-- Both frames of the error path: it touches the files of the slot's next
retry and moves only that slot's handler, to that retry. -/
theorem frames_retryAfter (error : WorkerError) :
    OnlySlot answers.slot store (store.retryAfter answers error).1 ∧
      KeepsEarlier store (store.retryAfter answers error).1 := by
  rcases retryAfter_cases store answers error with
    ⟨-, retried⟩ | ⟨handler, files, found, touches, retried, -⟩
  · rw [retried]
    exact ⟨fun _ _ => ⟨rfl, fun _ _ => rfl⟩, ⟨fun _ => le_refl _, fun _ _ => rfl⟩⟩
  · rw [retried]
    refine ⟨onlySlot_of_changesOnly touches.changesOnly fun other different =>
      setMeta_of_ne _ _ different, ?_⟩
    refine keepsEarlier_of_changesOnly touches.changesOnly
      ((retryOf_of_found found).trans_le (Nat.le_succ _)) fun other => ?_
    by_cases atSlot : other = answers.slot
    · rw [atSlot, retryOf_of_found found, retryOf_setMeta_self]
      exact Nat.le_succ _
    · exact (retryOf_setMeta_of_ne atSlot _).ge

/-- Both frames of the write into a set-up slot: it changes the files of the
slot's current retry, then either takes the error path or stores the new
offset in the same retry. -/
theorem frames_writeBatch {handler : WritingHandler}
    (found : store.partitionCachedMeta answers.slot = some handler) :
    OnlySlot answers.slot store (writeBatch store blocks answers handler.dataLen handler.retryTime).1 ∧
      KeepsEarlier store (writeBatch store blocks answers handler.dataLen handler.retryTime).1 := by
  have current := retryOf_of_found found
  rcases writeBatch_cases found blocks with
    ⟨files, error, changes, written⟩ | ⟨dataBytes, indexBytes, -, -, written⟩
  · rw [written]
    obtain ⟨retryOnly, retryEarlier⟩ :
        OnlySlot answers.slot { store with files } ({ store with files }.retryAfter answers error).1 ∧
          KeepsEarlier { store with files } ({ store with files }.retryAfter answers error).1 :=
      frames_retryAfter error
    have writeOnly : OnlySlot answers.slot store { store with files } :=
      onlySlot_of_changesOnly changes fun _ _ => rfl
    have writeEarlier : KeepsEarlier store { store with files } :=
      keepsEarlier_of_changesOnly changes current.le fun _ => le_refl _
    exact ⟨writeOnly.trans retryOnly, writeEarlier.trans retryEarlier⟩
  · rw [written]
    have changes := (changesOnly_update store.files ⟨answers.slot, handler.retryTime, .data⟩
      (some (dataBytes ++ blockData blocks))).trans (changesOnly_update _
        ⟨answers.slot, handler.retryTime, .index⟩
        (some (indexBytes ++ (indexBlocks blocks handler.dataLen).flatMap IndexCodec.encode)))
    refine ⟨onlySlot_of_changesOnly changes fun other different => setMeta_of_ne _ _ different,
      keepsEarlier_of_changesOnly changes current.le fun other => ?_⟩
    by_cases atSlot : other = answers.slot
    · rw [atSlot, current, retryOf_setMeta_self]
    · exact (retryOf_setMeta_of_ne atSlot _).ge

/-- A relation that holds between a partition and its set-up, and between a
set-up partition and the write into the slot, holds across a whole insert
when it is reflexive and transitive. -/
theorem relates_dataInsert {relates : HdfsPartition → HdfsPartition → Prop}
    (refl : ∀ store, relates store store)
    (trans : ∀ {first second third}, relates first second → relates second third →
      relates first third)
    (setUp : ∀ store, relates store (store.slotHandler answers).1)
    (write : ∀ store handler, store.partitionCachedMeta answers.slot = some handler →
      relates store (writeBatch store blocks answers handler.dataLen handler.retryTime).1)
    (store : HdfsPartition) :
    relates store (dataInsert store blocks answers).1 := by
  unfold dataInsert
  split_ifs
  · exact refl store
  · exact refl store
  dsimp only
  split
  · exact setUp store
  · next nextOffset retryTime setUpOk =>
      exact trans (setUp store) (write _ _ (slotHandler_ok setUpOk).1)

theorem onlySlot_dataInsert (store : HdfsPartition) :
    OnlySlot answers.slot store (dataInsert store blocks answers).1 :=
  relates_dataInsert (OnlySlot.refl answers.slot) OnlySlot.trans (fun _ => onlySlot_slotHandler)
    (fun _ _ found => (frames_writeBatch found).1) store

theorem keepsEarlier_dataInsert (store : HdfsPartition) :
    KeepsEarlier store (dataInsert store blocks answers).1 :=
  relates_dataInsert KeepsEarlier.refl KeepsEarlier.trans (fun _ => keepsEarlier_slotHandler)
    (fun _ _ found => (frames_writeBatch found).2) store

/-- An insert into a set-up slot that returns an error either refused before
doing anything or moved the slot to the next retry with `data_len` 0. -/
theorem dataInsert_error_of_found {handler : WritingHandler} {error : WorkerError}
    (found : store.partitionCachedMeta answers.slot = some handler)
    (failed : (dataInsert store blocks answers).2 = .error error) :
    (dataInsert store blocks answers).1 = store ∨
      (dataInsert store blocks answers).1.partitionCachedMeta answers.slot =
        some ⟨0, handler.retryTime + 1⟩ := by
  unfold dataInsert at failed ⊢
  split_ifs at failed ⊢
  · exact Or.inl rfl
  · exact Or.inl rfl
  -- a set-up slot is returned as it is, and the write follows
  obtain ⟨cached, setUp⟩ : ∃ cached, store.partitionCachedMeta answers.slot = some cached ∧
      store.slotHandler answers = (store, .ok (cached.dataLen, cached.retryTime)) := by
    rcases slotHandler_cases store answers with found' | ⟨absent, -⟩
    · exact found'
    · cases found.symm.trans absent
  obtain rfl : handler = cached := Option.some.inj (found.symm.trans setUp.1)
  rw [setUp.2] at failed ⊢
  dsimp only at failed ⊢
  rcases writeBatch_cases found blocks with
    ⟨files, writeError, -, written⟩ | ⟨dataBytes, indexBytes, -, -, written⟩
  · right
    rw [written]
    rcases retryAfter_cases { store with files } answers writeError with
      ⟨absent, -⟩ | ⟨handler', files', found', -, retried, -⟩
    · cases found.symm.trans absent
    · obtain rfl : handler' = handler := Option.some.inj (found'.symm.trans found)
      rw [retried, setMeta_partitionCachedMeta, Function.update_self]
  · rw [written] at failed
    cases failed

end Frames

/-! ## Along every run -/

section Runs

open HdfsPartition HdfsStore

/-- Every slot of a partition reached by inserts whose batches fit keeps its
files. -/
theorem slotKept_of_reachable {health hasRemoteClient : Bool} {store : HdfsPartition}
    (reached : Relation.ReflTransGen (Steps next KeepsBlocksFit)
      (HdfsPartition.fresh health hasRemoteClient) store) (slot : Nat) :
    SlotKept store slot := by
  refine @invariant_of_steps _ _ next KeepsBlocksFit (fun store => ∀ slot, SlotKept store slot) ?_
    _ _ reached (slotKept_fresh health hasRemoteClient) slot
  intro source target insert fit kept fired slot
  cases fired
  by_cases atSlot : slot = insert.answers.slot
  · -- the insert's own slot
    subst atSlot
    exact (kept insert.answers.slot).dataInsert fit
  · -- every other slot is left as it was
    obtain ⟨sameMeta, sameFiles⟩ := onlySlot_dataInsert source slot atSlot
    exact (kept slot).congr sameMeta sameFiles

/-- No run of inserts, whatever their batches, changes a file of a retry
before its slot's current one. -/
theorem keepsEarlier_of_reachable {allowed : HdfsPartition → HdfsInsert → Prop}
    {store later : HdfsPartition} (path : Relation.ReflTransGen (Steps next allowed) store later) :
    KeepsEarlier store later := by
  refine @invariant_of_steps _ _ next allowed (KeepsEarlier store) ?_ _ _ path
    (KeepsEarlier.refl store)
  intro source target insert _ kept fired
  cases fired
  exact kept.trans (keepsEarlier_dataInsert source)

/-- What a reader of a slot's current files finds: a data file of
`data_len` bytes, and an index of whole 40-byte records that follow one
another from offset 0 to `data_len`. -/
theorem SlotKept.current {store : HdfsPartition} {slot : Nat} (kept : SlotKept store slot)
    {handler : WritingHandler} (found : store.partitionCachedMeta slot = some handler) :
    (∀ bytes, store.files ⟨slot, handler.retryTime, .data⟩ = some bytes →
      (bytes.length : Int) = handler.dataLen) ∧
    ∀ bytes, store.files ⟨slot, handler.retryTime, .index⟩ = some bytes →
      ∃ records, decodeIndexFile bytes = some records ∧
        bytes.length = indexBlockSize * records.length ∧ Contiguous records 0 handler.dataLen := by
  obtain ⟨written, stored⟩ := kept.stored handler found
  obtain ⟨decoded, contiguous, pointer, -, plain, -⟩ := stored.indexConsistent
  refine ⟨fun bytes dataFound => ?_, fun bytes indexFound => ?_⟩
  · have dataFile : bytes = blockData written := by
      simpa [currentFiles, dataFound] using plain rfl
    rw [dataFile]
    exact pointer.symm
  · have indexFile : bytes = (indexBlocks written 0).flatMap IndexCodec.encode := by
      simpa [currentFiles, indexFound] using stored.index
    refine ⟨indexBlocks written 0, ?_, ?_, contiguous⟩
    · simpa [currentFiles, indexFound] using decoded
    · rw [indexFile, length_flatMap_encode]

theorem dataInsert_keeps_slot_files {health hasRemoteClient : Bool} {store : HdfsPartition}
    (reached : Relation.ReflTransGen (Steps next KeepsBlocksFit)
      (HdfsPartition.fresh health hasRemoteClient) store) :
    (∀ slot handler, store.partitionCachedMeta slot = some handler →
      (∀ bytes, store.files ⟨slot, handler.retryTime, .data⟩ = some bytes →
        (bytes.length : Int) = handler.dataLen) ∧
      ∀ bytes, store.files ⟨slot, handler.retryTime, .index⟩ = some bytes →
        ∃ records, decodeIndexFile bytes = some records ∧
          bytes.length = indexBlockSize * records.length ∧ Contiguous records 0 handler.dataLen) ∧
    (∀ blocks answers handler error, store.partitionCachedMeta answers.slot = some handler →
      (dataInsert store blocks answers).2 = .error error →
      (dataInsert store blocks answers).1 = store ∨
        (dataInsert store blocks answers).1.partitionCachedMeta answers.slot =
          some ⟨0, handler.retryTime + 1⟩) ∧
    ∀ later, Relation.ReflTransGen (Steps next fun _ _ => True) store later →
      ∀ file : SlotFile, file.retry < store.retryOf file.slot → later.files file = store.files file :=
  ⟨fun slot _ found => (slotKept_of_reachable reached slot).current found,
    fun _ _ _ _ found failed => dataInsert_error_of_found found failed,
    fun _ path => (keepsEarlier_of_reachable path).2⟩

/-- Answers under which every call succeeds, in the given slot. -/
def healthyAnswers (slot : Nat) : HdfsAnswers :=
  ⟨slot, .ok (), .touched, .touched, .appended, .appended, .touched, .touched⟩

/-- The batch of the source's `append_test`: two blocks of ten bytes. -/
def appendTestBlocks : List Block :=
  [⟨0, 10, 200, 0, List.replicate 10 0, 0⟩, ⟨1, 10, 200, 0, List.replicate 10 0, 0⟩]

/-- `append_test`: the batch is written, then its data append fails after
five bytes, then it is written again. -/
def appendTestRun : List HdfsInsert :=
  [⟨appendTestBlocks, healthyAnswers 0⟩,
    ⟨appendTestBlocks, { healthyAnswers 0 with dataAppend := .failed .futureExecTimeout 5 }⟩,
    ⟨appendTestBlocks, healthyAnswers 0⟩]

/-- The partition after `append_test`. -/
def appendTestPartition : HdfsPartition :=
  (checkedRun next KeepsBlocksFit (HdfsPartition.fresh true true) appendTestRun).getD
    (HdfsPartition.fresh true true)

theorem dataInsert_keeps_slot_files_appendTest :
    appendTestPartition.partitionCachedMeta 0 = some ⟨20, 1⟩ ∧
      ∀ bytes, appendTestPartition.files ⟨0, 1, .data⟩ = some bytes → (bytes.length : Int) = 20 := by
  have reached := reflTransGen_of_checkedRun
    (show checkedRun next KeepsBlocksFit (HdfsPartition.fresh true true) appendTestRun =
      some appendTestPartition from rfl)
  have found : appendTestPartition.partitionCachedMeta 0 = some ⟨20, 1⟩ := rfl
  exact ⟨found, ((dataInsert_keeps_slot_files reached).1 0 ⟨20, 1⟩ found).1⟩

/-- A block that declares five bytes and carries three. -/
def shortBlock : Block :=
  ⟨0, 5, 5, 0, [1, 2, 3], 0⟩

/-- Without the discipline the files drift from the handler: after one
successful insert of a block that declares more bytes than it carries,
`data_len` is the declared length while the data file holds the bytes
carried. -/
theorem dataInsert_trusts_declared_length :
    Relation.ReflTransGen (Steps next fun _ _ => True) (HdfsPartition.fresh true true)
        (dataInsert (HdfsPartition.fresh true true) [shortBlock] (healthyAnswers 0)).1 ∧
      (dataInsert (HdfsPartition.fresh true true) [shortBlock]
        (healthyAnswers 0)).1.partitionCachedMeta 0 = some ⟨5, 0⟩ ∧
      (dataInsert (HdfsPartition.fresh true true) [shortBlock]
        (healthyAnswers 0)).1.files ⟨0, 0, .data⟩ = some [1, 2, 3] :=
  ⟨.single ⟨⟨[shortBlock], healthyAnswers 0⟩, trivial, rfl⟩, rfl, rfl⟩

end Runs

end Riffle.Hdfs
