import Riffle.Store.Block

/-!
# `MemoryBuffer`: staging and in-flight blocks of one partition

`src/store/mem/buffer.rs`.  New blocks are appended to `staging`; `spill`
moves the whole staging list into the `flight` map under a fresh id, and
`clear` drops a flight once it has been persisted.  Reads (`get_v2`, `get`)
scan the flight batches in the map's iteration order, then the staging
batches, starting after the block `last_block_id`.

The flight map is a `HashMap<u64, _>`; it is represented by the list of its
entries in iteration order.  That order is whatever the hash table makes it:
nothing here fixes it, and `MemoryRead` lets it change at every insert.

The scan of `get_v2` is a nested loop whose `break` leaves only the inner
loop.  `scanBlocks_append` shows that this nesting is invisible: the scan of
a list of batches is the scan of their concatenation.  `readBlocks_readResult`
then states what one read returns in terms of the flat scan order.

The running totals of a read, `read_len` and the segment `offset`, are
`i64`s that `block.length as i64` is added to, and in a release build the
additions wrap (`addLength`).  A read returns the page `takePage` cuts while
the lengths of the blocks it scans sum within the `i64` range (`LengthsFit`);
past that range a total wraps round, the page goes on, and the segment
offsets are no longer the sums of the lengths before them
(`getV2_offsets_wrap`).
-/

namespace Riffle.Store

open Riffle.FixedWidth

/-- `crate::constant::INVALID_BLOCK_ID`. -/
def invalidBlockId : Int := -1

/-- A `croaring::Treemap` of task attempt ids. -/
structure Treemap where
  members : List Nat
  deriving DecidableEq, Repr

def Treemap.contains (treemap : Treemap) (value : Nat) : Bool :=
  treemap.members.contains value

/-- `BufferInternal` of a `MemoryBuffer`. -/
structure MemoryBuffer where
  totalSize : Int
  stagingSize : Int
  flightSize : Int
  staging : List (List Block)
  flight : List (Nat × List (List Block))
  flightCounter : Nat
  deriving DecidableEq, Repr

/-- `BufferSpillResult`. -/
structure BufferSpillResult where
  flightId : Nat
  flightLen : Nat
  blocks : List (List Block)
  deriving DecidableEq, Repr

/-- `BufferReadResult`, the answer of `MemoryBuffer::get`. -/
structure BufferReadResult where
  readLen : Nat
  blocks : List Block
  deriving DecidableEq, Repr

namespace MemoryBuffer

/-- `HashMap::insert`: replace the entry of `key` in place, or add one. -/
def insertEntry {value : Type} (key : Nat) (newValue : value) :
    List (Nat × value) → List (Nat × value)
  | [] => [(key, newValue)]
  | (other, otherValue) :: rest =>
      if other = key then (key, newValue) :: rest
      else (other, otherValue) :: insertEntry key newValue rest

/-- `HashMap::remove`: drop the entry of `key`, keeping the others in
place. -/
def removeEntry {value : Type} (key : Nat) (entries : List (Nat × value)) :
    List (Nat × value) :=
  entries.eraseP fun entry => entry.1 = key

def new : MemoryBuffer :=
  ⟨0, 0, 0, [], [], 0⟩

/-- `MemoryBuffer::append(blocks, size)`; `size` is the `u64` the caller
passes and is added `as i64`. -/
def append (buffer : MemoryBuffer) (blocks : List Block) (size : Nat) :
    MemoryBuffer :=
  { buffer with
    staging := buffer.staging ++ [blocks]
    stagingSize := buffer.stagingSize + toSigned 64 size
    totalSize := buffer.totalSize + toSigned 64 size }

/-- `MemoryBuffer::spill`: `none` (and no change) when nothing is staged. -/
def spill (buffer : MemoryBuffer) :
    MemoryBuffer × Option BufferSpillResult :=
  if buffer.stagingSize = 0 then
    (buffer, none)
  else
    ({ buffer with
        staging := []
        flight := insertEntry buffer.flightCounter buffer.staging buffer.flight
        flightCounter := buffer.flightCounter + 1
        flightSize := buffer.flightSize + buffer.stagingSize
        stagingSize := 0 },
      some ⟨buffer.flightCounter, toUnsigned 64 buffer.stagingSize,
        buffer.staging⟩)

/-- `MemoryBuffer::clear(flight_id, flight_size)`: the sizes change only
when an entry was removed. -/
def clear (buffer : MemoryBuffer) (flightId flightSize : Nat) : MemoryBuffer :=
  if buffer.flight.any (fun entry => entry.1 = flightId) then
    { buffer with
      flight := removeEntry flightId buffer.flight
      totalSize := buffer.totalSize - toSigned 64 flightSize
      flightSize := buffer.flightSize - toSigned 64 flightSize }
  else
    buffer

@[simp]
theorem totalSize_new : new.totalSize = 0 :=
  rfl

@[simp]
theorem totalSize_append (buffer : MemoryBuffer) (blocks : List Block) (size : Nat) :
    (buffer.append blocks size).totalSize = buffer.totalSize + toSigned 64 size :=
  rfl

@[simp]
theorem totalSize_spill (buffer : MemoryBuffer) :
    buffer.spill.1.totalSize = buffer.totalSize := by
  unfold spill
  split <;> rfl

theorem totalSize_clear_of_mem {buffer : MemoryBuffer} {flightId : Nat}
    (present : buffer.flight.any (fun entry => entry.1 = flightId) = true) (flightSize : Nat) :
    (buffer.clear flightId flightSize).totalSize = buffer.totalSize - toSigned 64 flightSize := by
  simp [clear, present]

/-! ## The read scan of `get_v2` and `get` -/

def lengthSum (blocks : List Block) : Int :=
  (blocks.map Block.length).sum

@[simp]
theorem lengthSum_nil : lengthSum [] = 0 :=
  rfl

@[simp]
theorem lengthSum_cons (block : Block) (rest : List Block) :
    lengthSum (block :: rest) = block.length + lengthSum rest := by
  simp [lengthSum]

@[simp]
theorem lengthSum_append (front back : List Block) :
    lengthSum (front ++ back) = lengthSum front + lengthSum back := by
  simp [lengthSum]

/-- `total += block.length as i64` on an `i64` total, wrapping. -/
def addLength (total : Int) (block : Block) : Int :=
  wrapSigned 64 (total + block.length)

/-- The declared lengths, counted without sign, sum below `2^63`: every
running total over a sublist of these blocks stays in the `i64` range. -/
def LengthsFit (blocks : List Block) : Prop :=
  (blocks.map fun block => block.length.natAbs).sum < 2 ^ 63

instance (blocks : List Block) : Decidable (LengthsFit blocks) :=
  inferInstanceAs (Decidable (_ < _))

theorem LengthsFit.sublist {blocks whole : List Block} (fits : LengthsFit whole)
    (sublist : blocks.Sublist whole) : LengthsFit blocks :=
  lt_of_le_of_lt ((sublist.map _).sum_le_sum fun _ _ => Nat.zero_le _) fits

theorem addLength_of_fits {total : Int} {block : Block}
    (fits : total.natAbs + block.length.natAbs < 2 ^ 63) :
    addLength total block = total + block.length :=
  wrapSigned_of_inRange (by decide) ⟨by norm_num; omega, by norm_num; omega⟩

/-- A wrapped running total is the wrapped sum. -/
theorem foldl_addLength (total : Int) (blocks : List Block) :
    blocks.foldl addLength (wrapSigned 64 total) = wrapSigned 64 (total + lengthSum blocks) := by
  induction blocks generalizing total with
  | nil =>
      simp
  | cons block rest inductionHypothesis =>
      rw [List.foldl_cons, addLength, wrapSigned_wrapSigned_add, inductionHypothesis,
        lengthSum_cons, Int.add_assoc]

/-- The loop variables of the scan: `flight_found`, `read_len` and
`read_result`. -/
structure ReadCursor where
  flightFound : Bool
  readLen : Int
  readResult : List Block
  deriving DecidableEq, Repr

/-- The task-id filter, applied to `block.task_attempt_id as u64`. -/
def passesFilter (taskIds : Option Treemap) (block : Block) : Bool :=
  match taskIds with
  | some expected => expected.contains (toUnsigned 64 block.taskAttemptId)
  | none => true

section Scan

variable (lastBlockId batchLen : Int) (taskIds : Option Treemap)

/-- The innermost `for block in blocks` loop; returning the cursor is the
`break`, which leaves this loop only. -/
def scanBlocks : ReadCursor → List Block → ReadCursor
  | cursor, [] => cursor
  | cursor, block :: rest =>
      if !cursor.flightFound && block.blockId == lastBlockId then
        scanBlocks { cursor with flightFound := true } rest
      else if !cursor.flightFound then
        scanBlocks cursor rest
      else if cursor.readLen ≥ batchLen then
        cursor
      else if !passesFilter taskIds block then
        scanBlocks cursor rest
      else
        scanBlocks
          { cursor with
            readLen := addLength cursor.readLen block
            readResult := cursor.readResult ++ [block] }
          rest

/-- One iteration of the `while !exit` loop: every flight batch in map
order, then every staging batch. -/
def readPass (buffer : MemoryBuffer) (cursor : ReadCursor) : ReadCursor :=
  let cursor :=
    if lastBlockId = invalidBlockId then { cursor with flightFound := true }
    else cursor
  let cursor :=
    buffer.flight.foldl
      (fun current entry => entry.2.foldl (scanBlocks lastBlockId batchLen taskIds) current)
      cursor
  buffer.staging.foldl (scanBlocks lastBlockId batchLen taskIds) cursor

/-- The whole `while !exit` loop: a second pass from the start when the
first one never met `last_block_id`. -/
def readBlocks (buffer : MemoryBuffer) : ReadCursor :=
  let first := readPass lastBlockId batchLen taskIds buffer ⟨false, 0, []⟩
  if first.flightFound then first
  else readPass lastBlockId batchLen taskIds buffer { first with flightFound := true }

end Scan

/-- The segments of a read answer: consecutive offsets from `offset`. -/
def segmentsOf : Int → List Block → List DataSegment
  | _, [] => []
  | offset, block :: rest =>
      ⟨block.blockId, offset, block.length, block.uncompressLength, block.crc,
        block.taskAttemptId⟩ :: segmentsOf (addLength offset block) rest

/-- `MemoryBuffer::get_v2`: the bytes are composed under the last `offset`
as `usize`. -/
def getV2 (buffer : MemoryBuffer) (lastBlockId batchLen : Int)
    (taskIds : Option Treemap) : PartitionedMemoryData :=
  let blocks := (readBlocks lastBlockId batchLen taskIds buffer).readResult
  { shuffleDataBlockSegments := segmentsOf 0 blocks
    data := .composed
      (ComposedBytes.from (blocks.map Block.data) (toUnsigned 64 (blocks.foldl addLength 0))) }

/-- `MemoryBuffer::get`. -/
def get (buffer : MemoryBuffer) (lastBlockId batchLen : Int)
    (taskIds : Option Treemap) : BufferReadResult :=
  let cursor := readBlocks lastBlockId batchLen taskIds buffer
  ⟨toUnsigned 64 cursor.readLen, cursor.readResult⟩

theorem getV2_segments (buffer : MemoryBuffer) (lastBlockId batchLen : Int)
    (taskIds : Option Treemap) :
    (getV2 buffer lastBlockId batchLen taskIds).shuffleDataBlockSegments =
      segmentsOf 0 (readBlocks lastBlockId batchLen taskIds buffer).readResult :=
  rfl

/-- The order in which a read visits the blocks: flights in map order, then
staging, each batch in insertion order. -/
def scanOrder (buffer : MemoryBuffer) : List Block :=
  (buffer.flight.map fun entry => entry.2.flatten).flatten ++
    buffer.staging.flatten

/-! ## The scan is a scan of the flat block list -/

section ScanLemmas

variable {lastBlockId batchLen : Int} {taskIds : Option Treemap}

/-- A cursor that has met the last block and filled the page stops every
later batch at its first block. -/
theorem scanBlocks_of_stopped {cursor : ReadCursor}
    (found : cursor.flightFound = true) (full : batchLen ≤ cursor.readLen) :
    ∀ blocks, scanBlocks lastBlockId batchLen taskIds cursor blocks = cursor
  | [] => rfl
  | block :: rest => by
      simp [scanBlocks, found, full]

/-- The scan result of a concatenation: the break of the inner loop does not
show, because a stopped cursor stays stopped. -/
theorem scanBlocks_append (cursor : ReadCursor) (front back : List Block) :
    scanBlocks lastBlockId batchLen taskIds cursor (front ++ back) =
      scanBlocks lastBlockId batchLen taskIds
        (scanBlocks lastBlockId batchLen taskIds cursor front) back := by
  induction front generalizing cursor with
  | nil =>
      rfl
  | cons block rest inductionHypothesis =>
      simp only [List.cons_append, scanBlocks]
      by_cases meets : (!cursor.flightFound && block.blockId == lastBlockId) = true
      · simp only [meets, if_true]
        exact inductionHypothesis _
      · simp only [meets]
        by_cases unfound : (!cursor.flightFound) = true
        · simp only [unfound, if_true]
          exact inductionHypothesis _
        · simp only [unfound]
          have found : cursor.flightFound = true := by simpa using unfound
          by_cases full : batchLen ≤ cursor.readLen
          · simp only [ge_iff_le, full, if_true]
            exact (scanBlocks_of_stopped found full back).symm
          · simp only [ge_iff_le, full, if_false]
            by_cases filtered : (!passesFilter taskIds block) = true
            · simp only [filtered, if_true]
              exact inductionHypothesis _
            · simp only [filtered]
              exact inductionHypothesis _

theorem foldl_scanBlocks (cursor : ReadCursor) (batches : List (List Block)) :
    batches.foldl (scanBlocks lastBlockId batchLen taskIds) cursor =
      scanBlocks lastBlockId batchLen taskIds cursor batches.flatten := by
  induction batches generalizing cursor with
  | nil =>
      rfl
  | cons batch rest inductionHypothesis =>
      rw [List.foldl_cons, inductionHypothesis, List.flatten_cons,
        scanBlocks_append]

theorem foldl_flight_scanBlocks (cursor : ReadCursor)
    (flight : List (Nat × List (List Block))) :
    flight.foldl
        (fun current entry =>
          entry.2.foldl (scanBlocks lastBlockId batchLen taskIds) current)
        cursor =
      scanBlocks lastBlockId batchLen taskIds cursor
        (flight.map fun entry => entry.2.flatten).flatten := by
  induction flight generalizing cursor with
  | nil =>
      rfl
  | cons entry rest inductionHypothesis =>
      rw [List.foldl_cons, inductionHypothesis, foldl_scanBlocks,
        List.map_cons, List.flatten_cons, scanBlocks_append]

/-- One pass of the read loop scans the flat scan order. -/
theorem readPass_eq (buffer : MemoryBuffer) (cursor : ReadCursor) :
    readPass lastBlockId batchLen taskIds buffer cursor =
      scanBlocks lastBlockId batchLen taskIds
        (if lastBlockId = invalidBlockId then { cursor with flightFound := true }
          else cursor)
        buffer.scanOrder := by
  unfold readPass scanOrder
  dsimp only
  rw [foldl_flight_scanBlocks, foldl_scanBlocks, scanBlocks_append]

end ScanLemmas

/-! ## How the operations move blocks in the scan order -/

/-- Every flight id is below `flight_counter`, so the id of the next spill is
a key the map does not hold yet. -/
def FlightIdsBelowCounter (buffer : MemoryBuffer) : Prop :=
  ∀ entry ∈ buffer.flight, entry.1 < buffer.flightCounter

theorem insertEntry_of_fresh {value : Type} {key : Nat} {newValue : value} :
    ∀ {entries : List (Nat × value)}, (∀ entry ∈ entries, entry.1 ≠ key) →
      insertEntry key newValue entries = entries ++ [(key, newValue)]
  | [], _ => rfl
  | (other, otherValue) :: rest, fresh => by
      have otherDiffers : other ≠ key := fresh (other, otherValue) (by simp)
      have restFresh : ∀ entry ∈ rest, entry.1 ≠ key :=
        fun entry member => fresh entry (List.mem_cons_of_mem _ member)
      simp [insertEntry, otherDiffers, insertEntry_of_fresh restFresh]

theorem flightIdsBelowCounter_new : FlightIdsBelowCounter new := by
  simp [FlightIdsBelowCounter, new]

theorem flightIdsBelowCounter_append {buffer : MemoryBuffer}
    (fresh : FlightIdsBelowCounter buffer) (blocks : List Block) (size : Nat) :
    FlightIdsBelowCounter (buffer.append blocks size) :=
  fresh

theorem flightIdsBelowCounter_spill {buffer : MemoryBuffer}
    (fresh : FlightIdsBelowCounter buffer) :
    FlightIdsBelowCounter buffer.spill.1 := by
  unfold spill
  split
  · exact fresh
  · intro entry member
    have keysFresh : ∀ entry ∈ buffer.flight, entry.1 ≠ buffer.flightCounter :=
      fun entry member => (fresh entry member).ne
    simp only [insertEntry_of_fresh keysFresh, List.mem_append,
      List.mem_singleton] at member
    rcases member with old | new
    · exact Nat.lt_succ_of_lt (fresh entry old)
    · simp [new]

theorem flightIdsBelowCounter_clear {buffer : MemoryBuffer}
    (fresh : FlightIdsBelowCounter buffer) (flightId flightSize : Nat) :
    FlightIdsBelowCounter (buffer.clear flightId flightSize) := by
  unfold clear
  split
  · intro entry member
    exact fresh entry (List.mem_of_mem_eraseP member)
  · exact fresh

theorem scanOrder_append (buffer : MemoryBuffer) (blocks : List Block)
    (size : Nat) :
    (buffer.append blocks size).scanOrder = buffer.scanOrder ++ blocks := by
  simp [scanOrder, append]

/-- A spill keeps the scan order when the map keeps its entries in place and
puts the new flight last. -/
theorem scanOrder_spill {buffer : MemoryBuffer}
    (fresh : FlightIdsBelowCounter buffer) :
    buffer.spill.1.scanOrder = buffer.scanOrder := by
  unfold spill
  split
  · rfl
  · have keysFresh : ∀ entry ∈ buffer.flight, entry.1 ≠ buffer.flightCounter :=
      fun entry member => (fresh entry member).ne
    simp [scanOrder, insertEntry_of_fresh keysFresh]

/-- A clear removes one flight's blocks, a contiguous part of the scan
order, or nothing. -/
theorem scanOrder_clear (buffer : MemoryBuffer) (flightId flightSize : Nat) :
    (buffer.clear flightId flightSize).scanOrder = buffer.scanOrder ∨
      ∃ front removed back,
        buffer.scanOrder = front ++ removed ++ back ∧
          (buffer.clear flightId flightSize).scanOrder = front ++ back := by
  unfold clear
  split
  · rename_i present
    obtain ⟨entry, member, hasKey⟩ := List.any_eq_true.mp present
    obtain ⟨removedEntry, before, after, _, _, flightSplit, erased⟩ :=
      List.exists_of_eraseP (p := fun entry => decide (entry.1 = flightId)) member hasKey
    right
    refine ⟨(before.map fun entry => entry.2.flatten).flatten,
      removedEntry.2.flatten,
      (after.map fun entry => entry.2.flatten).flatten ++ buffer.staging.flatten,
      ?_, ?_⟩
    · simp [scanOrder, flightSplit]
    · simp [scanOrder, removeEntry, erased]
  · left
    rfl

/-! ## What one read returns -/

/-- The blocks after the first block whose id is `blockId`. -/
def afterBlockId (blockId : Int) : List Block → Option (List Block)
  | [] => none
  | block :: rest =>
      if block.blockId = blockId then some rest else afterBlockId blockId rest

/-- Where a read with cursor `lastBlockId` resumes: at the start for the
invalid id or an id it does not meet, else just after that block. -/
def readStart (lastBlockId : Int) (blocks : List Block) : List Block :=
  if lastBlockId = invalidBlockId then blocks
  else (afterBlockId lastBlockId blocks).getD blocks

/-- The blocks a page takes from `read_len` on: each block is taken while the
length read so far is below `batch_len`. -/
def takePage (batchLen : Int) : Int → List Block → List Block
  | _, [] => []
  | readLen, block :: rest =>
      if batchLen ≤ readLen then []
      else block :: takePage batchLen (readLen + block.length) rest

theorem takePage_of_le {batchLen readLen : Int} (full : batchLen ≤ readLen)
    (blocks : List Block) :
    takePage batchLen readLen blocks = [] := by
  cases blocks with
  | nil => rfl
  | cons block rest => simp [takePage, full]

section ReadSpec

variable {lastBlockId batchLen : Int} {taskIds : Option Treemap}

/-- Once the last block is met, a scan reads the filtered blocks into the
page until `batch_len` is reached, as long as its total cannot wrap. -/
theorem scanBlocks_found {cursor : ReadCursor} (found : cursor.flightFound = true)
    (blocks : List Block)
    (fits : cursor.readLen.natAbs + (blocks.map fun block => block.length.natAbs).sum < 2 ^ 63) :
    scanBlocks lastBlockId batchLen taskIds cursor blocks =
      { cursor with
        readLen := cursor.readLen +
          lengthSum (takePage batchLen cursor.readLen
            (blocks.filter (passesFilter taskIds)))
        readResult := cursor.readResult ++
          takePage batchLen cursor.readLen (blocks.filter (passesFilter taskIds)) } := by
  induction blocks generalizing cursor with
  | nil =>
      simp [scanBlocks, takePage]
  | cons block rest inductionHypothesis =>
      by_cases full : batchLen ≤ cursor.readLen
      · rw [takePage_of_le full, scanBlocks_of_stopped found full]
        simp
      · have notFull : ¬ cursor.readLen ≥ batchLen := full
        have sumCons : (cursor.readLen.natAbs + block.length.natAbs) +
            (rest.map fun block => block.length.natAbs).sum < 2 ^ 63 := by
          simp only [List.map_cons, List.sum_cons] at fits
          omega
        by_cases kept : passesFilter taskIds block = true
        · -- the total takes the block's length without wrapping
          have exact : addLength cursor.readLen block = cursor.readLen + block.length :=
            addLength_of_fits (by omega)
          have step := @inductionHypothesis
            { cursor with
              readLen := cursor.readLen + block.length
              readResult := cursor.readResult ++ [block] } found (by dsimp only; omega)
          simp only [scanBlocks, found, notFull, kept, List.filter_cons_of_pos kept,
            takePage] at step ⊢
          simp only [Bool.not_true, Bool.false_and, Bool.false_eq_true,
            if_false, exact] at ⊢
          rw [step]
          simp [add_assoc]
        · have skipped := inductionHypothesis found (by omega)
          have dropped : passesFilter taskIds block = false := by simpa using kept
          simp only [scanBlocks, found, notFull, dropped,
            List.filter_cons_of_neg (by simpa using kept)]
          simpa [found] using skipped

/-- Before the last block is met, a scan only looks for it. -/
theorem scanBlocks_unfound {cursor : ReadCursor} (unfound : cursor.flightFound = false)
    (blocks : List Block) :
    scanBlocks lastBlockId batchLen taskIds cursor blocks =
      match afterBlockId lastBlockId blocks with
      | some rest => scanBlocks lastBlockId batchLen taskIds
          { cursor with flightFound := true } rest
      | none => cursor := by
  induction blocks with
  | nil =>
      rfl
  | cons block rest inductionHypothesis =>
      by_cases meets : block.blockId = lastBlockId
      · simp [scanBlocks, afterBlockId, unfound, meets]
      · simp [scanBlocks, afterBlockId, unfound, meets, inductionHypothesis]

/-- A scan never forgets that it has met the last block. -/
theorem scanBlocks_flightFound {cursor : ReadCursor} (found : cursor.flightFound = true) :
    ∀ blocks, (scanBlocks lastBlockId batchLen taskIds cursor blocks).flightFound = true := by
  intro blocks
  induction blocks generalizing cursor with
  | nil => exact found
  | cons block rest inductionHypothesis =>
      simp only [scanBlocks, found, Bool.not_true, Bool.false_and, Bool.false_eq_true, if_false]
      split_ifs
      · exact found
      · exact inductionHypothesis found
      · exact inductionHypothesis rfl

theorem flightFound_scanBlocks (readLen : Int) (readResult blocks : List Block) :
    (scanBlocks lastBlockId batchLen taskIds ⟨true, readLen, readResult⟩ blocks).flightFound =
      true :=
  scanBlocks_flightFound rfl blocks

theorem readStart_sublist (lastBlockId : Int) (blocks : List Block) :
    (readStart lastBlockId blocks).Sublist blocks := by
  have after : ∀ blocks rest : List Block, afterBlockId lastBlockId blocks = some rest →
      rest.Sublist blocks := by
    intro blocks
    induction blocks with
    | nil => intro rest found; cases found
    | cons block others inductionHypothesis =>
        intro rest found
        unfold afterBlockId at found
        split_ifs at found
        · cases found
          exact List.sublist_cons_self block others
        · exact (inductionHypothesis rest found).cons block
  unfold readStart
  split_ifs
  · exact List.Sublist.refl blocks
  · cases found : afterBlockId lastBlockId blocks with
    | none => exact List.Sublist.refl blocks
    | some rest => exact after blocks rest found

/-- What one read scans: the blocks after the cursor, or all of them when the
cursor is invalid or missing, from a cursor that has met the last block. -/
theorem readBlocks_scan (buffer : MemoryBuffer) :
    (readBlocks lastBlockId batchLen taskIds buffer).readResult =
      (scanBlocks lastBlockId batchLen taskIds ⟨true, 0, []⟩
        (readStart lastBlockId buffer.scanOrder)).readResult := by
  unfold readBlocks readStart
  by_cases invalid : lastBlockId = invalidBlockId
  · simp only [readPass_eq, invalid, if_true]
    simp only [flightFound_scanBlocks, if_true]
  · simp only [readPass_eq, invalid, if_false]
    rw [scanBlocks_unfound rfl]
    cases after : afterBlockId lastBlockId buffer.scanOrder with
    | some rest =>
        -- the first pass met the cursor: there is no second pass
        simp only [Option.getD_some, flightFound_scanBlocks, if_true]
    | none =>
        simp only [Option.getD_none, Bool.false_eq_true, if_false]

/-- The specification of one read: the page is taken from the filtered
blocks after the cursor, or from the start when the cursor is invalid or
missing, while their lengths fit the `i64` total. -/
theorem readBlocks_readResult (buffer : MemoryBuffer) (fits : LengthsFit buffer.scanOrder) :
    (readBlocks lastBlockId batchLen taskIds buffer).readResult =
      takePage batchLen 0
        ((readStart lastBlockId buffer.scanOrder).filter (passesFilter taskIds)) := by
  have scannedFits := fits.sublist (readStart_sublist lastBlockId buffer.scanOrder)
  rw [readBlocks_scan, scanBlocks_found rfl _ (by simpa [LengthsFit] using scannedFits)]
  simp

/-- A read selects blocks of the buffer, in the buffer's order. -/
theorem readBlocks_sublist (buffer : MemoryBuffer) :
    (readBlocks lastBlockId batchLen taskIds buffer).readResult.Sublist buffer.scanOrder := by
  have scanned : ∀ (cursor : ReadCursor) (blocks : List Block), ∃ taken, taken.Sublist blocks ∧
      (scanBlocks lastBlockId batchLen taskIds cursor blocks).readResult =
        cursor.readResult ++ taken := by
    intro cursor blocks
    induction blocks generalizing cursor with
    | nil => exact ⟨[], List.Sublist.slnil, by simp [scanBlocks]⟩
    | cons block rest inductionHypothesis =>
        simp only [scanBlocks]
        split_ifs
        · obtain ⟨taken, sublist, result⟩ := inductionHypothesis { cursor with flightFound := true }
          exact ⟨taken, sublist.cons block, result⟩
        · obtain ⟨taken, sublist, result⟩ := inductionHypothesis cursor
          exact ⟨taken, sublist.cons block, result⟩
        · exact ⟨[], List.nil_sublist _, by simp⟩
        · obtain ⟨taken, sublist, result⟩ := inductionHypothesis cursor
          exact ⟨taken, sublist.cons block, result⟩
        · -- the block is read
          obtain ⟨taken, sublist, result⟩ := inductionHypothesis
            { cursor with
              readLen := addLength cursor.readLen block
              readResult := cursor.readResult ++ [block] }
          exact ⟨block :: taken, sublist.cons_cons block, by simp [result]⟩
  obtain ⟨taken, sublist, result⟩ := scanned ⟨true, 0, []⟩ (readStart lastBlockId buffer.scanOrder)
  rw [readBlocks_scan, result, List.nil_append]
  exact sublist.trans (readStart_sublist lastBlockId buffer.scanOrder)

end ReadSpec

/-! ## `get` and `get_v2`

The two functions repeat one scan loop word for word, which the model runs
once as `readBlocks`; they differ in what they build from its blocks.  `get`
returns them with `read_len` as `u64`; `get_v2` describes each block by a
`DataSegment` at the running offset and composes their bytes under the last
offset as `usize`.  Both totals are the lengths the scan added up
(`readBlocks_tallied`), so the answers agree. -/

/-- The loop keeps `read_len` at the sum, wrapped to `i64`, of the lengths in
`read_result`. -/
def ReadCursor.Tallied (cursor : ReadCursor) : Prop :=
  cursor.readLen = wrapSigned 64 (lengthSum cursor.readResult)

section Tally

variable {lastBlockId batchLen : Int} {taskIds : Option Treemap}

theorem scanBlocks_tallied {cursor : ReadCursor} (tallied : cursor.Tallied) (blocks : List Block) :
    (scanBlocks lastBlockId batchLen taskIds cursor blocks).Tallied := by
  induction blocks generalizing cursor with
  | nil => exact tallied
  | cons block rest inductionHypothesis =>
      simp only [scanBlocks]
      split_ifs
      · exact inductionHypothesis tallied
      · exact inductionHypothesis tallied
      · exact tallied
      · exact inductionHypothesis tallied
      · -- the one branch that reads: both sides grow by `block.length`
        apply inductionHypothesis
        show addLength cursor.readLen block = wrapSigned 64 (lengthSum (cursor.readResult ++ [block]))
        rw [lengthSum_append, tallied, addLength, wrapSigned_wrapSigned_add, lengthSum_cons,
          lengthSum_nil, Int.add_zero]

theorem readBlocks_tallied (buffer : MemoryBuffer) :
    (readBlocks lastBlockId batchLen taskIds buffer).Tallied := by
  have start : ReadCursor.Tallied ⟨false, 0, []⟩ := by
    show (0 : Int) = wrapSigned 64 0
    decide
  have pass : ∀ cursor : ReadCursor, cursor.Tallied →
      (readPass lastBlockId batchLen taskIds buffer cursor).Tallied := by
    intro cursor tallied
    rw [readPass_eq]
    split_ifs
    · -- meeting the invalid id changes neither total
      exact scanBlocks_tallied (show ReadCursor.Tallied { cursor with flightFound := true } from
        tallied) _
    · exact scanBlocks_tallied tallied _
  unfold readBlocks
  dsimp only
  split_ifs
  · exact pass _ start
  · exact pass _ (pass _ start)

end Tally

end MemoryBuffer

/-- A segment of a read answer describes a block: the same id, lengths, crc
and task attempt. -/
def DataSegment.Describes (segment : DataSegment) (block : Block) : Prop :=
  segment.blockId = block.blockId ∧ segment.length = block.length ∧
    segment.uncompressLength = block.uncompressLength ∧ segment.crc = block.crc ∧
    segment.taskAttemptId = block.taskAttemptId

namespace MemoryBuffer

open Riffle.FixedWidth

theorem forall₂_segmentsOf :
    ∀ (offset : Int) (blocks : List Block),
      List.Forall₂ DataSegment.Describes (segmentsOf offset blocks) blocks
  | _, [] => .nil
  | offset, block :: rest =>
      .cons ⟨rfl, rfl, rfl, rfl, rfl⟩ (forall₂_segmentsOf (addLength offset block) rest)

theorem map_length_segmentsOf :
    ∀ (offset : Int) (blocks : List Block),
      (segmentsOf offset blocks).map DataSegment.length = blocks.map Block.length
  | _, [] => rfl
  | offset, block :: rest => by
      simp [segmentsOf, map_length_segmentsOf (addLength offset block) rest]

theorem length_segmentsOf (offset : Int) (blocks : List Block) :
    (segmentsOf offset blocks).length = blocks.length := by
  simpa using congrArg List.length (map_length_segmentsOf offset blocks)

/-- Each segment starts where the segments before it end, as an `i64`. -/
theorem offset_segmentsOf :
    ∀ (offset : Int) (blocks : List Block) (index : Nat)
      (below : index < (segmentsOf (wrapSigned 64 offset) blocks).length),
      (segmentsOf (wrapSigned 64 offset) blocks)[index].offset =
        wrapSigned 64
          (offset + (((segmentsOf (wrapSigned 64 offset) blocks).take index).map
            DataSegment.length).sum)
  | _, [], _, below => absurd below (Nat.not_lt_zero _)
  | offset, block :: rest, 0, _ => by simp [segmentsOf]
  | offset, block :: rest, index + 1, below => by
      have advanced : addLength (wrapSigned 64 offset) block = wrapSigned 64 (offset + block.length) :=
        wrapSigned_wrapSigned_add 64 offset block.length
      have later := offset_segmentsOf (offset + block.length) rest index
        (by simpa [segmentsOf, advanced] using below)
      simp only [segmentsOf, advanced, List.getElem_cons_succ, List.take_succ_cons, List.map_cons,
        List.sum_cons] at later ⊢
      rw [later, Int.add_assoc]

/-- The length `get_v2` composes its bytes under is the wrapped sum of the
lengths it read. -/
theorem toUnsigned_foldl_addLength (blocks : List Block) :
    toUnsigned 64 (blocks.foldl addLength 0) = toUnsigned 64 (lengthSum blocks) := by
  have wrappedZero : wrapSigned 64 0 = 0 := by decide
  rw [← wrappedZero, foldl_addLength, Int.zero_add, toUnsigned_wrapSigned]

/-- `get_v2` and `get` answer every read alike: the segments describe `get`'s
blocks in order, each at the sum of the lengths of the segments before it,
wrapped to `i64` as the code adds them up, and the composed bytes have
`get`'s `read_len` as their length, which is the segments' total length as
`usize`. -/
theorem getV2_agrees_with_get (buffer : MemoryBuffer) (lastBlockId batchLen : Int)
    (taskIds : Option Treemap) :
    let segments := (getV2 buffer lastBlockId batchLen taskIds).shuffleDataBlockSegments
    let result := get buffer lastBlockId batchLen taskIds
    List.Forall₂ DataSegment.Describes segments result.blocks ∧
      (∀ index (below : index < segments.length),
        segments[index].offset = wrapSigned 64 ((segments.take index).map DataSegment.length).sum) ∧
      (getV2 buffer lastBlockId batchLen taskIds).data.len = result.readLen ∧
      (getV2 buffer lastBlockId batchLen taskIds).data.len =
        toUnsigned 64 (segments.map DataSegment.length).sum := by
  intro segments result
  have tallied := @readBlocks_tallied lastBlockId batchLen taskIds buffer
  have wrappedZero : wrapSigned 64 0 = 0 := by decide
  have fromZero : segments = segmentsOf (wrapSigned 64 0)
      (readBlocks lastBlockId batchLen taskIds buffer).readResult := by
    rw [wrappedZero]
    rfl
  refine ⟨forall₂_segmentsOf 0 _, fun index below => ?_, ?_, ?_⟩
  · have atOffset := offset_segmentsOf 0 (readBlocks lastBlockId batchLen taskIds buffer).readResult
      index (fromZero ▸ below)
    simp only [← fromZero, Int.zero_add] at atOffset
    exact atOffset
  · -- `get` casts the running total, `get_v2` the last offset
    show toUnsigned 64 _ = toUnsigned 64 _
    rw [toUnsigned_foldl_addLength, tallied, toUnsigned_wrapSigned]
  · have sameLengths : segments.map DataSegment.length =
        (readBlocks lastBlockId batchLen taskIds buffer).readResult.map Block.length :=
      map_length_segmentsOf 0 _
    show toUnsigned 64 _ = toUnsigned 64 _
    rw [sameLengths, toUnsigned_foldl_addLength]
    rfl

/-- With no filter, a scan whose running total, as the code keeps it, stays
below `batch_len` before every block reads every block. -/
theorem scanBlocks_reads_all {lastBlockId batchLen : Int} :
    ∀ {cursor : ReadCursor} (blocks : List Block), cursor.flightFound = true →
      wrapSigned 64 cursor.readLen = cursor.readLen →
      (∀ taken < blocks.length,
        wrapSigned 64 (cursor.readLen + lengthSum (blocks.take taken)) < batchLen) →
      (scanBlocks lastBlockId batchLen none cursor blocks).readResult = cursor.readResult ++ blocks
  | cursor, [], _, _, _ => by simp [scanBlocks]
  | cursor, block :: rest, found, wrapped, below => by
      have notFull : ¬ cursor.readLen ≥ batchLen := by
        have first := below 0 (by simp)
        rw [List.take_zero, lengthSum_nil, Int.add_zero, wrapped] at first
        omega
      have advanced : wrapSigned 64 (addLength cursor.readLen block) = addLength cursor.readLen block :=
        wrapSigned_of_inRange (by decide) (wrapSigned_inRange (by decide) _)
      have restBelow : ∀ taken < rest.length,
          wrapSigned 64 (addLength cursor.readLen block + lengthSum (rest.take taken)) < batchLen := by
        intro taken shorter
        have later := below (taken + 1) (by simp; omega)
        rw [List.take_succ_cons, lengthSum_cons, ← Int.add_assoc] at later
        rw [addLength, wrapSigned_wrapSigned_add]
        exact later
      have readsRest := @scanBlocks_reads_all lastBlockId batchLen
        { cursor with
          readLen := addLength cursor.readLen block
          readResult := cursor.readResult ++ [block] } rest found advanced restBelow
      simp only [found] at readsRest
      simp only [scanBlocks, found, notFull, passesFilter, Bool.not_true, Bool.false_and,
        Bool.false_eq_true, if_false]
      rw [readsRest]
      simp

/-- A block declaring the largest `i32` length, with no bytes: the server
never checks a declared length against the data. -/
def longBlock : Block :=
  ⟨0, 2 ^ 31 - 1, 0, 0, [], 0⟩

theorem lengthSum_replicate (count : Nat) (block : Block) :
    lengthSum (List.replicate count block) = count * block.length := by
  simp [lengthSum, List.sum_replicate]

/-- The segment offsets wrap: a buffer holding `2^32 + 4` blocks of the
largest `i32` length, read in one page of `batch_len = i64::MAX`, carries
`read_len` past `i64::MAX`, where it wraps negative and the page goes on; the
offset of the next segment is then not the sum of the lengths before it. -/
theorem getV2_offsets_wrap :
    let segments := (getV2 (new.append (List.replicate (2 ^ 32 + 4) longBlock) 0)
      invalidBlockId (2 ^ 63 - 1) none).shuffleDataBlockSegments
    ∃ index, ∃ below : index < segments.length,
      segments[index].offset ≠ ((segments.take index).map DataSegment.length).sum := by
  intro segments
  have order : (new.append (List.replicate (2 ^ 32 + 4) longBlock) 0).scanOrder =
      List.replicate (2 ^ 32 + 4) longBlock := by
    rw [scanOrder_append, show new.scanOrder = [] from rfl, List.nil_append]
  -- every running total before a block stays below `i64::MAX`
  have totalsBelow : ∀ taken < (List.replicate (2 ^ 32 + 4) longBlock).length,
      wrapSigned 64 (0 + lengthSum ((List.replicate (2 ^ 32 + 4) longBlock).take taken)) <
        2 ^ 63 - 1 := by
    intro taken shorter
    rw [List.length_replicate] at shorter
    rw [List.take_replicate, lengthSum_replicate, Int.zero_add, Nat.min_eq_left shorter.le]
    by_cases inRange : taken ≤ 2 ^ 32 + 2
    · have exact : wrapSigned 64 (taken * longBlock.length) = taken * longBlock.length :=
        wrapSigned_of_inRange (by decide)
          ⟨by simp [longBlock]; omega, by simp [longBlock]; omega⟩
      rw [exact]
      simp [longBlock]
      omega
    · have last : taken = 2 ^ 32 + 3 := by omega
      subst last
      decide
  have readAll : (readBlocks invalidBlockId (2 ^ 63 - 1) none
      (new.append (List.replicate (2 ^ 32 + 4) longBlock) 0)).readResult =
        List.replicate (2 ^ 32 + 4) longBlock := by
    rw [readBlocks_scan, order]
    rw [readStart, if_pos rfl,
      @scanBlocks_reads_all invalidBlockId (2 ^ 63 - 1) ⟨true, 0, []⟩ _ rfl (by decide) totalsBelow,
      List.nil_append]
  have wrappedZero : wrapSigned 64 0 = 0 := by decide
  have segmentsEq : segments = segmentsOf 0 (readBlocks invalidBlockId (2 ^ 63 - 1) none
      (new.append (List.replicate (2 ^ 32 + 4) longBlock) 0)).readResult :=
    getV2_segments _ _ _ _
  have fromZero : segments = segmentsOf (wrapSigned 64 0) (List.replicate (2 ^ 32 + 4) longBlock) := by
    rw [segmentsEq, readAll, wrappedZero]
  have counted : segments.length = 2 ^ 32 + 4 := by
    rw [fromZero, length_segmentsOf, List.length_replicate]
  have below : 2 ^ 32 + 3 < segments.length := by
    omega
  refine ⟨2 ^ 32 + 3, below, ?_⟩
  -- the lengths before it sum past `i64::MAX`, and an `i64` offset cannot
  have lengthsBefore : ((segments.take (2 ^ 32 + 3)).map DataSegment.length).sum =
      (2 ^ 32 + 3) * (2 ^ 31 - 1) := by
    rw [List.map_take, fromZero, map_length_segmentsOf, List.map_replicate, List.take_replicate,
      List.sum_replicate]
    simp [longBlock]
  have atOffset := offset_segmentsOf 0 (List.replicate (2 ^ 32 + 4) longBlock) (2 ^ 32 + 3)
    (fromZero ▸ below)
  simp only [← fromZero, Int.zero_add] at atOffset
  rw [atOffset, lengthsBefore]
  intro same
  have inRange := wrapSigned_inRange (by decide : 0 < 64) ((2 ^ 32 + 3) * (2 ^ 31 - 1))
  rw [same] at inRange
  obtain ⟨-, upper⟩ := inRange
  norm_num at upper

end MemoryBuffer

end Riffle.Store
