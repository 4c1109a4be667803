import Riffle.Store.MemoryBuffer
import Riffle.Lib.Transition

/-!
# Paginated memory reads

A client reads a partition from memory with the loop of
`test_with_block_id_zero`: start with `last_block_id = -1`, call
`MemoryBuffer::get_v2(last_block_id, batch_len, filter)`, continue after the
block id of the last returned segment, and stop at the first empty page.

For a buffer that does not change, the pages are `paginate` of the filtered
scan order: consecutive, each cut by `takePage`, and concatenating to the
whole filtered scan order (`readAllPages_start`).

While the reader runs, appends, spills and clears may change the buffer
(`readerNext`).  The flight map is a `HashMap`, so an insert may lay the map
out anew (`spillRelayout`).  Runs whose spills keep the existing order and
put the new flight last (`KeepsLayout`) keep `ReaderInvariant`, so a finished
loop has returned every start block still buffered; a re-layout that puts a
new flight before the cursor's flight skips the blocks it moved.
-/

namespace Riffle.Store

namespace MemoryBuffer

open Riffle.FixedWidth

/-! ## Pages of a fixed buffer -/

/-- The answer `get_v2` builds from the blocks it read. -/
def pageAnswer (blocks : List Block) : PartitionedMemoryData :=
  { shuffleDataBlockSegments := segmentsOf 0 blocks
    data := .composed
      (ComposedBytes.from (blocks.map Block.data) (toUnsigned 64 (blocks.foldl addLength 0))) }

theorem getV2_eq (buffer : MemoryBuffer) (lastBlockId batchLen : Int)
    (taskIds : Option Treemap) :
    getV2 buffer lastBlockId batchLen taskIds =
      pageAnswer (readBlocks lastBlockId batchLen taskIds buffer).readResult :=
  rfl

/-- The client's read loop, allowed at most `fuel` calls of `get_v2`;
`none` when it would need more. -/
def readAllPages (buffer : MemoryBuffer) (batchLen : Int)
    (taskIds : Option Treemap) : Nat → Int → Option (List PartitionedMemoryData)
  | 0, _ => none
  | fuel + 1, lastBlockId =>
      let page := getV2 buffer lastBlockId batchLen taskIds
      match page.shuffleDataBlockSegments.getLast? with
      | none => some []
      | some last =>
          (readAllPages buffer batchLen taskIds fuel last.blockId).map
            (page :: ·)

theorem takePage_cons_of_pos {batchLen : Int} (positive : 0 < batchLen)
    (block : Block) (rest : List Block) :
    takePage batchLen 0 (block :: rest) =
      block :: takePage batchLen block.length rest := by
  have notFull : ¬ batchLen ≤ 0 := by omega
  simp [takePage, notFull]

/-- The pages of a fixed block list: each `takePage` of what is left. -/
def paginate (batchLen : Int) (positive : 0 < batchLen) :
    List Block → List (List Block)
  | [] => []
  | block :: rest =>
      takePage batchLen 0 (block :: rest) ::
        paginate batchLen positive
          ((block :: rest).drop (takePage batchLen 0 (block :: rest)).length)
termination_by blocks => blocks.length
decreasing_by
  rw [takePage_cons_of_pos positive]
  simp

theorem takePage_isPrefix (batchLen : Int) :
    ∀ (readLen : Int) (blocks : List Block),
      takePage batchLen readLen blocks <+: blocks
  | _, [] => List.prefix_refl []
  | readLen, block :: rest => by
      unfold takePage
      split
      · exact List.nil_prefix
      · exact List.cons_prefix_cons.mpr
          ⟨rfl, takePage_isPrefix batchLen (readLen + block.length) rest⟩

theorem append_drop_of_isPrefix {front whole : List Block} (isPrefix : front <+: whole) :
    front ++ whole.drop front.length = whole := by
  obtain ⟨tail, rfl⟩ := isPrefix
  simp

theorem takePage_append_drop (batchLen readLen : Int) (blocks : List Block) :
    takePage batchLen readLen blocks ++
        blocks.drop (takePage batchLen readLen blocks).length = blocks :=
  append_drop_of_isPrefix (takePage_isPrefix batchLen readLen blocks)

theorem flatten_paginate {batchLen : Int} (positive : 0 < batchLen) :
    ∀ blocks : List Block, (paginate batchLen positive blocks).flatten = blocks
  | [] => by
      simp [paginate]
  | block :: rest => by
      rw [paginate, List.flatten_cons, flatten_paginate positive,
        takePage_append_drop]
termination_by blocks => blocks.length
decreasing_by
  rw [takePage_cons_of_pos positive]
  simp

/-- What "each page stops at the first block that brings its length sum to
`batch_len`" means for a page cut from `blocks`. -/
def StopsAtBatchLen (batchLen : Int) (page blocks : List Block) : Prop :=
  page <+: blocks ∧
    (∀ taken < page.length, lengthSum (page.take taken) < batchLen) ∧
    (page.length < blocks.length → batchLen ≤ lengthSum page)

theorem takePage_stops (batchLen : Int) :
    ∀ (readLen : Int) (blocks : List Block),
      (∀ taken < (takePage batchLen readLen blocks).length,
        readLen + lengthSum ((takePage batchLen readLen blocks).take taken) <
          batchLen) ∧
      ((takePage batchLen readLen blocks).length < blocks.length →
        batchLen ≤ readLen + lengthSum (takePage batchLen readLen blocks))
  | readLen, [] => by
      simp [takePage]
  | readLen, block :: rest => by
      by_cases full : batchLen ≤ readLen
      · simp [takePage, full]
      · obtain ⟨belowBound, reachesBound⟩ :=
          takePage_stops batchLen (readLen + block.length) rest
        simp only [takePage, full, if_false, List.length_cons]
        constructor
        · intro taken takenBound
          cases taken with
          | zero =>
              simp only [List.take_zero, lengthSum_nil]
              omega
          | succ taken =>
              have below := belowBound taken (by omega)
              simp only [List.take_succ_cons, lengthSum_cons]
              linarith
        · intro shorter
          have reached := reachesBound (by omega)
          simp only [lengthSum_cons]
          linarith

theorem takePage_stopsAtBatchLen (batchLen : Int) (blocks : List Block) :
    StopsAtBatchLen batchLen (takePage batchLen 0 blocks) blocks := by
  obtain ⟨belowBound, reachesBound⟩ := takePage_stops batchLen 0 blocks
  refine ⟨takePage_isPrefix batchLen 0 blocks, ?_, ?_⟩
  · intro taken takenBound
    simpa using belowBound taken takenBound
  · intro shorter
    simpa using reachesBound shorter

/-- Every page of `paginate` is cut by `takePage` from the blocks that are
left when it starts. -/
theorem paginate_stops {batchLen : Int} (positive : 0 < batchLen) :
    ∀ (blocks : List Block) (front : List (List Block)) (page : List Block)
      (back : List (List Block)),
      paginate batchLen positive blocks = front ++ page :: back →
      StopsAtBatchLen batchLen page (page ++ back.flatten)
  | [], front, page, back, split => by
      cases front <;> simp [paginate] at split
  | block :: rest, front, page, back, split => by
      rw [paginate] at split
      cases front with
      | nil =>
          simp only [List.nil_append, List.cons.injEq] at split
          obtain ⟨firstPage, laterPages⟩ := split
          rw [← laterPages, flatten_paginate positive, ← firstPage,
            takePage_append_drop]
          exact takePage_stopsAtBatchLen batchLen (block :: rest)
      | cons firstPage earlier =>
          simp only [List.cons_append, List.cons.injEq] at split
          exact paginate_stops positive _ earlier page back split.2
termination_by blocks => blocks.length
decreasing_by
  rw [takePage_cons_of_pos positive]
  simp

/-! ## Where the next page resumes -/

/-- No two blocks of the buffer share a block id. -/
def DistinctIds (blocks : List Block) : Prop :=
  (blocks.map Block.blockId).Nodup

instance (blocks : List Block) : Decidable (DistinctIds blocks) :=
  inferInstanceAs (Decidable (List.Nodup _))

theorem afterBlockId_of_split {front rest : List Block} {block : Block}
    (fresh : block.blockId ∉ front.map Block.blockId) :
    afterBlockId block.blockId (front ++ block :: rest) = some rest := by
  induction front with
  | nil =>
      simp [afterBlockId]
  | cons first others inductionHypothesis =>
      have firstDiffers : first.blockId ≠ block.blockId := by
        intro same
        exact fresh (by simp [same])
      have othersFresh : block.blockId ∉ others.map Block.blockId := by
        intro member
        exact fresh (by simp_all)
      simp [afterBlockId, firstDiffers, inductionHypothesis othersFresh]

theorem afterBlockId_suffix (blockId : Int) :
    ∀ {blocks rest : List Block}, afterBlockId blockId blocks = some rest →
      rest <:+ blocks
  | [], rest, found => by
      simp [afterBlockId] at found
  | block :: others, rest, found => by
      unfold afterBlockId at found
      split at found
      · cases found
        exact List.suffix_cons block others
      · exact (afterBlockId_suffix blockId found).trans (List.suffix_cons block others)

theorem readStart_suffix (lastBlockId : Int) (blocks : List Block) :
    readStart lastBlockId blocks <:+ blocks := by
  unfold readStart
  split
  · exact List.suffix_refl blocks
  · cases found : afterBlockId lastBlockId blocks with
    | none => exact List.suffix_refl blocks
    | some rest => exact afterBlockId_suffix lastBlockId found

/-- After a page that returned `page`, the next read starts right after the
page's last block, with the filtered blocks the page did not take. -/
theorem readStart_after_page {taskIds : Option Treemap}
    {blocks resumed page rest : List Block}
    (distinct : DistinctIds blocks)
    (valid : ∀ block ∈ blocks, block.blockId ≠ invalidBlockId)
    (isSuffix : resumed <:+ blocks)
    (split : resumed.filter (passesFilter taskIds) = page ++ rest)
    (nonempty : page ≠ []) :
    (readStart (page.getLast nonempty).blockId blocks).filter
      (passesFilter taskIds) = rest := by
  set last := page.getLast nonempty with lastEq
  have pageSplit : page = page.dropLast ++ [last] :=
    (List.dropLast_append_getLast nonempty).symm
  rw [pageSplit, List.append_assoc, List.singleton_append] at split
  obtain ⟨beforeLast, fromLast, resumedSplit, _, lastFilter⟩ :=
    List.filter_eq_append_iff.mp split
  obtain ⟨skipped, after, fromLastSplit, _, _, afterFilter⟩ :=
    List.filter_eq_cons_iff.mp lastFilter
  obtain ⟨earlier, blocksSplit⟩ := isSuffix
  have whole : blocks = (earlier ++ beforeLast ++ skipped) ++ last :: after := by
    rw [← blocksSplit, resumedSplit, fromLastSplit]
    simp
  have lastFresh : last.blockId ∉ (earlier ++ beforeLast ++ skipped).map Block.blockId := by
    have nodup := distinct
    rw [DistinctIds, whole, List.map_append, List.nodup_append] at nodup
    intro member
    exact nodup.2.2 _ member _ (by simp) rfl
  have lastValid : last.blockId ≠ invalidBlockId :=
    valid last (by rw [whole]; simp)
  unfold readStart
  rw [if_neg lastValid, whole, afterBlockId_of_split lastFresh, Option.getD_some]
  exact afterFilter

theorem map_blockId_segmentsOf (offset : Int) (blocks : List Block) :
    (segmentsOf offset blocks).map DataSegment.blockId =
      blocks.map Block.blockId := by
  induction blocks generalizing offset with
  | nil =>
      rfl
  | cons block rest inductionHypothesis =>
      simp [segmentsOf, inductionHypothesis]

theorem getLast?_pageAnswer_blockId (blocks : List Block) :
    (pageAnswer blocks).shuffleDataBlockSegments.getLast?.map DataSegment.blockId =
      blocks.getLast?.map Block.blockId := by
  rw [← List.getLast?_map, ← List.getLast?_map]
  exact congrArg List.getLast? (map_blockId_segmentsOf 0 blocks)

/-! ## The read loop over a fixed buffer -/

section FixedBuffer

variable {buffer : MemoryBuffer} {batchLen : Int} {taskIds : Option Treemap}

/-- The loop from any cursor returns the pages of the filtered blocks the
cursor leaves, given one call more than there are such blocks. -/
theorem readAllPages_from (positive : 0 < batchLen)
    (distinct : DistinctIds buffer.scanOrder)
    (valid : ∀ block ∈ buffer.scanOrder, block.blockId ≠ invalidBlockId)
    (fits : LengthsFit buffer.scanOrder) :
    ∀ (fuel : Nat) (cursor : Int),
      ((readStart cursor buffer.scanOrder).filter (passesFilter taskIds)).length <
          fuel →
      readAllPages buffer batchLen taskIds fuel cursor =
        some ((paginate batchLen positive
          ((readStart cursor buffer.scanOrder).filter
            (passesFilter taskIds))).map pageAnswer)
  | 0, cursor, enough => by
      omega
  | fuel + 1, cursor, enough => by
      have pageBlocks :=
        @readBlocks_readResult cursor batchLen taskIds buffer fits
      generalize remainingEq :
        (readStart cursor buffer.scanOrder).filter (passesFilter taskIds) =
          remaining at pageBlocks enough ⊢
      cases remaining with
      | nil =>
          simp [readAllPages, getV2_eq, pageBlocks, takePage, pageAnswer,
            segmentsOf, paginate]
      | cons first others =>
          set page := takePage batchLen 0 (first :: others) with pageEq
          have nonempty : page ≠ [] := by
            rw [pageEq, takePage_cons_of_pos positive]
            simp
          have lastSegment :
              (pageAnswer page).shuffleDataBlockSegments.getLast?.map
                  DataSegment.blockId =
                some (page.getLast nonempty).blockId := by
            rw [getLast?_pageAnswer_blockId, List.getLast?_eq_some_getLast nonempty]
            rfl
          obtain ⟨segment, segmentEq, segmentId⟩ :=
            Option.map_eq_some_iff.mp lastSegment
          have resumed :
              (readStart (page.getLast nonempty).blockId buffer.scanOrder).filter
                  (passesFilter taskIds) =
                (first :: others).drop page.length :=
            readStart_after_page distinct valid
              (readStart_suffix cursor buffer.scanOrder)
              (by rw [remainingEq]; exact
                (takePage_append_drop batchLen 0 (first :: others)).symm)
              nonempty
          have shorter :
              ((first :: others).drop page.length).length < fuel := by
            have pageLength : 1 ≤ page.length := by
              rw [pageEq, takePage_cons_of_pos positive]
              simp
            simp only [List.length_drop, List.length_cons] at enough ⊢
            omega
          have recursive := readAllPages_from positive distinct valid fits fuel
            (page.getLast nonempty).blockId (by rw [resumed]; exact shorter)
          rw [resumed] at recursive
          simp only [readAllPages, getV2_eq, pageBlocks, segmentEq,
            segmentId, recursive, Option.map_some]
          rw [paginate, ← pageEq]
          rfl

end FixedBuffer

/-! ## Where a read resumes after the buffer changed -/

theorem afterBlockId_eq_none_iff (blockId : Int) :
    ∀ blocks : List Block,
      afterBlockId blockId blocks = none ↔ blockId ∉ blocks.map Block.blockId
  | [] => by
      simp [afterBlockId]
  | block :: rest => by
      by_cases meets : block.blockId = blockId
      · simp [afterBlockId, meets]
      · have differs : blockId ≠ block.blockId := Ne.symm meets
        simp [afterBlockId, meets, afterBlockId_eq_none_iff blockId rest, differs]

theorem afterBlockId_append (blockId : Int) (front back : List Block) :
    afterBlockId blockId (front ++ back) =
      match afterBlockId blockId front with
      | some rest => some (rest ++ back)
      | none => afterBlockId blockId back := by
  induction front with
  | nil =>
      rfl
  | cons block rest inductionHypothesis =>
      by_cases meets : block.blockId = blockId
      · simp [afterBlockId, meets]
      · simp [afterBlockId, meets, inductionHypothesis]

/-- Appending blocks the cursor does not name keeps every block a read would
still return. -/
theorem mem_readStart_append {cursor : Int} {blocks added : List Block}
    {block : Block} (cursorNotAdded : cursor ∉ added.map Block.blockId)
    (pending : block ∈ readStart cursor blocks) :
    block ∈ readStart cursor (blocks ++ added) := by
  unfold readStart at pending ⊢
  split
  · simp_all
  · rename_i valid
    rw [if_neg valid] at pending
    rw [afterBlockId_append]
    cases found : afterBlockId cursor blocks with
    | some rest =>
        rw [found, Option.getD_some] at pending
        simp [pending]
    | none =>
        rw [found, Option.getD_none] at pending
        rw [(afterBlockId_eq_none_iff cursor added).mpr cursorNotAdded]
        simp [pending]

/-- Removing a contiguous part of the blocks keeps every remaining block a
read would still return: if the cursor's block went, the read restarts. -/
theorem mem_readStart_remove {cursor : Int} {front removed back : List Block}
    {block : Block} (distinct : DistinctIds (front ++ removed ++ back))
    (kept : block ∈ front ++ back)
    (pending : block ∈ readStart cursor (front ++ removed ++ back)) :
    block ∈ readStart cursor (front ++ back) := by
  unfold readStart at pending ⊢
  split
  · exact kept
  · rename_i valid
    rw [if_neg valid] at pending
    have nodup := distinct
    unfold DistinctIds at nodup
    rw [List.map_append, List.map_append, List.nodup_append,
      List.nodup_append] at nodup
    have notRemoved : block ∉ removed := by
      intro member
      rcases List.mem_append.mp kept with inFront | inBack
      · exact nodup.1.2.2 _ (List.mem_map_of_mem inFront) _
          (List.mem_map_of_mem member) rfl
      · exact nodup.2.2 _ (List.mem_append.mpr (Or.inr (List.mem_map_of_mem member)))
          _ (List.mem_map_of_mem inBack) rfl
    rw [List.append_assoc, afterBlockId_append, afterBlockId_append] at pending
    rw [afterBlockId_append]
    cases inFront : afterBlockId cursor front with
    | some rest =>
        simp only [inFront, Option.getD_some, List.mem_append] at pending ⊢
        tauto
    | none =>
        simp only [inFront] at pending ⊢
        cases inRemoved : afterBlockId cursor removed with
        | some rest =>
            have cursorInRemoved : cursor ∈ removed.map Block.blockId := by
              by_contra absent
              rw [(afterBlockId_eq_none_iff cursor removed).mpr absent] at inRemoved
              cases inRemoved
            have cursorNotBack : cursor ∉ back.map Block.blockId := by
              intro inBack
              exact nodup.2.2 _ (List.mem_append.mpr (Or.inr cursorInRemoved)) _
                inBack rfl
            rw [(afterBlockId_eq_none_iff cursor back).mpr cursorNotBack,
              Option.getD_none]
            exact kept
        | none =>
            simp only [inRemoved] at pending
            cases inBack : afterBlockId cursor back with
            | some rest =>
                simp only [inBack, Option.getD_some] at pending ⊢
                exact pending
            | none =>
                simp only [Option.getD_none]
                exact kept

/-! ## The reader against a changing buffer -/

/-- The reader's loop variables and the buffer it reads.  `startBlocks` is
the scan order when the loop started; no step changes it. -/
structure ReaderState where
  buffer : MemoryBuffer
  cursor : Int
  returned : List Block
  finished : Bool
  startBlocks : List Block
  deriving DecidableEq, Repr

/-- A page call of the reader, or an operation on the buffer between two
page calls.  `spill` leaves the map's entries in place and puts the new
flight last; `spillRelayout layout` lets the map iterate its keys in the
order `layout` after the insert. -/
inductive ReaderAction where
  | page
  | append (blocks : List Block) (size : Nat)
  | spill
  | spillRelayout (layout : List Nat)
  | clear (flightId flightSize : Nat)
  deriving DecidableEq, Repr

/-- The flight entries in the iteration order `layout`, when `layout` lists
their keys. -/
def relayout (layout : List Nat) (entries : List (Nat × List (List Block))) :
    Option (List (Nat × List (List Block))) :=
  if (entries.map Prod.fst).Perm layout then
    some (layout.filterMap fun key => entries.find? fun entry => entry.1 = key)
  else none

/-- Appended blocks carry ids new to the run: distinct, not `-1`, not the
reader's cursor, and neither the id of a block the buffer holds nor of one it
held when the read began. -/
def FreshBlocks (state : ReaderState) (blocks : List Block) : Prop :=
  DistinctIds blocks ∧
    ∀ block ∈ blocks,
      block.blockId ≠ invalidBlockId ∧ block.blockId ≠ state.cursor ∧
        block.blockId ∉ state.buffer.scanOrder.map Block.blockId ∧
          block.blockId ∉ state.startBlocks.map Block.blockId

instance (state : ReaderState) (blocks : List Block) :
    Decidable (FreshBlocks state blocks) :=
  inferInstanceAs (Decidable (_ ∧ _))

def readerNext (batchLen : Int) (taskIds : Option Treemap) (state : ReaderState) :
    ReaderAction → Option ReaderState
  | .page =>
      if state.finished then none
      else
        let page := (readBlocks state.cursor batchLen taskIds state.buffer).readResult
        match page.getLast? with
        | none => some { state with finished := true }
        | some last =>
            some { state with cursor := last.blockId, returned := state.returned ++ page }
  | .append blocks size =>
      if FreshBlocks state blocks ∧ LengthsFit (state.buffer.scanOrder ++ blocks) then
        some { state with buffer := state.buffer.append blocks size }
      else none
  | .spill => some { state with buffer := state.buffer.spill.1 }
  | .spillRelayout layout =>
      let spilled := state.buffer.spill.1
      (relayout layout spilled.flight).map fun flight =>
        { state with buffer := { spilled with flight := flight } }
  | .clear flightId flightSize =>
      some { state with buffer := state.buffer.clear flightId flightSize }

/-- No step changes the blocks the loop started with. -/
theorem readerNext_startBlocks {batchLen : Int} {taskIds : Option Treemap}
    {state next : ReaderState} {action : ReaderAction}
    (fired : readerNext batchLen taskIds state action = some next) :
    next.startBlocks = state.startBlocks := by
  cases action with
  | page =>
      simp only [readerNext] at fired
      split at fired
      · cases fired
      · split at fired <;> (cases fired; rfl)
  | append blocks size =>
      simp only [readerNext] at fired
      split at fired
      · cases fired
        rfl
      · cases fired
  | spill =>
      cases fired
      rfl
  | spillRelayout layout =>
      obtain ⟨flight, _, rfl⟩ := Option.map_eq_some_iff.mp fired
      rfl
  | clear flightId flightSize =>
      cases fired
      rfl

theorem startBlocks_of_reachable {batchLen : Int} {taskIds : Option Treemap}
    {allowed : ReaderState → ReaderAction → Prop} {source state : ReaderState}
    (reached : Relation.ReflTransGen
      (Transition.Steps (readerNext batchLen taskIds) allowed) source state) :
    state.startBlocks = source.startBlocks := by
  induction reached with
  | refl =>
      rfl
  | tail _ last inductionHypothesis =>
      obtain ⟨action, _, fired⟩ := last
      rw [readerNext_startBlocks fired, inductionHypothesis]

def readerStart (buffer : MemoryBuffer) : ReaderState :=
  ⟨buffer, invalidBlockId, [], false, buffer.scanOrder⟩

/-- The actions of a map that never re-lays out its existing entries. -/
def KeepsLayout : ReaderAction → Prop
  | .spillRelayout _ => False
  | _ => True

/-- What the reader maintains: distinct valid ids whose lengths fit an `i64`
total, fresh flight ids, and every start block that passes the filter and is
still buffered is returned or lies after the cursor. -/
structure ReaderInvariant (taskIds : Option Treemap) (state : ReaderState) :
    Prop where
  distinct : DistinctIds state.buffer.scanOrder
  fits : LengthsFit state.buffer.scanOrder
  valid : ∀ block ∈ state.buffer.scanOrder, block.blockId ≠ invalidBlockId
  belowCounter : FlightIdsBelowCounter state.buffer
  covered : ∀ block ∈ state.startBlocks, passesFilter taskIds block = true →
    block ∈ state.buffer.scanOrder →
      block ∈ state.returned ∨
        (state.finished = false ∧ block ∈ readStart state.cursor state.buffer.scanOrder)

section ReaderInvariant

variable {batchLen : Int} {taskIds : Option Treemap}

theorem readerInvariant_start {buffer : MemoryBuffer}
    (distinct : DistinctIds buffer.scanOrder) (fits : LengthsFit buffer.scanOrder)
    (valid : ∀ block ∈ buffer.scanOrder, block.blockId ≠ invalidBlockId)
    (belowCounter : FlightIdsBelowCounter buffer) :
    ReaderInvariant taskIds (readerStart buffer) := by
  refine ⟨distinct, fits, valid, belowCounter, ?_⟩
  intro block _ _ buffered
  right
  simpa [readerStart, readStart] using buffered

theorem readerInvariant_page (positive : 0 < batchLen) {state next : ReaderState}
    (invariant : ReaderInvariant taskIds state)
    (fired : readerNext batchLen taskIds state .page = some next) :
    ReaderInvariant taskIds next := by
  have running : state.finished = false := by
    cases finishedEq : state.finished
    · rfl
    · simp [readerNext, finishedEq] at fired
  have pageBlocks :=
    @readBlocks_readResult state.cursor batchLen taskIds state.buffer invariant.fits
  generalize pageEq :
    (readBlocks state.cursor batchLen taskIds state.buffer).readResult = page
    at pageBlocks
  have filteredSplit :
      (readStart state.cursor state.buffer.scanOrder).filter (passesFilter taskIds) =
        page ++ ((readStart state.cursor state.buffer.scanOrder).filter
          (passesFilter taskIds)).drop page.length := by
    rw [pageBlocks]
    exact (takePage_append_drop batchLen 0 _).symm
  cases lastEq : page.getLast? with
  | none =>
      -- an empty page: nothing that passes the filter is left after the cursor
      simp only [readerNext, running, Bool.false_eq_true, if_false, pageEq,
        lastEq, Option.some.injEq] at fired
      subst fired
      refine ⟨invariant.distinct, invariant.fits, invariant.valid, invariant.belowCounter, ?_⟩
      intro block start kept buffered
      rcases invariant.covered block start kept buffered with returned | ⟨_, pending⟩
      · exact Or.inl returned
      · have emptyPage : page = [] := List.getLast?_eq_none_iff.mp lastEq
        have filteredMember : block ∈
            (readStart state.cursor state.buffer.scanOrder).filter
              (passesFilter taskIds) :=
          List.mem_filter.mpr ⟨pending, kept⟩
        rw [filteredSplit, emptyPage, List.nil_append, List.length_nil,
          List.drop_zero] at filteredMember
        rw [emptyPage] at pageBlocks
        generalize remainingEq : (readStart state.cursor state.buffer.scanOrder).filter
          (passesFilter taskIds) = remaining at pageBlocks filteredMember
        cases remaining with
        | nil => cases filteredMember
        | cons first others =>
            rw [takePage_cons_of_pos positive] at pageBlocks
            cases pageBlocks
  | some last =>
      -- a page was returned: the cursor moves to its last block
      simp only [readerNext, running, Bool.false_eq_true, if_false, pageEq,
        lastEq, Option.some.injEq] at fired
      subst fired
      refine ⟨invariant.distinct, invariant.fits, invariant.valid, invariant.belowCounter, ?_⟩
      intro block start kept buffered
      rcases invariant.covered block start kept buffered with returned | ⟨_, pending⟩
      · exact Or.inl (List.mem_append_left _ returned)
      · have nonempty : page ≠ [] := by
          intro empty
          rw [empty] at lastEq
          cases lastEq
        have lastIsLast : page.getLast nonempty = last := by
          rw [List.getLast?_eq_some_getLast nonempty] at lastEq
          exact Option.some.inj lastEq
        have resumed := readStart_after_page invariant.distinct invariant.valid
          (readStart_suffix state.cursor state.buffer.scanOrder) filteredSplit nonempty
        have filteredMember : block ∈
            (readStart state.cursor state.buffer.scanOrder).filter
              (passesFilter taskIds) :=
          List.mem_filter.mpr ⟨pending, kept⟩
        rw [filteredSplit] at filteredMember
        rcases List.mem_append.mp filteredMember with inPage | later
        · exact Or.inl (List.mem_append_right _ inPage)
        · right
          refine ⟨rfl, ?_⟩
          rw [← resumed, lastIsLast] at later
          exact (List.mem_filter.mp later).1

theorem readerInvariant_append {state next : ReaderState} {blocks : List Block}
    {size : Nat} (invariant : ReaderInvariant taskIds state)
    (fired : readerNext batchLen taskIds state (.append blocks size) = some next) :
    ReaderInvariant taskIds next := by
  by_cases fresh : FreshBlocks state blocks ∧ LengthsFit (state.buffer.scanOrder ++ blocks)
  · simp only [readerNext, fresh, and_self, if_true, Option.some.injEq] at fired
    subst fired
    obtain ⟨⟨blocksDistinct, blocksFresh⟩, fits⟩ := fresh
    refine ⟨?_, by rw [scanOrder_append]; exact fits, ?_, invariant.belowCounter, ?_⟩
    · show DistinctIds (state.buffer.append blocks size).scanOrder
      rw [scanOrder_append]
      unfold DistinctIds at blocksDistinct ⊢
      rw [List.map_append, List.nodup_append]
      refine ⟨invariant.distinct, blocksDistinct, ?_⟩
      intro old oldMember new newMember same
      obtain ⟨block, blockMember, rfl⟩ := List.mem_map.mp newMember
      exact (blocksFresh block blockMember).2.2.1 (same ▸ oldMember)
    · intro block member
      simp only [scanOrder_append, List.mem_append] at member
      rcases member with old | new
      · exact invariant.valid block old
      · exact (blocksFresh block new).1
    · intro block start kept buffered
      simp only [scanOrder_append, List.mem_append] at buffered
      rcases buffered with old | new
      · rcases invariant.covered block start kept old with returned | ⟨running, pending⟩
        · exact Or.inl returned
        · right
          refine ⟨running, ?_⟩
          have cursorNotAdded : state.cursor ∉ blocks.map Block.blockId := by
            intro member
            obtain ⟨added, addedMember, sameId⟩ := List.mem_map.mp member
            exact (blocksFresh added addedMember).2.1 sameId
          show block ∈ readStart state.cursor (state.buffer.append blocks size).scanOrder
          rw [scanOrder_append]
          exact mem_readStart_append cursorNotAdded pending
      · exact absurd (List.mem_map_of_mem start) (blocksFresh block new).2.2.2
  · simp [readerNext, fresh] at fired

theorem readerInvariant_spill {state next : ReaderState}
    (invariant : ReaderInvariant taskIds state)
    (fired : readerNext batchLen taskIds state .spill = some next) :
    ReaderInvariant taskIds next := by
  simp only [readerNext, Option.some.injEq] at fired
  subst fired
  have sameOrder := scanOrder_spill invariant.belowCounter
  refine ⟨?_, ?_, ?_, flightIdsBelowCounter_spill invariant.belowCounter, ?_⟩
  · show DistinctIds state.buffer.spill.1.scanOrder
    rw [sameOrder]
    exact invariant.distinct
  · show LengthsFit state.buffer.spill.1.scanOrder
    rw [sameOrder]
    exact invariant.fits
  · show ∀ block ∈ state.buffer.spill.1.scanOrder, block.blockId ≠ invalidBlockId
    rw [sameOrder]
    exact invariant.valid
  · show ∀ block ∈ state.startBlocks, passesFilter taskIds block = true →
      block ∈ state.buffer.spill.1.scanOrder →
        block ∈ state.returned ∨
          (state.finished = false ∧
            block ∈ readStart state.cursor state.buffer.spill.1.scanOrder)
    rw [sameOrder]
    exact invariant.covered

theorem readerInvariant_clear {state next : ReaderState} {flightId flightSize : Nat}
    (invariant : ReaderInvariant taskIds state)
    (fired : readerNext batchLen taskIds state (.clear flightId flightSize) = some next) :
    ReaderInvariant taskIds next := by
  simp only [readerNext, Option.some.injEq] at fired
  subst fired
  have belowCounter := flightIdsBelowCounter_clear invariant.belowCounter flightId flightSize
  rcases scanOrder_clear state.buffer flightId flightSize with unchanged |
      ⟨front, removed, back, before, after⟩
  · refine ⟨?_, ?_, ?_, belowCounter, ?_⟩
    · show DistinctIds (state.buffer.clear flightId flightSize).scanOrder
      rw [unchanged]
      exact invariant.distinct
    · show LengthsFit (state.buffer.clear flightId flightSize).scanOrder
      rw [unchanged]
      exact invariant.fits
    · show ∀ block ∈ (state.buffer.clear flightId flightSize).scanOrder,
        block.blockId ≠ invalidBlockId
      rw [unchanged]
      exact invariant.valid
    · show ∀ block ∈ state.startBlocks, passesFilter taskIds block = true →
        block ∈ (state.buffer.clear flightId flightSize).scanOrder →
          block ∈ state.returned ∨
            (state.finished = false ∧
              block ∈ readStart state.cursor
                (state.buffer.clear flightId flightSize).scanOrder)
      rw [unchanged]
      exact invariant.covered
  · have shrinks : List.Sublist (front ++ back) (front ++ removed ++ back) := by
      simp
    have distinctBefore := invariant.distinct
    rw [before] at distinctBefore
    refine ⟨?_, ?_, ?_, belowCounter, ?_⟩
    · show DistinctIds (state.buffer.clear flightId flightSize).scanOrder
      rw [after]
      exact distinctBefore.sublist (shrinks.map Block.blockId)
    · show LengthsFit (state.buffer.clear flightId flightSize).scanOrder
      rw [after]
      exact invariant.fits.sublist (before ▸ shrinks)
    · intro block member
      rw [after] at member
      exact invariant.valid block (before ▸ shrinks.subset member)
    · intro block start kept buffered
      rw [after] at buffered
      rcases invariant.covered block start kept (before ▸ shrinks.subset buffered) with
        returned | ⟨running, pending⟩
      · exact Or.inl returned
      · right
        refine ⟨running, ?_⟩
        show block ∈ readStart state.cursor (state.buffer.clear flightId flightSize).scanOrder
        rw [before] at pending
        rw [after]
        exact mem_readStart_remove distinctBefore buffered pending

/-- Every action of a map that keeps its layout preserves the invariant. -/
theorem readerInvariant_step (positive : 0 < batchLen) {state next : ReaderState}
    {action : ReaderAction} (keeps : KeepsLayout action)
    (invariant : ReaderInvariant taskIds state)
    (fired : readerNext batchLen taskIds state action = some next) :
    ReaderInvariant taskIds next := by
  cases action with
  | page => exact readerInvariant_page positive invariant fired
  | append blocks size => exact readerInvariant_append invariant fired
  | spill => exact readerInvariant_spill invariant fired
  | spillRelayout layout => exact keeps.elim
  | clear flightId flightSize => exact readerInvariant_clear invariant fired

theorem readerInvariant_of_reachable (positive : 0 < batchLen) {buffer : MemoryBuffer}
    (distinct : DistinctIds buffer.scanOrder) (fits : LengthsFit buffer.scanOrder)
    (valid : ∀ block ∈ buffer.scanOrder, block.blockId ≠ invalidBlockId)
    (belowCounter : FlightIdsBelowCounter buffer) {state : ReaderState}
    (reached : Relation.ReflTransGen
      (Transition.Steps (readerNext batchLen taskIds) fun _ => KeepsLayout) (readerStart buffer) state) :
    ReaderInvariant taskIds state := by
  refine Transition.invariant_of_steps ?_ reached
    (readerInvariant_start distinct fits valid belowCounter)
  intro source target action keeps invariant fired
  exact readerInvariant_step positive keeps invariant fired

end ReaderInvariant

/-! ## Both halves of the read contract -/

theorem readAllPages_start {buffer : MemoryBuffer} {batchLen : Int}
    {taskIds : Option Treemap} (positive : 0 < batchLen)
    (distinct : DistinctIds buffer.scanOrder)
    (valid : ∀ block ∈ buffer.scanOrder, block.blockId ≠ invalidBlockId)
    (fits : LengthsFit buffer.scanOrder) :
    readAllPages buffer batchLen taskIds
        ((buffer.scanOrder.filter (passesFilter taskIds)).length + 1) invalidBlockId =
      some ((paginate batchLen positive
        (buffer.scanOrder.filter (passesFilter taskIds))).map pageAnswer) := by
  have fromStart : readStart invalidBlockId buffer.scanOrder = buffer.scanOrder := by
    simp [readStart]
  have loop := @readAllPages_from buffer batchLen taskIds positive distinct valid fits
    ((buffer.scanOrder.filter (passesFilter taskIds)).length + 1) invalidBlockId
  rw [fromStart] at loop
  exact loop (Nat.lt_succ_self _)

/-- The contract of the paginated read, for blocks whose declared lengths
sum within the `i64` range: over a fixed buffer the loop ends with pages that
cut the filtered scan order by `takePage`; against a changing buffer whose
flight map keeps its layout and whose appends keep the lengths within that
range, a finished loop has returned every start block that passes the filter
and is still buffered. -/
theorem pagedRead_covers_buffer {batchLen : Int} (positive : 0 < batchLen)
    (taskIds : Option Treemap) (buffer : MemoryBuffer)
    (distinct : DistinctIds buffer.scanOrder)
    (valid : ∀ block ∈ buffer.scanOrder, block.blockId ≠ invalidBlockId)
    (belowCounter : FlightIdsBelowCounter buffer) (fits : LengthsFit buffer.scanOrder) :
    (∃ pages : List (List Block),
      readAllPages buffer batchLen taskIds
          ((buffer.scanOrder.filter (passesFilter taskIds)).length + 1) invalidBlockId =
        some (pages.map pageAnswer) ∧
      pages.flatten = buffer.scanOrder.filter (passesFilter taskIds) ∧
      ∀ front page back, pages = front ++ page :: back →
        StopsAtBatchLen batchLen page (page ++ back.flatten)) ∧
    ∀ state, Relation.ReflTransGen
        (Transition.Steps (readerNext batchLen taskIds) fun _ => KeepsLayout)
        (readerStart buffer) state →
      state.finished = true →
      ∀ block ∈ buffer.scanOrder, passesFilter taskIds block = true →
        block ∈ state.returned ∨ block ∉ state.buffer.scanOrder := by
  constructor
  · refine ⟨paginate batchLen positive (buffer.scanOrder.filter (passesFilter taskIds)),
      readAllPages_start positive distinct valid fits, flatten_paginate positive _, ?_⟩
    intro front page back split
    exact paginate_stops positive _ front page back split
  · intro state reached finished block start kept
    have invariant : ReaderInvariant taskIds state :=
      readerInvariant_of_reachable positive distinct fits valid belowCounter reached
    have sameStart : state.startBlocks = buffer.scanOrder :=
      startBlocks_of_reachable reached
    by_cases buffered : block ∈ state.buffer.scanOrder
    · rcases invariant.covered block (sameStart ▸ start) kept buffered with
        returned | ⟨running, _⟩
      · exact Or.inl returned
      · rw [finished] at running
        cases running
    · exact Or.inr buffered

/-- Two staging batches of which the first has been spilled. -/
def spilledThenAppended : MemoryBuffer :=
  ((new.append [⟨1, 1, 1, 0, [0], 0⟩, ⟨2, 1, 1, 0, [0], 0⟩] 2).spill.1.append
    [⟨3, 1, 1, 0, [0], 0⟩] 1)

theorem pagedRead_covers_spilledThenAppended :
    DistinctIds spilledThenAppended.scanOrder ∧
    (∀ block ∈ spilledThenAppended.scanOrder, block.blockId ≠ invalidBlockId) ∧
    FlightIdsBelowCounter spilledThenAppended ∧ LengthsFit spilledThenAppended.scanOrder ∧
    ((∃ pages : List (List Block),
      readAllPages spilledThenAppended 1 none
          ((spilledThenAppended.scanOrder.filter (passesFilter none)).length + 1)
          invalidBlockId =
        some (pages.map pageAnswer) ∧
      pages.flatten = spilledThenAppended.scanOrder.filter (passesFilter none) ∧
      ∀ front page back, pages = front ++ page :: back →
        StopsAtBatchLen 1 page (page ++ back.flatten)) ∧
    ∀ state, Relation.ReflTransGen
        (Transition.Steps (readerNext 1 none) fun _ => KeepsLayout)
        (readerStart spilledThenAppended) state →
      state.finished = true →
      ∀ block ∈ spilledThenAppended.scanOrder, passesFilter none block = true →
        block ∈ state.returned ∨ block ∉ state.buffer.scanOrder) := by
  have distinct : DistinctIds spilledThenAppended.scanOrder := by decide
  have valid : ∀ block ∈ spilledThenAppended.scanOrder,
      block.blockId ≠ invalidBlockId := by decide
  have belowCounter : FlightIdsBelowCounter spilledThenAppended :=
    flightIdsBelowCounter_append
      (flightIdsBelowCounter_spill (flightIdsBelowCounter_append flightIdsBelowCounter_new _ _))
      _ _
  have fits : LengthsFit spilledThenAppended.scanOrder := by decide
  exact ⟨distinct, valid, belowCounter, fits,
    pagedRead_covers_buffer (by decide) none spilledThenAppended distinct valid belowCounter fits⟩

/-- A spill whose insert puts the new flight before the cursor's flight: the
reader finishes without the block that moved, though it is still buffered. -/
theorem reader_skips_after_relayout :
    ∃ state, Relation.ReflTransGen
        (Transition.Steps (readerNext 1 none) fun _ _ => True)
        (readerStart spilledThenAppended) state ∧
      state.finished = true ∧
      ∃ block ∈ spilledThenAppended.scanOrder, passesFilter none block = true ∧
        block ∉ state.returned ∧ block ∈ state.buffer.scanOrder := by
  have replay : Transition.run (readerNext 1 none) (readerStart spilledThenAppended)
      [.page, .spillRelayout [1, 0], .page, .page] = some _ := rfl
  refine ⟨_, Transition.reflTransGen_of_run (fun _ _ _ => trivial) replay, ?_⟩
  decide

end MemoryBuffer

end Riffle.Store
