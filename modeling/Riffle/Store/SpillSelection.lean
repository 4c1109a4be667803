import Riffle.Lib.SortedGroups
import Riffle.Store.MemoryStore

/-!
# The buffers a watermark spill picks

`HybridStore::watermark_spill` asks `MemoryStore::lookup_spill_buffers`
(memory.rs) for buffers holding at least `expected_spill_total_bytes` of
staged data.  The lookup groups the partitions of a snapshot of the store's
map by staging size in a `BTreeMap`, skipping those with nothing staged, and
walks the sizes from the largest down.  Before each partition it stops once
the running `i64` total has reached the target; a partition whose buffer has
left the map meanwhile is skipped.

The nested loops leave together, so they are one scan over the partitions in
descending order of size (`scanGroups_eq`).  While the store's map is the
snapshot, the sizes are not negative and their total fits `i64`, the scan
takes the shortest prefix of that order that reaches the target
(`scanEntries_takesShortest`).  A negative staging size, which `append` produces
from a `u64` size of `2^63` or more, is skipped by the `== 0` test only when
it is zero: it is sorted last, and the scan stops before it once the
positive sizes reach the target (`lookupSpillBuffers_skips_negative`).
-/

namespace Riffle.Store

open Riffle.FixedWidth Riffle.KeyedTotal Riffle.SortedGroups

/-- The loop variables of `lookup_spill_buffers`: `real_spill_total_bytes`,
`spill_candidates` and whether `break 'outer` has run.  The candidates are a
`HashMap` keyed by partition; the snapshot's keys are distinct, so they are
kept as the list of insertions. -/
structure SpillScan where
  realSpillTotalBytes : Int
  spillCandidates : List (PartitionedUId × MemoryBuffer)
  stopped : Bool

namespace MemoryStore

/-- The `BTreeMap` of `lookup_spill_buffers`: the partitions of the snapshot
grouped by staging size, ascending, without the empty ones. -/
def sortedTreeMap (buffers : AList fun _ : PartitionedUId => MemoryBuffer) :
    List (Int × List PartitionedUId) :=
  buffers.entries.foldl (fun groups buffer =>
    if buffer.2.stagingSize = 0 then groups
    else push buffer.2.stagingSize buffer.1 groups) []

/-- The inner loop over the partitions of one staging size, each paired with
that size. -/
def scanEntries (store : MemoryStore) (expectedSpillTotalBytes : Int) :
    SpillScan → List (PartitionedUId × Int) → SpillScan
  | scan, [] => scan
  | scan, (pid, size) :: rest =>
      if expectedSpillTotalBytes ≤ scan.realSpillTotalBytes then { scan with stopped := true }
      else
        match store.getBuffer pid with
        | none => scanEntries store expectedSpillTotalBytes scan rest
        | some buffer =>
            scanEntries store expectedSpillTotalBytes
              { scan with
                realSpillTotalBytes := wrapSigned 64 (scan.realSpillTotalBytes + size)
                spillCandidates := scan.spillCandidates ++ [(pid, buffer)] }
              rest

/-- The labelled outer loop over the staging sizes, largest first. -/
def scanGroups (store : MemoryStore) (expectedSpillTotalBytes : Int) :
    SpillScan → List (Int × List PartitionedUId) → SpillScan
  | scan, [] => scan
  | scan, (size, vals) :: rest =>
      let scanned := scanEntries store expectedSpillTotalBytes scan (vals.map fun pid => (pid, size))
      if scanned.stopped then scanned else scanGroups store expectedSpillTotalBytes scanned rest

/-- `MemoryStore::lookup_spill_buffers`; `buffers` is the snapshot
`self.state.clone().into_read_only()`, and `get_buffer` reads the store's map
again. -/
def lookupSpillBuffers (store : MemoryStore)
    (buffers : AList fun _ : PartitionedUId => MemoryBuffer) (expectedSpillTotalBytes : Int) :
    List (PartitionedUId × MemoryBuffer) :=
  (scanGroups store expectedSpillTotalBytes ⟨0, [], false⟩
    (sortedTreeMap buffers).reverse).spillCandidates

/-! ## The loops as one scan -/

section Scan

variable (store : MemoryStore) (expectedSpillTotalBytes : Int)

/-- The map holds the snapshot's partitions with something staged, pushed in
the snapshot's order. -/
theorem sortedTreeMap_eq (buffers : AList fun _ : PartitionedUId => MemoryBuffer) :
    sortedTreeMap buffers = pushAll ((buffers.entries.map fun buffer =>
      (buffer.1, buffer.2.stagingSize)).filter fun entry => entry.2 ≠ 0) [] := by
  have general : ∀ (items : List (Sigma fun _ : PartitionedUId => MemoryBuffer)) groups,
      items.foldl (fun groups buffer =>
          if buffer.2.stagingSize = 0 then groups
          else push buffer.2.stagingSize buffer.1 groups) groups =
        pushAll ((items.map fun buffer => (buffer.1, buffer.2.stagingSize)).filter
          fun entry => entry.2 ≠ 0) groups := by
    intro items
    induction items with
    | nil =>
        intro groups
        rfl
    | cons buffer rest inductionHypothesis =>
        intro groups
        by_cases empty : buffer.2.stagingSize = 0 <;> simp [empty, inductionHypothesis]
  exact general buffers.entries []

/-- Once the scan has run past a list, the rest of the scan continues from
where it ended, unless it broke out. -/
theorem scanEntries_append :
    ∀ {scan : SpillScan} (front back : List (PartitionedUId × Int)), scan.stopped = false →
      scanEntries store expectedSpillTotalBytes scan (front ++ back) =
        if (scanEntries store expectedSpillTotalBytes scan front).stopped then
          scanEntries store expectedSpillTotalBytes scan front
        else
          scanEntries store expectedSpillTotalBytes
            (scanEntries store expectedSpillTotalBytes scan front) back
  | scan, [], back, running => by
      simp [scanEntries, running]
  | scan, (pid, size) :: rest, back, running => by
      simp only [List.cons_append, scanEntries]
      split
      · simp
      · split
        · exact scanEntries_append rest back running
        · exact scanEntries_append rest back running

/-- The labelled break leaves both loops, so the nesting is invisible: the
scan of the groups is the scan of their entries. -/
theorem scanGroups_eq :
    ∀ {scan : SpillScan} (groups : List (Int × List PartitionedUId)), scan.stopped = false →
      scanGroups store expectedSpillTotalBytes scan groups =
        scanEntries store expectedSpillTotalBytes scan (entries groups)
  | scan, [], _ => rfl
  | scan, (size, vals) :: rest, running => by
      rw [scanGroups, entries_cons, scanEntries_append _ _ _ _ running]
      split
      · rfl
      · rename_i continued
        exact scanGroups_eq rest (Bool.eq_false_iff.mpr continued)

theorem lookupSpillBuffers_eq (buffers : AList fun _ : PartitionedUId => MemoryBuffer) :
    store.lookupSpillBuffers buffers expectedSpillTotalBytes =
      (scanEntries store expectedSpillTotalBytes ⟨0, [], false⟩
        (entries (sortedTreeMap buffers).reverse)).spillCandidates := by
  rw [lookupSpillBuffers, scanGroups_eq _ _ _ rfl]

/-- Every candidate is the buffer the store's map holds for its partition. -/
theorem scanEntries_found :
    ∀ {scan : SpillScan} (order : List (PartitionedUId × Int)),
      (∀ candidate ∈ scan.spillCandidates, store.getBuffer candidate.1 = some candidate.2) →
      ∀ candidate ∈ (scanEntries store expectedSpillTotalBytes scan order).spillCandidates,
        store.getBuffer candidate.1 = some candidate.2
  | scan, [], found => found
  | scan, (pid, size) :: rest, found => by
      simp only [scanEntries]
      split
      · exact found
      · split
        · exact scanEntries_found rest found
        · rename_i buffer lookedUp
          refine scanEntries_found rest fun candidate member => ?_
          rcases List.mem_append.mp member with old | new
          · exact found candidate old
          · rw [List.mem_singleton.mp new]
            exact lookedUp

/-- The scan takes the shortest prefix of its order whose sizes reach the
target, or all of it: the running total is the sum of the prefix taken, as
long as no partition has left the map, no size is negative and the total
stays in the `i64` range. -/
theorem scanEntries_takesShortest :
    ∀ {order : List (PartitionedUId × Int)} {scan : SpillScan},
      (∀ entry ∈ order, store.getBuffer entry.1 ≠ none) → (∀ entry ∈ order, 0 ≤ entry.2) →
      0 ≤ scan.realSpillTotalBytes →
      scan.realSpillTotalBytes + (order.map Prod.snd).sum < 2 ^ 63 →
      ∃ k ≤ order.length,
        (scanEntries store expectedSpillTotalBytes scan order).spillCandidates.map Prod.fst =
            scan.spillCandidates.map Prod.fst ++ (order.take k).map Prod.fst ∧
          (∀ j < k, scan.realSpillTotalBytes + ((order.take j).map Prod.snd).sum <
            expectedSpillTotalBytes) ∧
          (k = order.length ∨
            expectedSpillTotalBytes ≤ scan.realSpillTotalBytes + ((order.take k).map Prod.snd).sum)
  | [], scan, _, _, _, _ => ⟨0, le_refl _, by simp [scanEntries], by simp, Or.inl rfl⟩
  | (pid, size) :: rest, scan, present, nonneg, scanNonneg, fits => by
      have sizeNonneg : 0 ≤ size := nonneg _ List.mem_cons_self
      have restNonneg : ∀ entry ∈ rest, 0 ≤ entry.2 :=
        fun entry member => nonneg entry (List.mem_cons_of_mem _ member)
      have restSumNonneg : 0 ≤ (rest.map Prod.snd).sum :=
        List.sum_nonneg fun size member => by
          obtain ⟨entry, entryMember, rfl⟩ := List.mem_map.mp member
          exact restNonneg entry entryMember
      rw [List.map_cons, List.sum_cons] at fits
      by_cases reached : expectedSpillTotalBytes ≤ scan.realSpillTotalBytes
      · -- the break runs before this partition
        refine ⟨0, Nat.zero_le _, ?_, by simp, Or.inr (by simpa using reached)⟩
        simp [scanEntries, reached]
      · obtain ⟨buffer, found⟩ := Option.ne_none_iff_exists'.mp (present _ List.mem_cons_self)
        have noWrap : wrapSigned 64 (scan.realSpillTotalBytes + size) =
            scan.realSpillTotalBytes + size :=
          wrapSigned_of_inRange (by decide) ⟨by norm_num; omega, by norm_num; omega⟩
        obtain ⟨k, atMost, candidates, below, stops⟩ :=
          @scanEntries_takesShortest rest { scan with
              realSpillTotalBytes := wrapSigned 64 (scan.realSpillTotalBytes + size)
              spillCandidates := scan.spillCandidates ++ [(pid, buffer)] }
            (fun entry member => present entry (List.mem_cons_of_mem _ member)) restNonneg
            (by simp only [noWrap]; omega) (by simp only [noWrap]; omega)
        refine ⟨k + 1, by simpa using atMost, ?_, ?_, ?_⟩
        · simp only [scanEntries, reached, if_false, found]
          rw [candidates]
          simp
        · intro j jBelow
          cases j with
          | zero =>
              simpa using not_le.mp reached
          | succ j =>
              have shorter := below j (by omega)
              simp only [noWrap] at shorter
              simp only [List.take_succ_cons, List.map_cons, List.sum_cons]
              omega
        · rcases stops with whole | enough
          · exact Or.inl (by simp [whole])
          · simp only [noWrap] at enough
            simp only [List.take_succ_cons, List.map_cons, List.sum_cons]
            omega

end Scan

/-! ## The order of the scan -/

section Order

variable (buffers : AList fun _ : PartitionedUId => MemoryBuffer)

/-- The scan visits each partition with something staged once. -/
theorem perm_sortedTreeMap :
    (entries (sortedTreeMap buffers).reverse).Perm
      ((buffers.entries.map fun buffer => (buffer.1, buffer.2.stagingSize)).filter
        fun entry => entry.2 ≠ 0) := by
  have pushed := entries_pushAll ((buffers.entries.map fun buffer =>
    (buffer.1, buffer.2.stagingSize)).filter fun entry => entry.2 ≠ 0) []
  rw [entries_nil, List.append_nil, ← sortedTreeMap_eq] at pushed
  exact ((List.reverse_perm _).flatMap_right _).trans pushed

/-- The scan visits the partitions by descending staging size. -/
theorem pairwise_sortedTreeMap :
    (entries (sortedTreeMap buffers).reverse).Pairwise fun first second => second.2 ≤ first.2 := by
  rw [sortedTreeMap_eq]
  exact entries_reverse_pairwise (keys_pushAll _ List.Pairwise.nil)

end Order

end MemoryStore

open MemoryStore in
theorem lookupSpillBuffers_shortest_prefix (store : MemoryStore) (expectedSpillTotalBytes : Int)
    (nonneg : ∀ pid buffer, store.getBuffer pid = some buffer → 0 ≤ buffer.stagingSize)
    (fits : total (fun _ buffer => buffer.stagingSize) store.state < 2 ^ 63) :
    ∃ order : List (PartitionedUId × Int),
      order.Perm ((store.state.entries.map fun buffer => (buffer.1, buffer.2.stagingSize)).filter
        fun entry => entry.2 ≠ 0) ∧
      order.Pairwise (fun first second => second.2 ≤ first.2) ∧
      ∃ k ≤ order.length,
        (store.lookupSpillBuffers store.state expectedSpillTotalBytes).map Prod.fst =
            (order.take k).map Prod.fst ∧
          (∀ candidate ∈ store.lookupSpillBuffers store.state expectedSpillTotalBytes,
            store.getBuffer candidate.1 = some candidate.2) ∧
          (∀ j < k, ((order.take j).map Prod.snd).sum < expectedSpillTotalBytes) ∧
          (k = order.length ∨ expectedSpillTotalBytes ≤ ((order.take k).map Prod.snd).sum) ∧
          ((order.map Prod.snd).sum < expectedSpillTotalBytes → k = order.length) ∧
          (∀ selected ∈ order.take k, ∀ unselected ∈ order.drop k,
            unselected.2 ≤ selected.2) ∧
          (0 < k → ((order.take (k - 1)).map Prod.snd).sum < expectedSpillTotalBytes) := by
  set order := entries (sortedTreeMap store.state).reverse with orderEq
  have perm := perm_sortedTreeMap store.state
  have sorted := pairwise_sortedTreeMap store.state
  -- every partition of the order is in the map, with its staging size
  have fromMap : ∀ entry ∈ order, ∃ buffer, store.getBuffer entry.1 = some buffer ∧
      buffer.stagingSize = entry.2 := by
    intro entry member
    obtain ⟨mapped, -⟩ := List.mem_filter.mp (perm.subset member)
    obtain ⟨buffer, bufferMember, rfl⟩ := List.mem_map.mp mapped
    exact ⟨buffer.2, AList.mem_lookup_iff.mpr bufferMember, rfl⟩
  have present : ∀ entry ∈ order, store.getBuffer entry.1 ≠ none := fun entry member => by
    obtain ⟨buffer, found, -⟩ := fromMap entry member
    simp [found]
  have orderNonneg : ∀ entry ∈ order, 0 ≤ entry.2 := fun entry member => by
    obtain ⟨buffer, found, sameSize⟩ := fromMap entry member
    exact sameSize ▸ nonneg entry.1 buffer found
  have sizesNonneg : ∀ size ∈ order.map Prod.snd, 0 ≤ size := fun size member => by
    obtain ⟨entry, entryMember, rfl⟩ := List.mem_map.mp member
    exact orderNonneg entry entryMember
  -- the order's sizes are those of the map without the zeros
  have orderSum : (order.map Prod.snd).sum ≤ total (fun _ buffer => buffer.stagingSize) store.state := by
    have allNonneg : ∀ size ∈ (store.state.entries.map fun buffer =>
        (buffer.1, buffer.2.stagingSize)).map Prod.snd, 0 ≤ size := fun size member => by
      simp only [List.map_map, List.mem_map, Function.comp_apply] at member
      obtain ⟨buffer, bufferMember, rfl⟩ := member
      exact nonneg buffer.1 buffer.2 (AList.mem_lookup_iff.mpr bufferMember)
    calc (order.map Prod.snd).sum
        = (((store.state.entries.map fun buffer => (buffer.1, buffer.2.stagingSize)).filter
            fun entry => entry.2 ≠ 0).map Prod.snd).sum := (perm.map Prod.snd).sum_eq
      _ ≤ ((store.state.entries.map fun buffer =>
            (buffer.1, buffer.2.stagingSize)).map Prod.snd).sum :=
          (List.filter_sublist.map Prod.snd).sum_le_sum allNonneg
      _ = total (fun _ buffer => buffer.stagingSize) store.state := by
          simp [total, List.map_map, Function.comp_def]
  obtain ⟨k, atMost, candidates, below, stops⟩ :=
    @scanEntries_takesShortest store expectedSpillTotalBytes order ⟨0, [], false⟩ present orderNonneg
      le_rfl (by simp only [Int.zero_add]; omega)
  have takeSum : ((order.take k).map Prod.snd).sum ≤ (order.map Prod.snd).sum :=
    ((List.take_sublist k order).map Prod.snd).sum_le_sum sizesNonneg
  refine ⟨order, perm, sorted, k, atMost, ?_, ?_, ?_, ?_, ?_, ?_, ?_⟩
  · rw [lookupSpillBuffers_eq, candidates]
    simp
  · rw [lookupSpillBuffers_eq]
    exact scanEntries_found store expectedSpillTotalBytes order (by simp)
  · intro j jBelow
    simpa using below j jBelow
  · simpa using stops
  · intro short
    rcases stops with whole | enough
    · exact whole
    · simp only [Int.zero_add] at enough
      omega
  · -- the order is sorted across the cut
    have split : (order.take k ++ order.drop k).Pairwise
        fun first second => second.2 ≤ first.2 := by
      rw [List.take_append_drop]
      exact sorted
    exact (List.pairwise_append.mp split).2.2
  · intro positive
    simpa using below (k - 1) (by omega)

/-- Three partitions with 30, 0 and 10 bytes staged. -/
def sampleStore : MemoryStore :=
  { MemoryStore.new 100 with
    state := (((∅ : AList fun _ : PartitionedUId => MemoryBuffer).insert ⟨"app", 1, 0⟩
      (MemoryBuffer.new.append [] 30)).insert ⟨"app", 1, 1⟩ MemoryBuffer.new).insert
        ⟨"app", 1, 2⟩ (MemoryBuffer.new.append [] 10) }

theorem lookupSpillBuffers_shortest_prefix_sampleStore :
    ∃ order : List (PartitionedUId × Int),
      order.Pairwise (fun first second => second.2 ≤ first.2) ∧
      ∃ k ≤ order.length,
        (sampleStore.lookupSpillBuffers sampleStore.state 25).map Prod.fst =
          (order.take k).map Prod.fst := by
  have allNonneg : ∀ buffer ∈ sampleStore.state.entries, 0 ≤ buffer.2.stagingSize := by
    decide
  obtain ⟨order, -, sorted, k, atMost, selected, -⟩ :=
    lookupSpillBuffers_shortest_prefix sampleStore 25
      (fun pid buffer found => allNonneg ⟨pid, buffer⟩ (AList.mem_lookup_iff.mp found))
      (by decide)
  exact ⟨order, sorted, k, atMost, selected⟩

/-- A buffer that was appended `2^64 - 20` bytes holds `-20` staged bytes.
Beside one holding 10, the total staged is `-10`, below a target of 5, yet
the lookup returns only the first buffer: the scan stops once the 10 bytes
reach the target, before the negative size sorted last. -/
theorem lookupSpillBuffers_skips_negative :
    let store : MemoryStore :=
      { MemoryStore.new 100 with
        state := ((∅ : AList fun _ : PartitionedUId => MemoryBuffer).insert ⟨"app", 1, 0⟩
          (MemoryBuffer.new.append [] 10)).insert ⟨"app", 1, 1⟩
            (MemoryBuffer.new.append [] (2 ^ 64 - 20)) }
    (store.lookupSpillBuffers store.state 5).map Prod.fst = [⟨"app", 1, 0⟩] ∧
      ((store.state.entries.map fun buffer => buffer.2.stagingSize).filter
        fun size => size ≠ 0) = [-20, 10] := by
  decide

end Riffle.Store
