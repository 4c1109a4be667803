import Mathlib.Data.Finset.Card
import Mathlib.Data.List.AList
import Riffle.Lib.FixedWidth
import Riffle.Lib.KeyedTotal
import Riffle.Lib.Transition
import Riffle.BlockId.IdLayout

/-!
# Block-id managers

An app keeps the block ids its clients report so that readers can ask which
blocks of a shuffle's partitions exist (block_id_manager.rs).  Two managers
implement the trait: `DefaultBlockIdManager` keeps one bitmap per
`(shuffle, partition)`, while `PartitionedBlockIdManager` keeps one bitmap per
shuffle and recovers the partition of each id from the client's `IdLayout`.
Both keep an `AtomicU64` count of the ids reported, which `App::purge`
subtracts from the `BLOCK_ID_NUMBER` gauge.

A roaring `Treemap` of `u64` is the `Finset (BitVec 64)` of its elements: ids
are `i64` on the wire and `u64` in the bitmap, and both casts keep the bits.
A `DashMap` of bitmaps is an `AList`; the managers run one request at a time.

The abstract layer `ReportedBlockIds` says what the managers are for: per
shuffle and partition, the ids reported since the shuffle was last purged.
`BlockIdManagers` runs both managers and that record side by side on the same
requests; the invariants below relate the three.
-/

namespace Riffle.BlockId

open Riffle.FixedWidth Riffle.KeyedTotal Riffle.Transition Riffle.BitField

/-! ## Requests, bitmaps and counters -/

structure ReportMultiBlockIdsContext where
  shuffleId : Int
  blockIds : AList fun _ : BitVec 32 => List (BitVec 64)

structure GetMultiBlockIdsContext where
  shuffleId : Int
  partitionIds : List (BitVec 32)
  layout : IdLayout

/-- Every id of a report, in the order the report loops visit them. -/
def ReportMultiBlockIdsContext.allBlockIds (ctx : ReportMultiBlockIdsContext) :
    List (BitVec 64) :=
  ctx.blockIds.entries.flatMap fun entry => entry.2

/-- The ids a report lists under one partition. -/
def ReportMultiBlockIdsContext.blockIdsOf (ctx : ReportMultiBlockIdsContext)
    (partitionId : BitVec 32) : List (BitVec 64) :=
  (ctx.blockIds.entries.filter fun entry => entry.1 = partitionId).flatMap fun entry => entry.2

/-- `AtomicU64::fetch_add`, which wraps around. -/
def fetchAdd (number delta : Nat) : Nat :=
  toUnsigned 64 ((number + delta : Nat) : Int)

/-- `AtomicU64::fetch_sub`, which wraps around. -/
def fetchSub (number delta : Nat) : Nat :=
  toUnsigned 64 ((number : Int) - delta)

/-- `Treemap::add` for each id of a list. -/
def addAll (treemap : Finset (BitVec 64)) (blockIds : List (BitVec 64)) : Finset (BitVec 64) :=
  blockIds.foldl (fun treemap blockId => insert blockId treemap) treemap

section Bitmaps

variable {κ : Type} [DecidableEq κ]

/-- The treemap stored under a key, empty when there is none. -/
def treemapOf (bitmaps : AList fun _ : κ => Finset (BitVec 64)) (key : κ) : Finset (BitVec 64) :=
  (bitmaps.lookup key).getD ∅

/-- `entry(key).or_insert_with(Treemap::new)`. -/
def entryOrInsertEmpty (bitmaps : AList fun _ : κ => Finset (BitVec 64)) (key : κ) :
    AList fun _ : κ => Finset (BitVec 64) :=
  if key ∈ bitmaps then bitmaps else bitmaps.insert key ∅

/-- The number of ids the bitmaps of a map hold together. -/
def storedCount (bitmaps : AList fun _ : κ => Finset (BitVec 64)) : Int :=
  total (fun _ treemap => (treemap.card : Int)) bitmaps

variable {bitmaps : AList fun _ : κ => Finset (BitVec 64)}

@[simp]
theorem treemapOf_empty (key : κ) : treemapOf (∅ : AList fun _ : κ => Finset (BitVec 64)) key = ∅ :=
  rfl

theorem treemapOf_insert (key key' : κ) (treemap : Finset (BitVec 64)) :
    treemapOf (bitmaps.insert key treemap) key' =
      if key' = key then treemap else treemapOf bitmaps key' := by
  by_cases same : key' = key
  · subst same
    simp [treemapOf]
  · simp [treemapOf, AList.lookup_insert_ne same, same]

theorem treemapOf_erase (key key' : κ) :
    treemapOf (bitmaps.erase key) key' = if key' = key then ∅ else treemapOf bitmaps key' := by
  by_cases same : key' = key
  · subst same
    simp [treemapOf]
  · simp [treemapOf, AList.lookup_erase_ne same, same]

theorem treemapOf_filter (keep : κ → Bool) (key : κ) :
    treemapOf (filter keep bitmaps) key = if keep key then treemapOf bitmaps key else ∅ := by
  unfold treemapOf
  rw [lookup_filter]
  split <;> rfl

@[simp]
theorem treemapOf_entryOrInsertEmpty (key key' : κ) :
    treemapOf (entryOrInsertEmpty bitmaps key) key' = treemapOf bitmaps key' := by
  unfold entryOrInsertEmpty
  split
  · rfl
  · next absent =>
      rw [treemapOf_insert]
      split
      · next same =>
          subst same
          have missing : bitmaps.lookup key' = none := AList.lookup_eq_none.mpr absent
          simp [treemapOf, missing]
      · rfl

/-- Storing a treemap under a key swaps the old one's ids for the new one's. -/
theorem storedCount_insert (key : κ) (treemap : Finset (BitVec 64)) :
    storedCount (bitmaps.insert key treemap) =
      storedCount bitmaps - (treemapOf bitmaps key).card + treemap.card := by
  unfold storedCount
  cases found : bitmaps.lookup key with
  | some old =>
      rw [total_insert_of_lookup _ _ found]
      simp [treemapOf, found]
  | none =>
      rw [total_insert_of_notMem _ _ (AList.lookup_eq_none.mp found)]
      simp [treemapOf, found]
      omega

theorem storedCount_erase (key : κ) :
    storedCount (bitmaps.erase key) = storedCount bitmaps - (treemapOf bitmaps key).card := by
  unfold storedCount
  cases found : bitmaps.lookup key with
  | some old =>
      rw [total_erase_of_lookup _ found]
      simp [treemapOf, found]
  | none =>
      rw [total_erase_of_notMem _ (AList.lookup_eq_none.mp found)]
      simp [treemapOf, found]

@[simp]
theorem storedCount_entryOrInsertEmpty (key : κ) :
    storedCount (entryOrInsertEmpty bitmaps key) = storedCount bitmaps := by
  unfold entryOrInsertEmpty
  split
  · rfl
  · next absent =>
      rw [storedCount_insert]
      have missing : bitmaps.lookup key = none := AList.lookup_eq_none.mpr absent
      simp [treemapOf, missing]

end Bitmaps

@[simp]
theorem addAll_eq_union (treemap : Finset (BitVec 64)) (blockIds : List (BitVec 64)) :
    addAll treemap blockIds = treemap ∪ blockIds.toFinset := by
  induction blockIds generalizing treemap with
  | nil =>
      simp [addAll]
  | cons blockId rest inductionHypothesis =>
      change addAll (insert blockId treemap) rest = _
      rw [inductionHypothesis, List.toFinset_cons, Finset.union_insert, Finset.insert_union]

/-- Adding fresh, distinct ids to a treemap adds their number to its cardinality. -/
theorem card_union_fresh {treemap : Finset (BitVec 64)} {blockIds : List (BitVec 64)}
    (distinct : blockIds.Nodup) (fresh : ∀ blockId ∈ blockIds, blockId ∉ treemap) :
    (treemap ∪ blockIds.toFinset).card = treemap.card + blockIds.length := by
  rw [Finset.card_union_of_disjoint, List.toFinset_card_of_nodup distinct]
  exact Finset.disjoint_left.mpr fun blockId stored listed =>
    fresh blockId (List.mem_toFinset.mp listed) stored

theorem fetchAdd_toUnsigned (stored : Int) (delta : Nat) :
    fetchAdd (toUnsigned 64 stored) delta = toUnsigned 64 (stored + delta) := by
  unfold fetchAdd
  push_cast
  exact toUnsigned_toUnsigned_add 64 stored delta

theorem fetchSub_toUnsigned (stored : Int) (delta : Nat) :
    fetchSub (toUnsigned 64 stored) delta = toUnsigned 64 (stored - delta) := by
  unfold fetchSub
  have shifted := toUnsigned_toUnsigned_add 64 stored (-(delta : Int))
  simpa [Int.sub_eq_add_neg] using shifted

/-! ## `PartitionedBlockIdManager` -/

structure PartitionedBlockIdManager where
  blockIdBitmap : AList fun _ : Int => Finset (BitVec 64)
  number : Nat

namespace PartitionedBlockIdManager

def empty : PartitionedBlockIdManager :=
  ⟨∅, 0⟩

/-- Keep the ids of the shuffle's treemap whose layout partition, cast to
`i32`, is one of the requested partitions. -/
def getMultiBlockIds (manager : PartitionedBlockIdManager) (ctx : GetMultiBlockIdsContext) :
    Finset (BitVec 64) × PartitionedBlockIdManager :=
  let blockIdBitmap := entryOrInsertEmpty manager.blockIdBitmap ctx.shuffleId
  let treemap := treemapOf blockIdBitmap ctx.shuffleId
  let retrieved := treemap.filter fun element =>
    (ctx.layout.getPartitionId element).setWidth 32 ∈ ctx.partitionIds
  (retrieved, { manager with blockIdBitmap })

/-- The report loop: count each partition's ids and add them to the treemap. -/
def reportLoop (entries : List (Sigma fun _ : BitVec 32 => List (BitVec 64))) (number : Nat)
    (treemap : Finset (BitVec 64)) : Nat × Finset (BitVec 64) :=
  entries.foldl (fun counted entry => (counted.1 + entry.2.length, addAll counted.2 entry.2))
    (number, treemap)

def reportMultiBlockIds (manager : PartitionedBlockIdManager) (ctx : ReportMultiBlockIdsContext) :
    Nat × PartitionedBlockIdManager :=
  let blockIdBitmap := entryOrInsertEmpty manager.blockIdBitmap ctx.shuffleId
  let counted := reportLoop ctx.blockIds.entries 0 (treemapOf blockIdBitmap ctx.shuffleId)
  (toUnsigned 64 counted.1,
    { blockIdBitmap := blockIdBitmap.insert ctx.shuffleId counted.2
      number := fetchAdd manager.number counted.1 })

def purgeBlockIds (manager : PartitionedBlockIdManager) (shuffleId : Int) :
    Nat × PartitionedBlockIdManager :=
  let purged := 0
  match manager.blockIdBitmap.lookup shuffleId with
  | some treemap =>
      -- the source's inner `let purged = map.cardinality()` shadows the outer
      -- binding: only the counter sees the cardinality
      (purged,
        { blockIdBitmap := manager.blockIdBitmap.erase shuffleId
          number := fetchSub manager.number treemap.card })
  | none => (purged, manager)

def getBlocksNumber (manager : PartitionedBlockIdManager) : Nat :=
  manager.number

theorem reportLoop_eq (entries : List (Sigma fun _ : BitVec 32 => List (BitVec 64)))
    (number : Nat) (treemap : Finset (BitVec 64)) :
    reportLoop entries number treemap =
      (number + (entries.flatMap fun entry => entry.2).length,
        treemap ∪ (entries.flatMap fun entry => entry.2).toFinset) := by
  induction entries generalizing number treemap with
  | nil =>
      simp [reportLoop]
  | cons entry rest inductionHypothesis =>
      change reportLoop rest (number + entry.2.length) (addAll treemap entry.2) = _
      rw [inductionHypothesis, addAll_eq_union, List.flatMap_cons, List.length_append,
        List.toFinset_append, Finset.union_assoc, Nat.add_assoc]

variable (manager : PartitionedBlockIdManager)

/-- The report, with its loop evaluated: all ids go into the shuffle's treemap. -/
theorem reportMultiBlockIds_eq (ctx : ReportMultiBlockIdsContext) :
    manager.reportMultiBlockIds ctx =
      (toUnsigned 64 ctx.allBlockIds.length,
        { blockIdBitmap := (entryOrInsertEmpty manager.blockIdBitmap ctx.shuffleId).insert
            ctx.shuffleId (treemapOf manager.blockIdBitmap ctx.shuffleId ∪ ctx.allBlockIds.toFinset)
          number := fetchAdd manager.number ctx.allBlockIds.length }) := by
  simp only [reportMultiBlockIds, reportLoop_eq, treemapOf_entryOrInsertEmpty, Nat.zero_add]
  rfl

theorem purgeBlockIds_of_lookup {shuffleId : Int} {treemap : Finset (BitVec 64)}
    (found : manager.blockIdBitmap.lookup shuffleId = some treemap) :
    manager.purgeBlockIds shuffleId =
      (0, { blockIdBitmap := manager.blockIdBitmap.erase shuffleId
            number := fetchSub manager.number treemap.card }) := by
  simp [purgeBlockIds, found]

theorem purgeBlockIds_of_notMem {shuffleId : Int}
    (absent : manager.blockIdBitmap.lookup shuffleId = none) :
    manager.purgeBlockIds shuffleId = (0, manager) := by
  simp [purgeBlockIds, absent]

theorem treemapOf_reportMultiBlockIds (ctx : ReportMultiBlockIdsContext) (shuffleId : Int) :
    treemapOf (manager.reportMultiBlockIds ctx).2.blockIdBitmap shuffleId =
      if shuffleId = ctx.shuffleId then
        treemapOf manager.blockIdBitmap shuffleId ∪ ctx.allBlockIds.toFinset
      else treemapOf manager.blockIdBitmap shuffleId := by
  rw [reportMultiBlockIds_eq, treemapOf_insert, treemapOf_entryOrInsertEmpty]
  split
  · next same =>
      subst same
      rfl
  · rfl

theorem getMultiBlockIds_fst (ctx : GetMultiBlockIdsContext) :
    (manager.getMultiBlockIds ctx).1 =
      (treemapOf manager.blockIdBitmap ctx.shuffleId).filter fun element =>
        (ctx.layout.getPartitionId element).setWidth 32 ∈ ctx.partitionIds := by
  simp [getMultiBlockIds]

@[simp]
theorem treemapOf_getMultiBlockIds (ctx : GetMultiBlockIdsContext) (shuffleId : Int) :
    treemapOf (manager.getMultiBlockIds ctx).2.blockIdBitmap shuffleId =
      treemapOf manager.blockIdBitmap shuffleId := by
  simp [getMultiBlockIds]

theorem treemapOf_purgeBlockIds (shuffleId key : Int) :
    treemapOf (manager.purgeBlockIds shuffleId).2.blockIdBitmap key =
      if key = shuffleId then ∅ else treemapOf manager.blockIdBitmap key := by
  cases found : manager.blockIdBitmap.lookup shuffleId with
  | some treemap =>
      rw [purgeBlockIds_of_lookup manager found]
      exact treemapOf_erase shuffleId key
  | none =>
      rw [purgeBlockIds_of_notMem manager found]
      split
      · next same =>
          subst same
          simp [treemapOf, found]
      · rfl

/-- The counter holds the number of ids the bitmaps store, modulo `2^64`. -/
def Counts : Prop :=
  manager.number = toUnsigned 64 (storedCount manager.blockIdBitmap)

variable {manager}

theorem Counts.getMultiBlockIds (counts : manager.Counts) (ctx : GetMultiBlockIdsContext) :
    (manager.getMultiBlockIds ctx).2.Counts := by
  simpa [PartitionedBlockIdManager.getMultiBlockIds, Counts] using counts

theorem Counts.purgeBlockIds (counts : manager.Counts) (shuffleId : Int) :
    (manager.purgeBlockIds shuffleId).2.Counts := by
  cases found : manager.blockIdBitmap.lookup shuffleId with
  | some treemap =>
      have stored : treemapOf manager.blockIdBitmap shuffleId = treemap := by
        simp [treemapOf, found]
      rw [purgeBlockIds_of_lookup manager found]
      unfold Counts
      rw [storedCount_erase, stored, counts, fetchSub_toUnsigned]
  | none =>
      rw [purgeBlockIds_of_notMem manager found]
      exact counts

/-- A report whose ids are distinct and new to the shuffle's treemap adds
their number to both the counter and the bitmaps. -/
theorem Counts.reportMultiBlockIds (counts : manager.Counts) {ctx : ReportMultiBlockIdsContext}
    (distinct : ctx.allBlockIds.Nodup)
    (fresh : ∀ blockId ∈ ctx.allBlockIds, blockId ∉ treemapOf manager.blockIdBitmap ctx.shuffleId) :
    (manager.reportMultiBlockIds ctx).2.Counts := by
  rw [reportMultiBlockIds_eq]
  unfold Counts
  rw [storedCount_insert, storedCount_entryOrInsertEmpty, treemapOf_entryOrInsertEmpty,
    card_union_fresh distinct fresh, counts, fetchAdd_toUnsigned]
  push_cast
  ring_nf

end PartitionedBlockIdManager

/-! ## `DefaultBlockIdManager` -/

structure DefaultBlockIdManager where
  number : Nat
  blockIdBitmap : AList fun _ : Int × BitVec 32 => Finset (BitVec 64)

namespace DefaultBlockIdManager

def empty : DefaultBlockIdManager :=
  ⟨0, ∅⟩

/-- The union of the bitmaps of the requested partitions. -/
def getMultiBlockIds (manager : DefaultBlockIdManager) (ctx : GetMultiBlockIdsContext) :
    Finset (BitVec 64) :=
  ctx.partitionIds.foldl
    (fun treemap pid =>
      match manager.blockIdBitmap.lookup (ctx.shuffleId, pid) with
      | some bitmap => treemap ∪ bitmap
      | none => treemap)
    ∅

/-- One turn of the report loop: count a partition's ids and add them to its
bitmap, created empty if needed. -/
def reportPartition (shuffleId : Int)
    (counted : Nat × AList fun _ : Int × BitVec 32 => Finset (BitVec 64))
    (entry : Sigma fun _ : BitVec 32 => List (BitVec 64)) :
    Nat × AList fun _ : Int × BitVec 32 => Finset (BitVec 64) :=
  let blockIdBitmap := entryOrInsertEmpty counted.2 (shuffleId, entry.1)
  (counted.1 + entry.2.length,
    blockIdBitmap.insert (shuffleId, entry.1)
      (addAll (treemapOf blockIdBitmap (shuffleId, entry.1)) entry.2))

def reportMultiBlockIds (manager : DefaultBlockIdManager) (ctx : ReportMultiBlockIdsContext) :
    Nat × DefaultBlockIdManager :=
  let counted := ctx.blockIds.entries.foldl (reportPartition ctx.shuffleId)
    (0, manager.blockIdBitmap)
  (toUnsigned 64 counted.1,
    { number := fetchAdd manager.number counted.1
      blockIdBitmap := counted.2 })

/-- Collect the keys of the shuffle, then remove them one by one and add up
the cardinalities of the removed bitmaps. -/
def purgeBlockIds (manager : DefaultBlockIdManager) (shuffleId : Int) :
    Nat × DefaultBlockIdManager :=
  let deletionKeys := manager.blockIdBitmap.keys.filter fun key => key.1 = shuffleId
  let removed := deletionKeys.foldl (removeWeighed fun _ bitmap => (bitmap.card : Int))
    (0, manager.blockIdBitmap)
  let number := toUnsigned 64 removed.1
  (number,
    { number := fetchSub manager.number number
      blockIdBitmap := removed.2 })

def getBlocksNumber (manager : DefaultBlockIdManager) : Nat :=
  manager.number

variable (manager : DefaultBlockIdManager)

/-- The get loop unions the requested partitions' bitmaps. -/
theorem getMultiBlockIds_eq (ctx : GetMultiBlockIdsContext) :
    manager.getMultiBlockIds ctx =
      ctx.partitionIds.toFinset.biUnion fun pid => treemapOf manager.blockIdBitmap (ctx.shuffleId, pid) := by
  -- the loop's accumulator is the union of the bitmaps seen so far
  have loop : ∀ (pids : List (BitVec 32)) (treemap : Finset (BitVec 64)),
      pids.foldl (fun treemap pid =>
        match manager.blockIdBitmap.lookup (ctx.shuffleId, pid) with
        | some bitmap => treemap ∪ bitmap
        | none => treemap) treemap =
      treemap ∪ pids.toFinset.biUnion fun pid => treemapOf manager.blockIdBitmap (ctx.shuffleId, pid) := by
    intro pids
    induction pids with
    | nil =>
        simp
    | cons pid rest inductionHypothesis =>
        intro treemap
        rw [List.foldl_cons, inductionHypothesis, List.toFinset_cons, Finset.biUnion_insert,
          ← Finset.union_assoc]
        cases found : manager.blockIdBitmap.lookup (ctx.shuffleId, pid) with
        | some bitmap =>
            simp [treemapOf, found]
        | none =>
            simp [treemapOf, found]
  rw [getMultiBlockIds, loop, Finset.empty_union]

theorem treemapOf_reportPartition (shuffleId : Int)
    (counted : Nat × AList fun _ : Int × BitVec 32 => Finset (BitVec 64))
    (entry : Sigma fun _ : BitVec 32 => List (BitVec 64)) (key : Int × BitVec 32) :
    treemapOf (reportPartition shuffleId counted entry).2 key =
      if key = (shuffleId, entry.1) then treemapOf counted.2 key ∪ entry.2.toFinset
      else treemapOf counted.2 key := by
  simp only [reportPartition, treemapOf_insert, treemapOf_entryOrInsertEmpty, addAll_eq_union]
  split
  · next same =>
      subst same
      rfl
  · rfl

/-- Over a whole report, each key gains the ids listed under its partition. -/
theorem treemapOf_foldl_reportPartition (shuffleId : Int)
    (entries : List (Sigma fun _ : BitVec 32 => List (BitVec 64))) (number : Nat)
    (bitmaps : AList fun _ : Int × BitVec 32 => Finset (BitVec 64)) (key : Int × BitVec 32) :
    treemapOf (entries.foldl (reportPartition shuffleId) (number, bitmaps)).2 key =
      if key.1 = shuffleId then
        treemapOf bitmaps key ∪
          ((entries.filter fun entry => entry.1 = key.2).flatMap fun entry => entry.2).toFinset
      else treemapOf bitmaps key := by
  induction entries generalizing number bitmaps with
  | nil =>
      simp
  | cons entry rest inductionHypothesis =>
      rw [List.foldl_cons]
      obtain ⟨keyShuffle, keyPartition⟩ := key
      rw [inductionHypothesis, treemapOf_reportPartition]
      by_cases sameShuffle : keyShuffle = shuffleId
      · subst sameShuffle
        by_cases samePartition : keyPartition = entry.1
        · subst samePartition
          simp [Finset.union_assoc]
        · have differs : entry.1 ≠ keyPartition := Ne.symm samePartition
          simp [samePartition, differs]
      · simp [sameShuffle]

theorem foldl_reportPartition_fst (shuffleId : Int)
    (entries : List (Sigma fun _ : BitVec 32 => List (BitVec 64))) (number : Nat)
    (bitmaps : AList fun _ : Int × BitVec 32 => Finset (BitVec 64)) :
    (entries.foldl (reportPartition shuffleId) (number, bitmaps)).1 =
      number + (entries.flatMap fun entry => entry.2).length := by
  induction entries generalizing number bitmaps with
  | nil =>
      simp
  | cons entry rest inductionHypothesis =>
      rw [List.foldl_cons]
      change (rest.foldl (reportPartition shuffleId)
        (number + entry.2.length, (reportPartition shuffleId (number, bitmaps) entry).2)).1 = _
      rw [inductionHypothesis, List.flatMap_cons, List.length_append, Nat.add_assoc]

/-- Over a report whose ids are distinct and new to the shuffle, the bitmaps
gain exactly one id per listed id. -/
theorem storedCount_foldl_reportPartition (shuffleId : Int)
    (entries : List (Sigma fun _ : BitVec 32 => List (BitVec 64))) (number : Nat)
    (bitmaps : AList fun _ : Int × BitVec 32 => Finset (BitVec 64))
    (distinct : (entries.flatMap fun entry => entry.2).Nodup)
    (fresh : ∀ blockId ∈ entries.flatMap (fun entry => entry.2), ∀ pid,
      blockId ∉ treemapOf bitmaps (shuffleId, pid)) :
    storedCount (entries.foldl (reportPartition shuffleId) (number, bitmaps)).2 =
      storedCount bitmaps + (entries.flatMap fun entry => entry.2).length := by
  induction entries generalizing number bitmaps with
  | nil =>
      simp
  | cons entry rest inductionHypothesis =>
      rw [List.flatMap_cons, List.nodup_append] at distinct
      obtain ⟨entryDistinct, restDistinct, apart⟩ := distinct
      have entryFresh : ∀ blockId ∈ entry.2, blockId ∉ treemapOf bitmaps (shuffleId, entry.1) :=
        fun blockId listed => fresh blockId (by simp [List.flatMap_cons, listed]) entry.1
      -- the rest of the report stays new to the bitmaps this partition changed
      have restFresh : ∀ blockId ∈ rest.flatMap (fun entry => entry.2), ∀ pid,
          blockId ∉ treemapOf (reportPartition shuffleId (number, bitmaps) entry).2
            (shuffleId, pid) := by
        intro blockId listed pid
        rw [treemapOf_reportPartition]
        have old := fresh blockId (by simp only [List.flatMap_cons, List.mem_append]; exact .inr listed) pid
        have notInEntry : blockId ∉ entry.2 := fun inEntry => apart blockId inEntry blockId listed rfl
        split <;> simp [old, notInEntry]
      have stepCount : storedCount (reportPartition shuffleId (number, bitmaps) entry).2 =
          storedCount bitmaps + entry.2.length := by
        simp only [reportPartition, storedCount_insert, storedCount_entryOrInsertEmpty,
          treemapOf_entryOrInsertEmpty, addAll_eq_union, card_union_fresh entryDistinct entryFresh]
        push_cast
        ring
      rw [List.foldl_cons]
      change storedCount (rest.foldl (reportPartition shuffleId)
        (number + entry.2.length, (reportPartition shuffleId (number, bitmaps) entry).2)).2 = _
      rw [inductionHypothesis _ _ restDistinct restFresh, stepCount, List.flatMap_cons,
        List.length_append]
      push_cast
      ring

/-- The purge, with its loop evaluated: the shuffle's keys are gone and the
number it returns is what their bitmaps held. -/
theorem purgeBlockIds_eq (shuffleId : Int) :
    manager.purgeBlockIds shuffleId =
      (toUnsigned 64 (storedCount (filter (fun key => decide (key.1 = shuffleId))
          manager.blockIdBitmap)),
        { number := fetchSub manager.number (toUnsigned 64 (storedCount
            (filter (fun key => decide (key.1 = shuffleId)) manager.blockIdBitmap)))
          blockIdBitmap := filter (fun key => !decide (key.1 = shuffleId))
            manager.blockIdBitmap }) := by
  -- the listed keys are exactly the keys of the shuffle
  have listed : ∀ key ∈ manager.blockIdBitmap,
      (key ∈ manager.blockIdBitmap.keys.filter fun key => key.1 = shuffleId) ↔
        decide (key.1 = shuffleId) = true :=
    fun key present => by simp [AList.mem_keys.mp present]
  simp only [purgeBlockIds, foldl_removeWeighed_of_listed _ listed, Int.zero_add]
  rfl

@[simp]
theorem treemapOf_purgeBlockIds (shuffleId : Int) (key : Int × BitVec 32) :
    treemapOf (manager.purgeBlockIds shuffleId).2.blockIdBitmap key =
      if key.1 = shuffleId then ∅ else treemapOf manager.blockIdBitmap key := by
  rw [purgeBlockIds_eq, treemapOf_filter]
  by_cases same : key.1 = shuffleId <;> simp [same]

/-- The purge returns the number of ids that left the bitmaps, modulo `2^64`. -/
theorem purgeBlockIds_fst (shuffleId : Int) :
    (manager.purgeBlockIds shuffleId).1 =
      toUnsigned 64 (storedCount manager.blockIdBitmap -
        storedCount (manager.purgeBlockIds shuffleId).2.blockIdBitmap) := by
  have split := total_filter_add (fun _ treemap => (treemap.card : Int))
    (fun key : Int × BitVec 32 => decide (key.1 = shuffleId)) manager.blockIdBitmap
  rw [purgeBlockIds_eq]
  dsimp only
  unfold storedCount
  congr 1
  omega

/-- The counter holds the number of ids the bitmaps store, modulo `2^64`. -/
def Counts : Prop :=
  manager.number = toUnsigned 64 (storedCount manager.blockIdBitmap)

variable {manager}

theorem Counts.purgeBlockIds (counts : manager.Counts) (shuffleId : Int) :
    (manager.purgeBlockIds shuffleId).2.Counts := by
  have removed := manager.purgeBlockIds_fst shuffleId
  rw [purgeBlockIds_eq] at removed ⊢
  unfold Counts
  dsimp only at removed ⊢
  rw [removed, counts, fetchSub_toUnsigned, toUnsigned_sub_toUnsigned]
  congr 1
  ring

theorem Counts.reportMultiBlockIds (counts : manager.Counts) {ctx : ReportMultiBlockIdsContext}
    (distinct : ctx.allBlockIds.Nodup)
    (fresh : ∀ blockId ∈ ctx.allBlockIds, ∀ pid,
      blockId ∉ treemapOf manager.blockIdBitmap (ctx.shuffleId, pid)) :
    (manager.reportMultiBlockIds ctx).2.Counts := by
  unfold DefaultBlockIdManager.reportMultiBlockIds Counts
  dsimp only
  rw [foldl_reportPartition_fst, storedCount_foldl_reportPartition _ _ _ _ distinct fresh, counts,
    Nat.zero_add, fetchAdd_toUnsigned]

theorem treemapOf_reportMultiBlockIds (ctx : ReportMultiBlockIdsContext) (shuffleId : Int)
    (pid : BitVec 32) :
    treemapOf (manager.reportMultiBlockIds ctx).2.blockIdBitmap (shuffleId, pid) =
      if shuffleId = ctx.shuffleId then
        treemapOf manager.blockIdBitmap (shuffleId, pid) ∪ (ctx.blockIdsOf pid).toFinset
      else treemapOf manager.blockIdBitmap (shuffleId, pid) :=
  treemapOf_foldl_reportPartition ctx.shuffleId ctx.blockIds.entries 0 manager.blockIdBitmap
    (shuffleId, pid)

end DefaultBlockIdManager

theorem ReportMultiBlockIdsContext.mem_allBlockIds {ctx : ReportMultiBlockIdsContext}
    {blockId : BitVec 64} : blockId ∈ ctx.allBlockIds ↔ ∃ pid, blockId ∈ ctx.blockIdsOf pid := by
  simp only [allBlockIds, blockIdsOf, List.mem_flatMap, List.mem_filter, decide_eq_true_eq]
  constructor
  · rintro ⟨entry, listed, member⟩
    exact ⟨entry.1, entry, ⟨listed, rfl⟩, member⟩
  · rintro ⟨_, entry, ⟨listed, _⟩, member⟩
    exact ⟨entry, listed, member⟩

/-! ## What the managers are for -/

/-- Per shuffle and partition, the ids reported since the shuffle was last
purged. -/
structure ReportedBlockIds where
  ids : Int → BitVec 32 → Finset (BitVec 64)

namespace ReportedBlockIds

def empty : ReportedBlockIds :=
  ⟨fun _ _ => ∅⟩

def report (reported : ReportedBlockIds) (ctx : ReportMultiBlockIdsContext) : ReportedBlockIds :=
  ⟨fun shuffleId pid =>
    if shuffleId = ctx.shuffleId then reported.ids shuffleId pid ∪ (ctx.blockIdsOf pid).toFinset
    else reported.ids shuffleId pid⟩

def purge (reported : ReportedBlockIds) (shuffleId : Int) : ReportedBlockIds :=
  ⟨fun shuffleId' pid => if shuffleId' = shuffleId then ∅ else reported.ids shuffleId' pid⟩

/-- What a reader asking for some partitions of a shuffle should get. -/
def get (reported : ReportedBlockIds) (shuffleId : Int) (partitionIds : List (BitVec 32)) :
    Finset (BitVec 64) :=
  partitionIds.toFinset.biUnion (reported.ids shuffleId)

end ReportedBlockIds

/-! ## Both managers on one sequence of requests -/

inductive BlockIdRequest where
  | report (ctx : ReportMultiBlockIdsContext)
  | get (ctx : GetMultiBlockIdsContext)
  | purge (shuffleId : Int)

/-- The two managers and the abstract record, fed the same requests. -/
structure BlockIdManagers where
  reported : ReportedBlockIds
  defaultManager : DefaultBlockIdManager
  partitionedManager : PartitionedBlockIdManager

namespace BlockIdManagers

def initial : BlockIdManagers :=
  ⟨ReportedBlockIds.empty, DefaultBlockIdManager.empty, PartitionedBlockIdManager.empty⟩

def handle (managers : BlockIdManagers) : BlockIdRequest → BlockIdManagers
  | .report ctx =>
      ⟨managers.reported.report ctx, (managers.defaultManager.reportMultiBlockIds ctx).2,
        (managers.partitionedManager.reportMultiBlockIds ctx).2⟩
  | .get ctx =>
      { managers with partitionedManager := (managers.partitionedManager.getMultiBlockIds ctx).2 }
  | .purge shuffleId =>
      ⟨managers.reported.purge shuffleId, (managers.defaultManager.purgeBlockIds shuffleId).2,
        (managers.partitionedManager.purgeBlockIds shuffleId).2⟩

def next (managers : BlockIdManagers) (request : BlockIdRequest) : Option BlockIdManagers :=
  some (managers.handle request)

/-- No report lists an id twice, or an id already reported for its shuffle
since the shuffle's last purge. -/
def ReportsFresh (managers : BlockIdManagers) : BlockIdRequest → Prop
  | .report ctx =>
      ctx.allBlockIds.Nodup ∧
        ∀ blockId ∈ ctx.allBlockIds, ∀ pid, blockId ∉ managers.reported.ids ctx.shuffleId pid
  | _ => True

/-- The client's layout contract: an id reported under a partition carries
that partition in the layout's partition field. -/
def FollowsLayout (layout : IdLayout) (_ : BlockIdManagers) : BlockIdRequest → Prop
  | .report ctx =>
      ∀ entry ∈ ctx.blockIds.entries, ∀ blockId ∈ entry.2,
        layout.getPartitionId blockId = entry.1.signExtend 64
  | _ => True

/-- The default manager's bitmaps are the abstract record. -/
def DefaultRefines (managers : BlockIdManagers) : Prop :=
  ∀ shuffleId pid, treemapOf managers.defaultManager.blockIdBitmap (shuffleId, pid) =
    managers.reported.ids shuffleId pid

/-- The partitioned manager's treemap of a shuffle holds the ids of all its
partitions. -/
def PartitionedRefines (managers : BlockIdManagers) : Prop :=
  ∀ shuffleId blockId, blockId ∈ treemapOf managers.partitionedManager.blockIdBitmap shuffleId ↔
    ∃ pid, blockId ∈ managers.reported.ids shuffleId pid

/-- Every recorded id carries its partition in the layout's partition field. -/
def RespectsLayout (layout : IdLayout) (managers : BlockIdManagers) : Prop :=
  ∀ shuffleId pid blockId, blockId ∈ managers.reported.ids shuffleId pid →
    layout.getPartitionId blockId = pid.signExtend 64

/-- Both counters hold the number of ids their bitmaps store. -/
def BothCount (managers : BlockIdManagers) : Prop :=
  managers.defaultManager.Counts ∧ managers.partitionedManager.Counts

theorem defaultRefines_initial : initial.DefaultRefines :=
  fun _ _ => rfl

theorem partitionedRefines_initial : initial.PartitionedRefines := by
  intro shuffleId blockId
  simp [initial, PartitionedBlockIdManager.empty, ReportedBlockIds.empty]

theorem respectsLayout_initial (layout : IdLayout) : initial.RespectsLayout layout := by
  intro shuffleId pid blockId member
  simp [initial, ReportedBlockIds.empty] at member

theorem bothCount_initial : initial.BothCount :=
  ⟨rfl, rfl⟩

variable {managers : BlockIdManagers}

theorem DefaultRefines.handle (refines : managers.DefaultRefines) (request : BlockIdRequest) :
    (managers.handle request).DefaultRefines := by
  intro shuffleId pid
  cases request with
  | report ctx =>
      simp only [BlockIdManagers.handle, DefaultBlockIdManager.treemapOf_reportMultiBlockIds,
        ReportedBlockIds.report, refines shuffleId pid]
  | get ctx =>
      exact refines shuffleId pid
  | purge purged =>
      simp only [BlockIdManagers.handle, DefaultBlockIdManager.treemapOf_purgeBlockIds,
        ReportedBlockIds.purge, refines shuffleId pid]

theorem PartitionedRefines.handle (refines : managers.PartitionedRefines)
    (request : BlockIdRequest) : (managers.handle request).PartitionedRefines := by
  intro shuffleId blockId
  cases request with
  | report ctx =>
      simp only [BlockIdManagers.handle, PartitionedBlockIdManager.treemapOf_reportMultiBlockIds,
        ReportedBlockIds.report]
      split
      · simp only [Finset.mem_union, refines shuffleId blockId, List.mem_toFinset,
          ReportMultiBlockIdsContext.mem_allBlockIds]
        constructor
        · rintro (⟨pid, stored⟩ | ⟨pid, listed⟩)
          · exact ⟨pid, .inl stored⟩
          · exact ⟨pid, .inr listed⟩
        · rintro ⟨pid, stored | listed⟩
          · exact .inl ⟨pid, stored⟩
          · exact .inr ⟨pid, listed⟩
      · exact refines shuffleId blockId
  | get ctx =>
      simp only [BlockIdManagers.handle, PartitionedBlockIdManager.treemapOf_getMultiBlockIds]
      exact refines shuffleId blockId
  | purge purged =>
      simp only [BlockIdManagers.handle, PartitionedBlockIdManager.treemapOf_purgeBlockIds,
        ReportedBlockIds.purge]
      split
      · simp
      · exact refines shuffleId blockId

theorem RespectsLayout.handle {layout : IdLayout} (respects : managers.RespectsLayout layout)
    {request : BlockIdRequest} (follows : FollowsLayout layout managers request) :
    (managers.handle request).RespectsLayout layout := by
  intro shuffleId pid blockId member
  cases request with
  | report ctx =>
      simp only [BlockIdManagers.handle, ReportedBlockIds.report] at member
      split at member
      · rcases Finset.mem_union.mp member with stored | listed
        · exact respects shuffleId pid blockId stored
        · -- a newly listed id comes from the report's entry for this partition
          simp only [ReportMultiBlockIdsContext.blockIdsOf, List.mem_toFinset, List.mem_flatMap,
            List.mem_filter, decide_eq_true_eq] at listed
          obtain ⟨entry, ⟨present, samePartition⟩, inEntry⟩ := listed
          rw [← samePartition]
          exact follows entry present blockId inEntry
      · exact respects shuffleId pid blockId member
  | get ctx =>
      exact respects shuffleId pid blockId member
  | purge purged =>
      simp only [BlockIdManagers.handle, ReportedBlockIds.purge] at member
      split at member
      · simp at member
      · exact respects shuffleId pid blockId member

theorem BothCount.handle (counts : managers.BothCount) (defaultRefines : managers.DefaultRefines)
    (partitionedRefines : managers.PartitionedRefines) {request : BlockIdRequest}
    (fresh : ReportsFresh managers request) : (managers.handle request).BothCount := by
  obtain ⟨defaultCounts, partitionedCounts⟩ := counts
  cases request with
  | report ctx =>
      obtain ⟨distinct, unreported⟩ := fresh
      refine ⟨defaultCounts.reportMultiBlockIds distinct fun blockId listed pid => ?_,
        partitionedCounts.reportMultiBlockIds distinct fun blockId listed => ?_⟩
      · rw [defaultRefines]
        exact unreported blockId listed pid
      · rw [partitionedRefines]
        rintro ⟨pid, stored⟩
        exact unreported blockId listed pid stored
  | get ctx =>
      exact ⟨defaultCounts, partitionedCounts.getMultiBlockIds ctx⟩
  | purge shuffleId =>
      exact ⟨defaultCounts.purgeBlockIds shuffleId, partitionedCounts.purgeBlockIds shuffleId⟩

/-- Along every run, whatever the requests, both managers store what the
abstract record holds. -/
theorem refines_of_reachable {allowed : BlockIdManagers → BlockIdRequest → Prop}
    (reached : Relation.ReflTransGen (Steps next allowed) initial managers) :
    managers.DefaultRefines ∧ managers.PartitionedRefines := by
  refine @invariant_of_steps _ _ next allowed
    (fun managers => managers.DefaultRefines ∧ managers.PartitionedRefines) ?_ _ _ reached
    ⟨defaultRefines_initial, partitionedRefines_initial⟩
  rintro source target request - ⟨defaultRefines, partitionedRefines⟩ fired
  cases fired
  exact ⟨defaultRefines.handle request, partitionedRefines.handle request⟩

theorem respectsLayout_of_reachable {layout : IdLayout}
    (reached : Relation.ReflTransGen (Steps next (FollowsLayout layout)) initial managers) :
    managers.RespectsLayout layout := by
  refine @invariant_of_steps _ _ next (FollowsLayout layout)
    (fun managers => managers.RespectsLayout layout) ?_ _ _ reached (respectsLayout_initial layout)
  rintro source target request follows respects fired
  cases fired
  exact respects.handle follows

theorem bothCount_of_reachable
    (reached : Relation.ReflTransGen (Steps next ReportsFresh) initial managers) :
    managers.BothCount := by
  refine @invariant_of_steps _ _ next ReportsFresh
    (fun managers => managers.BothCount ∧ managers.DefaultRefines ∧ managers.PartitionedRefines)
    ?_ _ _ reached ⟨bothCount_initial, defaultRefines_initial, partitionedRefines_initial⟩ |>.1
  rintro source target request fresh ⟨counts, defaultRefines, partitionedRefines⟩ fired
  cases fired
  exact ⟨counts.handle defaultRefines partitionedRefines fresh, defaultRefines.handle request,
    partitionedRefines.handle request⟩

theorem DefaultRefines.getMultiBlockIds (refines : managers.DefaultRefines)
    (ctx : GetMultiBlockIdsContext) :
    managers.defaultManager.getMultiBlockIds ctx =
      managers.reported.get ctx.shuffleId ctx.partitionIds := by
  rw [DefaultBlockIdManager.getMultiBlockIds_eq, ReportedBlockIds.get]
  exact Finset.biUnion_congr rfl fun pid _ => refines ctx.shuffleId pid

/-- Filtering the shuffle's treemap by the layout's partition field finds
the requested partitions' ids, because every id carries its partition. -/
theorem PartitionedRefines.getMultiBlockIds (refines : managers.PartitionedRefines)
    {ctx : GetMultiBlockIdsContext} (respects : managers.RespectsLayout ctx.layout) :
    (managers.partitionedManager.getMultiBlockIds ctx).1 =
      managers.reported.get ctx.shuffleId ctx.partitionIds := by
  rw [PartitionedBlockIdManager.getMultiBlockIds_fst, ReportedBlockIds.get]
  ext blockId
  simp only [Finset.mem_filter, refines ctx.shuffleId blockId, Finset.mem_biUnion,
    List.mem_toFinset]
  constructor
  · rintro ⟨⟨pid, stored⟩, requested⟩
    -- the partition field of a stored id is the partition it was reported under
    rw [respects ctx.shuffleId pid blockId stored, setWidth_signExtend_of_le (by decide)]
      at requested
    exact ⟨pid, requested, stored⟩
  · rintro ⟨pid, requested, stored⟩
    refine ⟨⟨pid, stored⟩, ?_⟩
    rw [respects ctx.shuffleId pid blockId stored, setWidth_signExtend_of_le (by decide)]
    exact requested

end BlockIdManagers

open BlockIdManagers in
theorem blockIdManagers_count_fresh_reports {managers : BlockIdManagers}
    (reached : Relation.ReflTransGen (Steps next ReportsFresh) initial managers) :
    managers.defaultManager.getBlocksNumber =
        toUnsigned 64 (storedCount managers.defaultManager.blockIdBitmap) ∧
      managers.partitionedManager.getBlocksNumber =
        toUnsigned 64 (storedCount managers.partitionedManager.blockIdBitmap) ∧
      ∀ shuffleId, (managers.defaultManager.purgeBlockIds shuffleId).1 =
        toUnsigned 64 (storedCount managers.defaultManager.blockIdBitmap -
          storedCount (managers.defaultManager.purgeBlockIds shuffleId).2.blockIdBitmap) := by
  obtain ⟨defaultCounts, partitionedCounts⟩ := bothCount_of_reachable reached
  exact ⟨defaultCounts, partitionedCounts, managers.defaultManager.purgeBlockIds_fst⟩

/-- Partition 0 of shuffle 1 reports blocks 5 and 7. -/
def sampleReport : ReportMultiBlockIdsContext :=
  ⟨1, (∅ : AList fun _ : BitVec 32 => List (BitVec 64)).insert 0 [5, 7]⟩

theorem blockIdManagers_count_fresh_reports_sampleReport :
    (BlockIdManagers.initial.handle (.report sampleReport)).defaultManager.getBlocksNumber =
        toUnsigned 64 (storedCount
          (BlockIdManagers.initial.handle (.report sampleReport)).defaultManager.blockIdBitmap) ∧
      (BlockIdManagers.initial.handle (.report sampleReport)).partitionedManager.getBlocksNumber =
        toUnsigned 64 (storedCount
          (BlockIdManagers.initial.handle (.report sampleReport)).partitionedManager.blockIdBitmap) ∧
      ∀ shuffleId,
        ((BlockIdManagers.initial.handle (.report sampleReport)).defaultManager.purgeBlockIds
            shuffleId).1 =
          toUnsigned 64 (storedCount
              (BlockIdManagers.initial.handle (.report sampleReport)).defaultManager.blockIdBitmap -
            storedCount ((BlockIdManagers.initial.handle
              (.report sampleReport)).defaultManager.purgeBlockIds shuffleId).2.blockIdBitmap) :=
  blockIdManagers_count_fresh_reports (Relation.ReflTransGen.single
    ⟨.report sampleReport, ⟨by decide, by simp [BlockIdManagers.initial, ReportedBlockIds.empty]⟩,
      rfl⟩)

/-- A retried task reports block 5 twice: both counters count it twice while
the bitmaps hold it once.  The partitioned manager's purge then removes the
shuffle's ids but returns 0. -/
theorem blockIdManagers_count_retried_report :
    let retried : ReportMultiBlockIdsContext :=
      ⟨1, (∅ : AList fun _ : BitVec 32 => List (BitVec 64)).insert 0 [5, 5]⟩
    let managers := BlockIdManagers.initial.handle (.report retried)
    managers.defaultManager.getBlocksNumber = 2 ∧
      storedCount managers.defaultManager.blockIdBitmap = 1 ∧
      managers.partitionedManager.getBlocksNumber = 2 ∧
      storedCount managers.partitionedManager.blockIdBitmap = 1 ∧
      (managers.partitionedManager.purgeBlockIds 1).1 = 0 ∧
      storedCount (managers.partitionedManager.purgeBlockIds 1).2.blockIdBitmap = 0 :=
  ⟨rfl, rfl, rfl, rfl, rfl, rfl⟩

open BlockIdManagers in
theorem blockIdManagers_agree_under_layout (layout : IdLayout) {managers : BlockIdManagers}
    (reached : Relation.ReflTransGen (Steps next (FollowsLayout layout)) initial managers)
    (shuffleId : Int) (partitionIds : List (BitVec 32)) :
    managers.defaultManager.getMultiBlockIds ⟨shuffleId, partitionIds, layout⟩ =
        (managers.partitionedManager.getMultiBlockIds ⟨shuffleId, partitionIds, layout⟩).1 ∧
      managers.defaultManager.getMultiBlockIds ⟨shuffleId, partitionIds, layout⟩ =
        managers.reported.get shuffleId partitionIds := by
  obtain ⟨defaultRefines, partitionedRefines⟩ := refines_of_reachable reached
  have partitionedAnswer :
      (managers.partitionedManager.getMultiBlockIds ⟨shuffleId, partitionIds, layout⟩).1 =
        managers.reported.get shuffleId partitionIds :=
    partitionedRefines.getMultiBlockIds (respectsLayout_of_reachable reached)
  rw [defaultRefines.getMultiBlockIds, partitionedAnswer]
  exact ⟨rfl, rfl⟩

/-- Partition 5 of shuffle 1 reports the default layout's block id of
sequence 3 and task 7. -/
def layoutReport : ReportMultiBlockIdsContext :=
  ⟨1, (∅ : AList fun _ : BitVec 32 => List (BitVec 64)).insert 5
    [(toLayout none).getBlockId 3 5 7]⟩

theorem blockIdManagers_agree_under_layout_layoutReport :
    (BlockIdManagers.initial.handle (.report layoutReport)).defaultManager.getMultiBlockIds
        ⟨1, [5, 6], toLayout none⟩ =
        ((BlockIdManagers.initial.handle (.report layoutReport)).partitionedManager.getMultiBlockIds
          ⟨1, [5, 6], toLayout none⟩).1 ∧
      (BlockIdManagers.initial.handle (.report layoutReport)).defaultManager.getMultiBlockIds
          ⟨1, [5, 6], toLayout none⟩ =
        (BlockIdManagers.initial.handle (.report layoutReport)).reported.get 1 [5, 6] :=
  have follows : BlockIdManagers.FollowsLayout (toLayout none) BlockIdManagers.initial
      (.report layoutReport) := by
    intro entry present blockId inEntry
    have single : entry = ⟨5, [(toLayout none).getBlockId 3 5 7]⟩ := by
      simpa [layoutReport] using present
    subst single
    simp only [List.mem_singleton] at inEntry
    subst inEntry
    rw [toLayout, fillsWord_default.getPartitionId_getBlockId ⟨by decide, by decide, by decide⟩]
    decide
  blockIdManagers_agree_under_layout (toLayout none)
    (Relation.ReflTransGen.single ⟨.report layoutReport, follows, rfl⟩) 1 [5, 6]

end Riffle.BlockId
