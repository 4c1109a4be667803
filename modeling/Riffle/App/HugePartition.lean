import Riffle.Lib.FixedWidth
import Riffle.Lib.KeyedTotal
import Riffle.Lib.Transition

/-!
# Counting huge partitions

An `App` (app.rs) keeps a `PartitionedMeta` per partition, an
`Arc<RwLock<..>>` holding the partition's size and whether it is marked huge,
in the `DashMap` `partition_meta_infos`, and counts the partitions it marks
in `huge_partition_number`; `GAUGE_HUGE_PARTITION_NUMBER{ALL}` is raised with
the count.  `App::is_huge_partition` reads the flag and the size under read
locks and marks under a write lock: two callers that both read before either
marks both mark and both count.  A shuffle-level `App::purge` lowers the
gauge by the huge partitions it removes but leaves `huge_partition_number`
as it was, and the app-level purge then lowers the gauge by that number
again.

The `Arc` a caller holds is named by `metaId`: a caller whose partition was
removed meanwhile writes to a meta the map no longer holds.  The reads of
`is_huge_partition` are one step (they only read, under read locks), the mark
under the write lock another, and `add_huge_partition_metric` a third:
`HugePartitions` records the callers that have passed the size test and not
yet marked, and those that have marked and not yet counted.
-/

namespace Riffle

open Riffle.FixedWidth Riffle.KeyedTotal Riffle.Transition

/-- `PartitionedMetaInner`; `metaId` names the `Arc` that holds it.
`is_split` is not read here. -/
structure PartitionedMeta where
  metaId : Nat
  totalSize : Nat
  isHugePartition : Bool
  deriving DecidableEq, Repr

/-- The fields of `App` that count huge partitions, keyed by
`(shuffle_id, partition_id)`. -/
structure App where
  partitionLimitEnable : Bool
  partitionMetaInfos : AList fun _ : Int × Int => PartitionedMeta
  hugePartitionNumber : Nat
  /-- What this app has added to `GAUGE_HUGE_PARTITION_NUMBER{ALL}`. -/
  gaugeHugePartitionNumber : Int
  /-- The name of the next `Arc` that `get_partition_meta` allocates. -/
  nextMetaId : Nat

/-- What `is_huge_partition` has found once it has read the flag and the
size. -/
inductive HugeCheck
  | notHuge
  | alreadyHuge
  | overThreshold (metaId : Nat)
  deriving DecidableEq, Repr

/-- The weight of a meta in the count of huge partitions. -/
def hugeWeight (_ : Int × Int) (partitionMeta : PartitionedMeta) : Int :=
  if partitionMeta.isHugePartition then 1 else 0

namespace App

/-- `App::get_partition_meta`: the meta of a partition, created under a fresh
`Arc` when absent. -/
def getPartitionMeta (app : App) (key : Int × Int) : PartitionedMeta × App :=
  match app.partitionMetaInfos.lookup key with
  | some partitionMeta => (partitionMeta, app)
  | none =>
      let partitionMeta : PartitionedMeta := ⟨app.nextMetaId, 0, false⟩
      (partitionMeta, { app with
        partitionMetaInfos := app.partitionMetaInfos.insert key partitionMeta
        nextMetaId := app.nextMetaId + 1 })

/-- A write through the `Arc` `metaId`: it reaches the map only while the map
still holds that `Arc` for the partition. -/
def updateMeta (app : App) (key : Int × Int) (metaId : Nat)
    (update : PartitionedMeta → PartitionedMeta) : App :=
  match app.partitionMetaInfos.lookup key with
  | some current =>
      if current.metaId = metaId then
        { app with partitionMetaInfos := app.partitionMetaInfos.insert key (update current) }
      else app
  | none => app

/-- `App::inc_partition_size`, called by `App::insert`: `inc_size(size as i32)`
adds `data_size as u64` to the `u64` size. -/
def incPartitionSize (app : App) (key : Int × Int) (size : Nat) : App :=
  let (partitionMeta, app) := app.getPartitionMeta key
  app.updateMeta key partitionMeta.metaId fun current =>
    { current with totalSize := (current.totalSize + toUnsigned 64 (wrapSigned 32 size)) % 2 ^ 64 }

/-- `App::add_huge_partition_metric`. -/
def addHugePartitionMetric (app : App) : App :=
  { app with
    hugePartitionNumber := toUnsigned 64 (app.hugePartitionNumber + 1)
    gaugeHugePartitionNumber := app.gaugeHugePartitionNumber + 1 }

/-- `App::sub_huge_partition_metric`: `sub(number as i64)` when the count is
positive. -/
def subHugePartitionMetric (app : App) : App :=
  if 0 < app.hugePartitionNumber then
    { app with
      gaugeHugePartitionNumber :=
        app.gaugeHugePartitionNumber - toSigned 64 app.hugePartitionNumber }
  else app

/-- The reads of `App::is_huge_partition` against a threshold read from the
configuration. -/
def checkHugePartition (app : App) (key : Int × Int) (threshold : Nat) : HugeCheck × App :=
  if !app.partitionLimitEnable then (.notHuge, app)
  else
    let (partitionMeta, app) := app.getPartitionMeta key
    if partitionMeta.isHugePartition then (.alreadyHuge, app)
    else if threshold < partitionMeta.totalSize then (.overThreshold partitionMeta.metaId, app)
    else (.notHuge, app)

/-- `PartitionedMeta::mark_as_huge_partition` through the `Arc` the caller
read. -/
def markAsHugePartition (app : App) (key : Int × Int) (metaId : Nat) : App :=
  app.updateMeta key metaId fun current => { current with isHugePartition := true }

/-- The tail of `App::is_huge_partition`: `mark_as_huge_partition` on the
meta it read, then `add_huge_partition_metric`. -/
def markHugePartition (app : App) (key : Int × Int) (metaId : Nat) : App :=
  (app.markAsHugePartition key metaId).addHugePartitionMetric

/-- `App::is_huge_partition`, run without interruption. -/
def isHugePartition (app : App) (key : Int × Int) (threshold : Nat) : Bool × App :=
  match app.checkHugePartition key threshold with
  | (.notHuge, app) => (false, app)
  | (.alreadyHuge, app) => (true, app)
  | (.overThreshold metaId, app) => (true, app.markHugePartition key metaId)

/-- The meta bookkeeping of `App::purge`: a shuffle-level purge removes the
shuffle's metas and lowers the gauge by the huge ones among them; an
app-level purge calls `sub_huge_partition_metric`. -/
def purge (app : App) : Option Int → App
  | some shuffleId =>
      let deletionKeys := app.partitionMetaInfos.keys.filter fun key => shuffleId = key.1
      let removed := deletionKeys.foldl (removeWeighed hugeWeight) (0, app.partitionMetaInfos)
      { app with
        partitionMetaInfos := removed.2
        gaugeHugePartitionNumber := app.gaugeHugePartitionNumber - removed.1 }
  | none => app.subHugePartitionMetric

/-- How many partitions the map holds marked huge. -/
def hugePartitionCount (app : App) : Int :=
  total hugeWeight app.partitionMetaInfos

/-! ## What each operation does to the metas and the counters -/

/-- The metas of `app` are in `app'` under the same `Arc` and with the same
mark. -/
def KeepsMetas (app app' : App) : Prop :=
  ∀ key partitionMeta, app.partitionMetaInfos.lookup key = some partitionMeta →
    ∃ kept, app'.partitionMetaInfos.lookup key = some kept ∧
      kept.metaId = partitionMeta.metaId ∧ kept.isHugePartition = partitionMeta.isHugePartition

section Operations

variable {app : App} {key other : Int × Int}

theorem KeepsMetas.trans {middle last : App} (first : KeepsMetas app middle)
    (second : KeepsMetas middle last) : KeepsMetas app last := by
  intro key partitionMeta found
  obtain ⟨kept, keptFound, sameId, sameMark⟩ := first key partitionMeta found
  obtain ⟨last, lastFound, lastId, lastMark⟩ := second key kept keptFound
  exact ⟨last, lastFound, lastId.trans sameId, lastMark.trans sameMark⟩

theorem getPartitionMeta_of_lookup {partitionMeta : PartitionedMeta}
    (found : app.partitionMetaInfos.lookup key = some partitionMeta) :
    app.getPartitionMeta key = (partitionMeta, app) := by
  simp [getPartitionMeta, found]

theorem lookup_getPartitionMeta (app : App) (key : Int × Int) :
    (app.getPartitionMeta key).2.partitionMetaInfos.lookup key =
      some (app.getPartitionMeta key).1 := by
  unfold getPartitionMeta
  split
  · assumption
  · simp

@[simp]
theorem hugePartitionNumber_getPartitionMeta (app : App) (key : Int × Int) :
    (app.getPartitionMeta key).2.hugePartitionNumber = app.hugePartitionNumber := by
  unfold getPartitionMeta
  split <;> rfl

@[simp]
theorem gaugeHugePartitionNumber_getPartitionMeta (app : App) (key : Int × Int) :
    (app.getPartitionMeta key).2.gaugeHugePartitionNumber = app.gaugeHugePartitionNumber := by
  unfold getPartitionMeta
  split <;> rfl

/-- A meta `get_partition_meta` creates is not marked. -/
theorem getPartitionMeta_fst_of_absent (absent : app.partitionMetaInfos.lookup key = none) :
    (app.getPartitionMeta key).1.isHugePartition = false := by
  simp [getPartitionMeta, absent]

theorem keepsMetas_getPartitionMeta (app : App) (key : Int × Int) :
    KeepsMetas app (app.getPartitionMeta key).2 := by
  intro other partitionMeta found
  unfold getPartitionMeta
  split
  · exact ⟨partitionMeta, found, rfl, rfl⟩
  · rename_i absent
    have different : other ≠ key := by
      rintro rfl
      rw [absent] at found
      cases found
    exact ⟨partitionMeta, by simpa [AList.lookup_insert_ne different] using found, rfl, rfl⟩

theorem hugePartitionCount_getPartitionMeta (app : App) (key : Int × Int) :
    (app.getPartitionMeta key).2.hugePartitionCount = app.hugePartitionCount := by
  unfold getPartitionMeta
  split
  · rfl
  · rename_i absent
    have notMem : key ∉ app.partitionMetaInfos := AList.lookup_eq_none.mp absent
    simp [hugePartitionCount, total_insert_of_notMem hugeWeight _ notMem, hugeWeight]

section Update

variable {metaId : Nat} {update : PartitionedMeta → PartitionedMeta}

@[simp]
theorem hugePartitionNumber_updateMeta :
    (app.updateMeta key metaId update).hugePartitionNumber = app.hugePartitionNumber := by
  unfold updateMeta
  split
  · split <;> rfl
  · rfl

@[simp]
theorem gaugeHugePartitionNumber_updateMeta :
    (app.updateMeta key metaId update).gaugeHugePartitionNumber = app.gaugeHugePartitionNumber := by
  unfold updateMeta
  split
  · split <;> rfl
  · rfl

theorem lookup_updateMeta_of_ne (different : other ≠ key) :
    (app.updateMeta key metaId update).partitionMetaInfos.lookup other =
      app.partitionMetaInfos.lookup other := by
  unfold updateMeta
  split
  · split
    · exact AList.lookup_insert_ne different
    · rfl
  · rfl

/-- A write that keeps the `Arc` and the mark keeps every meta. -/
theorem keepsMetas_updateMeta
    (keeps : ∀ partitionMeta, (update partitionMeta).metaId = partitionMeta.metaId ∧
      (update partitionMeta).isHugePartition = partitionMeta.isHugePartition) :
    KeepsMetas app (app.updateMeta key metaId update) := by
  intro other partitionMeta found
  by_cases same : other = key
  · subst same
    by_cases sameArc : partitionMeta.metaId = metaId
    · refine ⟨update partitionMeta, ?_, keeps partitionMeta⟩
      simp [updateMeta, found, sameArc]
    · exact ⟨partitionMeta, by simp [updateMeta, found, sameArc], rfl, rfl⟩
  · exact ⟨partitionMeta, (lookup_updateMeta_of_ne same).trans found, rfl, rfl⟩

/-- A write that keeps the mark keeps the count. -/
theorem hugePartitionCount_updateMeta
    (keeps : ∀ partitionMeta,
      (update partitionMeta).isHugePartition = partitionMeta.isHugePartition) :
    (app.updateMeta key metaId update).hugePartitionCount = app.hugePartitionCount := by
  unfold updateMeta
  split
  · rename_i current found
    split
    · simp [hugePartitionCount, total_insert_of_lookup hugeWeight _ found, hugeWeight, keeps]
    · rfl
  · rfl

end Update

/-- Marking the meta the map holds, unmarked, under the caller's `Arc` counts
one more huge partition. -/
theorem hugePartitionCount_markAsHugePartition {metaId : Nat} {partitionMeta : PartitionedMeta}
    (found : app.partitionMetaInfos.lookup key = some partitionMeta)
    (sameArc : partitionMeta.metaId = metaId) (unmarked : partitionMeta.isHugePartition = false) :
    (app.markAsHugePartition key metaId).hugePartitionCount = app.hugePartitionCount + 1 := by
  simp only [markAsHugePartition, hugePartitionCount, updateMeta, found, sameArc, if_true,
    total_insert_of_lookup hugeWeight _ found, hugeWeight, unmarked]
  simp

/-- After the mark the map holds the caller's meta marked. -/
theorem lookup_markAsHugePartition {metaId : Nat} {partitionMeta : PartitionedMeta}
    (found : app.partitionMetaInfos.lookup key = some partitionMeta)
    (sameArc : partitionMeta.metaId = metaId) :
    (app.markAsHugePartition key metaId).partitionMetaInfos.lookup key =
      some { partitionMeta with isHugePartition := true } := by
  simp [markAsHugePartition, updateMeta, found, sameArc]

theorem incPartitionSize_eq (app : App) (key : Int × Int) (size : Nat) :
    app.incPartitionSize key size =
      (app.getPartitionMeta key).2.updateMeta key (app.getPartitionMeta key).1.metaId
        fun current => { current with
          totalSize := (current.totalSize + toUnsigned 64 (wrapSigned 32 size)) % 2 ^ 64 } :=
  rfl

/-- `inc_partition_size` adds its increment to the meta of the partition,
which `get_partition_meta` creates when absent. -/
theorem lookup_incPartitionSize (app : App) (key : Int × Int) (size : Nat) :
    (app.incPartitionSize key size).partitionMetaInfos.lookup key =
      some { (app.getPartitionMeta key).1 with
        totalSize :=
          ((app.getPartitionMeta key).1.totalSize + toUnsigned 64 (wrapSigned 32 size)) %
            2 ^ 64 } := by
  rw [incPartitionSize_eq]
  unfold updateMeta
  rw [lookup_getPartitionMeta]
  dsimp only
  rw [if_pos rfl, AList.lookup_insert]

theorem keepsMetas_incPartitionSize (app : App) (key : Int × Int) (size : Nat) :
    KeepsMetas app (app.incPartitionSize key size) := by
  rw [incPartitionSize_eq]
  exact (keepsMetas_getPartitionMeta app key).trans (keepsMetas_updateMeta fun _ => ⟨rfl, rfl⟩)

theorem hugePartitionCount_incPartitionSize (app : App) (key : Int × Int) (size : Nat) :
    (app.incPartitionSize key size).hugePartitionCount = app.hugePartitionCount := by
  rw [incPartitionSize_eq]
  refine (hugePartitionCount_updateMeta fun _ => ?_).trans (hugePartitionCount_getPartitionMeta app key)
  rfl

@[simp]
theorem hugePartitionNumber_incPartitionSize (app : App) (key : Int × Int) (size : Nat) :
    (app.incPartitionSize key size).hugePartitionNumber = app.hugePartitionNumber := by
  simp [incPartitionSize_eq]

@[simp]
theorem gaugeHugePartitionNumber_incPartitionSize (app : App) (key : Int × Int) (size : Nat) :
    (app.incPartitionSize key size).gaugeHugePartitionNumber = app.gaugeHugePartitionNumber := by
  simp [incPartitionSize_eq]

end Operations

section Check

variable {app : App} {key : Int × Int} {threshold : Nat}

theorem checkHugePartition_of_enabled (enabled : app.partitionLimitEnable = true) :
    app.checkHugePartition key threshold =
      (if (app.getPartitionMeta key).1.isHugePartition then .alreadyHuge
        else if threshold < (app.getPartitionMeta key).1.totalSize then
          .overThreshold (app.getPartitionMeta key).1.metaId
        else .notHuge, (app.getPartitionMeta key).2) := by
  simp only [checkHugePartition, enabled, Bool.not_true, Bool.false_eq_true, if_false]
  split <;> [rfl; split <;> rfl]

theorem checkHugePartition_snd (app : App) (key : Int × Int) (threshold : Nat) :
    (app.checkHugePartition key threshold).2 =
      if app.partitionLimitEnable then (app.getPartitionMeta key).2 else app := by
  cases enabled : app.partitionLimitEnable with
  | false => simp [checkHugePartition, enabled]
  | true => simp [checkHugePartition_of_enabled enabled]

/-- A caller goes on to mark only a meta it has just read unmarked, which the
map holds under its `Arc`. -/
theorem checkHugePartition_overThreshold {metaId : Nat}
    (marks : (app.checkHugePartition key threshold).1 = .overThreshold metaId) :
    ∃ partitionMeta,
      (app.checkHugePartition key threshold).2.partitionMetaInfos.lookup key = some partitionMeta ∧
        partitionMeta.metaId = metaId ∧ partitionMeta.isHugePartition = false := by
  cases enabled : app.partitionLimitEnable with
  | false =>
      simp [checkHugePartition, enabled] at marks
  | true =>
      rw [checkHugePartition_of_enabled enabled] at marks ⊢
      refine ⟨_, lookup_getPartitionMeta app key, ?_⟩
      by_cases huge : (app.getPartitionMeta key).1.isHugePartition
      · simp [huge] at marks
      · by_cases above : threshold < (app.getPartitionMeta key).1.totalSize
        · simp only [huge, above, if_true, Bool.false_eq_true, if_false,
            HugeCheck.overThreshold.injEq] at marks
          exact ⟨marks, by simpa using huge⟩
        · simp [huge, above] at marks

theorem keepsMetas_checkHugePartition (app : App) (key : Int × Int) (threshold : Nat) :
    KeepsMetas app (app.checkHugePartition key threshold).2 := by
  rw [checkHugePartition_snd]
  split
  · exact keepsMetas_getPartitionMeta app key
  · exact fun _ partitionMeta found => ⟨partitionMeta, found, rfl, rfl⟩

theorem hugePartitionCount_checkHugePartition (app : App) (key : Int × Int) (threshold : Nat) :
    (app.checkHugePartition key threshold).2.hugePartitionCount = app.hugePartitionCount := by
  rw [checkHugePartition_snd]
  split
  · exact hugePartitionCount_getPartitionMeta app key
  · rfl

@[simp]
theorem hugePartitionNumber_checkHugePartition (app : App) (key : Int × Int) (threshold : Nat) :
    (app.checkHugePartition key threshold).2.hugePartitionNumber = app.hugePartitionNumber := by
  rw [checkHugePartition_snd]
  split <;> simp

@[simp]
theorem gaugeHugePartitionNumber_checkHugePartition (app : App) (key : Int × Int)
    (threshold : Nat) :
    (app.checkHugePartition key threshold).2.gaugeHugePartitionNumber =
      app.gaugeHugePartitionNumber := by
  rw [checkHugePartition_snd]
  split <;> simp

end Check

/-- A shuffle-level purge keeps the other shuffles' metas and lowers the gauge
by the count of the shuffle's huge ones. -/
theorem purge_some_eq (app : App) (shuffleId : Int) :
    app.purge (some shuffleId) =
      { app with
        partitionMetaInfos := filter (fun key => !decide (shuffleId = key.1)) app.partitionMetaInfos
        gaugeHugePartitionNumber := app.gaugeHugePartitionNumber -
          total hugeWeight (filter (fun key => decide (shuffleId = key.1)) app.partitionMetaInfos) } := by
  have listed : ∀ key ∈ app.partitionMetaInfos,
      (key ∈ app.partitionMetaInfos.keys.filter fun key => shuffleId = key.1) ↔
        decide (shuffleId = key.1) = true :=
    fun key present => by simp [AList.mem_keys.mp present]
  simp only [purge, foldl_removeWeighed_of_listed _ listed, Int.zero_add]

/-- Removing a shuffle none of whose metas is marked keeps the count. -/
theorem hugePartitionCount_purge_some {app : App} {shuffleId : Int}
    (unmarked : ∀ entry ∈ app.partitionMetaInfos.entries,
      entry.1.1 = shuffleId → entry.2.isHugePartition = false) :
    (app.purge (some shuffleId)).hugePartitionCount = app.hugePartitionCount ∧
      (app.purge (some shuffleId)).gaugeHugePartitionNumber = app.gaugeHugePartitionNumber := by
  have removedNone : total hugeWeight
      (filter (fun key => decide (shuffleId = key.1)) app.partitionMetaInfos) = 0 := by
    refine total_eq_zero hugeWeight fun key partitionMeta found => ?_
    rw [lookup_filter] at found
    split at found
    · rename_i inShuffle
      have notHuge : partitionMeta.isHugePartition = false :=
        unmarked _ (AList.mem_lookup_iff.mp found)
        (by simpa [eq_comm] using inShuffle)
      simp only [hugeWeight, notHuge, Bool.false_eq_true, if_false]
    · cases found
  have split := total_filter_add hugeWeight (fun key => decide (shuffleId = key.1))
    app.partitionMetaInfos
  rw [purge_some_eq]
  refine ⟨?_, by simp [removedNone]⟩
  simp only [hugePartitionCount]
  omega

end App


/-- An app and the callers of `is_huge_partition` in flight: those that have
passed the size test and not yet marked, with the partition and the `Arc`
each holds, and those that have marked and not yet counted. -/
structure HugePartitions where
  app : App
  marking : List ((Int × Int) × Nat)
  counting : List (Int × Int)

/-- What can happen next: an `App::insert`, a new caller's reads in
`is_huge_partition`, the mark by a caller waiting on a partition, its
`add_huge_partition_metric`, or a shuffle-level purge. -/
inductive HugePartitionCall
  | insert (key : Int × Int) (dataSize : Nat)
  | check (key : Int × Int) (threshold : Nat)
  | mark (key : Int × Int)
  | addMetric (key : Int × Int)
  | purgeShuffle (shuffleId : Int)
  deriving Repr

namespace HugePartitions

def initial (partitionLimitEnable : Bool) : HugePartitions :=
  ⟨⟨partitionLimitEnable, ∅, 0, 0, 0⟩, [], []⟩

def next (state : HugePartitions) : HugePartitionCall → Option HugePartitions
  | .insert key dataSize => some { state with app := state.app.incPartitionSize key dataSize }
  | .check key threshold =>
      match state.app.checkHugePartition key threshold with
      | (.overThreshold metaId, app) => some { state with app, marking := state.marking ++ [(key, metaId)] }
      | (_, app) => some { state with app }
  | .mark key =>
      -- the first caller waiting to mark the partition
      match state.marking.lookup key with
      | some metaId =>
          some ⟨state.app.markAsHugePartition key metaId,
            state.marking.eraseP fun caller => caller.1 = key, state.counting ++ [key]⟩
      | none => none
  | .addMetric key =>
      if key ∈ state.counting then
        some { state with app := state.app.addHugePartitionMetric, counting := state.counting.erase key }
      else none
  | .purgeShuffle shuffleId => some { state with app := state.app.purge (some shuffleId) }

/-- Callers of one partition do not overlap, and a shuffle purge removes no
huge partition and no partition a caller is about to mark. -/
def Serialized (state : HugePartitions) : HugePartitionCall → Prop
  | .check key _ => ∀ caller ∈ state.marking, caller.1 ≠ key
  | .purgeShuffle shuffleId =>
      (∀ entry ∈ state.app.partitionMetaInfos.entries,
        entry.1.1 = shuffleId → entry.2.isHugePartition = false) ∧
      ∀ caller ∈ state.marking, caller.1.1 ≠ shuffleId
  | _ => True

instance decidableSerialized (state : HugePartitions) :
    (call : HugePartitionCall) → Decidable (Serialized state call)
  | .insert _ _ => isTrue trivial
  | .check key _ => inferInstanceAs (Decidable (∀ caller ∈ state.marking, caller.1 ≠ key))
  | .mark _ => isTrue trivial
  | .addMetric _ => isTrue trivial
  | .purgeShuffle shuffleId =>
      inferInstanceAs (Decidable ((∀ entry ∈ state.app.partitionMetaInfos.entries,
        entry.1.1 = shuffleId → entry.2.isHugePartition = false) ∧
        ∀ caller ∈ state.marking, caller.1.1 ≠ shuffleId))

/-- The counters agree with the map up to the callers that have marked and
not yet counted, each waiting caller holds the unmarked meta of its own
partition, and each counting caller's partition is marked. -/
structure Counted (state : HugePartitions) : Prop where
  number_eq : state.app.hugePartitionNumber =
    toUnsigned 64 (state.app.hugePartitionCount - state.counting.length)
  gauge_eq : state.app.gaugeHugePartitionNumber =
    state.app.hugePartitionCount - state.counting.length
  marking_unmarked : ∀ caller ∈ state.marking, ∃ partitionMeta,
    state.app.partitionMetaInfos.lookup caller.1 = some partitionMeta ∧
      partitionMeta.metaId = caller.2 ∧ partitionMeta.isHugePartition = false
  counting_marked : ∀ key ∈ state.counting, ∃ partitionMeta,
    state.app.partitionMetaInfos.lookup key = some partitionMeta ∧
      partitionMeta.isHugePartition = true
  marking_nodup : (state.marking.map Prod.fst).Nodup
  counting_nodup : state.counting.Nodup

theorem counted_initial (partitionLimitEnable : Bool) : (initial partitionLimitEnable).Counted where
  number_eq := rfl
  gauge_eq := rfl
  marking_unmarked := fun _ member => absurd member List.not_mem_nil
  counting_marked := fun _ member => absurd member List.not_mem_nil
  marking_nodup := List.nodup_nil
  counting_nodup := List.nodup_nil

section Steps

variable {state : HugePartitions}

/-- The waiting callers still find their metas after a step that keeps them. -/
theorem Counted.marking_of_keepsMetas (counted : state.Counted) {app : App}
    (keeps : App.KeepsMetas state.app app) :
    ∀ caller ∈ state.marking, ∃ partitionMeta,
      app.partitionMetaInfos.lookup caller.1 = some partitionMeta ∧
        partitionMeta.metaId = caller.2 ∧ partitionMeta.isHugePartition = false := by
  intro caller member
  obtain ⟨partitionMeta, found, sameArc, unmarked⟩ := counted.marking_unmarked caller member
  obtain ⟨kept, keptFound, keptArc, keptMark⟩ := keeps caller.1 partitionMeta found
  exact ⟨kept, keptFound, keptArc.trans sameArc, keptMark.trans unmarked⟩

/-- The counting callers' partitions stay marked after a step that keeps the
metas. -/
theorem Counted.counting_of_keepsMetas (counted : state.Counted) {app : App}
    (keeps : App.KeepsMetas state.app app) :
    ∀ key ∈ state.counting, ∃ partitionMeta,
      app.partitionMetaInfos.lookup key = some partitionMeta ∧
        partitionMeta.isHugePartition = true := by
  intro key member
  obtain ⟨partitionMeta, found, marked⟩ := counted.counting_marked key member
  obtain ⟨kept, keptFound, -, keptMark⟩ := keeps key partitionMeta found
  exact ⟨kept, keptFound, keptMark.trans marked⟩

/-- No caller counts a partition a caller is about to mark: the one is
marked, the other not. -/
theorem Counted.not_counting_of_marking (counted : state.Counted) {caller : (Int × Int) × Nat}
    (member : caller ∈ state.marking) : caller.1 ∉ state.counting := by
  intro counting
  obtain ⟨partitionMeta, found, -, unmarked⟩ := counted.marking_unmarked caller member
  obtain ⟨other, otherFound, marked⟩ := counted.counting_marked caller.1 counting
  rw [found, Option.some.injEq] at otherFound
  rw [otherFound, marked] at unmarked
  cases unmarked

theorem Counted.insert (counted : state.Counted) (key : Int × Int) (dataSize : Nat) :
    Counted { state with app := state.app.incPartitionSize key dataSize } where
  number_eq := by
    simp only [App.hugePartitionNumber_incPartitionSize, App.hugePartitionCount_incPartitionSize,
      counted.number_eq]
  gauge_eq := by
    simp only [App.gaugeHugePartitionNumber_incPartitionSize,
      App.hugePartitionCount_incPartitionSize, counted.gauge_eq]
  marking_unmarked :=
    counted.marking_of_keepsMetas (App.keepsMetas_incPartitionSize state.app key dataSize)
  counting_marked :=
    counted.counting_of_keepsMetas (App.keepsMetas_incPartitionSize state.app key dataSize)
  marking_nodup := counted.marking_nodup
  counting_nodup := counted.counting_nodup

/-- A new caller's reads leave the counters alone; one that goes on to mark
waits on a partition no other caller waits on. -/
theorem Counted.check (counted : state.Counted) {key : Int × Int} {threshold : Nat}
    (alone : ∀ caller ∈ state.marking, caller.1 ≠ key) {next : HugePartitions}
    (fired : state.next (.check key threshold) = some next) : next.Counted := by
  have keeps := App.keepsMetas_checkHugePartition state.app key threshold
  have sameCount := App.hugePartitionCount_checkHugePartition state.app key threshold
  have number := App.hugePartitionNumber_checkHugePartition state.app key threshold
  have gauge := App.gaugeHugePartitionNumber_checkHugePartition state.app key threshold
  rcases checked : state.app.checkHugePartition key threshold with ⟨found, app⟩
  rw [checked] at keeps sameCount number gauge
  simp only [HugePartitions.next, checked] at fired
  have numberEq : app.hugePartitionNumber =
      toUnsigned 64 (app.hugePartitionCount - state.counting.length) := by
    rw [number, sameCount, counted.number_eq]
  have gaugeEq : app.gaugeHugePartitionNumber = app.hugePartitionCount - state.counting.length := by
    rw [gauge, sameCount, counted.gauge_eq]
  cases found with
  | overThreshold metaId =>
      cases fired
      obtain ⟨partitionMeta, lookedUp, sameArc, unmarked⟩ :=
        App.checkHugePartition_overThreshold (by rw [checked])
      rw [checked] at lookedUp
      refine ⟨numberEq, gaugeEq, ?_, counted.counting_of_keepsMetas keeps, ?_,
        counted.counting_nodup⟩
      · intro caller member
        rcases List.mem_append.mp member with old | new
        · exact counted.marking_of_keepsMetas keeps caller old
        · rw [List.mem_singleton.mp new]
          exact ⟨partitionMeta, lookedUp, sameArc, unmarked⟩
      · rw [List.map_append, List.nodup_append]
        refine ⟨counted.marking_nodup, List.nodup_singleton _, ?_⟩
        intro waiting waitingMember added addedMember same
        obtain ⟨caller, callerMember, rfl⟩ := List.mem_map.mp waitingMember
        rw [List.map_singleton, List.mem_singleton] at addedMember
        exact alone caller callerMember (same.trans addedMember)
  | notHuge =>
      cases fired
      exact ⟨numberEq, gaugeEq, counted.marking_of_keepsMetas keeps,
        counted.counting_of_keepsMetas keeps, counted.marking_nodup, counted.counting_nodup⟩
  | alreadyHuge =>
      cases fired
      exact ⟨numberEq, gaugeEq, counted.marking_of_keepsMetas keeps,
        counted.counting_of_keepsMetas keeps, counted.marking_nodup, counted.counting_nodup⟩

/-- A waiting caller marks the meta of its partition, unmarked until then:
the map counts one more huge partition, and the caller now owes its
increment of the counters. -/
theorem Counted.mark (counted : state.Counted) {key : Int × Int} {next : HugePartitions}
    (fired : state.next (.mark key) = some next) : next.Counted := by
  simp only [HugePartitions.next] at fired
  split at fired
  · rename_i metaId lookedUp
    cases fired
    obtain ⟨front, back, split, -⟩ := List.lookup_eq_some_iff.mp lookedUp
    have member : (key, metaId) ∈ state.marking := by
      rw [split]
      simp
    obtain ⟨partitionMeta, found, sameArc, unmarked⟩ : ∃ partitionMeta,
        state.app.partitionMetaInfos.lookup key = some partitionMeta ∧
          partitionMeta.metaId = metaId ∧ partitionMeta.isHugePartition = false :=
      counted.marking_unmarked _ member
    have notCounting : key ∉ state.counting := counted.not_counting_of_marking member
    have countedOnce := App.hugePartitionCount_markAsHugePartition found sameArc unmarked
    have owed : (state.counting ++ [key]).length = state.counting.length + 1 := by simp
    -- the marking caller is the only one waiting on the partition
    have remaining : (state.marking.eraseP fun caller => caller.1 = key) =
        state.marking.filter fun caller => caller.1 ≠ key :=
      eraseP_eq_filter_of_nodup Prod.fst counted.marking_nodup
    refine ⟨?_, ?_, ?_, ?_, ?_, ?_⟩
    · rw [countedOnce, owed, App.markAsHugePartition, App.hugePartitionNumber_updateMeta,
        counted.number_eq]
      congr 1
      omega
    · rw [countedOnce, owed, App.markAsHugePartition, App.gaugeHugePartitionNumber_updateMeta,
        counted.gauge_eq]
      omega
    · intro caller callerMember
      rw [remaining, List.mem_filter] at callerMember
      obtain ⟨waiting, differs⟩ := callerMember
      obtain ⟨kept, keptFound, keptArc, keptMark⟩ := counted.marking_unmarked caller waiting
      refine ⟨kept, ?_, keptArc, keptMark⟩
      rw [App.markAsHugePartition, App.lookup_updateMeta_of_ne (by simpa using differs)]
      exact keptFound
    · intro counting countingMember
      rcases List.mem_append.mp countingMember with old | new
      · have differs : counting ≠ key := fun same => notCounting (same ▸ old)
        obtain ⟨kept, keptFound, keptMark⟩ := counted.counting_marked counting old
        refine ⟨kept, ?_, keptMark⟩
        rw [App.markAsHugePartition, App.lookup_updateMeta_of_ne differs]
        exact keptFound
      · rw [List.mem_singleton.mp new]
        exact ⟨_, App.lookup_markAsHugePartition found sameArc, rfl⟩
    · rw [remaining]
      exact counted.marking_nodup.sublist (List.filter_sublist.map _)
    · exact counted.counting_nodup.append (List.nodup_singleton key)
        (List.disjoint_singleton.mpr notCounting)
  · cases fired

/-- A counting caller's `add_huge_partition_metric` pays the increment it
owes. -/
theorem Counted.addMetric (counted : state.Counted) {key : Int × Int} {next : HugePartitions}
    (fired : state.next (.addMetric key) = some next) : next.Counted := by
  simp only [HugePartitions.next] at fired
  split at fired
  · rename_i counting
    cases fired
    have paid : (state.counting.erase key).length + 1 = state.counting.length := by
      rw [List.length_erase_of_mem counting]
      have := List.length_pos_of_mem counting
      omega
    have sameCount : state.app.addHugePartitionMetric.hugePartitionCount =
        state.app.hugePartitionCount := rfl
    refine ⟨?_, ?_, counted.marking_unmarked, ?_, counted.marking_nodup,
      counted.counting_nodup.erase key⟩
    · rw [sameCount]
      simp only [App.addHugePartitionMetric, counted.number_eq]
      rw [toUnsigned_toUnsigned_add]
      congr 1
      omega
    · rw [sameCount]
      simp only [App.addHugePartitionMetric, counted.gauge_eq]
      omega
    · intro other member
      exact counted.counting_marked other (List.erase_subset member)
  · cases fired

/-- A shuffle purge that removes no huge partition and no partition a caller
waits on keeps the counters and the callers' metas. -/
theorem Counted.purgeShuffle (counted : state.Counted) {shuffleId : Int}
    (allowed : Serialized state (.purgeShuffle shuffleId)) :
    Counted { state with app := state.app.purge (some shuffleId) } := by
  obtain ⟨unmarked, away⟩ := allowed
  obtain ⟨sameCount, sameGauge⟩ := App.hugePartitionCount_purge_some unmarked
  -- what the purge keeps: the metas of the other shuffles
  have kept : ∀ key, shuffleId ≠ key.1 →
      (state.app.purge (some shuffleId)).partitionMetaInfos.lookup key =
        state.app.partitionMetaInfos.lookup key := by
    intro key otherShuffle
    rw [App.purge_some_eq]
    simp [lookup_filter, otherShuffle]
  refine ⟨?_, ?_, ?_, ?_, counted.marking_nodup, counted.counting_nodup⟩
  · simp only [sameCount]
    rw [App.purge_some_eq]
    exact counted.number_eq
  · simp only [sameCount, sameGauge]
    exact counted.gauge_eq
  · intro caller member
    obtain ⟨partitionMeta, found, sameArc, notHuge⟩ := counted.marking_unmarked caller member
    refine ⟨partitionMeta, ?_, sameArc, notHuge⟩
    rw [kept caller.1 fun same => away caller member same.symm]
    exact found
  · intro key member
    obtain ⟨partitionMeta, found, marked⟩ := counted.counting_marked key member
    refine ⟨partitionMeta, ?_, marked⟩
    -- a marked partition is not in the purged shuffle
    have otherShuffle : shuffleId ≠ key.1 := by
      rintro rfl
      have notHuge := unmarked ⟨key, partitionMeta⟩ (AList.mem_lookup_iff.mp found) rfl
      rw [marked] at notHuge
      cases notHuge
    rw [kept key otherShuffle]
    exact found

theorem Counted.step (counted : state.Counted) {call : HugePartitionCall}
    (allowed : Serialized state call) {next : HugePartitions}
    (fired : state.next call = some next) : next.Counted := by
  cases call with
  | insert key dataSize =>
      cases fired
      exact counted.insert key dataSize
  | check key threshold =>
      exact counted.check allowed fired
  | mark key =>
      exact counted.mark fired
  | addMetric key =>
      exact counted.addMetric fired
  | purgeShuffle shuffleId =>
      cases fired
      exact counted.purgeShuffle allowed

/-- At the app-level purge, with no caller owing its increment, the gauge
loses what the app added to it. -/
theorem Counted.purge_none (counted : state.Counted) (settled : state.counting = [])
    (fits : state.app.hugePartitionCount < 2 ^ 63) :
    (state.app.purge none).gaugeHugePartitionNumber = 0 := by
  have nonneg : 0 ≤ state.app.hugePartitionCount :=
    total_nonneg hugeWeight fun _ partitionMeta _ => by
      unfold hugeWeight
      split <;> decide
  have inRange : InSignedRange 64 state.app.hugePartitionCount :=
    ⟨by norm_num; omega, by norm_num; omega⟩
  have unsigned := toUnsigned_of_nonneg nonneg (by omega : state.app.hugePartitionCount < 2 ^ 64)
  have number := counted.number_eq
  have gauge := counted.gauge_eq
  rw [settled, List.length_nil, Nat.cast_zero, Int.sub_zero] at number gauge
  simp only [App.purge, App.subHugePartitionMetric]
  split
  · rw [number, toSigned_toUnsigned (by decide) inRange, gauge, Int.sub_self]
  · -- a zero count leaves nothing to take back
    rename_i zero
    rw [number, unsigned] at zero
    rw [gauge]
    omega

end Steps

/-- The calls of one `is_huge_partition` that nothing interrupts: its reads,
then its mark and its count when the size test passes. -/
def callsOfIsHugePartition (app : App) (key : Int × Int) (threshold : Nat) :
    List HugePartitionCall :=
  match (app.checkHugePartition key threshold).1 with
  | .overThreshold _ => [.check key threshold, .mark key, .addMetric key]
  | _ => [.check key threshold]

/-- A call of `is_huge_partition` that nothing interrupts is
`App.isHugePartition`: its steps leave the app as the uninterrupted call
does, and no caller in flight. -/
theorem run_isHugePartition (state : HugePartitions) {key : Int × Int} (threshold : Nat)
    (alone : ∀ caller ∈ state.marking, caller.1 ≠ key) (notCounting : key ∉ state.counting) :
    run next state (callsOfIsHugePartition state.app key threshold) =
      some ⟨(state.app.isHugePartition key threshold).2, state.marking, state.counting⟩ := by
  rcases checked : state.app.checkHugePartition key threshold with ⟨found, app⟩
  cases found with
  | overThreshold metaId =>
      -- the new caller is the only one waiting on the partition
      have unseen : state.marking.lookup key = none :=
        List.lookup_eq_none_iff.mpr fun caller member =>
          bne_iff_ne.mpr (alone caller member).symm
      have othersKept : ∀ caller ∈ state.marking, ¬ decide (caller.1 = key) = true :=
        fun caller member => by simpa using alone caller member
      have marked :
          (state.app.isHugePartition key threshold).2 = app.markHugePartition key metaId := by
        simp only [App.isHugePartition, checked]
      have waiting : (state.marking ++ [(key, metaId)]).lookup key = some metaId := by
        simp [List.lookup_append, unseen]
      have leaves : ((state.marking ++ [(key, metaId)]).eraseP fun caller => caller.1 = key) =
          state.marking := by
        simp [List.eraseP_append_right _ othersKept]
      have paid : (state.counting ++ [key]).erase key = state.counting := by
        rw [List.erase_append_right _ notCounting, List.erase_cons_head, List.append_nil]
      simp only [callsOfIsHugePartition, run_cons, run_nil, next, checked, Option.bind_some,
        waiting, leaves, marked, List.mem_append, List.mem_singleton, or_true, if_true, paid,
        App.markHugePartition]
  | notHuge =>
      simp [callsOfIsHugePartition, run_cons, next, checked, App.isHugePartition]
  | alreadyHuge =>
      simp [callsOfIsHugePartition, run_cons, next, checked, App.isHugePartition]

theorem counted_of_reachable {partitionLimitEnable : Bool} {state : HugePartitions}
    (reached : Relation.ReflTransGen (Steps next Serialized) (initial partitionLimitEnable) state) :
    state.Counted :=
  invariant_of_steps (fun _ _ _ allowed counted fired => counted.step allowed fired) reached
    (counted_initial partitionLimitEnable)

end HugePartitions

open HugePartitions in
/-- When callers of one partition do not overlap and shuffle purges spare
huge partitions, the counters follow the map: `huge_partition_number` and
the app's share of the gauge are the marked partitions less the increments
callers still owe, and once none is owed the app-level purge takes back
exactly what the app added. -/
theorem hugePartitionNumber_counts_marked (partitionLimitEnable : Bool) {state : HugePartitions}
    (reached : Relation.ReflTransGen (Steps next Serialized) (initial partitionLimitEnable) state) :
    state.app.hugePartitionNumber =
        toUnsigned 64 (state.app.hugePartitionCount - state.counting.length) ∧
      state.app.gaugeHugePartitionNumber = state.app.hugePartitionCount - state.counting.length ∧
      (state.counting = [] → state.app.hugePartitionCount < 2 ^ 63 →
        (state.app.purge none).gaugeHugePartitionNumber = 0) := by
  have counted := counted_of_reachable reached
  exact ⟨counted.number_eq, counted.gauge_eq, counted.purge_none⟩

/-- Two callers read partition 0 of shuffle 1 unmarked before either marks. -/
def racingCalls : List HugePartitionCall :=
  [.insert (1, 0) 100, .check (1, 0) 10, .check (1, 0) 10, .mark (1, 0), .addMetric (1, 0),
    .mark (1, 0), .addMetric (1, 0)]

/-- Partition 0 of shuffle 1 is marked, then shuffle 1 is purged. -/
def purgedHugeCalls : List HugePartitionCall :=
  [.insert (1, 0) 100, .check (1, 0) 10, .mark (1, 0), .addMetric (1, 0), .purgeShuffle 1]

open HugePartitions in
/-- Both ways the counters leave the map, each ending with no call in
flight: two overlapping callers both mark partition `(1, 0)` and both count
it; and a shuffle purge removes a marked partition without lowering
`huge_partition_number`, so the app-level purge lowers the app's share of
the gauge one below zero. -/
theorem hugePartition_counters_drift :
    (∃ state, run next (initial true) racingCalls = some state ∧
      state.marking = [] ∧ state.counting = [] ∧
      state.app.hugePartitionNumber = 2 ∧ state.app.hugePartitionCount = 1) ∧
    (∃ state, run next (initial true) purgedHugeCalls = some state ∧
      state.marking = [] ∧ state.counting = [] ∧
      state.app.hugePartitionNumber = 1 ∧ state.app.hugePartitionCount = 0 ∧
      (state.app.purge none).gaugeHugePartitionNumber = -1) := by
  refine ⟨⟨_, rfl, rfl, rfl, by decide, by decide⟩, ?_⟩
  -- run (2) needs no overlap: an insert, one call that nothing interrupts, the shuffle purge
  let inserted : HugePartitions := ⟨(initial true).app.incPartitionSize (1, 0) 100, [], []⟩
  have split : purgedHugeCalls = [.insert (1, 0) 100] ++
      callsOfIsHugePartition inserted.app (1, 0) 10 ++ [.purgeShuffle 1] := rfl
  have insertRun : run next (initial true) [.insert (1, 0) 100] = some inserted := rfl
  have called := @run_isHugePartition inserted (1, 0) 10 (fun _ member => by cases member)
    List.not_mem_nil
  refine ⟨⟨((inserted.app.isHugePartition (1, 0) 10).2).purge (some 1), [], []⟩, ?_, rfl, rfl,
    by decide, by decide, by decide⟩
  rw [split, run_append, run_append, insertRun, Option.bind_some, called, Option.bind_some,
    run_singleton]
  rfl

end Riffle
