import Riffle.Lib.PathPrefix
import Riffle.Lib.KeyedTotal
import Riffle.Local.FileStore

/-!
# Purging the local file store

The local file store keeps one `partition_locks` entry per partition, keyed by
the partition's data-file path `{app}/{shuffle}/partition-{partition}.data`,
whose pointer is the length of the partition's data (localfile.rs).
`LocalFileStore::purge` deletes the app's or the shuffle's directory on every
disk and then drops the entries whose key starts with that directory's
relative path, adding up their pointers.

The shuffle's path is `{app}/{shuffle}/`, ending with the separator, but the
app's path is `{app}` alone.  A key test against the app's path therefore
also matches every app whose id merely starts with the purged one: purging
app `a` drops the entries of app `ab` and returns their bytes as its own.

Paths are lists of characters, and `starts_with` is `List.isPrefixOf`.  The
per-disk deletion is an input: its first error ends the purge before the map
is touched.
-/

namespace Riffle.Local

open Riffle.FixedWidth Riffle.KeyedTotal Riffle.PathPrefix Riffle.Store

/-- `gen_relative_path_for_app`: `format!("{}", app_id)`. -/
def genRelativePathForApp (appId : String) : List Char :=
  appId.toList

/-- `gen_relative_path_for_shuffle`: `format!("{}/{}/", app_id, shuffle_id)`. -/
def genRelativePathForShuffle (appId : String) (shuffleId : Int) : List Char :=
  appId.toList ++ '/' :: (toString shuffleId).toList ++ ['/']

/-- `gen_relative_path_for_partition`: the data and the index file of a
partition. -/
def genRelativePathForPartition (uid : PartitionedUId) : List Char × List Char :=
  let file := uid.appId.toList ++ '/' :: (toString uid.shuffleId).toList ++ '/' ::
    "partition-".toList ++ (toString uid.partitionId).toList
  (file ++ ".data".toList, file ++ ".index".toList)

/-- The `partition_locks` key of a partition: its data-file path. -/
def dataFilePath (uid : PartitionedUId) : List Char :=
  (genRelativePathForPartition uid).1

/-- `data_relative_dir_path` of a purge. -/
def dataRelativeDirPath (ctx : PurgeReason) : List Char :=
  match ctx.extract with
  | (appId, some shuffleId) => genRelativePathForShuffle appId shuffleId
  | (appId, none) => genRelativePathForApp appId

/-- `LocalFileStore::purge`: the removed data size, or the error of the disk
deletion, and the entries left. -/
def LocalFileStore.purge (partitionLocks : AList fun _ : List Char => PartitionFiles)
    (ctx : PurgeReason) (diskDelete : Except String Unit) :
    Except String Int × AList fun _ : List Char => PartitionFiles :=
  match diskDelete with
  | .error error => (.error error, partitionLocks)
  | .ok () =>
      let keysToDelete := partitionLocks.keys.filter fun key =>
        (dataRelativeDirPath ctx).isPrefixOf key
      -- `removed_data_size += size` in `i64`
      let removed := keysToDelete.foldl (removeWeighed fun _ files => files.pointer)
        (0, partitionLocks)
      (.ok (wrapSigned 64 removed.1), removed.2)

/-! ## What a purge removes -/

section Purge

variable (partitionLocks : AList fun _ : List Char => PartitionFiles) (ctx : PurgeReason)

theorem LocalFileStore.purge_of_error (error : String) :
    LocalFileStore.purge partitionLocks ctx (.error error) = (.error error, partitionLocks) :=
  rfl

/-- A purge whose disk deletion succeeded drops the entries whose key starts
with the purged path and returns the `i64` sum of their pointers. -/
theorem LocalFileStore.purge_ok :
    LocalFileStore.purge partitionLocks ctx (.ok ()) =
      (.ok (wrapSigned 64 (total (fun _ files => files.pointer)
          (filter (fun key => (dataRelativeDirPath ctx).isPrefixOf key) partitionLocks))),
        filter (fun key => !(dataRelativeDirPath ctx).isPrefixOf key) partitionLocks) := by
  have listed : ∀ key ∈ partitionLocks,
      (key ∈ partitionLocks.keys.filter fun key => (dataRelativeDirPath ctx).isPrefixOf key) ↔
        (dataRelativeDirPath ctx).isPrefixOf key = true :=
    fun key present => by simp [AList.mem_keys.mp present]
  simp only [LocalFileStore.purge, foldl_removeWeighed_of_listed _ listed, Int.zero_add]

theorem LocalFileStore.lookup_purge_ok (key : List Char) :
    (LocalFileStore.purge partitionLocks ctx (.ok ())).2.lookup key =
      if (dataRelativeDirPath ctx).isPrefixOf key then none else partitionLocks.lookup key := by
  rw [LocalFileStore.purge_ok, lookup_filter]
  by_cases matched : (dataRelativeDirPath ctx).isPrefixOf key = true <;> simp [matched]

end Purge

/-- The decimal form of an integer has no path separator. -/
theorem slash_not_mem_toString (value : Int) : '/' ∉ (toString value).toList := by
  have digitsFree : ∀ value : Nat, '/' ∉ Nat.toDigits 10 value := fun value member => by
    have := Nat.isDigit_of_mem_toDigits (by decide) (by decide) member
    exact absurd this (by decide)
  cases value with
  | ofNat value =>
      simpa [toString, Int.repr, Nat.repr] using digitsFree value
  | negSucc value =>
      simpa [toString, Int.repr, Nat.repr] using digitsFree (value + 1)

section Keys

variable {uid : PartitionedUId}

theorem dataFilePath_eq (uid : PartitionedUId) :
    dataFilePath uid = uid.appId.toList ++ '/' :: ((toString uid.shuffleId).toList ++ '/' ::
      ("partition-".toList ++ (toString uid.partitionId).toList ++ ".data".toList)) := by
  simp [dataFilePath, genRelativePathForPartition]

/-- An app's path selects the partitions of every app whose id starts with
it, not only those of the app itself. -/
theorem appPath_prefix_dataFilePath_iff {appId : String} (appFree : '/' ∉ appId.toList) :
    (genRelativePathForApp appId).isPrefixOf (dataFilePath uid) = true ↔
      appId.toList <+: uid.appId.toList := by
  rw [List.isPrefixOf_iff_prefix, dataFilePath_eq, genRelativePathForApp]
  exact prefix_append_sep_iff appFree

/-- A shuffle's path selects the partitions of that app whose shuffle id is
written the same way. -/
theorem shufflePath_prefix_dataFilePath_iff {appId : String} {shuffleId : Int}
    (appFree : '/' ∉ appId.toList) (uidFree : '/' ∉ uid.appId.toList) :
    (genRelativePathForShuffle appId shuffleId).isPrefixOf (dataFilePath uid) = true ↔
      appId = uid.appId ∧ toString shuffleId = toString uid.shuffleId := by
  rw [List.isPrefixOf_iff_prefix, dataFilePath_eq, genRelativePathForShuffle, List.append_assoc,
    List.cons_append, append_sep_prefix_iff appFree uidFree,
    append_sep_prefix_iff (slash_not_mem_toString shuffleId)
      (slash_not_mem_toString uid.shuffleId)]
  simp [String.toList_inj]

end Keys

/-- An app-level purge of `appId` drops the entry of every partition whose
app id starts with `appId`, and keeps the others as they were. -/
theorem LocalFileStore.lookup_purge_app (partitionLocks : AList fun _ : List Char => PartitionFiles)
    {appId : String} (appFree : '/' ∉ appId.toList) (uid : PartitionedUId) :
    (LocalFileStore.purge partitionLocks (.appLevelExplicitUnregister appId) (.ok ())).2.lookup
        (dataFilePath uid) =
      if appId.toList <+: uid.appId.toList then none
      else partitionLocks.lookup (dataFilePath uid) := by
  rw [LocalFileStore.lookup_purge_ok]
  have matched := @appPath_prefix_dataFilePath_iff uid appId appFree
  simp only [dataRelativeDirPath, PurgeReason.extract]
  by_cases prefixed : appId.toList <+: uid.appId.toList
  · simp [matched.mpr prefixed, prefixed]
  · have unmatched : (genRelativePathForApp appId).isPrefixOf (dataFilePath uid) = false :=
      Bool.eq_false_iff.mpr fun selected => prefixed (matched.mp selected)
    simp [unmatched, prefixed]

/-- A shuffle-level purge drops the entries of that shuffle of that app and
nothing else: its path ends with the separator. -/
theorem LocalFileStore.lookup_purge_shuffle
    (partitionLocks : AList fun _ : List Char => PartitionFiles) {appId : String}
    {shuffleId : Int} (appFree : '/' ∉ appId.toList) (uid : PartitionedUId)
    (uidFree : '/' ∉ uid.appId.toList) :
    (LocalFileStore.purge partitionLocks (.shuffleLevelExplicitUnregister appId shuffleId)
        (.ok ())).2.lookup (dataFilePath uid) =
      if appId = uid.appId ∧ toString shuffleId = toString uid.shuffleId then none
      else partitionLocks.lookup (dataFilePath uid) := by
  have matched := @shufflePath_prefix_dataFilePath_iff uid appId shuffleId appFree uidFree
  have path : dataRelativeDirPath (.shuffleLevelExplicitUnregister appId shuffleId) =
      genRelativePathForShuffle appId shuffleId := rfl
  rw [LocalFileStore.lookup_purge_ok]
  simp only [path]
  by_cases selected : appId = uid.appId ∧ toString shuffleId = toString uid.shuffleId
  · rw [if_pos selected]
    simp [matched.mpr selected]
  · have unmatched :
        (genRelativePathForShuffle appId shuffleId).isPrefixOf (dataFilePath uid) = false :=
      Bool.eq_false_iff.mpr fun found => selected (matched.mp found)
    rw [if_neg selected]
    simp [unmatched]

/-- Two partitions: app `a` has written 10 bytes, app `ab` 20. -/
def twoAppPartitions : AList fun _ : List Char => PartitionFiles :=
  ((∅ : AList fun _ : List Char => PartitionFiles).insert (dataFilePath ⟨"a", 1, 0⟩)
    ⟨some "/data1", 10, [], []⟩).insert (dataFilePath ⟨"ab", 1, 0⟩) ⟨some "/data1", 20, [], []⟩

/-- Purging app `a` drops app `ab`'s entry too and reports its 20 bytes as
removed. -/
theorem purge_app_drops_longer_app_id :
    (LocalFileStore.purge twoAppPartitions (.appLevelExplicitUnregister "a") (.ok ())).1 =
        .ok 30 ∧
      (LocalFileStore.purge twoAppPartitions (.appLevelExplicitUnregister "a") (.ok ())).2.lookup
        (dataFilePath ⟨"ab", 1, 0⟩) = none := by
  constructor
  · -- the removed size is the `i64` sum over both entries
    rw [LocalFileStore.purge_ok]
    decide
  · -- `ab` starts with `a`
    rw [LocalFileStore.lookup_purge_app twoAppPartitions (by decide)]
    exact if_pos (by decide)

end Riffle.Local
