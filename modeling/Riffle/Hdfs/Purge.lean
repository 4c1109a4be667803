import Riffle.Lib.PathPrefix

/-!
# Deleting one server's files after a heartbeat timeout

Several shuffle servers write into one app directory on HDFS.  Each names its
files `{server_id}_{slot}_{retry}.data` and `.index`, where the server id is
`{ip}-{grpc_port}` or `{ip}-{grpc_port}-{urpc_port}` (`generate_worker_uid`).
When an app's heartbeat times out, `HdfsStore::purge` deletes only this
server's files with `delete_recursively`: it walks the directory tree, deletes
each file whose name starts with the server id, and deletes each directory
that is then empty (hdfs.rs).

The test is `starts_with` on the file name with nothing after the server id,
so it also matches the files of a server whose id merely starts with this
one's: `10.0.0.1-1999` deletes the files of `10.0.0.1-19999`.

A directory tree is what `list_status` shows, an `Entry`; names are lists of
characters.  The HDFS calls are taken to succeed.
-/

namespace Riffle.Hdfs

open Riffle.PathPrefix

/-- A file, or a directory with what `list_status` lists in it. -/
inductive Entry where
  | file (name : List Char)
  | dir (name : List Char) (entries : List Entry)
  deriving Repr

mutual

/-- `delete_recursively` on one listed entry: a file is deleted when its name
starts with the prefix, a directory is walked and then deleted if nothing is
left in it; `none` is an entry that is gone. -/
def Entry.deleteRecursively (filePrefix : List Char) : Entry → Option Entry
  | .file name => if filePrefix.isPrefixOf name then none else some (.file name)
  | .dir name entries =>
      match deleteEntries filePrefix entries with
      | [] => none
      | kept => some (.dir name kept)

/-- The loop of `delete_recursively` over a listing: what is left of it. -/
def deleteEntries (filePrefix : List Char) : List Entry → List Entry
  | [] => []
  | entry :: rest =>
      match entry.deleteRecursively filePrefix with
      | some kept => kept :: deleteEntries filePrefix rest
      | none => deleteEntries filePrefix rest

end

mutual

/-- The names of the files in an entry, depth first. -/
def Entry.fileNames : Entry → List (List Char)
  | .file name => [name]
  | .dir _ entries => entriesFileNames entries

def entriesFileNames : List Entry → List (List Char)
  | [] => []
  | entry :: rest => entry.fileNames ++ entriesFileNames rest

end

/-- `generate_worker_uid`: `{ip}-{grpc_port}`, followed by `-{urpc_port}`
when one is configured. -/
def generateWorkerUid (ip : String) (grpcPort : Int) (urpcPort : Option Int) : List Char :=
  match urpcPort with
  | none => ip.toList ++ '-' :: (toString grpcPort).toList
  | some urpcPort =>
      ip.toList ++ '-' :: (toString grpcPort).toList ++ '-' :: (toString urpcPort).toList

/-- The data file a server writes for a writer slot and a retry:
`{worker_id}_{slot}_{retry}.data`. -/
def dataFileName (workerId : List Char) (slot retry : Nat) : List Char :=
  workerId ++ '_' :: (toString slot).toList ++ '_' :: (toString retry).toList ++ ".data".toList

/-- The index file beside it: `{worker_id}_{slot}_{retry}.index`. -/
def indexFileName (workerId : List Char) (slot retry : Nat) : List Char :=
  workerId ++ '_' :: (toString slot).toList ++ '_' :: (toString retry).toList ++ ".index".toList

/-! ## What `delete_recursively` deletes -/

section Delete

variable (filePrefix : List Char)

mutual

/-- The files left after `delete_recursively` are exactly those whose name
does not start with the prefix. -/
theorem Entry.fileNames_deleteRecursively : ∀ entry : Entry,
    ((entry.deleteRecursively filePrefix).map Entry.fileNames).getD [] =
      entry.fileNames.filter fun name => !filePrefix.isPrefixOf name
  | .file name => by
      by_cases matched : filePrefix.isPrefixOf name = true <;>
        simp [Entry.deleteRecursively, Entry.fileNames, matched]
  | .dir name entries => by
      have walked := fileNames_deleteEntries entries
      rw [Entry.deleteRecursively, Entry.fileNames]
      split
      · next emptied =>
          rw [emptied, entriesFileNames] at walked
          simp [← walked]
      · simp [Entry.fileNames, walked]

theorem fileNames_deleteEntries : ∀ entries : List Entry,
    entriesFileNames (deleteEntries filePrefix entries) =
      (entriesFileNames entries).filter fun name => !filePrefix.isPrefixOf name
  | [] => by
      simp [deleteEntries, entriesFileNames]
  | entry :: rest => by
      have walked := Entry.fileNames_deleteRecursively entry
      have restWalked := fileNames_deleteEntries rest
      rw [deleteEntries, entriesFileNames, List.filter_append]
      split
      · next kept found =>
          rw [found] at walked
          simp [entriesFileNames, ← walked, restWalked]
      · next gone =>
          rw [gone] at walked
          simp [← walked, restWalked]

end

end Delete

/-- A server id without `_` deletes the data file of every server whose id
starts with it, whatever the slot and the retry. -/
theorem dataFileName_deleted_iff {serverId : List Char} (separatorFree : '_' ∉ serverId)
    (workerId : List Char) (slot retry : Nat) :
    serverId.isPrefixOf (dataFileName workerId slot retry) = true ↔ serverId <+: workerId := by
  rw [List.isPrefixOf_iff_prefix, dataFileName]
  simp only [List.append_assoc, List.cons_append]
  exact prefix_append_sep_iff separatorFree

/-- One partition directory holding the data files of two servers on the
same host, with grpc ports 1999 and 19999. -/
def twoServerPartition : Entry :=
  .dir "0-0".toList
    [.file (dataFileName (generateWorkerUid "10.0.0.1" 1999 none) 0 0),
      .file (dataFileName (generateWorkerUid "10.0.0.1" 19999 none) 0 0)]

/-- The server with port 1999 deletes the other server's file too, and with
it the whole directory. -/
theorem deleteRecursively_drops_other_server_file :
    twoServerPartition.deleteRecursively (generateWorkerUid "10.0.0.1" 1999 none) = none := by
  have separatorFree : '_' ∉ generateWorkerUid "10.0.0.1" 1999 none := by decide
  -- the other server's id is this server's id with one more digit
  have prefixed :
      generateWorkerUid "10.0.0.1" 1999 none <+: generateWorkerUid "10.0.0.1" 19999 none := by
    decide
  have ownDeleted := (dataFileName_deleted_iff separatorFree _ 0 0).mpr (List.prefix_refl _)
  have otherDeleted := (dataFileName_deleted_iff separatorFree _ 0 0).mpr prefixed
  simp [twoServerPartition, Entry.deleteRecursively, deleteEntries, ownDeleted, otherDeleted]

end Riffle.Hdfs
