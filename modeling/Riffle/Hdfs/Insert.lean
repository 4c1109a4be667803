import Riffle.Hdfs.WriterSlots
import Riffle.Hdfs.WriteConcurrency

/-!
# An HDFS insert takes effect in a slot it holds alone

`Riffle.Hdfs.WriterSlots` takes a `data_insert` on a partition as one step,
in the slot `permit.get_index()` gave it.  `Riffle.Hdfs.WriteConcurrency`
takes every step that the limiter and the partition's `SemaphoreWithIndex`
see.  This module runs the two together for the calls on one data path
`path`.  A call looks at `is_healthy` when it begins, so a call on the path
starts only while the store is healthy.  The calls then go through their
permits as before.  The rest of a call's insert (`insertHoldingSlot`) takes
effect on the partition when the call finishes `write_data_and_index`, in
the slot it holds.

The one-step model of an insert rests on two facts.  An insert changes only
its own slot (`onlySlot_dataInsert`).  And, over every run in which purges
remove only idle lock entries, the call of an insert that takes effect holds
the insert's slot, and no other call on the path holds it
(`insert_takes_effect_in_slot_held_alone`).  The slot invariant of the
one-step model then holds of the partition along every such run
(`slotKept_of_insertRun`).
-/

namespace Riffle.Hdfs

open Riffle.Store Riffle.Transition HdfsPartition HdfsStore

/-- The rest of `data_insert` for a call that passed `is_healthy` when it
began: `dataInsert` without a second look at `health`, which an
out-of-memory error of its own write still clears. -/
def insertHoldingSlot (store : HdfsPartition) (insert : HdfsInsert) : HdfsPartition :=
  let written := (HdfsStore.dataInsert { store with health := true } insert.blocks
    insert.answers).1
  { written with health := store.health && written.health }

/-- The calls on the data paths and their permits, and the partition of the
path this module follows. -/
structure HdfsInserts where
  writers : HdfsWriters
  partition : HdfsPartition

/-- Before any call, with `max_concurrency` and
`partition_write_max_concurrency`. -/
def HdfsInserts.initial (maxConcurrency partitionWriteMaxConcurrency : Nat)
    (health hasRemoteClient : Bool) : HdfsInserts :=
  ⟨HdfsWriters.initial maxConcurrency partitionWriteMaxConcurrency,
    HdfsPartition.fresh health hasRemoteClient⟩

/-- The phase whose next step finishes `write_data_and_index`. -/
def InsertPhase.isWriting : InsertPhase → Bool
  | .writing .. => true
  | _ => false

inductive InsertAction where
  /-- A step of the permits' model.  A call on the path in `writing` takes
  its next step only with its insert. -/
  | writers (action : WriterAction)
  /-- The call on the path holding slot `index` of semaphore `semaphore`
  finishes its write, and its insert takes effect. -/
  | write (semaphore index : Nat) (insert : HdfsInsert)

/-- One step of the calls on `path` and the others.  A call on `path` that
finds the store unhealthy returns before the limiter and leaves no trace, so
it never starts here. -/
def nextInserts (path : String) (state : HdfsInserts) : InsertAction → Option HdfsInserts
  | .writers (.spawn spawned) =>
      if spawned = path ∧ state.partition.health = false then none
      else (nextWriters state.writers (.spawn spawned)).map fun writers => { state with writers }
  | .writers (.step call) =>
      if call.1 = path ∧ call.2.isWriting = true then none
      else (nextWriters state.writers (.step call)).map fun writers => { state with writers }
  | .writers (.purgeLock purged) =>
      (nextWriters state.writers (.purgeLock purged)).map fun writers => { state with writers }
  | .write semaphore index insert =>
      if insert.answers.slot = index then
        (nextWriters state.writers (.step (path, .writing semaphore index))).map fun writers =>
          ⟨writers, insertHoldingSlot state.partition insert⟩
      else none

/-- Purges that remove only idle lock entries, and batches that fit their
slot's offset. -/
def KeepsInsertDiscipline (state : HdfsInserts) : InsertAction → Prop
  | .writers action => PurgesIdle state.writers action
  | .write _ _ insert => KeepsBlocksFit state.partition insert

/-! ## What one step does -/

section Steps

variable {path : String} {state next : HdfsInserts} {action : InsertAction}

/-- A step of the permits' model moves the writers alone. -/
theorem nextInserts_writers_eq_some {writerAction : WriterAction}
    (fired : nextInserts path state (.writers writerAction) = some next) :
    nextWriters state.writers writerAction = some next.writers ∧
      next.partition = state.partition := by
  -- the refusals of the path's calls fire no step
  have moved : (nextWriters state.writers writerAction).map
      (fun writers => { state with writers }) = some next := by
    cases writerAction with
    | spawn spawned =>
        simp only [nextInserts] at fired
        split_ifs at fired
        exact fired
    | step call =>
        simp only [nextInserts] at fired
        split_ifs at fired
        exact fired
    | purgeLock purged =>
        exact fired
  obtain ⟨writers, stepped, rfl⟩ := Option.map_eq_some_iff.mp moved
  exact ⟨stepped, rfl⟩

/-- Every step is a step of the permits' model, which the discipline allows
when the composition's does. -/
theorem writers_of_nextInserts (allowed : KeepsInsertDiscipline state action)
    (fired : nextInserts path state action = some next) :
    Steps nextWriters PurgesIdle state.writers next.writers := by
  cases action with
  | writers action =>
      exact ⟨action, allowed, (nextInserts_writers_eq_some fired).1⟩
  | write semaphore index insert =>
      simp only [nextInserts] at fired
      split_ifs at fired
      obtain ⟨writers, moved, rfl⟩ := Option.map_eq_some_iff.mp fired
      exact ⟨.step (path, .writing semaphore index), trivial, moved⟩

/-- A write moves a call on the path that is in flight in `writing`,
holding the slot its insert names, and the insert takes effect. -/
theorem nextInserts_write_eq_some {semaphore index : Nat} {insert : HdfsInsert}
    (fired : nextInserts path state (.write semaphore index insert) = some next) :
    insert.answers.slot = index ∧ (path, InsertPhase.writing semaphore index) ∈ state.writers.calls ∧
      next.partition = insertHoldingSlot state.partition insert := by
  simp only [nextInserts] at fired
  split_ifs at fired with named
  obtain ⟨writers, moved, rfl⟩ := Option.map_eq_some_iff.mp fired
  -- `nextWriters` moves only a call that is in flight
  have inFlight : (path, InsertPhase.writing semaphore index) ∈ state.writers.calls := by
    simp only [nextWriters] at moved
    split_ifs at moved with member
    exact member
  exact ⟨named, inFlight, rfl⟩

/-- Only a write changes the partition. -/
theorem partition_of_nextInserts (fired : nextInserts path state action = some next) :
    next.partition = state.partition ∨
      ∃ semaphore index insert, action = .write semaphore index insert ∧
        insert.answers.slot = index ∧ (path, .writing semaphore index) ∈ state.writers.calls ∧
        next.partition = insertHoldingSlot state.partition insert := by
  cases action with
  | writers action =>
      exact Or.inl (nextInserts_writers_eq_some fired).2
  | write semaphore index insert =>
      right
      obtain ⟨named, inFlight, written⟩ := nextInserts_write_eq_some fired
      exact ⟨semaphore, index, insert, rfl, named, inFlight, written⟩

end Steps

/-! ## The slots of the partition -/

section Kept

variable {store : HdfsPartition} {insert : HdfsInsert}

/-- The rest of an insert keeps its slot when its batch fits: it is the
one-step insert on the store marked healthy, which holds the same slots. -/
theorem SlotKept.insertHoldingSlot (kept : SlotKept store insert.answers.slot)
    (fit : KeepsBlocksFit store insert) :
    SlotKept (insertHoldingSlot store insert) insert.answers.slot := by
  have healthy : SlotKept { store with health := true } insert.answers.slot :=
    kept.congr rfl fun _ _ => rfl
  exact (healthy.dataInsert fit).congr rfl fun _ _ => rfl

/-- The rest of an insert leaves every other slot as it was. -/
theorem onlySlot_insertHoldingSlot (store : HdfsPartition) (insert : HdfsInsert) :
    OnlySlot insert.answers.slot store (insertHoldingSlot store insert) :=
  onlySlot_dataInsert { store with health := true }

end Kept

/-- Every slot of the partition keeps its files along every run of the
calls on its path whose batches fit, whatever the purges. -/
theorem slotKept_of_insertRun {maxConcurrency partitionWriteMaxConcurrency : Nat}
    {health hasRemoteClient : Bool} {path : String} {state : HdfsInserts}
    (reached : Relation.ReflTransGen (Steps (nextInserts path) KeepsInsertDiscipline)
      (HdfsInserts.initial maxConcurrency partitionWriteMaxConcurrency health hasRemoteClient)
      state)
    (slot : Nat) :
    SlotKept state.partition slot := by
  refine @invariant_of_steps _ _ (nextInserts path) KeepsInsertDiscipline
    (fun state => ∀ slot, SlotKept state.partition slot) ?_ _ _ reached
    (slotKept_fresh health hasRemoteClient) slot
  intro source target action allowed kept fired slot
  rcases partition_of_nextInserts fired with same | ⟨_, _, insert, rfl, _, _, written⟩
  · rw [same]
    exact kept slot
  rw [written]
  by_cases atSlot : slot = insert.answers.slot
  · -- the insert's own slot
    subst atSlot
    exact (kept insert.answers.slot).insertHoldingSlot allowed
  · -- every other slot is left as it was
    obtain ⟨sameMeta, sameFiles⟩ := onlySlot_insertHoldingSlot source.partition insert slot atSlot
    exact (kept slot).congr sameMeta sameFiles

/-- The calls' permits along a run of the composition are a run of the
permits' model. -/
theorem writers_of_insertRun {maxConcurrency partitionWriteMaxConcurrency : Nat}
    {health hasRemoteClient : Bool} {path : String} {state : HdfsInserts}
    (reached : Relation.ReflTransGen (Steps (nextInserts path) KeepsInsertDiscipline)
      (HdfsInserts.initial maxConcurrency partitionWriteMaxConcurrency health hasRemoteClient)
      state) :
    Relation.ReflTransGen (Steps nextWriters PurgesIdle)
      (HdfsWriters.initial maxConcurrency partitionWriteMaxConcurrency) state.writers :=
  Relation.ReflTransGen.lift HdfsInserts.writers
    (fun _ _ ⟨_, allowed, fired⟩ => writers_of_nextInserts allowed fired) _ _ reached

/-- Along every run in which purges remove only idle lock entries and
batches fit, an insert takes effect while its call holds the slot the insert
writes, and no other call on the path holds that slot. -/
theorem insert_takes_effect_in_slot_held_alone
    {maxConcurrency partitionWriteMaxConcurrency : Nat} {health hasRemoteClient : Bool}
    {path : String} {state next : HdfsInserts} {semaphore index : Nat} {insert : HdfsInsert}
    (reached : Relation.ReflTransGen (Steps (nextInserts path) KeepsInsertDiscipline)
      (HdfsInserts.initial maxConcurrency partitionWriteMaxConcurrency health hasRemoteClient)
      state)
    (fired : nextInserts path state (.write semaphore index insert) = some next) :
    insert.answers.slot = index ∧ (path, InsertPhase.writing semaphore index) ∈ state.writers.calls ∧
      (state.writers.slotsHeld path).count index = 1 ∧
      next.partition = insertHoldingSlot state.partition insert := by
  obtain ⟨named, inFlight, written⟩ := nextInserts_write_eq_some fired
  -- the slots the path's calls hold are distinct in every run of the permits' model
  have distinct := (partition_slots_distinct (writers_of_insertRun reached) path).1
  have held : index ∈ state.writers.slotsHeld path := by
    unfold HdfsWriters.slotsHeld
    exact List.mem_filterMap.mpr ⟨_, List.mem_filter.mpr ⟨inFlight, by simp⟩, rfl⟩
  exact ⟨named, inFlight, List.count_eq_one_of_mem distinct held, written⟩

end Riffle.Hdfs
