import Riffle.Hdfs.WriteConcurrency

/-!
# Slot exclusivity of `SemaphoreWithIndex`

`SemaphoreWithIndex` (`src/semaphore_with_index.rs`) on its own, used by any
number of tasks that call `acquire` and later drop the permit it returns.
Each task goes through the phases of `PermitPhase`, and each move between
them is one step other tasks interleave with: the `await` of the inner
tokio semaphore (a count of free permits), the `pop_front` under the deque's
lock, the `push_front` of `Drop::drop`, and the release of the inner
`SemaphorePermit`, which Rust drops after the permit's own `drop` has run.

A task's phase has the permit and the slot of a `data_insert` call on
semaphore `0` (`PermitPhase.toInsertPhase`), so the accounting of
`WriteConcurrency` carries over: every reachable state keeps `SlotsExclusive`,
and from it the slots of the live permits are distinct, below `permits`, and
with the free deque a permutation of `0..permits`, and no `pop_front` finds
the deque empty (`acquire_slots_exclusive`).
-/

namespace Riffle.Hdfs

open Riffle.Transition

/-- Where a task using one `SemaphoreWithIndex` is. -/
inductive PermitPhase where
  /-- Awaiting `self.internal.acquire()`. -/
  | acquiring
  /-- Holding the inner permit, before `index_ref.pop_front()`. -/
  | permitted
  /-- Holding a live `SemaphorePermitWithIndex` of slot `index`. -/
  | holding (index : Nat)
  /-- `Drop::drop` pushed the slot back; the inner permit is still held. -/
  | dropping
  | released
  /-- The `unwrap` of an empty deque. -/
  | panicked
  deriving DecidableEq, Repr

namespace PermitPhase

/-- The next step of a task in a phase, with the semaphore after it; `none`
while the task waits for a permit, or once it has released it. -/
def advance (semaphore : SemaphoreWithIndex) :
    PermitPhase → Option (SemaphoreWithIndex × PermitPhase)
  | .acquiring => semaphore.acquirePermit.map fun acquired => (acquired, .permitted)
  | .permitted =>
      match semaphore.popFront with
      | some (index, popped) => some (popped, .holding index)
      | none => some (semaphore, .panicked)
  | .holding index => some (semaphore.pushFront index, .dropping)
  | .dropping => some (semaphore.releasePermit, .released)
  | .released | .panicked => none

/-- The slot a task holds. -/
def heldIndex : PermitPhase → Option Nat
  | .holding index => some index
  | _ => none

/-- The phase of a `data_insert` call on semaphore `0` that holds what the
task holds. -/
def toInsertPhase : PermitPhase → InsertPhase
  | .acquiring => .waiting 0
  | .permitted => .permitted 0
  | .holding index => .writing 0 index
  | .dropping => .releasing 0
  | .released => .done
  | .panicked => .panicked

end PermitPhase

/-- A `SemaphoreWithIndex` and the phases of the tasks that use it. -/
structure IndexedPermits where
  semaphore : SemaphoreWithIndex
  tasks : List PermitPhase
  deriving DecidableEq, Repr

/-- `SemaphoreWithIndex::new(permits)`, before any task. -/
def IndexedPermits.new (permits : Nat) : IndexedPermits :=
  ⟨SemaphoreWithIndex.new permits, []⟩

/-- The slots of the live `SemaphorePermitWithIndex` values. -/
def IndexedPermits.heldSlots (permits : IndexedPermits) : List Nat :=
  permits.tasks.filterMap PermitPhase.heldIndex

/-- A task calls `acquire`, or a task in a phase takes its next step. -/
inductive PermitAction where
  | spawn
  | step (phase : PermitPhase)
  deriving DecidableEq, Repr

/-- The state after an action. -/
def nextPermits (permits : IndexedPermits) : PermitAction → Option IndexedPermits
  | .spawn => some { permits with tasks := .acquiring :: permits.tasks }
  | .step phase =>
      if phase ∈ permits.tasks then
        (phase.advance permits.semaphore).map fun moved =>
          ⟨moved.1, moved.2 :: permits.tasks.erase phase⟩
      else none

namespace PermitPhase

variable {semaphore moved : SemaphoreWithIndex} {old new : PermitPhase}

theorem heldIndexOf_toInsertPhase (phase : PermitPhase) :
    phase.toInsertPhase.heldIndexOf 0 = phase.heldIndex := by
  cases phase <;> rfl

theorem filterMap_toInsertPhase (tasks : List PermitPhase) :
    (tasks.map toInsertPhase).filterMap (InsertPhase.heldIndexOf 0) =
      tasks.filterMap heldIndex := by
  rw [List.filterMap_map]
  exact congrArg (List.filterMap · tasks) (funext heldIndexOf_toInsertPhase)

/-- Each step of a task moves its permit and slot in balance with the
semaphore, unless it panics. -/
theorem advance_balanced (fires : advance semaphore old = some (moved, new))
    (noPanic : new ≠ .panicked) :
    Balanced 0 semaphore moved old.toInsertPhase new.toInsertPhase := by
  cases old with
  | acquiring =>
      obtain ⟨acquired, taken, movedEq⟩ := Option.map_eq_some_iff.mp fires
      cases movedEq
      exact SemaphoreWithIndex.balanced_acquirePermit taken
  | permitted =>
      simp only [advance] at fires
      split at fires
      · next index popped taken =>
          cases fires
          exact SemaphoreWithIndex.balanced_popFront taken
      · cases fires
        exact absurd rfl noPanic
  | holding index =>
      cases fires
      -- a holder has the permit and the slot of a call that is still writing
      exact SemaphoreWithIndex.balanced_pushFront semaphore
  | dropping =>
      cases fires
      exact SemaphoreWithIndex.balanced_releasePermit semaphore
  | released | panicked => cases fires

/-- A step panics only when a task with a permit finds the deque empty. -/
theorem advance_panicked (fires : advance semaphore old = some (moved, .panicked)) :
    old = .permitted ∧ semaphore.indexRef = [] := by
  cases old with
  | acquiring =>
      obtain ⟨acquired, -, movedEq⟩ := Option.map_eq_some_iff.mp fires
      cases movedEq
  | permitted =>
      simp only [advance] at fires
      split at fires
      · cases fires
      · next empty => exact ⟨rfl, SemaphoreWithIndex.popFront_eq_none empty⟩
  | holding _ | dropping | released | panicked => cases fires

end PermitPhase

/-! ## What every run keeps -/

/-- What every reachable state keeps: the semaphore has `size` permits, it
accounts for the permits and slots of the tasks, and no task has panicked. -/
structure SlotsExclusive (size : Nat) (permits : IndexedPermits) : Prop where
  permits_eq : permits.semaphore.permits = size
  accounts : Accounts permits.semaphore 0 (permits.tasks.map PermitPhase.toInsertPhase)
  noPanic : PermitPhase.panicked ∉ permits.tasks

section Invariant

variable {size : Nat} {permits after : IndexedPermits} {moved : SemaphoreWithIndex}
  {old new : PermitPhase}

theorem slotsExclusive_new (size : Nat) : SlotsExclusive size (IndexedPermits.new size) :=
  ⟨rfl, accounts_new size nofun, nofun⟩

/-- A step of a task keeps the semaphore accounted and never panics: a task
with a permit finds a queued slot. -/
theorem SlotsExclusive.step (exclusive : SlotsExclusive size permits)
    (member : old ∈ permits.tasks)
    (fires : old.advance permits.semaphore = some (moved, new)) :
    SlotsExclusive size ⟨moved, new :: permits.tasks.erase old⟩ := by
  have phases : (permits.tasks.map PermitPhase.toInsertPhase).Perm
      (old.toInsertPhase :: (permits.tasks.erase old).map PermitPhase.toInsertPhase) :=
    (List.perm_cons_erase member).map _
  have noPanic : new ≠ .panicked := by
    rintro rfl
    obtain ⟨rfl, empty⟩ := PermitPhase.advance_panicked fires
    exact exclusive.accounts.indexRef_ne_nil (List.mem_map_of_mem member) empty
  have balanced := PermitPhase.advance_balanced fires noPanic
  refine ⟨balanced.1.trans exclusive.permits_eq, (exclusive.accounts.perm phases).replace balanced,
    fun panicked => ?_⟩
  rcases List.mem_cons.mp panicked with same | later
  · exact noPanic same.symm
  · exact exclusive.noPanic (List.mem_of_mem_erase later)

theorem SlotsExclusive.next (exclusive : SlotsExclusive size permits) {action : PermitAction}
    (fires : nextPermits permits action = some after) : SlotsExclusive size after := by
  cases action with
  | spawn =>
      cases fires
      -- a task waiting for its permit holds nothing
      exact ⟨exclusive.permits_eq, exclusive.accounts.cons rfl rfl,
        by simpa using exclusive.noPanic⟩
  | step phase =>
      simp only [nextPermits] at fires
      split_ifs at fires with member
      obtain ⟨result, advanced, rfl⟩ := Option.map_eq_some_iff.mp fires
      exact exclusive.step member advanced

theorem slotsExclusive_of_reachable
    (reached : Relation.ReflTransGen (Steps nextPermits fun _ _ => True)
      (IndexedPermits.new size) permits) :
    SlotsExclusive size permits :=
  @invariant_of_steps _ _ nextPermits (fun _ _ => True) (SlotsExclusive size)
    (fun _ _ _ _ exclusive fired => exclusive.next fired) _ _ reached (slotsExclusive_new size)

end Invariant

/-- Over every interleaving of `acquire` calls and permit drops from
`SemaphoreWithIndex::new(size)`: the live permits hold distinct slots below
`size`, the free deque and the held slots are `0..size` each once, no task has
panicked, and a task about to pop finds a slot. -/
theorem acquire_slots_exclusive (size : Nat) {permits : IndexedPermits}
    (reached : Relation.ReflTransGen (Steps nextPermits fun _ _ => True)
      (IndexedPermits.new size) permits) :
    permits.heldSlots.Nodup ∧ (∀ slot ∈ permits.heldSlots, slot < size) ∧
      (permits.semaphore.indexRef ++ permits.heldSlots).Perm (List.range size) ∧
      PermitPhase.panicked ∉ permits.tasks ∧
      (PermitPhase.permitted ∈ permits.tasks →
        ∃ index popped, permits.semaphore.popFront = some (index, popped)) := by
  have exclusive := slotsExclusive_of_reachable reached
  have accounts := exclusive.accounts
  have heldSlots : (permits.tasks.map PermitPhase.toInsertPhase).filterMap
      (InsertPhase.heldIndexOf 0) = permits.heldSlots :=
    PermitPhase.filterMap_toInsertPhase permits.tasks
  refine ⟨heldSlots ▸ accounts.nodup, fun slot held => ?_, ?_, exclusive.noPanic,
    fun waiting => ?_⟩
  · rw [← exclusive.permits_eq]
    exact accounts.lt_permits (heldSlots ▸ held)
  · rw [← heldSlots, ← exclusive.permits_eq]
    exact accounts.2
  · have queued := accounts.indexRef_ne_nil (List.mem_map.mpr ⟨.permitted, waiting, rfl⟩)
    cases found : permits.semaphore.popFront with
    | none => exact absurd (SemaphoreWithIndex.popFront_eq_none found) queued
    | some taken => exact ⟨taken.1, taken.2, rfl⟩

/-- The source's own test: two acquires take slots 0 and 1, the first permit
is dropped, and a third acquire takes slot 0 again. -/
def sourceTestRun : List PermitAction :=
  [.spawn, .step .acquiring, .step .permitted, .spawn, .step .acquiring, .step .permitted,
    .step (.holding 0), .step .dropping, .spawn, .step .acquiring, .step .permitted]

def sourceTest : IndexedPermits :=
  (run nextPermits (IndexedPermits.new 2) sourceTestRun).getD (IndexedPermits.new 2)

theorem acquire_slots_exclusive_sourceTest :
    sourceTest.heldSlots = [0, 1] ∧ sourceTest.heldSlots.Nodup ∧
      (sourceTest.semaphore.indexRef ++ sourceTest.heldSlots).Perm (List.range 2) :=
  have facts := acquire_slots_exclusive 2 (reflTransGen_of_run (fun _ _ _ => trivial)
    (show run nextPermits (IndexedPermits.new 2) sourceTestRun = some sourceTest from rfl))
  ⟨rfl, facts.1, facts.2.2.1⟩

end Riffle.Hdfs
