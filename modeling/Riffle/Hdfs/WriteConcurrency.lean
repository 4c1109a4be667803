import Mathlib.Data.List.Nodup
import Mathlib.Data.List.Perm.Basic
import Mathlib.Data.List.Range
import Riffle.Lib.Transition

/-!
# How many inserts write to HDFS at once

`HdfsStore::data_insert` (`src/store/hdfs.rs`) goes through two gates before
it writes.  The first is the store's `concurrency_access_limiter`, a tokio
`Semaphore` with `max_concurrency` permits; the permit it returns is bound by
`let _ = ...`, which binds nothing, so the permit is dropped at the end of
that statement and the gate bounds only the calls passing through it at the
same instant.  The second is the partition's `SemaphoreWithIndex`
(`src/semaphore_with_index.rs`), which `partition_file_locks` holds per data
path and creates with `partition_write_max_concurrency` permits on first use:
`acquire` takes a permit of its inner semaphore and then pops a slot index
from the front of its deque, and dropping the returned permit pushes the index
back to the front before the inner permit is freed.  `HdfsStore::purge`
removes the lock entries of the purged partitions, whatever calls still use
them; the next call on such a partition makes a new semaphore, with the same
indices.

The model takes each step of a call that another call can interleave with as
one transition: acquiring and dropping the limiter's permit, the lock entry's
`or_insert_with`, acquiring the inner permit, popping the index, finishing
`write_data_and_index`, and the two halves of the permit's drop.  Calls are a
list of phases, and any call may move at any time.

What holds (`SlotsAccounted`): each semaphore's free permits and the permits
the calls hold make up its permits, and its queued indices and the indices
the calls hold are its indices, each once, so no pop ever finds the deque
empty.  While no purge removes the lock entry of a partition some call still
uses (`PurgesIdle`), the calls of a partition all use the semaphore its
entry holds, so at most `partition_write_max_concurrency` of them hold a
slot, and no two the same.
-/

namespace Riffle.Hdfs

open Riffle.Transition

/-! ## The model -/

/-- `SemaphoreWithIndex`: the free permits of its inner semaphore, its
permits, and the deque `index_ref` of free indices, front first. -/
structure SemaphoreWithIndex where
  available : Nat
  permits : Nat
  indexRef : List Nat
  deriving DecidableEq, Repr

namespace SemaphoreWithIndex

/-- `SemaphoreWithIndex::new`: every permit free and the indices
`0..permits` queued in order. -/
def new (permits : Nat) : SemaphoreWithIndex :=
  ⟨permits, permits, List.range permits⟩

/-- `self.internal.acquire()`: takes a permit once one is free. -/
def acquirePermit (semaphore : SemaphoreWithIndex) : Option SemaphoreWithIndex :=
  if 0 < semaphore.available then some { semaphore with available := semaphore.available - 1 }
  else none

/-- `index_ref.pop_front()`; `none` is the empty deque, where the `unwrap`
of `acquire` panics. -/
def popFront (semaphore : SemaphoreWithIndex) : Option (Nat × SemaphoreWithIndex) :=
  match semaphore.indexRef with
  | [] => none
  | index :: rest => some (index, { semaphore with indexRef := rest })

/-- `SemaphorePermitWithIndex::drop`: the index goes back to the front. -/
def pushFront (semaphore : SemaphoreWithIndex) (index : Nat) : SemaphoreWithIndex :=
  { semaphore with indexRef := index :: semaphore.indexRef }

/-- The drop of the inner `SemaphorePermit`, after the permit's own `drop`:
its permit is free again. -/
def releasePermit (semaphore : SemaphoreWithIndex) : SemaphoreWithIndex :=
  { semaphore with available := semaphore.available + 1 }

end SemaphoreWithIndex

/-- Where a `data_insert` call is. -/
inductive InsertPhase where
  /-- Before the limiter. -/
  | start
  /-- Inside `let _ = ...acquire()...;`, holding the limiter's permit. -/
  | limited
  /-- After that statement, before the lock entry. -/
  | unlimited
  /-- Holding the `Arc` of semaphore `semaphore`, waiting for a permit. -/
  | waiting (semaphore : Nat)
  /-- Holding a permit, before popping the index. -/
  | permitted (semaphore : Nat)
  /-- Holding slot `index`, before `write_data_and_index` finishes. -/
  | writing (semaphore index : Nat)
  /-- Still holding the slot after `write_data_and_index`. -/
  | written (semaphore index : Nat)
  /-- The permit's `drop` pushed the index back; the inner permit is still
  held. -/
  | releasing (semaphore : Nat)
  | done
  /-- The `unwrap` of an empty deque. -/
  | panicked
  deriving DecidableEq, Repr

/-- The part of `HdfsStore` that `data_insert`'s permits go through, and the
calls in flight. -/
structure HdfsWriters where
  /-- The free permits of `concurrency_access_limiter`. -/
  concurrencyAccessLimiter : Nat
  partitionWriteConcurrency : Nat
  /-- `partition_file_locks`: the semaphore of each data path, by number. -/
  partitionFileLocks : String → Option Nat
  /-- The semaphores made so far, by number. -/
  semaphores : Nat → SemaphoreWithIndex
  created : Nat
  /-- The calls in flight: each one's data path and phase. -/
  calls : List (String × InsertPhase)

/-- A store with `max_concurrency` and `partition_write_max_concurrency`,
before any call. -/
def HdfsWriters.initial (maxConcurrency partitionWriteMaxConcurrency : Nat) : HdfsWriters :=
  ⟨maxConcurrency, partitionWriteMaxConcurrency, fun _ => none,
    fun _ => SemaphoreWithIndex.new 0, 0, []⟩

namespace HdfsWriters

/-- Replace semaphore `semaphore`. -/
def setSemaphore (writers : HdfsWriters) (semaphore : Nat) (updated : SemaphoreWithIndex) :
    HdfsWriters :=
  { writers with semaphores := Function.update writers.semaphores semaphore updated }

/-- `or_insert_with`: a new semaphore with `partition_write_concurrency`
permits becomes the lock entry of `path`. -/
def insertLock (writers : HdfsWriters) (path : String) : HdfsWriters :=
  { writers with
    partitionFileLocks := Function.update writers.partitionFileLocks path (some writers.created)
    semaphores := Function.update writers.semaphores writers.created
      (SemaphoreWithIndex.new writers.partitionWriteConcurrency)
    created := writers.created + 1 }

/-- The next step of a call on data path `path` in the given phase, with the
phase it moves to; `none` while it waits for a permit, or once it has
returned. -/
def advance (writers : HdfsWriters) (path : String) :
    InsertPhase → Option (HdfsWriters × InsertPhase)
  | .start =>
      if 0 < writers.concurrencyAccessLimiter then
        some ({ writers with concurrencyAccessLimiter := writers.concurrencyAccessLimiter - 1 },
          .limited)
      else none
  | .limited =>
      some ({ writers with concurrencyAccessLimiter := writers.concurrencyAccessLimiter + 1 },
        .unlimited)
  | .unlimited =>
      -- `partition_file_locks.entry(path).or_insert_with(...)`
      match writers.partitionFileLocks path with
      | some semaphore => some (writers, .waiting semaphore)
      | none => some (writers.insertLock path, .waiting writers.created)
  | .waiting semaphore =>
      (writers.semaphores semaphore).acquirePermit.map fun acquired =>
        (writers.setSemaphore semaphore acquired, .permitted semaphore)
  | .permitted semaphore =>
      match (writers.semaphores semaphore).popFront with
      | some (index, popped) => some (writers.setSemaphore semaphore popped, .writing semaphore index)
      | none => some (writers, .panicked)
  | .writing semaphore index => some (writers, .written semaphore index)
  | .written semaphore index =>
      some (writers.setSemaphore semaphore ((writers.semaphores semaphore).pushFront index),
        .releasing semaphore)
  | .releasing semaphore =>
      some (writers.setSemaphore semaphore (writers.semaphores semaphore).releasePermit, .done)
  | .done => none
  | .panicked => none

end HdfsWriters

/-- What can happen next: a call on a data path begins, a call in flight
takes its next step, or a purge removes a data path's lock entry (one
iteration of the loop of `HdfsStore::purge`). -/
inductive WriterAction where
  | spawn (path : String)
  | step (call : String × InsertPhase)
  | purgeLock (path : String)
  deriving DecidableEq, Repr

/-- The store after an action. -/
def nextWriters (writers : HdfsWriters) : WriterAction → Option HdfsWriters
  | .spawn path => some { writers with calls := (path, .start) :: writers.calls }
  | .step call =>
      if call ∈ writers.calls then
        (writers.advance call.1 call.2).map fun moved =>
          { moved.1 with calls := (call.1, moved.2) :: writers.calls.erase call }
      else none
  | .purgeLock path =>
      some { writers with partitionFileLocks := Function.update writers.partitionFileLocks path none }

namespace InsertPhase

/-- The semaphore a phase uses. -/
def semaphore? : InsertPhase → Option Nat
  | .waiting semaphore | .permitted semaphore | .writing semaphore _ | .written semaphore _
  | .releasing semaphore => some semaphore
  | _ => none

/-- Whether a phase holds a permit of semaphore `semaphore`. -/
def holdsPermitOf (semaphore : Nat) : InsertPhase → Bool
  | .permitted other | .writing other _ | .written other _ | .releasing other => other == semaphore
  | _ => false

/-- The slot a phase holds of semaphore `semaphore`. -/
def heldIndexOf (semaphore : Nat) : InsertPhase → Option Nat
  | .writing other index | .written other index => if other = semaphore then some index else none
  | _ => none

/-- The slot a phase holds, of whichever semaphore. -/
def heldIndex : InsertPhase → Option Nat
  | .writing _ index | .written _ index => some index
  | _ => none

/-- Between acquiring `concurrency_access_limiter` and finishing
`write_data_and_index`. -/
def inWritePhase : InsertPhase → Bool
  | .limited | .unlimited | .waiting _ | .permitted _ | .writing _ _ => true
  | _ => false

end InsertPhase

/-- A purge removes only lock entries that no call in flight uses. -/
def PurgesIdle (writers : HdfsWriters) : WriterAction → Prop
  | .purgeLock path => ∀ call ∈ writers.calls, call.1 = path → call.2.semaphore? = none
  | _ => True

instance (writers : HdfsWriters) : (action : WriterAction) → Decidable (PurgesIdle writers action)
  | .purgeLock path =>
      inferInstanceAs (Decidable (∀ call ∈ writers.calls, call.1 = path → call.2.semaphore? = none))
  | .spawn _ => isTrue trivial
  | .step _ => isTrue trivial

/-! ## What a semaphore accounts for -/

/-- Semaphore number `semaphore`, in state `current`, accounts for the
phases of the calls: its free permits and the permits they hold make up all
its permits, and its queued indices and the indices they hold are the indices
`0..permits`, each once. -/
def Accounts (current : SemaphoreWithIndex) (semaphore : Nat) (phases : List InsertPhase) : Prop :=
  current.available + phases.countP (InsertPhase.holdsPermitOf semaphore) = current.permits ∧
    (current.indexRef ++ phases.filterMap (InsertPhase.heldIndexOf semaphore)).Perm
      (List.range current.permits)

/-- A call's move from phase `old` to phase `new`, while the semaphore goes
from `before` to `after`: what the semaphore gives up of its free permits and
queued indices the call's phase takes, and the other way round. -/
def Balanced (semaphore : Nat) (before after : SemaphoreWithIndex) (old new : InsertPhase) : Prop :=
  after.permits = before.permits ∧
    after.available + (if new.holdsPermitOf semaphore then 1 else 0) =
      before.available + (if old.holdsPermitOf semaphore then 1 else 0) ∧
    (after.indexRef ++ (new.heldIndexOf semaphore).toList).Perm
      (before.indexRef ++ (old.heldIndexOf semaphore).toList)

namespace InsertPhase

variable {semaphore : Nat}

theorem semaphore?_of_holdsPermitOf :
    ∀ {phase : InsertPhase}, phase.holdsPermitOf semaphore = true →
      phase.semaphore? = some semaphore
  | .permitted _, holds | .writing _ _, holds | .written _ _, holds | .releasing _, holds => by
      simpa [holdsPermitOf, semaphore?] using holds

theorem semaphore?_of_heldIndexOf {index : Nat} :
    ∀ {phase : InsertPhase}, phase.heldIndexOf semaphore = some index →
      phase.semaphore? = some semaphore
  | .writing _ _, held | .written _ _, held => by
      simp only [heldIndexOf, Option.ite_none_right_eq_some] at held
      simp [semaphore?, held.1]

/-- A call holds a slot only while it holds a permit, and never while it
has a permit and no slot yet. -/
theorem length_heldIndexOf_add_le (phase : InsertPhase) :
    (phase.heldIndexOf semaphore).toList.length +
        (if phase = .permitted semaphore then 1 else 0) ≤
      if phase.holdsPermitOf semaphore then 1 else 0 := by
  cases phase <;> simp [heldIndexOf, holdsPermitOf] <;> split_ifs <;> simp_all

end InsertPhase

section Accounting

variable {current before after : SemaphoreWithIndex} {semaphore : Nat}
  {phases rest : List InsertPhase}

theorem filterMap_cons_toList {α β : Type} (f : α → Option β) (head : α) (tail : List α) :
    (head :: tail).filterMap f = (f head).toList ++ tail.filterMap f := by
  cases found : f head <;> simp [found]

theorem Accounts.perm (accounts : Accounts current semaphore phases) {other : List InsertPhase}
    (reordered : phases.Perm other) : Accounts current semaphore other :=
  ⟨reordered.countP_eq _ ▸ accounts.1,
    ((reordered.filterMap _).append_left _).symm.trans accounts.2⟩

/-- A call that moves in balance with the semaphore keeps it accounted. -/
theorem Accounts.replace {old new : InsertPhase} (accounts : Accounts before semaphore (old :: rest))
    (balanced : Balanced semaphore before after old new) : Accounts after semaphore (new :: rest) := by
  obtain ⟨permitsSame, availableMoves, indicesMove⟩ := balanced
  obtain ⟨permitsCounted, indicesCounted⟩ := accounts
  rw [List.countP_cons] at permitsCounted
  rw [filterMap_cons_toList] at indicesCounted
  refine ⟨?_, ?_⟩
  · rw [List.countP_cons, permitsSame]
    omega
  · rw [filterMap_cons_toList, permitsSame, ← List.append_assoc]
    exact (indicesMove.append_right _).trans ((List.append_assoc _ _ _).symm ▸ indicesCounted)

/-- A call that holds neither a permit nor a slot of a semaphore changes
nothing of what it accounts for. -/
theorem Accounts.cons {phase : InsertPhase} (accounts : Accounts current semaphore phases)
    (noPermit : phase.holdsPermitOf semaphore = false)
    (noIndex : phase.heldIndexOf semaphore = none) :
    Accounts current semaphore (phase :: phases) := by
  refine ⟨?_, ?_⟩
  · rw [List.countP_cons, noPermit]
    exact accounts.1
  · rw [filterMap_cons_toList, noIndex]
    exact accounts.2

/-- A new semaphore accounts for calls none of which uses it. -/
theorem accounts_new (permits : Nat)
    (unused : ∀ phase ∈ phases, phase.semaphore? ≠ some semaphore) :
    Accounts (SemaphoreWithIndex.new permits) semaphore phases := by
  have noPermits : phases.countP (InsertPhase.holdsPermitOf semaphore) = 0 :=
    List.countP_eq_zero.mpr fun phase member holds =>
      unused phase member (InsertPhase.semaphore?_of_holdsPermitOf holds)
  have noIndices : phases.filterMap (InsertPhase.heldIndexOf semaphore) = [] :=
    List.filterMap_eq_nil_iff.mpr fun phase member => by
      cases held : phase.heldIndexOf semaphore
      · rfl
      · exact absurd (InsertPhase.semaphore?_of_heldIndexOf held) (unused phase member)
  refine ⟨?_, ?_⟩
  · rw [noPermits]
    rfl
  · rw [noIndices, List.append_nil]
    exact List.Perm.refl _

theorem Accounts.nodup (accounts : Accounts current semaphore phases) :
    (phases.filterMap (InsertPhase.heldIndexOf semaphore)).Nodup :=
  List.Nodup.of_append_right (accounts.2.nodup_iff.mpr List.nodup_range)

theorem Accounts.length_le (accounts : Accounts current semaphore phases) :
    (phases.filterMap (InsertPhase.heldIndexOf semaphore)).length ≤ current.permits := by
  have lengths := accounts.2.length_eq
  rw [List.length_append, List.length_range] at lengths
  omega

theorem Accounts.lt_permits (accounts : Accounts current semaphore phases) {index : Nat}
    (held : index ∈ phases.filterMap (InsertPhase.heldIndexOf semaphore)) :
    index < current.permits :=
  List.mem_range.mp (accounts.2.subset (List.mem_append_right _ held))

/-- The calls hold no more slots than permits, and one fewer for each call
that has a permit and no slot yet. -/
theorem length_filterMap_add_count_le (semaphore : Nat) :
    ∀ phases : List InsertPhase,
      (phases.filterMap (InsertPhase.heldIndexOf semaphore)).length +
          phases.count (.permitted semaphore) ≤
        phases.countP (InsertPhase.holdsPermitOf semaphore)
  | [] => le_refl 0
  | phase :: rest => by
      have restBound := length_filterMap_add_count_le semaphore rest
      have phaseBound := @InsertPhase.length_heldIndexOf_add_le semaphore phase
      rw [filterMap_cons_toList, List.length_append, List.count_cons, List.countP_cons]
      simp only [beq_iff_eq] at phaseBound ⊢
      split_ifs at phaseBound ⊢ <;> omega

/-- A call with a permit and no slot yet finds the deque not empty. -/
theorem Accounts.indexRef_ne_nil (accounts : Accounts current semaphore phases)
    (waitingForIndex : .permitted semaphore ∈ phases) : current.indexRef ≠ [] := by
  intro empty
  have lengths := accounts.2.length_eq
  have bound := length_filterMap_add_count_le semaphore phases
  have present := List.count_pos_iff.mpr waitingForIndex
  rw [List.length_append, List.length_range, empty, List.length_nil] at lengths
  have counted := accounts.1
  omega

end Accounting

/-! ## What one step of a call can do -/

namespace SemaphoreWithIndex

variable {current popped : SemaphoreWithIndex} {semaphore index : Nat}

@[simp]
theorem pushFront_available (current : SemaphoreWithIndex) (index : Nat) :
    (current.pushFront index).available = current.available :=
  rfl

@[simp]
theorem pushFront_permits (current : SemaphoreWithIndex) (index : Nat) :
    (current.pushFront index).permits = current.permits :=
  rfl

@[simp]
theorem releasePermit_permits (current : SemaphoreWithIndex) :
    current.releasePermit.permits = current.permits :=
  rfl

@[simp]
theorem releasePermit_indexRef (current : SemaphoreWithIndex) :
    current.releasePermit.indexRef = current.indexRef :=
  rfl

theorem acquirePermit_eq_some {acquired : SemaphoreWithIndex}
    (taken : current.acquirePermit = some acquired) :
    0 < current.available ∧ acquired = { current with available := current.available - 1 } := by
  unfold acquirePermit at taken
  split_ifs at taken with free
  exact ⟨free, (Option.some.inj taken).symm⟩

theorem popFront_eq_some (taken : current.popFront = some (index, popped)) :
    current.indexRef = index :: popped.indexRef ∧ popped.available = current.available ∧
      popped.permits = current.permits := by
  unfold popFront at taken
  split at taken
  · cases taken
  · next first rest queued =>
      cases taken
      exact ⟨queued, rfl, rfl⟩

theorem popFront_eq_none (empty : current.popFront = none) : current.indexRef = [] := by
  unfold popFront at empty
  split at empty
  · next queued => exact queued
  · cases empty

/-! Each operation moves in balance with the phases of the call that makes
it. -/

theorem balanced_acquirePermit {acquired : SemaphoreWithIndex}
    (taken : current.acquirePermit = some acquired) :
    Balanced semaphore current acquired (.waiting semaphore) (.permitted semaphore) := by
  obtain ⟨free, rfl⟩ := acquirePermit_eq_some taken
  refine ⟨rfl, ?_, by simp [InsertPhase.heldIndexOf]⟩
  simp only [InsertPhase.holdsPermitOf, beq_self_eq_true, if_true, Bool.false_eq_true, if_false]
  omega

theorem balanced_popFront (taken : current.popFront = some (index, popped)) :
    Balanced semaphore current popped (.permitted semaphore) (.writing semaphore index) := by
  obtain ⟨queued, sameAvailable, samePermits⟩ := popFront_eq_some taken
  refine ⟨samePermits, by simp [InsertPhase.holdsPermitOf, sameAvailable], ?_⟩
  simp only [InsertPhase.heldIndexOf, if_true, Option.toList_some, Option.toList_none,
    List.append_nil, queued]
  exact List.perm_append_singleton _ _

theorem balanced_pushFront (current : SemaphoreWithIndex) :
    Balanced semaphore current (current.pushFront index) (.written semaphore index)
      (.releasing semaphore) := by
  refine ⟨rfl, by simp [InsertPhase.holdsPermitOf], ?_⟩
  simp only [pushFront, InsertPhase.heldIndexOf, if_true, Option.toList_some, Option.toList_none,
    List.append_nil]
  exact (List.perm_append_singleton _ _).symm

theorem balanced_releasePermit (current : SemaphoreWithIndex) :
    Balanced semaphore current current.releasePermit (.releasing semaphore) .done :=
  ⟨rfl, by simp [InsertPhase.holdsPermitOf, releasePermit], by simp [InsertPhase.heldIndexOf]⟩

end SemaphoreWithIndex

/-- A move between phases that both leave a semaphore alone is in balance
with it unchanged. -/
theorem balanced_untouched {semaphore : Nat} (current : SemaphoreWithIndex) {old new : InsertPhase}
    (oldAside : old.semaphore? ≠ some semaphore) (newAside : new.semaphore? ≠ some semaphore) :
    Balanced semaphore current current old new := by
  have oldShare : old.holdsPermitOf semaphore = false ∧ old.heldIndexOf semaphore = none :=
    ⟨Bool.eq_false_iff.mpr fun holds => oldAside (InsertPhase.semaphore?_of_holdsPermitOf holds),
      Option.eq_none_iff_forall_ne_some.mpr fun _ held =>
        oldAside (InsertPhase.semaphore?_of_heldIndexOf held)⟩
  have newShare : new.holdsPermitOf semaphore = false ∧ new.heldIndexOf semaphore = none :=
    ⟨Bool.eq_false_iff.mpr fun holds => newAside (InsertPhase.semaphore?_of_holdsPermitOf holds),
      Option.eq_none_iff_forall_ne_some.mpr fun _ held =>
        newAside (InsertPhase.semaphore?_of_heldIndexOf held)⟩
  refine ⟨rfl, ?_, ?_⟩
  · rw [oldShare.1, newShare.1]
  · rw [oldShare.2, newShare.2]

namespace HdfsWriters

variable {writers after : HdfsWriters} {path : String} {old new : InsertPhase}

@[simp]
theorem setSemaphore_self (writers : HdfsWriters) (semaphore : Nat) (updated : SemaphoreWithIndex) :
    (writers.setSemaphore semaphore updated).semaphores semaphore = updated :=
  Function.update_self _ _ _

theorem setSemaphore_of_ne (writers : HdfsWriters) {semaphore other : Nat}
    (different : other ≠ semaphore) (updated : SemaphoreWithIndex) :
    (writers.setSemaphore semaphore updated).semaphores other = writers.semaphores other :=
  Function.update_of_ne different _ _

@[simp]
theorem insertLock_created (writers : HdfsWriters) (path : String) :
    (writers.insertLock path).created = writers.created + 1 :=
  rfl

@[simp]
theorem insertLock_partitionWriteConcurrency (writers : HdfsWriters) (path : String) :
    (writers.insertLock path).partitionWriteConcurrency = writers.partitionWriteConcurrency :=
  rfl

theorem insertLock_partitionFileLocks (writers : HdfsWriters) (path : String) :
    (writers.insertLock path).partitionFileLocks =
      Function.update writers.partitionFileLocks path (some writers.created) :=
  rfl

theorem insertLock_semaphores (writers : HdfsWriters) (path : String) :
    (writers.insertLock path).semaphores =
      Function.update writers.semaphores writers.created
        (SemaphoreWithIndex.new writers.partitionWriteConcurrency) :=
  rfl

/-- A call's move that changes semaphore `taken` from `current` to `updated`
in balance with it is in balance with every semaphore. -/
theorem balanced_setSemaphore {taken semaphore : Nat} {updated : SemaphoreWithIndex}
    (balanced : Balanced taken (writers.semaphores taken) updated old new)
    (oldAside : ∀ other, old.semaphore? = some other → other = taken)
    (newAside : ∀ other, new.semaphore? = some other → other = taken) :
    Balanced semaphore (writers.semaphores semaphore)
      ((writers.setSemaphore taken updated).semaphores semaphore) old new := by
  by_cases same : semaphore = taken
  · subst same
    rw [setSemaphore_self]
    exact balanced
  · rw [setSemaphore_of_ne _ same]
    exact balanced_untouched _ (fun used => same (oldAside semaphore used))
      (fun used => same (newAside semaphore used))

/-- A step moves the call between phases in balance with every semaphore
made before it, unless it panics. -/
theorem advance_balanced (fires : writers.advance path old = some (after, new))
    (noPanic : new ≠ .panicked) {semaphore : Nat} (below : semaphore < writers.created) :
    Balanced semaphore (writers.semaphores semaphore) (after.semaphores semaphore) old new := by
  cases old with
  | start =>
      simp only [advance] at fires
      split_ifs at fires
      cases fires
      exact balanced_untouched _ nofun nofun
  | limited =>
      simp only [advance] at fires
      cases fires
      exact balanced_untouched _ nofun nofun
  | unlimited =>
      simp only [advance] at fires
      -- a waiting call holds nothing, and a semaphore made here is none of
      -- those made before
      split at fires
      · cases fires
        exact ⟨rfl, by simp [InsertPhase.holdsPermitOf], by simp [InsertPhase.heldIndexOf]⟩
      · cases fires
        have fresh : semaphore ≠ writers.created := Nat.ne_of_lt below
        rw [insertLock_semaphores, Function.update_of_ne fresh]
        exact ⟨rfl, by simp [InsertPhase.holdsPermitOf], by simp [InsertPhase.heldIndexOf]⟩
  | waiting taken =>
      simp only [advance] at fires
      obtain ⟨acquired, acquiredEq, moved⟩ := Option.map_eq_some_iff.mp fires
      cases moved
      exact balanced_setSemaphore (SemaphoreWithIndex.balanced_acquirePermit acquiredEq)
        (by simp [InsertPhase.semaphore?]) (by simp [InsertPhase.semaphore?])
  | permitted taken =>
      simp only [advance] at fires
      split at fires
      · next index popped poppedEq =>
          cases fires
          exact balanced_setSemaphore (SemaphoreWithIndex.balanced_popFront poppedEq)
            (by simp [InsertPhase.semaphore?]) (by simp [InsertPhase.semaphore?])
      · cases fires
        exact absurd rfl noPanic
  | writing taken index =>
      simp only [advance] at fires
      cases fires
      exact ⟨rfl, by simp [InsertPhase.holdsPermitOf], by simp [InsertPhase.heldIndexOf]⟩
  | written taken index =>
      simp only [advance] at fires
      cases fires
      exact balanced_setSemaphore (SemaphoreWithIndex.balanced_pushFront _)
        (by simp [InsertPhase.semaphore?]) (by simp [InsertPhase.semaphore?])
  | releasing taken =>
      simp only [advance] at fires
      cases fires
      exact balanced_setSemaphore (SemaphoreWithIndex.balanced_releasePermit _)
        (by simp [InsertPhase.semaphore?]) (by simp [InsertPhase.semaphore?])
  | done | panicked =>
      simp only [advance] at fires
      cases fires

/-- What a step does besides moving permits and indices: it makes a
semaphore for a data path without a lock entry, and otherwise leaves the lock
entries as they are, with the call still using the semaphore it used or the
one of its data path's entry. -/
theorem advance_cases (fires : writers.advance path old = some (after, new)) :
    (after.partitionFileLocks = writers.partitionFileLocks ∧ after.created = writers.created ∧
        after.partitionWriteConcurrency = writers.partitionWriteConcurrency ∧
        ∀ semaphore, new.semaphore? = some semaphore →
          old.semaphore? = some semaphore ∨ writers.partitionFileLocks path = some semaphore) ∨
      writers.partitionFileLocks path = none ∧ new = .waiting writers.created ∧
        after = writers.insertLock path := by
  cases old with
  | start =>
      simp only [advance] at fires
      split_ifs at fires
      cases fires
      exact Or.inl ⟨rfl, rfl, rfl, by simp [InsertPhase.semaphore?]⟩
  | limited =>
      simp only [advance] at fires
      cases fires
      exact Or.inl ⟨rfl, rfl, rfl, by simp [InsertPhase.semaphore?]⟩
  | unlimited =>
      simp only [advance] at fires
      split at fires
      · next semaphore found =>
          cases fires
          exact Or.inl ⟨rfl, rfl, rfl, by simp [InsertPhase.semaphore?, found]⟩
      · next absent =>
          cases fires
          exact Or.inr ⟨absent, rfl, rfl⟩
  | waiting taken =>
      simp only [advance] at fires
      obtain ⟨acquired, -, moved⟩ := Option.map_eq_some_iff.mp fires
      cases moved
      exact Or.inl ⟨rfl, rfl, rfl, by simp [InsertPhase.semaphore?]⟩
  | permitted taken =>
      simp only [advance] at fires
      split at fires <;> cases fires
      · exact Or.inl ⟨rfl, rfl, rfl, by simp [InsertPhase.semaphore?]⟩
      · exact Or.inl ⟨rfl, rfl, rfl, by simp [InsertPhase.semaphore?]⟩
  | writing taken index | written taken index | releasing taken =>
      simp only [advance] at fires
      cases fires
      exact Or.inl ⟨rfl, rfl, rfl, by simp [InsertPhase.semaphore?]⟩
  | done | panicked =>
      simp only [advance] at fires
      cases fires

/-- A step panics only when a call with a permit finds the deque empty. -/
theorem advance_panicked (fires : writers.advance path old = some (after, .panicked)) :
    ∃ semaphore, old = .permitted semaphore ∧ (writers.semaphores semaphore).indexRef = [] := by
  cases old with
  | start =>
      simp only [advance] at fires
      split_ifs at fires
      cases fires
  | waiting taken =>
      simp only [advance] at fires
      obtain ⟨acquired, -, moved⟩ := Option.map_eq_some_iff.mp fires
      cases moved
  | permitted taken =>
      simp only [advance] at fires
      split at fires
      · cases fires
      · next empty => exact ⟨taken, rfl, SemaphoreWithIndex.popFront_eq_none empty⟩
  | unlimited =>
      simp only [advance] at fires
      split at fires <;> cases fires
  | limited | writing _ _ | written _ _ | releasing _ | done | panicked =>
      simp only [advance] at fires
      cases fires

end HdfsWriters

/-! ## What every run keeps -/

/-- The slots the calls on data path `path` hold. -/
def HdfsWriters.slotsHeld (writers : HdfsWriters) (path : String) : List Nat :=
  (writers.calls.filter fun call => call.1 = path).filterMap fun call => call.2.heldIndex

/-- What every reachable store keeps: lock entries and calls use semaphores
that exist, each made with `partition_write_max_concurrency` permits; each
accounts for the calls; and no call has panicked. -/
structure SlotsAccounted (writers : HdfsWriters) : Prop where
  locksBelow : ∀ path semaphore, writers.partitionFileLocks path = some semaphore →
    semaphore < writers.created
  usesBelow : ∀ call ∈ writers.calls, ∀ semaphore, call.2.semaphore? = some semaphore →
    semaphore < writers.created
  permits_eq : ∀ semaphore < writers.created,
    (writers.semaphores semaphore).permits = writers.partitionWriteConcurrency
  accounts : ∀ semaphore < writers.created,
    Accounts (writers.semaphores semaphore) semaphore (writers.calls.map Prod.snd)
  noPanic : ∀ call ∈ writers.calls, call.2 ≠ .panicked

/-- Every call that uses a semaphore uses the one its data path's lock entry
holds. -/
def LocksFollowed (writers : HdfsWriters) : Prop :=
  ∀ call ∈ writers.calls, ∀ semaphore, call.2.semaphore? = some semaphore →
    writers.partitionFileLocks call.1 = some semaphore

section Invariants

open HdfsWriters

variable {writers writers' after : HdfsWriters} {call : String × InsertPhase}
  {new : InsertPhase}

theorem slotsAccounted_initial (maxConcurrency partitionWriteMaxConcurrency : Nat) :
    SlotsAccounted (HdfsWriters.initial maxConcurrency partitionWriteMaxConcurrency) where
  locksBelow := fun _ _ found => by cases found
  usesBelow := fun _ member => by cases member
  permits_eq := fun _ below => absurd below (Nat.not_lt_zero _)
  accounts := fun _ below => absurd below (Nat.not_lt_zero _)
  noPanic := fun _ member => by cases member

/-- The phases of the calls, with the moving call's first. -/
theorem phases_perm_erase (member : call ∈ writers.calls) :
    (writers.calls.map Prod.snd).Perm (call.2 :: (writers.calls.erase call).map Prod.snd) :=
  (List.perm_cons_erase member).map Prod.snd

/-- A step of a call keeps every semaphore accounted, makes a new semaphore
for a data path without a lock entry, and never panics. -/
theorem SlotsAccounted.step (accounted : SlotsAccounted writers) (member : call ∈ writers.calls)
    (fires : writers.advance call.1 call.2 = some (after, new)) :
    SlotsAccounted { after with calls := (call.1, new) :: writers.calls.erase call } := by
  have phases := phases_perm_erase member
  have restBelow : ∀ other ∈ writers.calls.erase call, ∀ semaphore,
      other.2.semaphore? = some semaphore → semaphore < writers.created :=
    fun other otherMember => accounted.usesBelow other (List.mem_of_mem_erase otherMember)
  -- a call with a permit finds a queued index
  have noPanic : new ≠ .panicked := by
    rintro rfl
    obtain ⟨semaphore, permitted, empty⟩ := advance_panicked fires
    have below := accounted.usesBelow call member semaphore (by rw [permitted]; rfl)
    refine (accounted.accounts semaphore below).indexRef_ne_nil ?_ empty
    exact List.mem_map.mpr ⟨call, member, permitted⟩
  have stillNoPanic : ∀ other ∈ (call.1, new) :: writers.calls.erase call, other.2 ≠ .panicked := by
    intro other otherMember
    rcases List.mem_cons.mp otherMember with rfl | later
    · exact noPanic
    · exact accounted.noPanic other (List.mem_of_mem_erase later)
  rcases advance_cases fires with ⟨sameLocks, sameCreated, samePermits, uses⟩ |
    ⟨absent, rfl, rfl⟩
  · -- no semaphore is made: each keeps its accounts
    refine ⟨fun path semaphore found => ?_, fun other otherMember semaphore used => ?_,
      fun semaphore below => ?_, fun semaphore below => ?_, stillNoPanic⟩
    · rw [sameCreated]
      exact accounted.locksBelow path semaphore (sameLocks ▸ found)
    · rw [sameCreated]
      rcases List.mem_cons.mp otherMember with rfl | later
      · rcases uses semaphore used with before | locked
        · exact accounted.usesBelow call member semaphore before
        · exact accounted.locksBelow _ semaphore locked
      · exact restBelow other later semaphore used
    · rw [sameCreated] at below
      rw [(advance_balanced fires noPanic below).1, samePermits]
      exact accounted.permits_eq semaphore below
    · rw [sameCreated] at below
      simp only [List.map_cons]
      exact ((accounted.accounts semaphore below).perm phases).replace
        (advance_balanced fires noPanic below)
  · -- a semaphore is made for the call's data path, which had no lock entry
    refine ⟨fun path semaphore found => ?_, fun other otherMember semaphore used => ?_,
      fun semaphore below => ?_, fun semaphore below => ?_, stillNoPanic⟩
    · show semaphore < writers.created + 1
      replace found : Function.update writers.partitionFileLocks call.1 (some writers.created) path =
          some semaphore := found
      by_cases same : path = call.1
      · subst same
        rw [Function.update_self, Option.some.injEq] at found
        omega
      · rw [Function.update_of_ne same] at found
        exact Nat.lt_succ_of_lt (accounted.locksBelow path semaphore found)
    · show semaphore < writers.created + 1
      rcases List.mem_cons.mp otherMember with rfl | later
      · simp only [InsertPhase.semaphore?, Option.some.injEq] at used
        omega
      · exact Nat.lt_succ_of_lt (restBelow other later semaphore used)
    · replace below : semaphore < writers.created + 1 := below
      show (Function.update writers.semaphores writers.created _ semaphore).permits =
        writers.partitionWriteConcurrency
      by_cases same : semaphore = writers.created
      · subst same
        rw [Function.update_self]
        rfl
      · rw [Function.update_of_ne same]
        exact accounted.permits_eq semaphore (by omega)
    · replace below : semaphore < writers.created + 1 := below
      show Accounts (Function.update writers.semaphores writers.created _ semaphore) semaphore
        (.waiting writers.created :: (writers.calls.erase call).map Prod.snd)
      by_cases same : semaphore = writers.created
      · -- the new semaphore: no other call uses it, and the waiting call holds nothing of it
        subst same
        rw [Function.update_self]
        refine (accounts_new _ fun phase phaseMember used => ?_).cons
          (by simp [InsertPhase.holdsPermitOf]) (by simp [InsertPhase.heldIndexOf])
        obtain ⟨other, otherMember, rfl⟩ := List.mem_map.mp phaseMember
        exact Nat.lt_irrefl _ (restBelow other otherMember _ used)
      · have older : semaphore < writers.created := by omega
        have balanced := advance_balanced fires noPanic older
        rw [insertLock_semaphores, Function.update_of_ne same] at balanced
        rw [Function.update_of_ne same]
        exact ((accounted.accounts semaphore older).perm phases).replace balanced

/-- A step of a call, as `nextWriters` takes it: the call is in flight and
its step fires. -/
theorem nextWriters_step {call : String × InsertPhase}
    (fired : nextWriters writers (.step call) = some writers') :
    ∃ after new, call ∈ writers.calls ∧ writers.advance call.1 call.2 = some (after, new) ∧
      writers' = { after with calls := (call.1, new) :: writers.calls.erase call } := by
  simp only [nextWriters] at fired
  split_ifs at fired with member
  obtain ⟨⟨after, new⟩, fires, rfl⟩ := Option.map_eq_some_iff.mp fired
  exact ⟨after, new, member, fires, rfl⟩

/-- Every action keeps every semaphore accounted, purges included. -/
theorem SlotsAccounted.next (accounted : SlotsAccounted writers) {action : WriterAction}
    (fired : nextWriters writers action = some writers') : SlotsAccounted writers' := by
  cases action with
  | spawn path =>
      -- a new call holds nothing
      cases fired
      refine ⟨accounted.locksBelow, fun call member semaphore used => ?_, accounted.permits_eq,
        fun semaphore below => ?_, fun call member => ?_⟩
      · rcases List.mem_cons.mp member with rfl | older
        · cases used
        · exact accounted.usesBelow call older semaphore used
      · exact (accounted.accounts semaphore below).cons rfl rfl
      · rcases List.mem_cons.mp member with rfl | older
        · nofun
        · exact accounted.noPanic call older
  | step call =>
      obtain ⟨after, new, member, fires, rfl⟩ := nextWriters_step fired
      exact accounted.step member fires
  | purgeLock path =>
      -- removing a lock entry leaves every semaphore as it was
      cases fired
      refine ⟨fun other semaphore found => ?_, accounted.usesBelow, accounted.permits_eq,
        accounted.accounts, accounted.noPanic⟩
      replace found : Function.update writers.partitionFileLocks path none other = some semaphore :=
        found
      show semaphore < writers.created
      by_cases same : other = path
      · subst same
        simp at found
      · rw [Function.update_of_ne same] at found
        exact accounted.locksBelow other semaphore found

/-- While purges remove only lock entries no call uses, every call uses the
semaphore of its data path's entry. -/
theorem LocksFollowed.next (followed : LocksFollowed writers) {action : WriterAction}
    (idle : PurgesIdle writers action) (fired : nextWriters writers action = some writers') :
    LocksFollowed writers' := by
  cases action with
  | spawn path =>
      cases fired
      intro call member semaphore used
      rcases List.mem_cons.mp member with rfl | older
      · cases used
      · exact followed call older semaphore used
  | step call =>
      obtain ⟨after, new, member, fires, rfl⟩ := nextWriters_step fired
      intro other otherMember semaphore used
      rcases advance_cases fires with ⟨sameLocks, -, -, uses⟩ | ⟨absent, rfl, rfl⟩
      · show after.partitionFileLocks other.1 = some semaphore
        rw [sameLocks]
        rcases List.mem_cons.mp otherMember with rfl | later
        · rcases uses semaphore used with before | locked
          · exact followed call member semaphore before
          · exact locked
        · exact followed other (List.mem_of_mem_erase later) semaphore used
      · -- the new entry is the moving call's; no other call used the path
        show Function.update writers.partitionFileLocks call.1 (some writers.created) other.1 =
          some semaphore
        rcases List.mem_cons.mp otherMember with rfl | later
        · simp only [InsertPhase.semaphore?, Option.some.injEq] at used
          rw [Function.update_self, used]
        · have locked := followed other (List.mem_of_mem_erase later) semaphore used
          have different : other.1 ≠ call.1 := by
            rintro same
            rw [same, absent] at locked
            cases locked
          rw [Function.update_of_ne different]
          exact locked
  | purgeLock path =>
      cases fired
      intro call member semaphore used
      have different : call.1 ≠ path := by
        rintro same
        rw [idle call member same] at used
        cases used
      show Function.update writers.partitionFileLocks path none call.1 = some semaphore
      rw [Function.update_of_ne different]
      exact followed call member semaphore used

theorem partitionWriteConcurrency_next {action : WriterAction}
    (fired : nextWriters writers action = some writers') :
    writers'.partitionWriteConcurrency = writers.partitionWriteConcurrency := by
  cases action with
  | spawn path =>
      cases fired
      rfl
  | step call =>
      obtain ⟨after, new, member, fires, rfl⟩ := nextWriters_step fired
      rcases advance_cases fires with ⟨-, -, samePermits, -⟩ | ⟨-, -, rfl⟩
      · exact samePermits
      · rfl
  | purgeLock path =>
      cases fired
      rfl

end Invariants

section Runs

open HdfsWriters

variable {maxConcurrency partitionWriteMaxConcurrency : Nat} {writers : HdfsWriters}

theorem slotsAccounted_of_reachable {allowed : HdfsWriters → WriterAction → Prop}
    (reached : Relation.ReflTransGen (Steps nextWriters allowed)
      (HdfsWriters.initial maxConcurrency partitionWriteMaxConcurrency) writers) :
    SlotsAccounted writers :=
  @invariant_of_steps _ _ nextWriters allowed SlotsAccounted
    (fun _ _ _ _ accounted fired => accounted.next fired) _ _ reached
    (slotsAccounted_initial maxConcurrency partitionWriteMaxConcurrency)

theorem partitionWriteConcurrency_of_reachable {allowed : HdfsWriters → WriterAction → Prop}
    (reached : Relation.ReflTransGen (Steps nextWriters allowed)
      (HdfsWriters.initial maxConcurrency partitionWriteMaxConcurrency) writers) :
    writers.partitionWriteConcurrency = partitionWriteMaxConcurrency :=
  @invariant_of_steps _ _ nextWriters allowed
    (fun writers => writers.partitionWriteConcurrency = partitionWriteMaxConcurrency)
    (fun _ _ _ _ same fired => (partitionWriteConcurrency_next fired).trans same) _ _ reached rfl

theorem locksFollowed_of_reachable
    (reached : Relation.ReflTransGen (Steps nextWriters PurgesIdle)
      (HdfsWriters.initial maxConcurrency partitionWriteMaxConcurrency) writers) :
    LocksFollowed writers :=
  @invariant_of_steps _ _ nextWriters PurgesIdle LocksFollowed
    (fun _ _ _ idle followed fired => followed.next idle fired) _ _ reached
    (fun _ member => by cases member)

/-- The slots a partition's calls hold are slots of the semaphore of its
lock entry, which all of them use. -/
theorem LocksFollowed.slotsHeld_sublist (followed : LocksFollowed writers) {path : String}
    {semaphore : Nat} (found : writers.partitionFileLocks path = some semaphore) :
    (writers.slotsHeld path).Sublist
      ((writers.calls.map Prod.snd).filterMap (InsertPhase.heldIndexOf semaphore)) := by
  have sameSlots : writers.slotsHeld path =
      (writers.calls.filter fun call => call.1 = path).filterMap
        fun call => call.2.heldIndexOf semaphore := by
    refine List.filterMap_congr fun call member => ?_
    have onPath : call.1 = path := by simpa using (List.mem_filter.mp member).2
    -- a call holding a slot uses a semaphore, which is its path's
    cases phase : call.2 with
    | writing used index | written used index =>
        have locked := followed call (List.mem_filter.mp member).1 used (by simp [phase,
          InsertPhase.semaphore?])
        rw [onPath, found, Option.some.injEq] at locked
        simp [InsertPhase.heldIndex, InsertPhase.heldIndexOf, locked]
    | _ => rfl
  rw [sameSlots, List.filterMap_map]
  exact List.filter_sublist.filterMap _

/-- Without a lock entry a partition has no call holding a slot. -/
theorem LocksFollowed.slotsHeld_eq_nil (followed : LocksFollowed writers) {path : String}
    (absent : writers.partitionFileLocks path = none) : writers.slotsHeld path = [] := by
  refine List.filterMap_eq_nil_iff.mpr fun call member => ?_
  have onPath : call.1 = path := by simpa using (List.mem_filter.mp member).2
  cases phase : call.2 with
  | writing used index | written used index =>
      have locked := followed call (List.mem_filter.mp member).1 used (by simp [phase,
        InsertPhase.semaphore?])
      rw [onPath, absent] at locked
      cases locked
  | _ => rfl

theorem partition_slots_distinct
    (reached : Relation.ReflTransGen (Steps nextWriters PurgesIdle)
      (HdfsWriters.initial maxConcurrency partitionWriteMaxConcurrency) writers)
    (path : String) :
    (writers.slotsHeld path).Nodup ∧ (writers.slotsHeld path).length ≤ partitionWriteMaxConcurrency ∧
      (∀ slot ∈ writers.slotsHeld path, slot < partitionWriteMaxConcurrency) ∧
      ∀ call ∈ writers.calls, call.2 ≠ .panicked := by
  have accounted := slotsAccounted_of_reachable reached
  have followed := locksFollowed_of_reachable reached
  have permits := partitionWriteConcurrency_of_reachable reached
  cases entry : writers.partitionFileLocks path with
  | none =>
      rw [followed.slotsHeld_eq_nil entry]
      exact ⟨List.nodup_nil, Nat.zero_le _, nofun, accounted.noPanic⟩
  | some semaphore =>
      -- the partition's calls hold slots of the semaphore of its entry only
      have below := accounted.locksBelow path semaphore entry
      have accounts := accounted.accounts semaphore below
      have sublist := followed.slotsHeld_sublist entry
      have permitsEq : (writers.semaphores semaphore).permits = partitionWriteMaxConcurrency :=
        (accounted.permits_eq semaphore below).trans permits
      refine ⟨accounts.nodup.sublist sublist, ?_, fun slot held => ?_, accounted.noPanic⟩
      · rw [← permitsEq]
        exact sublist.length_le.trans accounts.length_le
      · rw [← permitsEq]
        exact accounts.lt_permits (sublist.subset held)

/-- A call on `path` that goes from its start to holding a slot of semaphore
`semaphore` while no other call moves. -/
def throughGates (path : String) (semaphore : Nat) : List WriterAction :=
  [.spawn path, .step (path, .start), .step (path, .limited), .step (path, .unlimited),
    .step (path, .waiting semaphore), .step (path, .permitted semaphore)]

/-- Two calls on one partition, each through the gates in turn. -/
def twoWritersRun : List WriterAction :=
  throughGates "p" 0 ++ throughGates "p" 0

/-- The store with `max_concurrency` 1 and `partition_write_max_concurrency`
2 after both calls took their slots. -/
def twoWriters : HdfsWriters :=
  (checkedRun nextWriters PurgesIdle (HdfsWriters.initial 1 2) twoWritersRun).getD
    (HdfsWriters.initial 1 2)

theorem partition_slots_distinct_twoWriters :
    (twoWriters.slotsHeld "p").Nodup ∧ (twoWriters.slotsHeld "p").length ≤ 2 := by
  have reached := reflTransGen_of_checkedRun
    (show checkedRun nextWriters PurgesIdle (HdfsWriters.initial 1 2) twoWritersRun =
      some twoWriters from rfl)
  have facts := partition_slots_distinct reached "p"
  exact ⟨facts.1, facts.2.1⟩

/-- `let _ =` frees the limiter's permit at once: with `max_concurrency` 1,
both calls are between the limiter and the end of their writes. -/
theorem limiter_bounds_nothing :
    Relation.ReflTransGen (Steps nextWriters PurgesIdle) (HdfsWriters.initial 1 2) twoWriters ∧
      twoWriters.calls.countP (fun call => call.2.inWritePhase) = 2 :=
  ⟨reflTransGen_of_checkedRun
    (show checkedRun nextWriters PurgesIdle (HdfsWriters.initial 1 2) twoWritersRun =
      some twoWriters from rfl), rfl⟩

/-- A call takes slot 0 of a partition with one permit, a purge removes the
partition's lock entry meanwhile, and a second call makes a new semaphore
and takes its slot 0. -/
def purgedRun : List WriterAction :=
  throughGates "p" 0 ++ [.purgeLock "p"] ++ throughGates "p" 1

def purgedWriters : HdfsWriters :=
  (run nextWriters (HdfsWriters.initial 1 1) purgedRun).getD (HdfsWriters.initial 1 1)

/-- A purge while a call holds a slot lets a second call of the partition
hold the same slot, over `partition_write_max_concurrency`. -/
theorem purge_lets_calls_share_slot :
    Relation.ReflTransGen (Steps nextWriters fun _ _ => True) (HdfsWriters.initial 1 1)
        purgedWriters ∧
      purgedWriters.slotsHeld "p" = [0, 0] :=
  ⟨reflTransGen_of_run (fun _ _ _ => trivial)
    (show run nextWriters (HdfsWriters.initial 1 1) purgedRun = some purgedWriters from rfl), rfl⟩

end Runs

end Riffle.Hdfs
