import Riffle.Store.Block
import Riffle.Lib.KeyedTotal

/-!
# The memory budget and the buffer tickets

`MemoryBudget` (`src/store/mem/budget.rs`) keeps two counters under one
lock: `allocated`, memory promised to clients by `require_allocated`, and
`used`, memory that holds buffered data.  Every decrement clamps at zero.
`TicketManager` (`src/store/mem/ticket.rs`) keeps one ticket per successful
reservation in a `DashMap` keyed by the ticket id; a send request gives its
ticket back with `delete`, and the ticket checker drops tickets that timed
out.

The clock of the ticket checker is not modelled: which tickets time out is a
choice of the environment, given as the list of their ids.
-/

namespace Riffle.Store

open Riffle.KeyedTotal

/-- `MemoryBudget` together with its `BudgetInner`. -/
structure MemoryBudget where
  capacity : Int
  allocated : Int
  used : Int
  allocationIncCounter : Int
  deriving DecidableEq, Repr

namespace MemoryBudget

def new (capacity : Int) : MemoryBudget :=
  ⟨capacity, 0, 0, 0⟩

/-- `require_allocated`: whether the reservation succeeded and its ticket id. -/
def requireAllocated (budget : MemoryBudget) (size : Int) :
    (Bool × Int) × MemoryBudget :=
  let remaining := budget.capacity - budget.allocated - budget.used
  if remaining < size then ((false, -1), budget)
  else
    let counter := budget.allocationIncCounter + 1
    ((true, counter),
      { budget with allocated := budget.allocated + size, allocationIncCounter := counter })

def moveAllocatedToUsed (budget : MemoryBudget) (size : Int) : MemoryBudget :=
  if budget.allocated < size then
    { budget with allocated := 0, used := budget.used + budget.allocated }
  else { budget with allocated := budget.allocated - size, used := budget.used + size }

def incUsed (budget : MemoryBudget) (size : Int) : MemoryBudget :=
  { budget with used := budget.used + size }

def decUsed (budget : MemoryBudget) (size : Int) : MemoryBudget :=
  if budget.used < size then { budget with used := 0 }
  else { budget with used := budget.used - size }

def decAllocated (budget : MemoryBudget) (size : Int) : MemoryBudget :=
  if budget.allocated < size then { budget with allocated := 0 }
  else { budget with allocated := budget.allocated - size }

section Effects

variable (budget : MemoryBudget) {size : Int}

theorem requireAllocated_of_lt
    (short : budget.capacity - budget.allocated - budget.used < size) :
    budget.requireAllocated size = ((false, -1), budget) := by
  simp [requireAllocated, short]

theorem requireAllocated_of_le
    (enough : size ≤ budget.capacity - budget.allocated - budget.used) :
    budget.requireAllocated size =
      ((true, budget.allocationIncCounter + 1),
        { budget with allocated := budget.allocated + size,
                      allocationIncCounter := budget.allocationIncCounter + 1 }) := by
  simp [requireAllocated, not_lt.mpr enough]

/-- Without clamping, a move transfers exactly `size` from one counter to the
other. -/
theorem moveAllocatedToUsed_of_le (enough : size ≤ budget.allocated) :
    budget.moveAllocatedToUsed size =
      { budget with allocated := budget.allocated - size, used := budget.used + size } := by
  simp [moveAllocatedToUsed, not_lt.mpr enough]

theorem decUsed_of_le (enough : size ≤ budget.used) :
    budget.decUsed size = { budget with used := budget.used - size } := by
  simp [decUsed, not_lt.mpr enough]

theorem decAllocated_of_le (enough : size ≤ budget.allocated) :
    budget.decAllocated size = { budget with allocated := budget.allocated - size } := by
  simp [decAllocated, not_lt.mpr enough]

@[simp]
theorem decUsed_allocated (size : Int) : (budget.decUsed size).allocated = budget.allocated := by
  unfold decUsed
  split <;> rfl

@[simp]
theorem decAllocated_used (size : Int) : (budget.decAllocated size).used = budget.used := by
  unfold decAllocated
  split <;> rfl

@[simp]
theorem decUsed_allocationIncCounter (size : Int) :
    (budget.decUsed size).allocationIncCounter = budget.allocationIncCounter := by
  unfold decUsed
  split <;> rfl

@[simp]
theorem decAllocated_allocationIncCounter (size : Int) :
    (budget.decAllocated size).allocationIncCounter = budget.allocationIncCounter := by
  unfold decAllocated
  split <;> rfl

end Effects

end MemoryBudget

/-- `crate::store::mem::ticket::Ticket`; its creation time and owner feed
only the clock and `delete_by_app_id`, which are not modelled. -/
structure Ticket where
  id : Int
  size : Int
  deriving DecidableEq, Repr

/-- `TicketManager`: the ticket store, keyed by ticket id. -/
structure TicketManager where
  ticketStore : AList fun _ : Int => Ticket
  deriving DecidableEq

namespace TicketManager

def empty : TicketManager :=
  ⟨∅⟩

/-- The sum of the sizes of the held tickets (`total_allocated` of the
ticket checker). -/
def totalAllocated (manager : TicketManager) : Int :=
  total (fun _ ticket => ticket.size) manager.ticketStore

/-- `insert`: whether a ticket with this id was replaced. -/
def insert (manager : TicketManager) (ticketId size : Int) : Bool × TicketManager :=
  ((manager.ticketStore.lookup ticketId).isSome,
    ⟨manager.ticketStore.insert ticketId ⟨ticketId, size⟩⟩)

/-- `delete`: the size of the removed ticket. -/
def delete (manager : TicketManager) (ticketId : Int) :
    Except WorkerError (Int × TicketManager) :=
  match manager.ticketStore.lookup ticketId with
  | some ticket => .ok (ticket.size, ⟨manager.ticketStore.erase ticketId⟩)
  | none => .error (.ticketIdNotExist ticketId)

/-- One round of `ticket_check`: drop the tickets whose ids timed out and
return the total size removed. -/
def removeTimedOut (manager : TicketManager) (timedOut : List Int) :
    Int × TicketManager :=
  (total (fun _ ticket => ticket.size)
      (filter (fun ticketId => timedOut.contains ticketId) manager.ticketStore),
    ⟨filter (fun ticketId => !timedOut.contains ticketId) manager.ticketStore⟩)

section Effects

variable (manager : TicketManager)

@[simp]
theorem totalAllocated_empty : empty.totalAllocated = 0 :=
  rfl

theorem totalAllocated_insert {ticketId : Int} (size : Int)
    (fresh : ticketId ∉ manager.ticketStore) :
    (manager.insert ticketId size).2.totalAllocated = manager.totalAllocated + size := by
  unfold insert totalAllocated
  rw [total_insert_of_notMem _ _ fresh]
  dsimp only
  omega

theorem delete_eq_ok {ticketId size : Int} {after : TicketManager}
    (deleted : manager.delete ticketId = .ok (size, after)) :
    ∃ ticket, manager.ticketStore.lookup ticketId = some ticket ∧ ticket.size = size ∧
      after = ⟨manager.ticketStore.erase ticketId⟩ := by
  unfold delete at deleted
  cases found : manager.ticketStore.lookup ticketId with
  | none =>
      simp [found] at deleted
  | some ticket =>
      simp only [found, Except.ok.injEq, Prod.mk.injEq] at deleted
      exact ⟨ticket, rfl, deleted.1, deleted.2.symm⟩

theorem totalAllocated_erase {ticketId : Int} {ticket : Ticket}
    (found : manager.ticketStore.lookup ticketId = some ticket) :
    (⟨manager.ticketStore.erase ticketId⟩ : TicketManager).totalAllocated =
      manager.totalAllocated - ticket.size := by
  unfold totalAllocated
  exact total_erase_of_lookup (fun _ ticket => ticket.size) found

/-- What a round of the ticket checker removes and what it keeps add up to
the tickets held before it. -/
theorem removeTimedOut_total (timedOut : List Int) :
    (manager.removeTimedOut timedOut).1 + (manager.removeTimedOut timedOut).2.totalAllocated =
      manager.totalAllocated := by
  unfold removeTimedOut totalAllocated
  dsimp only
  exact total_filter_add (fun _ ticket => ticket.size)
    (fun ticketId => timedOut.contains ticketId) manager.ticketStore

/-- A round in which no held ticket timed out removes nothing. -/
theorem removeTimedOut_of_disjoint {timedOut : List Int}
    (noneHeld : ∀ ticketId ∈ timedOut, ticketId ∉ manager.ticketStore) :
    (manager.removeTimedOut timedOut).1 = 0 ∧
      (manager.removeTimedOut timedOut).2.totalAllocated = manager.totalAllocated := by
  have nothingKept : ∀ entry ∈ manager.ticketStore.entries, entry.1 ∉ timedOut := by
    intro entry member timed
    have held : entry.1 ∈ manager.ticketStore :=
      AList.mem_keys.mpr (List.mem_map_of_mem member)
    exact noneHeld entry.1 timed held
  have removedNothing :
      (filter (fun ticketId => timedOut.contains ticketId) manager.ticketStore).entries = [] :=
    List.filter_eq_nil_iff.mpr fun entry member => by simpa using nothingKept entry member
  have removedZero : (manager.removeTimedOut timedOut).1 = 0 := by
    simp only [removeTimedOut, total, removedNothing, List.map_nil, List.sum_nil]
  refine ⟨removedZero, ?_⟩
  have split := manager.removeTimedOut_total timedOut
  omega

end Effects

end TicketManager

end Riffle.Store
