import Riffle.Store.HotStore

/-!
# What `allocated` counts

`MemoryBudget.allocated` is meant to be the memory promised to clients and
not yet filled.  `ReservationLedger` states it as a sum over the hot store:
the held tickets, the reservations whose ticket is not inserted yet, and what
each send request still holds of its ticket (`SendRequest.outstanding`).

The ledger is kept by every step of a client that never inserts more than its
ticket, with non-negative buffer requests, and by a ticket checker that
releases into the store's own budget (`KeepsTicketDiscipline`).  At a point
where no request is midway the ledger reads `allocated = ticket total`
(`allocated_eq_ticketTotal`).
-/

namespace Riffle.Store

open Riffle.FixedWidth Riffle.KeyedTotal Riffle.Transition

namespace SendRequest

/-- What a send request still holds of its ticket in `allocated`. -/
def outstanding (request : SendRequest) : Int :=
  match request.stage with
  | .moved => request.ticketLen - request.insertedTotal
  | _ => request.ticketLen

/-- What `App::insert` will report for the partitions not counted yet: the
one appended and waiting for its staging lookup, and those not inserted. -/
def plannedTotal (request : SendRequest) : Int :=
  request.stage.pendingSize + partitionsTotal request.appId request.shuffleId request.remaining

/-- What the send counts once the staging lookup of its appended partition
failed. -/
def countedAfterFailure (request : SendRequest) : Int :=
  request.insertedTotal +
    partitionsTotal request.appId request.shuffleId request.remainingAfterFailure

end SendRequest

theorem partitionsTotal_cons (appId : String) (shuffleId partitionId : Int)
    (blocks : List Block) (rest : List (Int × List Block)) :
    partitionsTotal appId shuffleId ((partitionId, blocks) :: rest) =
      appInsertedSize (WritingViewContext.new ⟨appId, shuffleId, partitionId⟩ blocks) +
        partitionsTotal appId shuffleId rest := by
  simp [partitionsTotal]

/-- A send whose staging lookup fails for the partition it appended still
counts at most its ticket. -/
def SendStage.FailsWithinTicket (store : MemoryStore) (counted ticketLen : Int) :
    SendStage → Prop
  | .appended uid _ => store.getBuffer uid = none → counted ≤ ticketLen
  | _ => True

instance (store : MemoryStore) (counted ticketLen : Int) :
    (stage : SendStage) → Decidable (stage.FailsWithinTicket store counted ticketLen)
  | .appended .. => inferInstanceAs (Decidable (_ → _))
  | .released | .inserting | .moved => instDecidableTrue

namespace HotStoreState

def reservedTotal (state : HotStoreState) : Int :=
  total (fun _ size => size) state.reservations

def outstandingTotal (state : HotStoreState) : Int :=
  total (fun _ request => request.outstanding) state.requests

/-- No buffer request and no send request is midway. -/
def NoRequestMidway (state : HotStoreState) : Prop :=
  state.reservations.entries = [] ∧ state.requests.entries = []

/-- Clients that reserve non-negative sizes and never insert more than their
ticket, also when an insert fails, and a ticket checker that evicts only when
it releases into the store's own budget. -/
def KeepsTicketDiscipline (state : HotStoreState) : HotStoreAction → Prop
  | .requireAllocated size => 0 ≤ size
  | .releaseTicket _ appId shuffleId ticketId partitions =>
      ∀ ticket, state.store.ticketManager.ticketStore.lookup ticketId = some ticket →
        partitionsTotal appId shuffleId partitions ≤ ticket.size
  | .getBufferStagingSize task =>
      ∀ request, state.requests.lookup task = some request →
        request.stage.FailsWithinTicket state.store request.countedAfterFailure request.ticketLen
  | .ticketCheck timedOut =>
      state.store.checkerBudget = none ∨
        ∀ ticketId ∈ timedOut, ticketId ∉ state.store.ticketManager.ticketStore
  | _ => True

instance (state : HotStoreState) (action : HotStoreAction) :
    Decidable (KeepsTicketDiscipline state action) :=
  match action with
  | .requireAllocated size => inferInstanceAs (Decidable (0 ≤ size))
  | .releaseTicket .. => inferInstanceAs (Decidable (∀ ticket, _ = some ticket → _ ≤ _))
  | .ticketCheck _ => inferInstanceAs (Decidable (_ ∨ ∀ ticketId ∈ _, ticketId ∉ _))
  | .getBufferStagingSize _ => inferInstanceAs (Decidable (∀ request, _ = some request → _))
  | .insertTicket _ | .insertPartition _ | .moveAllocated _ | .releaseUnused _
  | .getMemoryBuffer _ | .bufferSpillImpl .. | .flush _ | .finishSpill _ | .dropSpill _
  | .ignoreSpill _ | .purge .. => instDecidableTrue

structure ReservationLedger (state : HotStoreState) : Prop where
  exact : state.store.budget.allocated =
    state.store.ticketManager.totalAllocated + state.reservedTotal + state.outstandingTotal
  ticketsNonneg : ∀ ticketId ticket,
    state.store.ticketManager.ticketStore.lookup ticketId = some ticket → 0 ≤ ticket.size
  reservationsNonneg : ∀ ticketId size, state.reservations.lookup ticketId = some size → 0 ≤ size
  ticketLenNonneg : ∀ task request, state.requests.lookup task = some request →
    0 ≤ request.ticketLen
  withinTicket : ∀ task request, state.requests.lookup task = some request →
    request.insertedTotal + request.plannedTotal ≤ request.ticketLen
  movedDone : ∀ task request, state.requests.lookup task = some request →
    request.stage = .moved → request.remaining = []
  ticketIdsBelow : ∀ ticketId ∈ state.store.ticketManager.ticketStore,
    ticketId ≤ state.store.budget.allocationIncCounter
  reservationIdsBelow : ∀ ticketId ∈ state.reservations,
    ticketId ≤ state.store.budget.allocationIncCounter
  reservedNotTicket : ∀ ticketId ∈ state.reservations,
    ticketId ∉ state.store.ticketManager.ticketStore
  tasksBelow : ∀ task ∈ state.requests, task < state.nextTask

section ReservationLedger

variable {state next : HotStoreState}

theorem reservationLedger_start (store : MemoryStore) (noTickets : store.ticketManager = .empty)
    (nothingAllocated : store.budget.allocated = 0) :
    ReservationLedger (start store) := by
  refine ⟨?_, ?_, ?_, ?_, ?_, ?_, ?_, ?_, ?_, ?_⟩ <;> simp [start, noTickets, nothingAllocated,
    reservedTotal, outstandingTotal, TicketManager.empty, TicketManager.totalAllocated,
    AList.lookup, AList.mem_keys]

theorem ReservationLedger.outstanding_nonneg (ledger : ReservationLedger state) :
    ∀ task request, state.requests.lookup task = some request → 0 ≤ request.outstanding := by
  intro task request found
  have within := ledger.withinTicket task request found
  unfold SendRequest.outstanding
  split
  · rename_i moved
    have planned : request.plannedTotal = 0 := by
      simp [SendRequest.plannedTotal, ledger.movedDone task request found moved, partitionsTotal,
        moved, SendStage.pendingSize]
    omega
  · exact ledger.ticketLenNonneg task request found

/-- What one request holds is covered by `allocated`. -/
theorem ReservationLedger.outstanding_le_allocated (ledger : ReservationLedger state)
    {task : Nat} {request : SendRequest} (found : state.requests.lookup task = some request) :
    request.outstanding ≤ state.store.budget.allocated := by
  have tickets : 0 ≤ state.store.ticketManager.totalAllocated :=
    total_nonneg _ ledger.ticketsNonneg
  have reserved : 0 ≤ state.reservedTotal := total_nonneg _ ledger.reservationsNonneg
  have own : request.outstanding ≤ state.outstandingTotal :=
    weight_le_total (fun _ request => request.outstanding) found ledger.outstanding_nonneg
  have exact := ledger.exact
  omega

/-- Steps that leave tickets, reservations and requests alone keep the
ledger. -/
theorem ReservationLedger.of_frame (ledger : ReservationLedger state)
    (allocatedEq : next.store.budget.allocated = state.store.budget.allocated)
    (counterEq : next.store.budget.allocationIncCounter = state.store.budget.allocationIncCounter)
    (ticketsEq : next.store.ticketManager = state.store.ticketManager)
    (reservationsEq : next.reservations = state.reservations)
    (requestsEq : next.requests = state.requests)
    (tasksGrow : state.nextTask ≤ next.nextTask) :
    ReservationLedger next := by
  refine ⟨?_, ?_, ?_, ?_, ?_, ?_, ?_, ?_, ?_, ?_⟩
  · rw [allocatedEq, ledger.exact, ticketsEq]
    simp only [reservedTotal, outstandingTotal, reservationsEq, requestsEq]
  · rw [ticketsEq]
    exact ledger.ticketsNonneg
  · rw [reservationsEq]
    exact ledger.reservationsNonneg
  · rw [requestsEq]
    exact ledger.ticketLenNonneg
  · rw [requestsEq]
    exact ledger.withinTicket
  · rw [requestsEq]
    exact ledger.movedDone
  · rw [ticketsEq, counterEq]
    exact ledger.ticketIdsBelow
  · rw [reservationsEq, counterEq]
    exact ledger.reservationIdsBelow
  · rw [reservationsEq, ticketsEq]
    exact ledger.reservedNotTicket
  · intro task member
    rw [requestsEq] at member
    exact lt_of_lt_of_le (ledger.tasksBelow task member) tasksGrow

/-- Frame for the steps of one send that keep its reservation: its request
is replaced by one with the same outstanding share and ticket, within that
ticket and not moved, and the budget, tickets and reservations stay. -/
theorem ReservationLedger.replace_request (ledger : ReservationLedger state) {task : Nat}
    {request updated : SendRequest} (found : state.requests.lookup task = some request)
    (sameOutstanding : updated.outstanding = request.outstanding)
    (sameTicket : updated.ticketLen = request.ticketLen)
    (within : updated.insertedTotal + updated.plannedTotal ≤ updated.ticketLen)
    (notMoved : updated.stage ≠ .moved)
    (budgetEq : next.store.budget = state.store.budget)
    (ticketsEq : next.store.ticketManager = state.store.ticketManager)
    (reservationsEq : next.reservations = state.reservations)
    (requestsEq : next.requests = state.requests.insert task updated)
    (tasksEq : next.nextTask = state.nextTask) :
    ReservationLedger next := by
  have changed : ∀ other value, next.requests.lookup other = some value →
      (other = task ∧ value = updated) ∨ state.requests.lookup other = some value := by
    intro other value lookedUp
    rw [requestsEq] at lookedUp
    rcases lookup_insert_eq_some.mp lookedUp with ⟨same, rfl⟩ | ⟨_, old⟩
    · exact Or.inl ⟨same, rfl⟩
    · exact Or.inr old
  refine ⟨?_, ?_, ?_, ?_, ?_, ?_, ?_, ?_, ?_, ?_⟩
  · have exact := ledger.exact
    simp only [reservedTotal, outstandingTotal] at exact ⊢
    rw [budgetEq, ticketsEq, reservationsEq, requestsEq, total_insert_of_lookup _ _ found,
      sameOutstanding]
    omega
  · rw [ticketsEq]
    exact ledger.ticketsNonneg
  · rw [reservationsEq]
    exact ledger.reservationsNonneg
  · intro other value lookedUp
    rcases changed other value lookedUp with ⟨_, rfl⟩ | old
    · rw [sameTicket]
      exact ledger.ticketLenNonneg task request found
    · exact ledger.ticketLenNonneg other value old
  · intro other value lookedUp
    rcases changed other value lookedUp with ⟨_, rfl⟩ | old
    · exact within
    · exact ledger.withinTicket other value old
  · intro other value lookedUp moved
    rcases changed other value lookedUp with ⟨_, rfl⟩ | old
    · exact absurd moved notMoved
    · exact ledger.movedDone other value old moved
  · rw [ticketsEq, budgetEq]
    exact ledger.ticketIdsBelow
  · rw [reservationsEq, budgetEq]
    exact ledger.reservationIdsBelow
  · rw [reservationsEq, ticketsEq]
    exact ledger.reservedNotTicket
  · intro other member
    rw [requestsEq] at member
    rw [tasksEq]
    rcases (AList.mem_insert _).mp member with same | old
    · rw [same]
      exact ledger.tasksBelow task (AList.lookup_isSome.mp (by simp [found]))
    · exact ledger.tasksBelow other old

theorem reservationLedger_requireAllocated (ledger : ReservationLedger state) {size : Int}
    (nonneg : 0 ≤ size) : ReservationLedger (state.requireAllocated size) := by
  by_cases enough : size ≤ state.store.budget.capacity - state.store.budget.allocated -
      state.store.budget.used
  · rw [requireAllocated_of_le enough]
    have fresh : state.store.budget.allocationIncCounter + 1 ∉ state.reservations := by
      intro member
      have below := ledger.reservationIdsBelow _ member
      omega
    refine ⟨?_, ledger.ticketsNonneg, ?_, ledger.ticketLenNonneg, ledger.withinTicket,
      ledger.movedDone, ?_, ?_, ?_, ledger.tasksBelow⟩
    · have exact := ledger.exact
      simp only [reservedTotal, outstandingTotal, total_insert_of_notMem _ _ fresh] at exact ⊢
      omega
    · intro ticketId reserved found
      by_cases same : ticketId = state.store.budget.allocationIncCounter + 1
      · subst same
        rw [AList.lookup_insert, Option.some.injEq] at found
        omega
      · rw [AList.lookup_insert_ne same] at found
        exact ledger.reservationsNonneg ticketId reserved found
    · intro ticketId member
      have below := ledger.ticketIdsBelow ticketId member
      dsimp only
      omega
    · intro ticketId member
      rcases (AList.mem_insert _).mp member with same | old
      · dsimp only
        omega
      · have below := ledger.reservationIdsBelow ticketId old
        dsimp only
        omega
    · intro ticketId member held
      rcases (AList.mem_insert _).mp member with same | old
      · have below := ledger.ticketIdsBelow ticketId held
        omega
      · exact ledger.reservedNotTicket ticketId old held
  · rw [requireAllocated_of_lt (not_le.mp enough)]
    exact ledger

theorem reservationLedger_insertTicket (ledger : ReservationLedger state) {ticketId : Int}
    (fired : state.insertTicket ticketId = some next) : ReservationLedger next := by
  obtain ⟨size, found, rfl⟩ := insertTicket_eq_some fired
  have reserved : ticketId ∈ state.reservations :=
    AList.lookup_isSome.mp (by simp [found])
  have fresh := ledger.reservedNotTicket ticketId reserved
  refine ⟨?_, ?_, ?_, ledger.ticketLenNonneg, ledger.withinTicket, ledger.movedDone,
    ?_, ?_, ?_, ledger.tasksBelow⟩
  · have exact := ledger.exact
    have ticketsGrow := state.store.ticketManager.totalAllocated_insert size fresh
    have reservedShrinks := total_erase_of_lookup (fun _ size => size) found
    simp only [reservedTotal, outstandingTotal] at exact ⊢
    rw [ticketsGrow, reservedShrinks]
    omega
  · intro otherId ticket held
    by_cases same : otherId = ticketId
    · subst same
      simp only [TicketManager.insert, AList.lookup_insert, Option.some.injEq] at held
      subst held
      exact ledger.reservationsNonneg otherId size found
    · simp only [TicketManager.insert, AList.lookup_insert_ne same] at held
      exact ledger.ticketsNonneg otherId ticket held
  · intro otherId reservedSize erased
    by_cases same : otherId = ticketId
    · subst same
      simp at erased
    · rw [AList.lookup_erase_ne same] at erased
      exact ledger.reservationsNonneg otherId reservedSize erased
  · intro otherId member
    rcases (AList.mem_insert _).mp member with same | old
    · subst same
      exact ledger.reservationIdsBelow otherId reserved
    · exact ledger.ticketIdsBelow otherId old
  · intro otherId member
    exact ledger.reservationIdsBelow otherId (AList.mem_erase.mp member).2
  · intro otherId member held
    obtain ⟨different, old⟩ := AList.mem_erase.mp member
    rcases (AList.mem_insert _).mp held with same | oldTicket
    · exact different same
    · exact ledger.reservedNotTicket otherId old oldTicket

theorem SendRequest.outstanding_of_ne_moved {request : SendRequest}
    (notMoved : request.stage ≠ .moved) : request.outstanding = request.ticketLen := by
  unfold SendRequest.outstanding
  split
  · contradiction
  · rfl

theorem reservationLedger_releaseTicket (ledger : ReservationLedger state)
    {transport : Transport} {appId : String} {shuffleId ticketId : Int}
    {partitions : List (Int × List Block)}
    (allowed : KeepsTicketDiscipline state
      (.releaseTicket transport appId shuffleId ticketId partitions)) :
    ReservationLedger (state.releaseTicket transport appId shuffleId ticketId partitions) := by
  rcases releaseTicket_cases transport appId shuffleId ticketId partitions with
    unchanged | ⟨ticketLen, manager, deleted, released⟩
  · rw [unchanged]
    exact ledger
  rw [released]
  obtain ⟨ticket, found, sizeEq, rfl⟩ :=
    state.store.ticketManager.delete_eq_ok deleted
  subst sizeEq
  have fresh : state.nextTask ∉ state.requests := fun member =>
    Nat.lt_irrefl _ (ledger.tasksBelow _ member)
  have ticketNonneg := ledger.ticketsNonneg ticketId ticket found
  -- the new request is the only entry the lookups below can newly find
  have newRequest : ∀ task request,
      (state.requests.insert state.nextTask
        ⟨transport, appId, shuffleId, ticket.size, partitions, 0, .released⟩).lookup task =
          some request →
      (task = state.nextTask ∧
        request = ⟨transport, appId, shuffleId, ticket.size, partitions, 0, .released⟩) ∨
      state.requests.lookup task = some request := by
    intro task request lookedUp
    rcases lookup_insert_eq_some.mp lookedUp with ⟨same, rfl⟩ | ⟨_, old⟩
    · exact Or.inl ⟨same, rfl⟩
    · exact Or.inr old
  refine ⟨?_, ?_, ledger.reservationsNonneg, ?_, ?_, ?_, ?_, ledger.reservationIdsBelow, ?_, ?_⟩
  · have exact := ledger.exact
    have ticketsShrink := state.store.ticketManager.totalAllocated_erase found
    simp only [reservedTotal, outstandingTotal, total_insert_of_notMem _ _ fresh] at exact ⊢
    rw [ticketsShrink, SendRequest.outstanding_of_ne_moved (by simp)]
    dsimp only
    omega
  · intro otherId other held
    exact ledger.ticketsNonneg otherId other (lookup_of_lookup_erase held)
  · intro task request lookedUp
    rcases newRequest task request lookedUp with ⟨_, rfl⟩ | old
    · exact ticketNonneg
    · exact ledger.ticketLenNonneg task request old
  · intro task request lookedUp
    rcases newRequest task request lookedUp with ⟨_, rfl⟩ | old
    · have within := allowed ticket found
      simp only [SendRequest.plannedTotal, SendStage.pendingSize]
      omega
    · exact ledger.withinTicket task request old
  · intro task request lookedUp moved
    rcases newRequest task request lookedUp with ⟨_, rfl⟩ | old
    · cases moved
    · exact ledger.movedDone task request old moved
  · intro otherId member
    exact ledger.ticketIdsBelow otherId (AList.mem_erase.mp member).2
  · intro otherId member held
    exact ledger.reservedNotTicket otherId member (AList.mem_erase.mp held).2
  · intro task member
    rcases (AList.mem_insert _).mp member with same | old
    · dsimp only
      omega
    · have below := ledger.tasksBelow task old
      dsimp only
      omega

theorem reservationLedger_insertPartition (ledger : ReservationLedger state) {task : Nat}
    (fired : state.insertPartition task = some next) : ReservationLedger next := by
  obtain ⟨request, partitionId, blocks, rest, found, ready, remainingEq, rfl⟩ :=
    insertPartition_eq_some fired
  set inserted := { request with
    remaining := rest
    stage := .appended (request.uidOf partitionId)
      (appInsertedSize (WritingViewContext.new (request.uidOf partitionId) blocks)) }
    with insertedEq
  have sameOutstanding : inserted.outstanding = request.outstanding := by
    rw [SendRequest.outstanding_of_ne_moved (SendStage.ne_moved_of_isReady ready),
      SendRequest.outstanding_of_ne_moved (by simp [insertedEq])]
  -- the request keeps its ticket; the appended partition waits in its plan
  have samePlan : inserted.insertedTotal + inserted.plannedTotal =
      request.insertedTotal + request.plannedTotal := by
    simp only [insertedEq, SendRequest.plannedTotal, remainingEq, partitionsTotal_cons,
      SendRequest.uidOf, SendStage.pendingSize_appended, SendStage.pendingSize_of_isReady ready]
    omega
  have within : inserted.insertedTotal + inserted.plannedTotal ≤ inserted.ticketLen := by
    rw [samePlan]
    exact ledger.withinTicket task request found
  exact ledger.replace_request found sameOutstanding rfl within (by simp [insertedEq])
    (MemoryStore.insert_budget _ _) (MemoryStore.insert_ticketManager _ _) rfl rfl rfl

/-- The staging lookup changes only what the send counts: a found buffer
moves the appended size from the plan to the total, and a failed lookup drops
it, with what the transport skips, inside the ticket by the discipline. -/
theorem reservationLedger_getBufferStagingSize (ledger : ReservationLedger state) {task : Nat}
    (allowed : KeepsTicketDiscipline state (.getBufferStagingSize task))
    (fired : state.getBufferStagingSize task = some next) : ReservationLedger next := by
  obtain ⟨request, uid, size, found, appended, rfl⟩ := getBufferStagingSize_eq_some fired
  set looked := if (state.store.getBuffer uid).isSome then
      { request with insertedTotal := request.insertedTotal + size, stage := .inserting }
    else { request with remaining := request.remainingAfterFailure, stage := .inserting }
    with lookedEq
  have sameTicket : looked.ticketLen = request.ticketLen := by
    rw [lookedEq]
    split_ifs <;> rfl
  have notMoved : looked.stage ≠ .moved := by
    rw [lookedEq]
    split_ifs <;> simp
  have sameOutstanding : looked.outstanding = request.outstanding := by
    rw [@SendRequest.outstanding_of_ne_moved request (by rw [appended]; simp),
      SendRequest.outstanding_of_ne_moved notMoved, sameTicket]
  have within : looked.insertedTotal + looked.plannedTotal ≤ looked.ticketLen := by
    have before := ledger.withinTicket task request found
    simp only [SendRequest.plannedTotal, appended, SendStage.pendingSize] at before
    rw [lookedEq]
    split_ifs with present
    · -- the appended size leaves the plan for the total
      simp only [SendRequest.plannedTotal, SendStage.pendingSize]
      omega
    · -- the discipline bounds what the send still counts after the failure
      have absent : state.store.getBuffer uid = none := Option.not_isSome_iff_eq_none.mp present
      have bounded := allowed request found
      rw [appended] at bounded
      have counted := bounded absent
      simp only [SendRequest.plannedTotal, SendStage.pendingSize,
        SendRequest.countedAfterFailure] at counted ⊢
      omega
  exact ledger.replace_request found sameOutstanding sameTicket within notMoved rfl rfl rfl rfl rfl

/-- A request that inserted all its partitions and has not moved still holds
its whole ticket, which covers what it inserted: its move never clamps. -/
theorem ReservationLedger.inserted_le_allocated (ledger : ReservationLedger state)
    {task : Nat} {request : SendRequest} (found : state.requests.lookup task = some request)
    (ready : request.stage.isReady = true) (done : request.remaining = []) :
    request.insertedTotal ≤ state.store.budget.allocated := by
  have planned : request.plannedTotal = 0 := by
    simp [SendRequest.plannedTotal, done, partitionsTotal, SendStage.pendingSize_of_isReady ready]
  have within := ledger.withinTicket task request found
  have covered := ledger.outstanding_le_allocated found
  rw [SendRequest.outstanding_of_ne_moved (SendStage.ne_moved_of_isReady ready)] at covered
  omega

theorem reservationLedger_moveAllocated (ledger : ReservationLedger state) {task : Nat}
    (fired : state.moveAllocated task = some next) : ReservationLedger next := by
  obtain ⟨request, found, ready, remainingNil, rfl⟩ := moveAllocated_eq_some fired
  have moved := state.store.budget.moveAllocatedToUsed_of_le
    (ledger.inserted_le_allocated found ready remainingNil)
  refine ⟨?_, ledger.ticketsNonneg, ledger.reservationsNonneg, ?_, ?_, ?_, ?_, ?_,
    ledger.reservedNotTicket, ?_⟩
  · have exact := ledger.exact
    simp only [reservedTotal, outstandingTotal, MemoryStore.moveAllocatedToUsed_budget,
      MemoryStore.moveAllocatedToUsed_ticketManager, moved] at exact ⊢
    have movedOutstanding : ({ request with stage := .moved } : SendRequest).outstanding =
        request.ticketLen - request.insertedTotal := rfl
    rw [total_insert_of_lookup _ _ found,
      SendRequest.outstanding_of_ne_moved (SendStage.ne_moved_of_isReady ready), movedOutstanding]
    omega
  · intro other value lookedUp
    rcases lookup_insert_eq_some.mp lookedUp with ⟨_, rfl⟩ | ⟨_, old⟩
    · exact ledger.ticketLenNonneg task request found
    · exact ledger.ticketLenNonneg other value old
  · intro other value lookedUp
    rcases lookup_insert_eq_some.mp lookedUp with ⟨_, rfl⟩ | ⟨_, old⟩
    · have within := ledger.withinTicket task request found
      simp only [SendRequest.plannedTotal, SendStage.pendingSize_of_isReady ready] at within
      simp only [SendRequest.plannedTotal, SendStage.pendingSize]
      omega
    · exact ledger.withinTicket other value old
  · intro other value lookedUp isMoved
    rcases lookup_insert_eq_some.mp lookedUp with ⟨_, rfl⟩ | ⟨_, old⟩
    · exact remainingNil
    · exact ledger.movedDone other value old isMoved
  · intro ticketId member
    simp only [MemoryStore.moveAllocatedToUsed_budget, moved,
      MemoryStore.moveAllocatedToUsed_ticketManager] at member ⊢
    exact ledger.ticketIdsBelow ticketId member
  · intro ticketId member
    simp only [MemoryStore.moveAllocatedToUsed_budget, moved]
    exact ledger.reservationIdsBelow ticketId member
  · intro other member
    rcases (AList.mem_insert _).mp member with same | old
    · rw [same]
      exact ledger.tasksBelow task (AList.lookup_isSome.mp (by simp [found]))
    · exact ledger.tasksBelow other old

theorem reservationLedger_releaseUnused (ledger : ReservationLedger state) {task : Nat}
    (fired : state.releaseUnused task = some next) : ReservationLedger next := by
  obtain ⟨request, found, moved, rfl⟩ := releaseUnused_eq_some fired
  have remainder : request.outstanding = request.ticketLen - request.insertedTotal := by
    simp [SendRequest.outstanding, moved]
  have nonneg := ledger.outstanding_nonneg task request found
  have covered := ledger.outstanding_le_allocated found
  rw [remainder] at nonneg covered
  obtain ⟨_, sameCounter, sameTickets, _⟩ := request.releaseRemainder_frame state.store
  refine ⟨?_, ?_, ledger.reservationsNonneg, ?_, ?_, ?_, ?_, ?_, ?_, ?_⟩
  · have exact := ledger.exact
    simp only [reservedTotal, outstandingTotal] at exact ⊢
    rw [SendRequest.releaseRemainder_allocated nonneg covered, sameTickets,
      total_erase_of_lookup _ found, remainder]
    omega
  · rw [sameTickets]
    exact ledger.ticketsNonneg
  · intro other value erased
    exact ledger.ticketLenNonneg other value (lookup_of_lookup_erase erased)
  · intro other value erased
    exact ledger.withinTicket other value (lookup_of_lookup_erase erased)
  · intro other value erased
    exact ledger.movedDone other value (lookup_of_lookup_erase erased)
  · rw [sameTickets, sameCounter]
    exact ledger.ticketIdsBelow
  · rw [sameCounter]
    exact ledger.reservationIdsBelow
  · rw [sameTickets]
    exact ledger.reservedNotTicket
  · intro other member
    exact ledger.tasksBelow other (AList.mem_erase.mp member).2

/-- Steps that only drop tickets and keep the ledger's equation keep the
ledger. -/
theorem ReservationLedger.of_fewer_tickets (ledger : ReservationLedger state)
    (exactNext : next.store.budget.allocated =
      next.store.ticketManager.totalAllocated + next.reservedTotal + next.outstandingTotal)
    (counterEq : next.store.budget.allocationIncCounter = state.store.budget.allocationIncCounter)
    (fewerTickets : ∀ ticketId ticket,
      next.store.ticketManager.ticketStore.lookup ticketId = some ticket →
        state.store.ticketManager.ticketStore.lookup ticketId = some ticket)
    (reservationsEq : next.reservations = state.reservations)
    (requestsEq : next.requests = state.requests)
    (tasksGrow : state.nextTask ≤ next.nextTask) :
    ReservationLedger next := by
  have heldBefore : ∀ ticketId ∈ next.store.ticketManager.ticketStore,
      ticketId ∈ state.store.ticketManager.ticketStore := by
    intro ticketId member
    obtain ⟨ticket, found⟩ := Option.isSome_iff_exists.mp (AList.lookup_isSome.mpr member)
    exact AList.lookup_isSome.mp (by simp [fewerTickets ticketId ticket found])
  refine ⟨exactNext, ?_, ?_, ?_, ?_, ?_, ?_, ?_, ?_, ?_⟩
  · intro ticketId ticket found
    exact ledger.ticketsNonneg ticketId ticket (fewerTickets ticketId ticket found)
  · rw [reservationsEq]
    exact ledger.reservationsNonneg
  · rw [requestsEq]
    exact ledger.ticketLenNonneg
  · rw [requestsEq]
    exact ledger.withinTicket
  · rw [requestsEq]
    exact ledger.movedDone
  · intro ticketId member
    rw [counterEq]
    exact ledger.ticketIdsBelow ticketId (heldBefore ticketId member)
  · rw [reservationsEq, counterEq]
    exact ledger.reservationIdsBelow
  · intro ticketId member held
    rw [reservationsEq] at member
    exact ledger.reservedNotTicket ticketId member (heldBefore ticketId held)
  · intro task member
    rw [requestsEq] at member
    exact lt_of_lt_of_le (ledger.tasksBelow task member) tasksGrow

theorem reservationLedger_ticketCheck (ledger : ReservationLedger state) {timedOut : List Int}
    (allowed : KeepsTicketDiscipline state (.ticketCheck timedOut)) :
    ReservationLedger { state with store := state.store.ticketCheck timedOut } := by
  have split := state.store.ticketManager.removeTimedOut_total timedOut
  have kept : ∀ ticketId ticket,
      (state.store.ticketCheck timedOut).ticketManager.ticketStore.lookup ticketId = some ticket →
        state.store.ticketManager.ticketStore.lookup ticketId = some ticket := by
    intro ticketId ticket found
    rw [MemoryStore.ticketCheck_ticketManager] at found
    exact lookup_of_lookup_filter found
  have keptNonneg : 0 ≤ (state.store.ticketManager.removeTimedOut timedOut).2.totalAllocated :=
    total_nonneg _ fun ticketId ticket found =>
      ledger.ticketsNonneg ticketId ticket (lookup_of_lookup_filter found)
  have exact := ledger.exact
  have reserved : 0 ≤ state.reservedTotal := total_nonneg _ ledger.reservationsNonneg
  have requests : 0 ≤ state.outstandingTotal := total_nonneg _ ledger.outstanding_nonneg
  refine ledger.of_fewer_tickets ?_ (MemoryStore.ticketCheck_allocationIncCounter _ _) kept rfl rfl
    (le_refl _)
  simp only [reservedTotal, outstandingTotal, MemoryStore.ticketCheck_ticketManager]
    at exact reserved requests ⊢
  -- the removed sizes leave `allocated` exactly when the checker shares the budget
  rcases allowed with shared | noneHeld
  · rw [MemoryStore.ticketCheck_budget_of_shared _ shared]
    split_ifs with removedSome
    · rw [MemoryBudget.decAllocated_of_le _ (by omega)]
      dsimp only
      omega
    · omega
  · obtain ⟨removedZero, keptAll⟩ :=
      state.store.ticketManager.removeTimedOut_of_disjoint noneHeld
    cases checker : state.store.checkerBudget with
    | none =>
        rw [MemoryStore.ticketCheck_budget_of_shared _ checker, if_neg (by omega)]
        omega
    | some own =>
        rw [MemoryStore.ticketCheck_budget_of_own _ checker]
        omega

theorem reservationLedger_getMemoryBuffer (ledger : ReservationLedger state)
    (uid : PartitionedUId) : ReservationLedger (state.getMemoryBuffer uid) := by
  unfold getMemoryBuffer
  split
  · exact ledger
  · exact ledger.of_frame rfl rfl rfl rfl rfl (Nat.le_succ _)

theorem reservationLedger_bufferSpillImpl (ledger : ReservationLedger state) {task : Nat}
    {published : Bool} (fired : state.bufferSpillImpl task published = some next) :
    ReservationLedger next := by
  obtain ⟨sameBudget, sameTickets, sameReservations, sameRequests, tasksGrow, _⟩ :=
    bufferSpillImpl_frame fired
  exact ledger.of_frame (by rw [sameBudget]) (by rw [sameBudget]) sameTickets sameReservations
    sameRequests tasksGrow

theorem reservationLedger_flush (ledger : ReservationLedger state) {task : Nat}
    (fired : state.flush task = some next) : ReservationLedger next := by
  obtain ⟨event, _, _, rfl⟩ := flush_eq_some fired
  exact ledger.of_frame rfl rfl rfl rfl rfl (le_refl _)

theorem reservationLedger_finishEvent (ledger : ReservationLedger state) {task : Nat}
    {flushed release : Bool} (fired : state.finishEvent task flushed release = some next) :
    ReservationLedger next := by
  obtain ⟨event, _, _, rfl⟩ := finishEvent_eq_some fired
  cases release with
  | false =>
      exact ledger.of_frame rfl rfl rfl rfl rfl (le_refl _)
  | true =>
      obtain ⟨sameAllocated, sameCounter, sameTickets⟩ :=
        releaseMemoryBuffer_frame state.store event
      exact ledger.of_frame sameAllocated sameCounter sameTickets rfl rfl (le_refl _)

theorem reservationLedger_purge (ledger : ReservationLedger state) (appId : String)
    (shuffleId : Option Int) : ReservationLedger (state.purge appId shuffleId) :=
  ledger.of_frame (MemoryBudget.decUsed_allocated _ _)
    (MemoryBudget.decUsed_allocationIncCounter _ _) rfl rfl rfl (le_refl _)

/-- Every step a disciplined environment takes keeps the ledger. -/
theorem reservationLedger_step (ledger : ReservationLedger state) {action : HotStoreAction}
    (allowed : KeepsTicketDiscipline state action)
    (fired : hotStoreNext state action = some next) : ReservationLedger next := by
  cases action with
  | requireAllocated size =>
      cases fired
      exact reservationLedger_requireAllocated ledger allowed
  | insertTicket ticketId =>
      exact reservationLedger_insertTicket ledger fired
  | releaseTicket transport appId shuffleId ticketId partitions =>
      cases fired
      exact reservationLedger_releaseTicket ledger allowed
  | insertPartition task =>
      exact reservationLedger_insertPartition ledger fired
  | getBufferStagingSize task =>
      exact reservationLedger_getBufferStagingSize ledger allowed fired
  | moveAllocated task =>
      exact reservationLedger_moveAllocated ledger fired
  | releaseUnused task =>
      exact reservationLedger_releaseUnused ledger fired
  | ticketCheck timedOut =>
      cases fired
      exact reservationLedger_ticketCheck ledger allowed
  | getMemoryBuffer uid =>
      cases fired
      exact reservationLedger_getMemoryBuffer ledger uid
  | bufferSpillImpl task published =>
      exact reservationLedger_bufferSpillImpl ledger fired
  | flush task =>
      exact reservationLedger_flush ledger fired
  | finishSpill task =>
      exact reservationLedger_finishEvent ledger fired
  | dropSpill task =>
      exact reservationLedger_finishEvent ledger fired
  | ignoreSpill task =>
      exact reservationLedger_finishEvent ledger fired
  | purge appId shuffleId =>
      cases fired
      exact reservationLedger_purge ledger appId shuffleId

theorem reservationLedger_of_reachable {store : MemoryStore}
    (noTickets : store.ticketManager = .empty) (nothingAllocated : store.budget.allocated = 0)
    (reached : Relation.ReflTransGen (Steps hotStoreNext KeepsTicketDiscipline) (start store)
      state) :
    ReservationLedger state := by
  refine invariant_of_steps ?_ reached (reservationLedger_start store noTickets nothingAllocated)
  intro source target action allowed ledger fired
  exact reservationLedger_step ledger allowed fired

end ReservationLedger

/-- In the server as `HybridStore::from` builds it, with disciplined clients
and no ticket timing out, `allocated` is the total of the held tickets
whenever no request is midway. -/
theorem allocated_eq_ticketTotal (capacity : Int) {state : HotStoreState}
    (reached : Relation.ReflTransGen (Steps hotStoreNext KeepsTicketDiscipline)
      (start (MemoryStore.from capacity)) state)
    (quiet : state.NoRequestMidway) :
    state.store.budget.allocated = state.store.ticketManager.totalAllocated := by
  have ledger := reservationLedger_of_reachable rfl rfl reached
  have noReservations : state.reservedTotal = 0 := by
    simp [reservedTotal, total, quiet.1]
  have noRequests : state.outstandingTotal = 0 := by
    simp [outstandingTotal, total, quiet.2]
  have exact := ledger.exact
  omega

theorem allocated_eq_ticketTotal_twoBuffers :
    ∃ state, Relation.ReflTransGen (Steps hotStoreNext KeepsTicketDiscipline)
        (start (MemoryStore.from 100)) state ∧ state.NoRequestMidway ∧
      state.store.budget.allocated = state.store.ticketManager.totalAllocated := by
  have replay : checkedRun hotStoreNext KeepsTicketDiscipline (start (MemoryStore.from 100))
      [.requireAllocated 10, .insertTicket 1, .requireAllocated 5, .insertTicket 2,
        .releaseTicket .grpc "app" 0 1 [(0, [⟨1, 8, 8, 0, List.replicate 8 0, 0⟩])],
        .insertPartition 0, .getBufferStagingSize 0, .moveAllocated 0, .releaseUnused 0,
        .ticketCheck [1]] = some _ := rfl
  have reached : Relation.ReflTransGen (Steps hotStoreNext KeepsTicketDiscipline) _ _ :=
    reflTransGen_of_checkedRun replay
  exact ⟨_, reached, ⟨rfl, rfl⟩, allocated_eq_ticketTotal 100 reached ⟨rfl, rfl⟩⟩

/-- Two quiet states the unrestricted environment reaches in which
`allocated` and the ticket total differ: a ticket timed out into the
checker's own budget, and a urpc send that inserted more than its ticket. -/
theorem allocated_drifts_from_ticketTotal :
    (∃ state, Relation.ReflTransGen (Steps hotStoreNext fun _ _ => True)
        (start (MemoryStore.from 100)) state ∧ state.NoRequestMidway ∧
      state.store.budget.allocated = 10 ∧ state.store.ticketManager.totalAllocated = 0) ∧
    (∃ state, Relation.ReflTransGen (Steps hotStoreNext fun _ _ => True)
        (start (MemoryStore.from 100)) state ∧ state.NoRequestMidway ∧
      state.store.budget.allocated = 0 ∧ state.store.ticketManager.totalAllocated = 10) := by
  have evicted : run hotStoreNext (start (MemoryStore.from 100))
      [.requireAllocated 10, .insertTicket 1, .ticketCheck [1]] = some _ := rfl
  have overInserted : run hotStoreNext (start (MemoryStore.from 100))
      [.requireAllocated 10, .insertTicket 1, .requireAllocated 10, .insertTicket 2,
        .releaseTicket .urpc "app" 0 1 [(0, [⟨1, 20, 20, 0, List.replicate 20 0, 0⟩])],
        .insertPartition 0, .getBufferStagingSize 0, .moveAllocated 0, .releaseUnused 0] =
      some _ := rfl
  refine ⟨⟨_, reflTransGen_of_run (fun _ _ _ => trivial) evicted, ?_⟩,
    ⟨_, reflTransGen_of_run (fun _ _ _ => trivial) overInserted, ?_⟩⟩
  · exact ⟨⟨rfl, rfl⟩, rfl, rfl⟩
  · exact ⟨⟨rfl, rfl⟩, rfl, rfl⟩

end HotStoreState

end Riffle.Store
