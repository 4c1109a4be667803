import Riffle.Store.Accounting

/-!
# What `used` counts

`MemoryBudget.used` is meant to be the memory that holds buffered data: the
sum of `total_size` over the buffers of the store.  A send request puts its
bytes into the buffers with `App::insert` and into `used` only afterwards,
with `move_allocated_to_used`, so `UsedLedger` counts beside `used` what the
sends inserted and did not move yet.

Bytes leave along three paths: the release of a spilled flight after its
flush, the same release when the event is dropped, and a purge.  Each takes
from `used` what it takes from the buffers as long as `dec_used` does not
clamp and the released flight is still in its buffer (`KeepsUsedDiscipline`).
A purge that removes a buffer between a send's append and its staging lookup
takes the appended bytes from `used` too; the lookup then fails and the send
never moves them, so the discipline also asks that every staging lookup finds
its buffer.
A client that keeps the ticket discipline never makes the move clamp: that
comes from the reservation ledger.  Where no send is inserting, the ledger
reads `used = buffered total` (`used_eq_bufferedTotal`).
-/

namespace Riffle.Store

open Riffle.FixedWidth Riffle.KeyedTotal Riffle.Transition MemoryStore

/-- What a send request inserted and has not moved into `used` yet, the
partition waiting for its staging lookup included. -/
def SendRequest.unmoved (request : SendRequest) : Int :=
  match request.stage with
  | .moved => 0
  | stage => request.insertedTotal + stage.pendingSize

/-- The buffer a send appended to is still there for its staging lookup. -/
def SendStage.StillBuffered (store : MemoryStore) : SendStage → Prop
  | .appended uid _ => store.getBuffer uid ≠ none
  | _ => True

instance (store : MemoryStore) :
    (stage : SendStage) → Decidable (stage.StillBuffered store)
  | .appended .. => inferInstanceAs (Decidable (_ ≠ _))
  | .released | .inserting | .moved => instDecidableTrue

/-- The `flight_len` a release subtracts, read back from the event's size. -/
def SpillEvent.releasedSize (event : SpillEvent) : Int :=
  toSigned 64 (toUnsigned 64 event.size)

namespace MemoryStore

variable {store : MemoryStore}

/-- A release that finds its flight and does not clamp takes the same bytes
from `used` and from the buffers. -/
theorem releaseMemoryBuffer_used_sub_buffered {event : SpillEvent}
    (own : ∀ buffer, store.getBuffer event.uid = some buffer →
      buffer.flight.any (fun entry => entry.1 = event.flightId) = true ∧
        event.releasedSize ≤ store.budget.used) :
    (releaseMemoryBuffer store event).budget.used -
        bufferedTotal (releaseMemoryBuffer store event).state =
      store.budget.used - bufferedTotal store.state := by
  unfold releaseMemoryBuffer
  cases cleared : store.clearSpilledBuffer event.uid event.flightId (toUnsigned 64 event.size) with
  | none =>
      rfl
  | some after =>
      obtain ⟨buffer, found, rfl⟩ := store.clearSpilledBuffer_eq_some cleared
      obtain ⟨present, enough⟩ := own buffer found
      unfold SpillEvent.releasedSize at enough
      rw [Option.getD_some, MemoryBudget.decUsed_of_le _ enough,
        bufferedTotal_clear_of_mem store found present]
      dsimp only
      omega

/-- A purge that does not clamp takes from `used` what it drops. -/
theorem purge_used_sub_buffered {appId : String} {shuffleId : Option Int}
    (enough : (store.purge appId shuffleId).2 ≤ store.budget.used) :
    (store.purge appId shuffleId).1.budget.used -
        bufferedTotal (store.purge appId shuffleId).1.state =
      store.budget.used - bufferedTotal store.state := by
  have released := store.bufferedTotal_purge appId shuffleId
  rw [purge_budget, MemoryBudget.decUsed_of_le _ enough]
  dsimp only
  omega

end MemoryStore

namespace HotStoreState

def unmovedTotal (state : HotStoreState) : Int :=
  total (fun _ request => request.unmoved) state.requests

/-- No send request is between an `App::insert` and its move. -/
def NoSendInserting (state : HotStoreState) : Prop :=
  ∀ task request, state.requests.lookup task = some request →
    request.stage = .released ∨ request.stage = .moved

instance (state : HotStoreState) : Decidable state.NoSendInserting :=
  decidable_of_iff (∀ entry ∈ state.requests.entries,
      entry.2.stage = .released ∨ entry.2.stage = .moved) <| by
    constructor
    · intro stages task request found
      exact stages ⟨task, request⟩ (AList.mem_lookup_iff.mp found)
    · intro quiet entry member
      exact quiet entry.1 entry.2 (AList.mem_lookup_iff.mpr member)

/-- If the event's buffer is there, the release finds the event's own flight
in it and does not clamp `used`. -/
def ReleasesOwnFlight (state : HotStoreState) (task : Nat) : Prop :=
  ∀ event, state.events.lookup task = some event →
    ∀ buffer, state.store.getBuffer event.uid = some buffer →
      buffer.flight.any (fun entry => entry.1 = event.flightId) = true ∧
        event.releasedSize ≤ state.store.budget.used

/-- Releases and purges that do not clamp `used`, releases that find their
own flight, and staging lookups that find their buffer. -/
def KeepsUsedDiscipline (state : HotStoreState) : HotStoreAction → Prop
  | .getBufferStagingSize task => ∀ request, state.requests.lookup task = some request →
      request.stage.StillBuffered state.store
  | .finishSpill task => state.ReleasesOwnFlight task
  | .dropSpill task => state.ReleasesOwnFlight task
  | .purge appId shuffleId => (state.store.purge appId shuffleId).2 ≤ state.store.budget.used
  | _ => True

instance (state : HotStoreState) (task : Nat) : Decidable (state.ReleasesOwnFlight task) :=
  inferInstanceAs (Decidable (∀ event, state.events.lookup task = some event →
    ∀ buffer, state.store.getBuffer event.uid = some buffer → _ ∧ _))

instance (state : HotStoreState) (action : HotStoreAction) :
    Decidable (KeepsUsedDiscipline state action) :=
  match action with
  | .getBufferStagingSize _ => inferInstanceAs (Decidable (∀ request, _ = some request → _))
  | .finishSpill task | .dropSpill task => inferInstanceAs (Decidable (state.ReleasesOwnFlight task))
  | .purge .. => inferInstanceAs (Decidable (_ ≤ _))
  | .requireAllocated _ | .insertTicket _ | .releaseTicket .. | .insertPartition _
  | .moveAllocated _ | .releaseUnused _ | .ticketCheck _ | .getMemoryBuffer _
  | .bufferSpillImpl .. | .flush _ | .ignoreSpill _ => instDecidableTrue

/-- The clients of the reservation ledger and the releases above. -/
def KeepsBudgetDiscipline (state : HotStoreState) (action : HotStoreAction) : Prop :=
  KeepsTicketDiscipline state action ∧ KeepsUsedDiscipline state action

instance (state : HotStoreState) (action : HotStoreAction) :
    Decidable (KeepsBudgetDiscipline state action) :=
  inferInstanceAs (Decidable (_ ∧ _))

structure UsedLedger (state : HotStoreState) : Prop where
  exact : state.store.budget.used + state.unmovedTotal = bufferedTotal state.store.state
  releasedEmpty : ∀ task request, state.requests.lookup task = some request →
    request.stage = .released → request.insertedTotal = 0

section UsedLedger

variable {state next : HotStoreState}

theorem usedLedger_start (store : MemoryStore) (nothingUsed : store.budget.used = 0)
    (noBuffers : store.state = ∅) : UsedLedger (start store) := by
  refine ⟨?_, ?_⟩
  · simp [start, unmovedTotal, bufferedTotal, nothingUsed, noBuffers]
  · intro task request found
    simp [start] at found

/-- Steps that leave the send requests alone and take the same bytes from
`used` and from the buffers keep the ledger. -/
theorem UsedLedger.of_balanced (ledger : UsedLedger state)
    (balanced : next.store.budget.used - bufferedTotal next.store.state =
      state.store.budget.used - bufferedTotal state.store.state)
    (requestsEq : next.requests = state.requests) : UsedLedger next := by
  have exact := ledger.exact
  refine ⟨?_, ?_⟩
  · simp only [unmovedTotal, requestsEq] at exact ⊢
    omega
  · rw [requestsEq]
    exact ledger.releasedEmpty

/-- Replacing a request by one past the released stage keeps
`releasedEmpty`. -/
theorem UsedLedger.releasedEmpty_insert (ledger : UsedLedger state) {task : Nat}
    {updated : SendRequest} (notReleased : updated.stage ≠ .released) :
    ∀ other value, (state.requests.insert task updated).lookup other = some value →
      value.stage = .released → value.insertedTotal = 0 := by
  intro other value lookedUp isReleased
  rcases lookup_insert_eq_some.mp lookedUp with ⟨_, rfl⟩ | ⟨_, old⟩
  · exact absurd isReleased notReleased
  · exact ledger.releasedEmpty other value old isReleased

theorem usedLedger_requireAllocated (ledger : UsedLedger state) (size : Int) :
    UsedLedger (state.requireAllocated size) := by
  by_cases enough : size ≤ state.store.budget.capacity - state.store.budget.allocated -
      state.store.budget.used
  · rw [requireAllocated_of_le enough]
    exact ledger.of_balanced rfl rfl
  · rw [requireAllocated_of_lt (not_le.mp enough)]
    exact ledger

theorem usedLedger_insertTicket (ledger : UsedLedger state) {ticketId : Int}
    (fired : state.insertTicket ticketId = some next) : UsedLedger next := by
  obtain ⟨size, _, rfl⟩ := insertTicket_eq_some fired
  exact ledger.of_balanced rfl rfl

/-- A released ticket opens a request that inserted nothing; its task number
is fresh by the reservation ledger. -/
theorem usedLedger_releaseTicket (reservation : ReservationLedger state)
    (ledger : UsedLedger state) (transport : Transport) (appId : String)
    (shuffleId ticketId : Int) (partitions : List (Int × List Block)) :
    UsedLedger (state.releaseTicket transport appId shuffleId ticketId partitions) := by
  rcases releaseTicket_cases transport appId shuffleId ticketId partitions with
    unchanged | ⟨ticketLen, manager, _, released⟩
  · rw [unchanged]
    exact ledger
  rw [released]
  have fresh : state.nextTask ∉ state.requests := fun member =>
    Nat.lt_irrefl _ (reservation.tasksBelow _ member)
  refine ⟨?_, ?_⟩
  · have exact := ledger.exact
    simp only [unmovedTotal, total_insert_of_notMem _ _ fresh] at exact ⊢
    generalize total (fun _ request => request.unmoved) state.requests = others at exact ⊢
    simp only [SendRequest.unmoved, SendStage.pendingSize]
    omega
  · intro task request lookedUp
    rcases lookup_insert_eq_some.mp lookedUp with ⟨_, rfl⟩ | ⟨_, old⟩
    · intro _
      rfl
    · exact ledger.releasedEmpty task request old

/-- Nothing is pending at a stage from which a send inserts or moves. -/
theorem SendRequest.unmoved_of_isReady {request : SendRequest}
    (ready : request.stage.isReady = true) : request.unmoved = request.insertedTotal := by
  unfold SendRequest.unmoved
  split
  · exact absurd ‹_› (SendStage.ne_moved_of_isReady ready)
  · rw [SendStage.pendingSize_of_isReady ready, Int.add_zero]

theorem usedLedger_insertPartition (ledger : UsedLedger state) {task : Nat}
    (fired : state.insertPartition task = some next) : UsedLedger next := by
  obtain ⟨request, partitionId, blocks, rest, found, ready, _, rfl⟩ :=
    insertPartition_eq_some fired
  -- the buffer grows by the size the partition waits with for its lookup
  have grows := state.store.bufferedTotal_insert
    (WritingViewContext.new (request.uidOf partitionId) blocks)
  rw [insert_dataSize] at grows
  refine ⟨?_, ?_⟩
  · have exact := ledger.exact
    simp only [unmovedTotal, insert_budget] at exact ⊢
    rw [total_insert_of_lookup _ _ found, SendRequest.unmoved_of_isReady ready, grows]
    generalize total (fun _ request => request.unmoved) state.requests = others at exact ⊢
    simp only [SendRequest.unmoved, SendStage.pendingSize_appended]
    omega
  · exact ledger.releasedEmpty_insert (by simp)

/-- A staging lookup that finds its buffer moves the pending size into the
send's total, which leaves what the send has not moved as it was. -/
theorem usedLedger_getBufferStagingSize (ledger : UsedLedger state) {task : Nat}
    (allowed : KeepsUsedDiscipline state (.getBufferStagingSize task))
    (fired : state.getBufferStagingSize task = some next) : UsedLedger next := by
  obtain ⟨request, uid, size, found, appended, rfl⟩ := getBufferStagingSize_eq_some fired
  have present : (state.store.getBuffer uid).isSome = true := by
    have still := allowed request found
    rw [appended] at still
    exact Option.isSome_iff_ne_none.mpr still
  have sameUnmoved : request.unmoved = request.insertedTotal + size := by
    simp [SendRequest.unmoved, appended]
  refine ⟨?_, ?_⟩
  · have exact := ledger.exact
    simp only [unmovedTotal] at exact ⊢
    rw [if_pos present, total_insert_of_lookup _ _ found, sameUnmoved]
    generalize total (fun _ request => request.unmoved) state.requests = others at exact ⊢
    simp only [SendRequest.unmoved, SendStage.pendingSize]
    omega
  · rw [if_pos present]
    exact ledger.releasedEmpty_insert (by simp)

/-- The move adds the inserted total to `used`: it does not clamp, since the
request still holds a ticket that covers it. -/
theorem usedLedger_moveAllocated (reservation : ReservationLedger state)
    (ledger : UsedLedger state) {task : Nat} (fired : state.moveAllocated task = some next) :
    UsedLedger next := by
  obtain ⟨request, found, ready, remainingNil, rfl⟩ := moveAllocated_eq_some fired
  have moved := state.store.budget.moveAllocatedToUsed_of_le
    (reservation.inserted_le_allocated found ready remainingNil)
  have unmovedBefore := SendRequest.unmoved_of_isReady ready
  refine ⟨?_, ?_⟩
  · have exact := ledger.exact
    simp only [unmovedTotal, moveAllocatedToUsed_budget, moveAllocatedToUsed_state, moved]
      at exact ⊢
    rw [total_insert_of_lookup _ _ found, unmovedBefore]
    generalize total (fun _ request => request.unmoved) state.requests = others at exact ⊢
    simp only [SendRequest.unmoved]
    omega
  · exact ledger.releasedEmpty_insert (by simp)

theorem usedLedger_releaseUnused (ledger : UsedLedger state) {task : Nat}
    (fired : state.releaseUnused task = some next) : UsedLedger next := by
  obtain ⟨request, found, moved, rfl⟩ := releaseUnused_eq_some fired
  obtain ⟨sameUsed, _, _, sameBuffers⟩ := request.releaseRemainder_frame state.store
  have nothingUnmoved : request.unmoved = 0 := by
    simp [SendRequest.unmoved, moved]
  refine ⟨?_, ?_⟩
  · have exact := ledger.exact
    simp only [unmovedTotal] at exact ⊢
    rw [sameUsed, sameBuffers, total_erase_of_lookup _ found, nothingUnmoved]
    omega
  · intro other value erased
    exact ledger.releasedEmpty other value (lookup_of_lookup_erase erased)

theorem usedLedger_getMemoryBuffer (ledger : UsedLedger state) (uid : PartitionedUId) :
    UsedLedger (state.getMemoryBuffer uid) := by
  unfold getMemoryBuffer
  split
  · exact ledger
  · exact ledger.of_balanced rfl rfl

theorem usedLedger_bufferSpillImpl (ledger : UsedLedger state) {task : Nat} {published : Bool}
    (fired : state.bufferSpillImpl task published = some next) : UsedLedger next := by
  obtain ⟨sameBudget, _, _, sameRequests, _, sameBuffered⟩ := bufferSpillImpl_frame fired
  refine ledger.of_balanced ?_ sameRequests
  rw [sameBudget, sameBuffered]

theorem usedLedger_flush (ledger : UsedLedger state) {task : Nat}
    (fired : state.flush task = some next) : UsedLedger next := by
  obtain ⟨event, _, _, rfl⟩ := flush_eq_some fired
  exact ledger.of_balanced rfl rfl

theorem usedLedger_finishEvent (ledger : UsedLedger state) {task : Nat}
    {flushed release : Bool} (own : release = true → state.ReleasesOwnFlight task)
    (fired : state.finishEvent task flushed release = some next) : UsedLedger next := by
  obtain ⟨event, found, _, rfl⟩ := finishEvent_eq_some fired
  cases release with
  | false =>
      exact ledger.of_balanced rfl rfl
  | true =>
      exact ledger.of_balanced
        (releaseMemoryBuffer_used_sub_buffered (own rfl event found)) rfl

theorem usedLedger_purge (ledger : UsedLedger state) {appId : String}
    {shuffleId : Option Int}
    (enough : (state.store.purge appId shuffleId).2 ≤ state.store.budget.used) :
    UsedLedger (state.purge appId shuffleId) :=
  ledger.of_balanced (purge_used_sub_buffered enough) rfl

theorem usedLedger_step (reservation : ReservationLedger state) (ledger : UsedLedger state)
    {action : HotStoreAction} (allowed : KeepsUsedDiscipline state action)
    (fired : hotStoreNext state action = some next) : UsedLedger next := by
  cases action with
  | requireAllocated size =>
      cases fired
      exact usedLedger_requireAllocated ledger size
  | insertTicket ticketId =>
      exact usedLedger_insertTicket ledger fired
  | releaseTicket transport appId shuffleId ticketId partitions =>
      cases fired
      exact usedLedger_releaseTicket reservation ledger transport appId shuffleId ticketId
        partitions
  | insertPartition task =>
      exact usedLedger_insertPartition ledger fired
  | getBufferStagingSize task =>
      exact usedLedger_getBufferStagingSize ledger allowed fired
  | moveAllocated task =>
      exact usedLedger_moveAllocated reservation ledger fired
  | releaseUnused task =>
      exact usedLedger_releaseUnused ledger fired
  | ticketCheck timedOut =>
      cases fired
      refine ledger.of_balanced ?_ rfl
      dsimp only
      rw [ticketCheck_used, ticketCheck_state]
  | getMemoryBuffer uid =>
      cases fired
      exact usedLedger_getMemoryBuffer ledger uid
  | bufferSpillImpl task published =>
      exact usedLedger_bufferSpillImpl ledger fired
  | flush task =>
      exact usedLedger_flush ledger fired
  | finishSpill task =>
      exact usedLedger_finishEvent ledger (fun _ => allowed) fired
  | dropSpill task =>
      exact usedLedger_finishEvent ledger (fun _ => allowed) fired
  | ignoreSpill task =>
      exact usedLedger_finishEvent ledger (fun released => by cases released) fired
  | purge appId shuffleId =>
      cases fired
      exact usedLedger_purge ledger allowed

/-- Both ledgers hold along every run of clients and releases that keep
their discipline, from an empty store. -/
theorem budgetLedgers_of_reachable {store : MemoryStore}
    (noTickets : store.ticketManager = .empty) (nothingAllocated : store.budget.allocated = 0)
    (nothingUsed : store.budget.used = 0) (noBuffers : store.state = ∅)
    (reached : Relation.ReflTransGen (Steps hotStoreNext KeepsBudgetDiscipline) (start store)
      state) :
    ReservationLedger state ∧ UsedLedger state := by
  refine @invariant_of_steps _ _ hotStoreNext KeepsBudgetDiscipline
    (fun reachedState => ReservationLedger reachedState ∧ UsedLedger reachedState) ?_ _ _ reached
    ⟨reservationLedger_start store noTickets nothingAllocated,
      usedLedger_start store nothingUsed noBuffers⟩
  rintro source target action ⟨ticketsKept, releasesKept⟩ ⟨reservation, ledger⟩ fired
  exact ⟨reservationLedger_step reservation ticketsKept fired,
    usedLedger_step reservation ledger releasesKept fired⟩

end UsedLedger

theorem unmovedTotal_of_noSendInserting {state : HotStoreState} (ledger : UsedLedger state)
    (quiet : state.NoSendInserting) : state.unmovedTotal = 0 := by
  refine total_eq_zero _ fun task request found => ?_
  rcases quiet task request found with released | moved
  · simp [SendRequest.unmoved, released, SendStage.pendingSize,
      ledger.releasedEmpty task request found released]
  · simp [SendRequest.unmoved, moved]

end HotStoreState

end Riffle.Store
