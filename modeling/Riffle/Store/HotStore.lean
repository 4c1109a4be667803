import Riffle.Store.MemoryStore
import Riffle.Lib.Transition

/-!
# The hot store under concurrent requests

The memory store is driven by tasks that interleave freely: buffer
requests (`MemoryStore::require_buffer`), send requests of either transport
(gRPC `send_shuffle_data`, urpc `SendDataRequestCommand::apply`), the ticket
checker, spills of buffers (`HybridStore::buffer_spill_impl`), the spill
pipeline finishing an event (`handle_spill_success`, or
`handle_spill_failure_whatever_error` releasing or ignoring it) and purges
(`HybridStore::purge`).  `hotStoreNext` takes one atomic step of one task.

A buffer request is two steps (the budget reservation, then the ticket
insert) and a send request five: release the ticket; then, partition after
partition, `App::insert` appends to the buffer and `HybridStore::insert`
looks the buffer's staging size up again; then move the inserted total from
`allocated` to `used` and release the unused remainder.  The store is the
hybrid one with `memory_single_buffer_max_spill_size` set, where that lookup
is made; it fails when a purge removed the buffer in between.  Tasks in
progress are kept in `AList`s keyed by a task number.

A spill is two steps too.  `single_buffer_spill` takes the buffer's `Arc`
with `get_memory_buffer` (`watermark_spill` takes several with
`lookup_spill_buffers`), and `buffer_spill_impl` spills it later.  A purge in
between removes the buffer from the map but not from the task: `holds` keeps,
for each spill task, the partition and, once a purge removed its buffer, the
number of that purge, and `detached` keeps the buffers each purge removed.

Two fields record what the proofs talk about rather than program state:
`persisted` is the content of the persistent stores, as the spill writes it
and purges drop it, and `acknowledged` lists every block a send appended,
until a purge of its partition.
-/
namespace Riffle.Store

open Riffle.FixedWidth Riffle.KeyedTotal

inductive Transport where
  | grpc
  | urpc
  deriving DecidableEq, Repr

/-- How far a send request has got after `release_ticket`. -/
inductive SendStage where
  | released
  | inserting
  /-- `App::insert` appended a partition of `size` bytes to the buffer of
  `uid`, and `HybridStore::insert` has its staging size still to look up. -/
  | appended (uid : PartitionedUId) (size : Int)
  | moved
  deriving DecidableEq, Repr

/-- The stages from which a send inserts its next partition or moves its
total. -/
def SendStage.isReady : SendStage → Bool
  | .released | .inserting => true
  | .appended .. | .moved => false

/-- The size of the partition appended and not yet counted. -/
def SendStage.pendingSize : SendStage → Int
  | .appended _ size => size
  | _ => 0

theorem SendStage.ne_moved_of_isReady {stage : SendStage} (ready : stage.isReady = true) :
    stage ≠ .moved := by
  rintro rfl
  cases ready

@[simp]
theorem SendStage.pendingSize_appended (uid : PartitionedUId) (size : Int) :
    (SendStage.appended uid size).pendingSize = size :=
  rfl

theorem SendStage.pendingSize_of_isReady {stage : SendStage} (ready : stage.isReady = true) :
    stage.pendingSize = 0 := by
  cases stage <;> first | rfl | cases ready

structure SendRequest where
  transport : Transport
  appId : String
  shuffleId : Int
  ticketLen : Int
  remaining : List (Int × List Block)
  insertedTotal : Int
  stage : SendStage
  deriving DecidableEq, Repr

/-- A published `SpillMessage` the pipeline has not finished. -/
structure SpillEvent where
  uid : PartitionedUId
  flightId : Nat
  size : Int
  blocks : List (List Block)
  flushed : Bool
  deriving DecidableEq, Repr

structure HotStoreState where
  store : MemoryStore
  reservations : AList fun _ : Int => Int
  requests : AList fun _ : Nat => SendRequest
  holds : AList fun _ : Nat => PartitionedUId × Option Nat
  events : AList fun _ : Nat => SpillEvent
  nextTask : Nat
  detached : AList fun _ : Nat => AList fun _ : PartitionedUId => MemoryBuffer
  purges : Nat
  persisted : List (PartitionedUId × Block)
  acknowledged : List (PartitionedUId × Block)
  deriving DecidableEq

inductive HotStoreAction where
  | requireAllocated (size : Int)
  | insertTicket (ticketId : Int)
  | releaseTicket (transport : Transport) (appId : String) (shuffleId ticketId : Int)
      (partitions : List (Int × List Block))
  | insertPartition (task : Nat)
  | getBufferStagingSize (task : Nat)
  | moveAllocated (task : Nat)
  | releaseUnused (task : Nat)
  | ticketCheck (timedOut : List Int)
  | getMemoryBuffer (uid : PartitionedUId)
  | bufferSpillImpl (task : Nat) (published : Bool)
  | flush (task : Nat)
  | finishSpill (task : Nat)
  | dropSpill (task : Nat)
  | ignoreSpill (task : Nat)
  | purge (appId : String) (shuffleId : Option Int)
  deriving DecidableEq, Repr

namespace SendRequest

def uidOf (request : SendRequest) (partitionId : Int) : PartitionedUId :=
  ⟨request.appId, request.shuffleId, partitionId⟩

/-- The partitions a send still inserts after one of them failed: gRPC skips
the rest, urpc goes on. -/
def remainingAfterFailure (request : SendRequest) : List (Int × List Block) :=
  match request.transport with
  | .grpc => []
  | .urpc => request.remaining

/-- What the transport gives back after the move: gRPC releases any non-zero
remainder, urpc only a positive one. -/
def unusedToRelease (request : SendRequest) : Option Int :=
  let unused := request.ticketLen - request.insertedTotal
  match request.transport with
  | .grpc => if unused ≠ 0 then some unused else none
  | .urpc => if unused > 0 then some unused else none

/-- The budget update after the move: `dec_allocated` of the remainder the
transport gives back. -/
def releaseRemainder (request : SendRequest) (store : MemoryStore) : MemoryStore :=
  match request.unusedToRelease with
  | some unused => store.decAllocated unused
  | none => store

/-- A remainder that is not negative goes back in full, whatever the
transport. -/
theorem releaseRemainder_allocated {request : SendRequest} {store : MemoryStore}
    (nonneg : 0 ≤ request.ticketLen - request.insertedTotal)
    (covered : request.ticketLen - request.insertedTotal ≤ store.budget.allocated) :
    (request.releaseRemainder store).budget.allocated =
      store.budget.allocated - (request.ticketLen - request.insertedTotal) := by
  have remainder : request.unusedToRelease =
      if request.ticketLen - request.insertedTotal = 0 then none
      else some (request.ticketLen - request.insertedTotal) := by
    unfold unusedToRelease
    cases request.transport <;> dsimp only <;> split_ifs <;> first | rfl | omega
  unfold releaseRemainder
  rw [remainder]
  split_ifs with nothingLeft
  · dsimp only
    omega
  · dsimp only
    rw [MemoryStore.decAllocated, MemoryBudget.decAllocated_of_le _ covered]

theorem releaseRemainder_frame (request : SendRequest) (store : MemoryStore) :
    (request.releaseRemainder store).budget.used = store.budget.used ∧
      (request.releaseRemainder store).budget.allocationIncCounter =
        store.budget.allocationIncCounter ∧
      (request.releaseRemainder store).ticketManager = store.ticketManager ∧
      (request.releaseRemainder store).state = store.state := by
  unfold releaseRemainder
  split
  · exact ⟨MemoryBudget.decAllocated_used _ _, MemoryBudget.decAllocated_allocationIncCounter _ _,
      rfl, rfl⟩
  · exact ⟨rfl, rfl, rfl, rfl⟩

end SendRequest

/-- The total `App::insert` reports for a list of partitions of one send. -/
def partitionsTotal (appId : String) (shuffleId : Int)
    (partitions : List (Int × List Block)) : Int :=
  (partitions.map fun partition =>
    appInsertedSize (WritingViewContext.new ⟨appId, shuffleId, partition.1⟩ partition.2)).sum

def SpillEvent.ofResult (uid : PartitionedUId) (result : BufferSpillResult) : SpillEvent :=
  ⟨uid, result.flightId, toSigned 64 result.flightLen, result.blocks, false⟩

/-- `HybridStore::release_memory_buffer`; its error is only logged. -/
def releaseMemoryBuffer (store : MemoryStore) (event : SpillEvent) : MemoryStore :=
  (store.clearSpilledBuffer event.uid event.flightId (toUnsigned 64 event.size)).getD store

/-- Releasing a spilled flight touches only the buffers and `used`. -/
theorem releaseMemoryBuffer_frame (store : MemoryStore) (event : SpillEvent) :
    (releaseMemoryBuffer store event).budget.allocated = store.budget.allocated ∧
      (releaseMemoryBuffer store event).budget.allocationIncCounter =
        store.budget.allocationIncCounter ∧
      (releaseMemoryBuffer store event).ticketManager = store.ticketManager := by
  unfold releaseMemoryBuffer
  cases cleared : store.clearSpilledBuffer event.uid event.flightId (toUnsigned 64 event.size) with
  | none =>
      exact ⟨rfl, rfl, rfl⟩
  | some after =>
      obtain ⟨buffer, _, rfl⟩ := store.clearSpilledBuffer_eq_some cleared
      refine ⟨MemoryBudget.decUsed_allocated _ _, ?_, rfl⟩
      unfold MemoryBudget.decUsed
      split <;> rfl

namespace HotStoreState

def start (store : MemoryStore) : HotStoreState :=
  ⟨store, ∅, ∅, ∅, ∅, 0, ∅, 0, [], []⟩

def requireAllocated (state : HotStoreState) (size : Int) : HotStoreState :=
  let reserved := state.store.budget.requireAllocated size
  if reserved.1.1 then
    { state with
      store := { state.store with budget := reserved.2 }
      reservations := state.reservations.insert reserved.1.2 size }
  else state

def insertTicket (state : HotStoreState) (ticketId : Int) : Option HotStoreState :=
  (state.reservations.lookup ticketId).map fun size =>
    { state with
      store := { state.store with
        ticketManager := (state.store.ticketManager.insert ticketId size).2 }
      reservations := state.reservations.erase ticketId }

/-- `release_ticket`; a failed release answers the client and changes
nothing. -/
def releaseTicket (state : HotStoreState) (transport : Transport) (appId : String)
    (shuffleId ticketId : Int) (partitions : List (Int × List Block)) : HotStoreState :=
  match state.store.releaseTicket ticketId with
  | .error _ => state
  | .ok released =>
      { state with
        store := released.2
        requests := state.requests.insert state.nextTask
          ⟨transport, appId, shuffleId, released.1, partitions, 0, .released⟩
        nextTask := state.nextTask + 1 }

/-- `App::insert` of the next partition of a send request, as far as
`MemoryStore::insert`: the blocks are appended. -/
def insertPartition (state : HotStoreState) (task : Nat) : Option HotStoreState :=
  (state.requests.lookup task).bind fun request =>
    if request.stage.isReady then
      match request.remaining with
      | [] => none
      | (partitionId, blocks) :: rest =>
          let ctx := WritingViewContext.new (request.uidOf partitionId) blocks
          some { state with
            store := state.store.insert ctx
            requests := state.requests.insert task
              { request with
                remaining := rest
                stage := .appended ctx.uid (appInsertedSize ctx) }
            acknowledged := state.acknowledged ++ blocks.map (ctx.uid, ·) }
    else none

/-- The rest of `HybridStore::insert`: `get_buffer_staging_size` of the
partition just appended.  When it finds the buffer, `App::insert` reports the
partition's size and the send adds it to its total; when a purge removed the
buffer, the insert fails and the send goes on without it. -/
def getBufferStagingSize (state : HotStoreState) (task : Nat) : Option HotStoreState :=
  (state.requests.lookup task).bind fun request =>
    match request.stage with
    | .appended uid size =>
        some { state with
          requests := state.requests.insert task
            (match state.store.getBufferStagingSize uid with
              | some _ =>
                  { request with
                    insertedTotal := request.insertedTotal + size
                    stage := .inserting }
              | none =>
                  { request with
                    remaining := request.remainingAfterFailure
                    stage := .inserting }) }
    | _ => none

/-- `move_allocated_to_used` of the inserted total, once every partition is
in. -/
def moveAllocated (state : HotStoreState) (task : Nat) : Option HotStoreState :=
  (state.requests.lookup task).bind fun request =>
    if request.stage.isReady ∧ request.remaining = [] then
      some { state with
        store := state.store.moveAllocatedToUsed request.insertedTotal
        requests := state.requests.insert task { request with stage := .moved } }
    else none

def releaseUnused (state : HotStoreState) (task : Nat) : Option HotStoreState :=
  (state.requests.lookup task).bind fun request =>
    if request.stage = .moved then
      some { state with
        store := request.releaseRemainder state.store
        requests := state.requests.erase task }
    else none

/-- `get_memory_buffer`: the spill task takes the partition's buffer; its
error ends the spill when there is none. -/
def getMemoryBuffer (state : HotStoreState) (uid : PartitionedUId) : HotStoreState :=
  match state.store.getBuffer uid with
  | none => state
  | some _ =>
      { state with
        holds := state.holds.insert state.nextTask (uid, none)
        nextTask := state.nextTask + 1 }

/-- The buffer a spill task holds: the one in the map, or the one the purge
`detachedBy` removed from it. -/
def heldBuffer (state : HotStoreState) (uid : PartitionedUId) :
    Option Nat → Option MemoryBuffer
  | none => state.store.getBuffer uid
  | some purge => (state.detached.lookup purge).bind (·.lookup uid)

/-- The held buffer replaced, where it is. -/
def putHeld (state : HotStoreState) (uid : PartitionedUId) (buffer : MemoryBuffer) :
    Option Nat → HotStoreState
  | none => { state with store := { state.store with state := state.store.state.insert uid buffer } }
  | some purge =>
      { state with
        detached := state.detached.insert purge
          (((state.detached.lookup purge).getD ∅).insert uid buffer) }

/-- `buffer_spill_impl` of the buffer a task holds: it spills, and a
published event starts down the spill pipeline.  When publishing fails the
flight stays in the buffer with no event. -/
def bufferSpillImpl (state : HotStoreState) (task : Nat) (published : Bool) :
    Option HotStoreState :=
  (state.holds.lookup task).bind fun held =>
    (state.heldBuffer held.1 held.2).map fun buffer =>
      let spilled := { state.putHeld held.1 buffer.spill.1 held.2 with
        holds := state.holds.erase task }
      match buffer.spill.2 with
      | none => spilled
      | some result =>
          { spilled with
            events := if published then state.events.insert state.nextTask
              (SpillEvent.ofResult held.1 result) else state.events
            nextTask := state.nextTask + 1 }

/-- The event's blocks are written to a persistent store. -/
def flush (state : HotStoreState) (task : Nat) : Option HotStoreState :=
  (state.events.lookup task).bind fun event =>
    if event.flushed then none
    else
      some { state with
        events := state.events.insert task { event with flushed := true }
        persisted := state.persisted ++ event.blocks.flatten.map (event.uid, ·) }

/-- The event leaves the pipeline; `release` says whether its memory is
released (`handle_spill_success` after a flush, the dropping branch without
one) or not (the event of a purged app). -/
def finishEvent (state : HotStoreState) (task : Nat) (flushed release : Bool) :
    Option HotStoreState :=
  (state.events.lookup task).bind fun event =>
    if event.flushed = flushed then
      some { state with
        store := if release then releaseMemoryBuffer state.store event else state.store
        events := state.events.erase task }
    else none

/-- A purge removes the matching buffers from the map; spill tasks that hold
one of them keep it, detached. -/
def purge (state : HotStoreState) (appId : String) (shuffleId : Option Int) :
    HotStoreState :=
  { state with
    store := (state.store.purge appId shuffleId).1
    holds := mapValues (fun _ held =>
        if held.2 = none ∧ MemoryStore.purgeMatches appId shuffleId held.1 then
          (held.1, some state.purges)
        else held) state.holds
    detached := state.detached.insert state.purges
      (filter (MemoryStore.purgeMatches appId shuffleId) state.store.state)
    purges := state.purges + 1
    persisted := state.persisted.filter fun entry =>
      !MemoryStore.purgeMatches appId shuffleId entry.1
    acknowledged := state.acknowledged.filter fun entry =>
      !MemoryStore.purgeMatches appId shuffleId entry.1 }

end HotStoreState

open HotStoreState in
def hotStoreNext (state : HotStoreState) : HotStoreAction → Option HotStoreState
  | .requireAllocated size => some (state.requireAllocated size)
  | .insertTicket ticketId => state.insertTicket ticketId
  | .releaseTicket transport appId shuffleId ticketId partitions =>
      some (state.releaseTicket transport appId shuffleId ticketId partitions)
  | .insertPartition task => state.insertPartition task
  | .getBufferStagingSize task => state.getBufferStagingSize task
  | .moveAllocated task => state.moveAllocated task
  | .releaseUnused task => state.releaseUnused task
  | .ticketCheck timedOut => some { state with store := state.store.ticketCheck timedOut }
  | .getMemoryBuffer uid => some (state.getMemoryBuffer uid)
  | .bufferSpillImpl task published => state.bufferSpillImpl task published
  | .flush task => state.flush task
  | .finishSpill task => state.finishEvent task true true
  | .dropSpill task => state.finishEvent task false true
  | .ignoreSpill task => state.finishEvent task false false
  | .purge appId shuffleId => some (state.purge appId shuffleId)

/-! ## What each step does -/

namespace HotStoreState

variable {state next : HotStoreState}

theorem requireAllocated_of_le {size : Int}
    (enough : size ≤ state.store.budget.capacity - state.store.budget.allocated -
      state.store.budget.used) :
    state.requireAllocated size =
      { state with
        store := { state.store with
          budget := { state.store.budget with
            allocated := state.store.budget.allocated + size
            allocationIncCounter := state.store.budget.allocationIncCounter + 1 } }
        reservations :=
          state.reservations.insert (state.store.budget.allocationIncCounter + 1) size } := by
  unfold requireAllocated
  rw [state.store.budget.requireAllocated_of_le enough]
  rfl

theorem requireAllocated_of_lt {size : Int}
    (short : state.store.budget.capacity - state.store.budget.allocated -
      state.store.budget.used < size) :
    state.requireAllocated size = state := by
  unfold requireAllocated
  rw [state.store.budget.requireAllocated_of_lt short]
  rfl

theorem releaseTicket_cases (transport : Transport) (appId : String) (shuffleId ticketId : Int)
    (partitions : List (Int × List Block)) :
    state.releaseTicket transport appId shuffleId ticketId partitions = state ∨
      ∃ ticketLen manager,
        state.store.ticketManager.delete ticketId = .ok (ticketLen, manager) ∧
        state.releaseTicket transport appId shuffleId ticketId partitions =
          { state with
            store := { state.store with ticketManager := manager }
            requests := state.requests.insert state.nextTask
              ⟨transport, appId, shuffleId, ticketLen, partitions, 0, .released⟩
            nextTask := state.nextTask + 1 } := by
  unfold releaseTicket MemoryStore.releaseTicket
  cases deleted : state.store.ticketManager.delete ticketId with
  | error _ =>
      left
      rfl
  | ok released =>
      right
      exact ⟨released.1, released.2, rfl, rfl⟩

theorem bufferSpillImpl_eq_some {task : Nat} {published : Bool}
    (fired : state.bufferSpillImpl task published = some next) :
    ∃ uid detachedBy buffer, state.holds.lookup task = some (uid, detachedBy) ∧
      state.heldBuffer uid detachedBy = some buffer ∧
      next =
        match buffer.spill.2 with
        | none => { state.putHeld uid buffer.spill.1 detachedBy with
            holds := state.holds.erase task }
        | some result =>
            { state.putHeld uid buffer.spill.1 detachedBy with
              holds := state.holds.erase task
              events := if published then state.events.insert state.nextTask
                (SpillEvent.ofResult uid result) else state.events
              nextTask := state.nextTask + 1 } := by
  obtain ⟨⟨uid, detachedBy⟩, found, spilled⟩ := Option.bind_eq_some_iff.mp fired
  obtain ⟨buffer, held, rfl⟩ := Option.map_eq_some_iff.mp spilled
  exact ⟨uid, detachedBy, buffer, found, held, rfl⟩

/-- Spilling a held buffer changes that buffer, the holds and the events,
nothing the budget ledgers count besides: a detached buffer is outside the
map, and a spill moves bytes inside the buffer. -/
theorem bufferSpillImpl_frame {task : Nat} {published : Bool}
    (fired : state.bufferSpillImpl task published = some next) :
    next.store.budget = state.store.budget ∧
      next.store.ticketManager = state.store.ticketManager ∧
      next.reservations = state.reservations ∧ next.requests = state.requests ∧
      state.nextTask ≤ next.nextTask ∧
      MemoryStore.bufferedTotal next.store.state = MemoryStore.bufferedTotal state.store.state := by
  obtain ⟨uid, detachedBy, buffer, _, held, rfl⟩ := bufferSpillImpl_eq_some fired
  -- only the spilled buffer changes, in the map or among the detached ones
  have sameBuffered : MemoryStore.bufferedTotal (state.putHeld uid buffer.spill.1 detachedBy).store.state =
      MemoryStore.bufferedTotal state.store.state := by
    cases detachedBy with
    | none => exact state.store.bufferedTotal_spill held
    | some purge => rfl
  have sameStore : ∀ detachedBy : Option Nat,
      (state.putHeld uid buffer.spill.1 detachedBy).store.budget = state.store.budget ∧
        (state.putHeld uid buffer.spill.1 detachedBy).store.ticketManager =
          state.store.ticketManager := by
    intro detachedBy
    cases detachedBy <;> exact ⟨rfl, rfl⟩
  obtain ⟨sameBudget, sameTickets⟩ := sameStore detachedBy
  cases buffer.spill.2 with
  | none =>
      exact ⟨sameBudget, sameTickets, by cases detachedBy <;> rfl, by cases detachedBy <;> rfl,
        by cases detachedBy <;> exact le_refl _, sameBuffered⟩
  | some result =>
      exact ⟨sameBudget, sameTickets, by cases detachedBy <;> rfl, by cases detachedBy <;> rfl,
        Nat.le_succ _, sameBuffered⟩

/-- A purge detaches the buffers spill tasks hold of the partitions it
drops. -/
theorem lookup_holds_purge (appId : String) (shuffleId : Option Int) (task : Nat) :
    (state.purge appId shuffleId).holds.lookup task =
      (state.holds.lookup task).map fun held =>
        if held.2 = none ∧ MemoryStore.purgeMatches appId shuffleId held.1 then
          (held.1, some state.purges)
        else held :=
  lookup_mapValues _ _ _

theorem insertTicket_eq_some {ticketId : Int} (fired : state.insertTicket ticketId = some next) :
    ∃ size, state.reservations.lookup ticketId = some size ∧
      next = { state with
        store := { state.store with
          ticketManager := (state.store.ticketManager.insert ticketId size).2 }
        reservations := state.reservations.erase ticketId } := by
  obtain ⟨size, found, rfl⟩ := Option.map_eq_some_iff.mp fired
  exact ⟨size, found, rfl⟩

theorem insertPartition_eq_some {task : Nat} (fired : state.insertPartition task = some next) :
    ∃ request partitionId blocks rest,
      state.requests.lookup task = some request ∧ request.stage.isReady = true ∧
      request.remaining = (partitionId, blocks) :: rest ∧
      next = { state with
        store := state.store.insert (WritingViewContext.new (request.uidOf partitionId) blocks)
        requests := state.requests.insert task
          { request with
            remaining := rest
            stage := .appended (request.uidOf partitionId)
              (appInsertedSize (WritingViewContext.new (request.uidOf partitionId) blocks)) }
        acknowledged := state.acknowledged ++ blocks.map (request.uidOf partitionId, ·) } := by
  obtain ⟨request, found, inserted⟩ := Option.bind_eq_some_iff.mp fired
  cases ready : request.stage.isReady
  · simp [ready] at inserted
  · rw [if_pos ready] at inserted
    cases remainingEq : request.remaining with
    | nil =>
        simp [remainingEq] at inserted
    | cons partition rest =>
        obtain ⟨partitionId, blocks⟩ := partition
        simp only [remainingEq, Option.some.injEq] at inserted
        exact ⟨request, partitionId, blocks, rest, found, ready, remainingEq, inserted.symm⟩

/-- The staging lookup of an appended partition: the send counts it when the
buffer is there, and goes on without it when a purge removed the buffer. -/
theorem getBufferStagingSize_eq_some {task : Nat}
    (fired : state.getBufferStagingSize task = some next) :
    ∃ request uid size, state.requests.lookup task = some request ∧
      request.stage = .appended uid size ∧
      next = { state with
        requests := state.requests.insert task
          (if (state.store.getBuffer uid).isSome then
            { request with insertedTotal := request.insertedTotal + size, stage := .inserting }
          else
            { request with remaining := request.remainingAfterFailure, stage := .inserting }) } := by
  obtain ⟨request, found, looked⟩ := Option.bind_eq_some_iff.mp fired
  cases stageEq : request.stage with
  | appended uid size =>
      rw [stageEq, Option.some.injEq] at looked
      refine ⟨request, uid, size, found, stageEq, ?_⟩
      rw [← looked]
      unfold MemoryStore.getBufferStagingSize
      cases state.store.getBuffer uid <;> rfl
  | released | inserting | moved =>
      rw [stageEq] at looked
      cases looked

theorem moveAllocated_eq_some {task : Nat} (fired : state.moveAllocated task = some next) :
    ∃ request, state.requests.lookup task = some request ∧ request.stage.isReady = true ∧
      request.remaining = [] ∧
      next = { state with
        store := state.store.moveAllocatedToUsed request.insertedTotal
        requests := state.requests.insert task { request with stage := .moved } } := by
  obtain ⟨request, found, moved⟩ := Option.bind_eq_some_iff.mp fired
  by_cases ready : request.stage.isReady ∧ request.remaining = []
  · rw [if_pos ready, Option.some.injEq] at moved
    exact ⟨request, found, ready.1, ready.2, moved.symm⟩
  · simp [ready] at moved

theorem releaseUnused_eq_some {task : Nat} (fired : state.releaseUnused task = some next) :
    ∃ request, state.requests.lookup task = some request ∧ request.stage = .moved ∧
      next = { state with
        store := request.releaseRemainder state.store
        requests := state.requests.erase task } := by
  obtain ⟨request, found, released⟩ := Option.bind_eq_some_iff.mp fired
  by_cases moved : request.stage = .moved
  · rw [if_pos moved, Option.some.injEq] at released
    exact ⟨request, found, moved, released.symm⟩
  · simp [moved] at released

theorem flush_eq_some {task : Nat} (fired : state.flush task = some next) :
    ∃ event, state.events.lookup task = some event ∧ event.flushed = false ∧
      next = { state with
        events := state.events.insert task { event with flushed := true }
        persisted := state.persisted ++ event.blocks.flatten.map (event.uid, ·) } := by
  obtain ⟨event, found, flushed⟩ := Option.bind_eq_some_iff.mp fired
  cases flushedEq : event.flushed
  · simp only [flushedEq, Bool.false_eq_true, if_false, Option.some.injEq] at flushed
    exact ⟨event, found, flushedEq, flushed.symm⟩
  · simp [flushedEq] at flushed

theorem finishEvent_eq_some {task : Nat} {flushed release : Bool}
    (fired : state.finishEvent task flushed release = some next) :
    ∃ event, state.events.lookup task = some event ∧ event.flushed = flushed ∧
      next = { state with
        store := if release then releaseMemoryBuffer state.store event else state.store
        events := state.events.erase task } := by
  obtain ⟨event, found, finished⟩ := Option.bind_eq_some_iff.mp fired
  by_cases sameFlush : event.flushed = flushed
  · rw [if_pos sameFlush, Option.some.injEq] at finished
    exact ⟨event, found, sameFlush, finished.symm⟩
  · simp [sameFlush] at finished

end HotStoreState

end Riffle.Store
