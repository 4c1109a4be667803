import Riffle.Store.MemoryBuffer
import Riffle.Store.Budget

/-!
# `MemoryStore`: the hot store

`src/store/memory.rs`.  The store keeps one `MemoryBuffer` per partition in
a `DashMap`, a `MemoryBudget` and a `TicketManager`.  Its constructors differ
in one point: `MemoryStore::new` hands the ticket checker a clone of the
store's budget, so evicted tickets are released into it, while
`MemoryStore::from`, which `HybridStore::from` uses, hands it the first of
two budgets it builds and keeps the second.  `checkerBudget` records which:
`none` for the shared budget, `some` for a budget of its own.

The write path sizes a request with the `i32` sum of its declared block
lengths, widened to `u64` (`WritingViewContext::new`); `App::insert`
narrows it back to `i32`.  `insert_dataSize` shows both ends agree.
-/

namespace Riffle.Store

open Riffle.FixedWidth Riffle.KeyedTotal

/-- `crate::app::WritingViewContext`. -/
structure WritingViewContext where
  uid : PartitionedUId
  dataBlocks : List Block
  dataSize : Nat
  deriving DecidableEq, Repr

/-- `WritingViewContext::new`: the `i32` sum of the block lengths, `as u64`. -/
def WritingViewContext.new (uid : PartitionedUId) (dataBlocks : List Block) :
    WritingViewContext :=
  ⟨uid, dataBlocks, toUnsigned 64 (wrapSigned 32 (dataBlocks.map Block.length).sum)⟩

structure MemoryStore where
  memoryCapacity : Int
  state : AList fun _ : PartitionedUId => MemoryBuffer
  budget : MemoryBudget
  ticketManager : TicketManager
  checkerBudget : Option MemoryBudget
  deriving DecidableEq

namespace MemoryStore

/-- `MemoryStore::new`. -/
def new (maxMemorySize : Int) : MemoryStore :=
  ⟨maxMemorySize, ∅, MemoryBudget.new maxMemorySize, TicketManager.empty, none⟩

/-- `MemoryStore::from`, with the configured capacity in bytes. -/
def «from» (capacity : Int) : MemoryStore :=
  ⟨capacity, ∅, MemoryBudget.new capacity, TicketManager.empty,
    some (MemoryBudget.new capacity)⟩

/-- `Store::require_buffer`: reserve in the budget, then record the ticket. -/
def requireBuffer (store : MemoryStore) (size : Int) :
    Except WorkerError (Int × MemoryStore) :=
  let ((succeed, ticketId), budget) := store.budget.requireAllocated size
  if succeed then
    .ok (ticketId,
      { store with budget, ticketManager := (store.ticketManager.insert ticketId size).2 })
  else .error .noEnoughMemoryToBeAllocated

/-- `Store::release_ticket`: the size of the given-back ticket. -/
def releaseTicket (store : MemoryStore) (ticketId : Int) :
    Except WorkerError (Int × MemoryStore) :=
  (store.ticketManager.delete ticketId).map fun released =>
    (released.1, { store with ticketManager := released.2 })

def getOrCreateBuffer (store : MemoryStore) (uid : PartitionedUId) : MemoryBuffer :=
  (store.state.lookup uid).getD MemoryBuffer.new

def getBuffer (store : MemoryStore) (uid : PartitionedUId) : Option MemoryBuffer :=
  store.state.lookup uid

/-- `Store::insert`. -/
def insert (store : MemoryStore) (ctx : WritingViewContext) : MemoryStore :=
  { store with
    state := store.state.insert ctx.uid
      ((store.getOrCreateBuffer ctx.uid).append ctx.dataBlocks ctx.dataSize) }

def moveAllocatedToUsed (store : MemoryStore) (size : Int) : MemoryStore :=
  { store with budget := store.budget.moveAllocatedToUsed size }

def decAllocated (store : MemoryStore) (size : Int) : MemoryStore :=
  { store with budget := store.budget.decAllocated size }

/-- `clear_spilled_buffer`: `none` when the buffer is gone.  `used` drops by
`flight_len` whether or not the flight was still in the buffer. -/
def clearSpilledBuffer (store : MemoryStore) (uid : PartitionedUId)
    (flightId flightLen : Nat) : Option MemoryStore :=
  match store.getBuffer uid with
  | none => none
  | some buffer =>
      some { store with
        state := store.state.insert uid (buffer.clear flightId flightLen)
        budget := store.budget.decUsed (toSigned 64 flightLen) }

/-- The partitions a purge of `appId` (and of `shuffleId`, if given)
removes. -/
def purgeMatches (appId : String) (shuffleId : Option Int) (uid : PartitionedUId) :
    Bool :=
  uid.appId == appId && shuffleId.all (uid.shuffleId == ·)

/-- The sum of `total_size` over the buffers of a map. -/
def bufferedTotal (buffers : AList fun _ : PartitionedUId => MemoryBuffer) : Int :=
  total (fun _ buffer => buffer.totalSize) buffers

/-- `Store::purge`: drop the matching buffers and release their `total_size`
from `used`; the released amount is returned. -/
def purge (store : MemoryStore) (appId : String) (shuffleId : Option Int) :
    MemoryStore × Int :=
  let used := bufferedTotal (filter (purgeMatches appId shuffleId) store.state)
  ({ store with
      state := filter (fun uid => !purgeMatches appId shuffleId uid) store.state
      budget := store.budget.decUsed used },
    used)

/-- One round of the ticket checker: the removed total is released into the
budget the checker's closure holds. -/
def ticketCheck (store : MemoryStore) (timedOut : List Int) : MemoryStore :=
  let removed := store.ticketManager.removeTimedOut timedOut
  let store := { store with ticketManager := removed.2 }
  if removed.1 ≠ 0 then
    match store.checkerBudget with
    | none => { store with budget := store.budget.decAllocated removed.1 }
    | some own => { store with checkerBudget := some (own.decAllocated removed.1) }
  else store

/-- `get_buffer_staging_size`: `none` when the partition has no buffer. -/
def getBufferStagingSize (store : MemoryStore) (uid : PartitionedUId) : Option Nat :=
  (store.getBuffer uid).map fun buffer => toUnsigned 64 buffer.stagingSize

section Effects

variable (store : MemoryStore)

@[simp]
theorem insert_budget (ctx : WritingViewContext) : (store.insert ctx).budget = store.budget :=
  rfl

@[simp]
theorem insert_ticketManager (ctx : WritingViewContext) :
    (store.insert ctx).ticketManager = store.ticketManager :=
  rfl

@[simp]
theorem moveAllocatedToUsed_budget (size : Int) :
    (store.moveAllocatedToUsed size).budget = store.budget.moveAllocatedToUsed size :=
  rfl

@[simp]
theorem moveAllocatedToUsed_state (size : Int) :
    (store.moveAllocatedToUsed size).state = store.state :=
  rfl

@[simp]
theorem moveAllocatedToUsed_ticketManager (size : Int) :
    (store.moveAllocatedToUsed size).ticketManager = store.ticketManager :=
  rfl

@[simp]
theorem purge_budget (appId : String) (shuffleId : Option Int) :
    (store.purge appId shuffleId).1.budget =
      store.budget.decUsed (store.purge appId shuffleId).2 :=
  rfl

@[simp]
theorem purge_ticketManager (appId : String) (shuffleId : Option Int) :
    (store.purge appId shuffleId).1.ticketManager = store.ticketManager :=
  rfl

theorem bufferedTotal_insert (ctx : WritingViewContext) :
    bufferedTotal (store.insert ctx).state =
      bufferedTotal store.state + toSigned 64 ctx.dataSize := by
  unfold insert bufferedTotal getOrCreateBuffer
  cases found : store.state.lookup ctx.uid with
  | none =>
      have absent : ctx.uid ∉ store.state := AList.lookup_eq_none.mp found
      rw [Option.getD_none, total_insert_of_notMem _ _ absent]
      simp only [MemoryBuffer.totalSize_append, MemoryBuffer.totalSize_new]
      omega
  | some buffer =>
      rw [Option.getD_some, total_insert_of_lookup _ _ found]
      simp only [MemoryBuffer.totalSize_append]
      omega

/-- A spill moves bytes from staging to flight inside one buffer. -/
theorem bufferedTotal_spill {uid : PartitionedUId} {buffer : MemoryBuffer}
    (found : store.getBuffer uid = some buffer) :
    bufferedTotal (store.state.insert uid buffer.spill.1) = bufferedTotal store.state := by
  unfold bufferedTotal
  rw [total_insert_of_lookup _ _ found, MemoryBuffer.totalSize_spill]
  omega

theorem clearSpilledBuffer_eq_some {uid : PartitionedUId} {flightId flightLen : Nat}
    {after : MemoryStore}
    (cleared : store.clearSpilledBuffer uid flightId flightLen = some after) :
    ∃ buffer, store.getBuffer uid = some buffer ∧
      after = { store with
        state := store.state.insert uid (buffer.clear flightId flightLen)
        budget := store.budget.decUsed (toSigned 64 flightLen) } := by
  unfold clearSpilledBuffer at cleared
  cases found : store.getBuffer uid with
  | none =>
      simp [found] at cleared
  | some buffer =>
      simp only [found, Option.some.injEq] at cleared
      exact ⟨buffer, rfl, cleared.symm⟩

theorem clearSpilledBuffer_eq_none {uid : PartitionedUId} {flightId flightLen : Nat}
    (missing : store.getBuffer uid = none) :
    store.clearSpilledBuffer uid flightId flightLen = none := by
  simp [clearSpilledBuffer, missing]

theorem bufferedTotal_clear_of_mem {uid : PartitionedUId} {buffer : MemoryBuffer}
    {flightId : Nat} (found : store.getBuffer uid = some buffer)
    (present : buffer.flight.any (fun entry => entry.1 = flightId) = true) (flightLen : Nat) :
    bufferedTotal (store.state.insert uid (buffer.clear flightId flightLen)) =
      bufferedTotal store.state - toSigned 64 flightLen := by
  unfold bufferedTotal
  rw [total_insert_of_lookup _ _ found, MemoryBuffer.totalSize_clear_of_mem present]
  omega

/-- A purge releases exactly the `total_size` of the buffers it drops. -/
theorem bufferedTotal_purge (appId : String) (shuffleId : Option Int) :
    (store.purge appId shuffleId).2 + bufferedTotal (store.purge appId shuffleId).1.state =
      bufferedTotal store.state := by
  unfold purge bufferedTotal
  exact total_filter_add (fun _ buffer => buffer.totalSize) (purgeMatches appId shuffleId)
    store.state

@[simp]
theorem ticketCheck_state (timedOut : List Int) :
    (store.ticketCheck timedOut).state = store.state := by
  unfold ticketCheck
  dsimp only
  split
  · split <;> rfl
  · rfl

@[simp]
theorem ticketCheck_ticketManager (timedOut : List Int) :
    (store.ticketCheck timedOut).ticketManager =
      (store.ticketManager.removeTimedOut timedOut).2 := by
  unfold ticketCheck
  dsimp only
  split
  · split <;> rfl
  · rfl

@[simp]
theorem ticketCheck_used (timedOut : List Int) :
    (store.ticketCheck timedOut).budget.used = store.budget.used := by
  unfold ticketCheck
  dsimp only
  split
  · split
    · exact MemoryBudget.decAllocated_used _ _
    · rfl
  · rfl

@[simp]
theorem ticketCheck_allocationIncCounter (timedOut : List Int) :
    (store.ticketCheck timedOut).budget.allocationIncCounter =
      store.budget.allocationIncCounter := by
  unfold ticketCheck
  dsimp only
  split
  · split
    · exact MemoryBudget.decAllocated_allocationIncCounter _ _
    · rfl
  · rfl

/-- With a budget of its own, the ticket checker never touches the store's. -/
theorem ticketCheck_budget_of_own {own : MemoryBudget}
    (separate : store.checkerBudget = some own) (timedOut : List Int) :
    (store.ticketCheck timedOut).budget = store.budget := by
  unfold ticketCheck
  dsimp only
  split
  · simp only [separate]
  · rfl

theorem ticketCheck_budget_of_shared (shared : store.checkerBudget = none)
    (timedOut : List Int) :
    (store.ticketCheck timedOut).budget =
      if (store.ticketManager.removeTimedOut timedOut).1 ≠ 0 then
        store.budget.decAllocated (store.ticketManager.removeTimedOut timedOut).1
      else store.budget := by
  unfold ticketCheck
  dsimp only
  split
  · simp only [shared]
  · rfl

end Effects

end MemoryStore

/-- `App::insert` answers with the context's size `as i32`. -/
def appInsertedSize (ctx : WritingViewContext) : Int :=
  wrapSigned 32 ctx.dataSize

/-- The size a partition insert adds to its buffer is the size `App::insert`
reports for it. -/
theorem insert_dataSize (uid : PartitionedUId) (dataBlocks : List Block) :
    toSigned 64 (WritingViewContext.new uid dataBlocks).dataSize =
      appInsertedSize (WritingViewContext.new uid dataBlocks) := by
  have i32Sum := wrapSigned_inRange (by norm_num : 0 < 32) (dataBlocks.map Block.length).sum
  unfold appInsertedSize WritingViewContext.new
  dsimp only
  generalize wrapSigned 32 (dataBlocks.map Block.length).sum = value at i32Sum ⊢
  rw [toSigned_toUnsigned (by norm_num) (i32Sum.widen (by norm_num) (by norm_num))]
  unfold wrapSigned
  rw [toUnsigned_toUnsigned (by norm_num : 32 ≤ 64),
    toSigned_toUnsigned (by norm_num) i32Sum]

end Riffle.Store
