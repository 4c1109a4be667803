import Riffle.Store.HotStore

/-!
# Acknowledged blocks stay in memory or in persistent storage

A block that a send appended to a partition's buffer stays readable: it is in
the buffer's staging or flights, or among the blocks the spill pipeline
persisted for the partition (`Durable.covered`).  This rests on an agreement
between the pipeline and the buffers.  The flight of every pending spill
event is still in its buffer, holding the blocks the spill moved there, and
an event that has flushed has persisted them (`Durable.ownFlight`,
`Durable.flushedPersisted`).  So a release removes only persisted blocks.

`MemoryStore::clear_spilled_buffer` finds the buffer by its partition id
alone.  The agreement holds as long as no spill event is dropped and no
partition is purged while one of its events is pending or while a spill task
holds its buffer (`KeepsPipelineDiscipline`); then every buffer a spill task
holds is the one in the map (`Durable.holdsLive`).  A buffer created after
such a purge numbers its flights from 0 again, and the release of an event
of the old buffer, published before the purge or spilled afterwards from the
buffer a task still held, removes the new buffer's flight
(`stale_release_drops_acknowledged`).
-/

namespace Riffle.Store

open Riffle.FixedWidth Riffle.KeyedTotal Riffle.Transition

namespace MemoryBuffer

/-! ## Flights under `insertEntry`, `removeEntry` and `clear` -/

section Flights

variable {value : Type}

theorem lookup_cons_of_ne {key other : Nat} {newValue : value} {rest : List (Nat × value)}
    (different : other ≠ key) : ((key, newValue) :: rest).lookup other = rest.lookup other := by
  rw [List.lookup_cons, beq_false_of_ne different]

theorem lookup_eq_none_of_fresh {key : Nat} {entries : List (Nat × value)}
    (fresh : ∀ entry ∈ entries, entry.1 ≠ key) : entries.lookup key = none :=
  List.lookup_eq_none_iff.mpr fun entry member => bne_iff_ne.mpr (fresh entry member).symm

theorem lookup_insertEntry_self {key : Nat} {newValue : value} {entries : List (Nat × value)}
    (fresh : ∀ entry ∈ entries, entry.1 ≠ key) :
    (insertEntry key newValue entries).lookup key = some newValue := by
  rw [insertEntry_of_fresh fresh, List.lookup_append, lookup_eq_none_of_fresh fresh]
  simp

theorem lookup_insertEntry_ne {key other : Nat} {newValue : value}
    {entries : List (Nat × value)} (fresh : ∀ entry ∈ entries, entry.1 ≠ key)
    (different : other ≠ key) :
    (insertEntry key newValue entries).lookup other = entries.lookup other := by
  rw [insertEntry_of_fresh fresh, List.lookup_append, lookup_cons_of_ne different]
  simp

theorem lookup_removeEntry_ne {key other : Nat} (different : other ≠ key) :
    ∀ entries : List (Nat × value),
      (removeEntry key entries).lookup other = entries.lookup other
  | [] => rfl
  | (first, firstValue) :: rest => by
      unfold removeEntry
      rw [List.eraseP_cons]
      by_cases removed : first = key
      · subst removed
        simp only [decide_true, cond_true]
        rw [lookup_cons_of_ne different]
      · simp only [removed, decide_false, cond_false, List.lookup_cons]
        split
        · rfl
        · exact lookup_removeEntry_ne different rest

/-- The flight that `removeEntry` takes out is the one `lookup` finds. -/
theorem mem_removeEntry_or_lookup (key : Nat) {entries : List (Nat × value)}
    {entry : Nat × value} (member : entry ∈ entries) :
    entry ∈ removeEntry key entries ∨ entries.lookup key = some entry.2 := by
  by_cases sameKey : entry.1 = key
  · obtain ⟨removed, before, after, beforeOther, removedKey, split, erased⟩ :=
      List.exists_of_eraseP (p := fun entry => decide (entry.1 = key)) member (by simpa)
    rw [split, List.mem_append, List.mem_cons] at member
    rcases member with early | same | late
    · exact absurd (by simpa using sameKey) (beforeOther entry early)
    · right
      have noEarlierKey : before.lookup key = none := by
        refine lookup_eq_none_of_fresh fun earlier earlierMember => ?_
        simpa using beforeOther earlier earlierMember
      obtain ⟨removedId, removedValue⟩ := removed
      simp only [decide_eq_true_eq] at removedKey
      subst same removedKey
      rw [split, List.lookup_append, noEarlierKey]
      simp
    · left
      unfold removeEntry
      rw [erased]
      exact List.mem_append_right before late
  · left
    exact (List.mem_eraseP_of_neg (by simpa using sameKey)).mpr member

theorem lt_flightCounter_of_lookup {buffer : MemoryBuffer} (fresh : FlightIdsBelowCounter buffer)
    {flightId : Nat} {blocks : List (List Block)}
    (found : buffer.flight.lookup flightId = some blocks) : flightId < buffer.flightCounter := by
  obtain ⟨before, after, split, _⟩ := List.lookup_eq_some_iff.mp found
  exact fresh (flightId, blocks) (by simp [split])

end Flights

theorem clear_flightCounter (buffer : MemoryBuffer) (flightId flightSize : Nat) :
    (buffer.clear flightId flightSize).flightCounter = buffer.flightCounter := by
  unfold clear
  split <;> rfl

theorem clear_lookup_ne (buffer : MemoryBuffer) {flightId other : Nat}
    (different : other ≠ flightId) (flightSize : Nat) :
    (buffer.clear flightId flightSize).flight.lookup other = buffer.flight.lookup other := by
  unfold clear
  split
  · exact lookup_removeEntry_ne different buffer.flight
  · rfl

/-- A block a clear takes out of the scan order belongs to the flight that
`lookup` finds under the cleared id. -/
theorem mem_scanOrder_clear {buffer : MemoryBuffer} {block : Block} (flightId flightSize : Nat)
    (member : block ∈ buffer.scanOrder) :
    block ∈ (buffer.clear flightId flightSize).scanOrder ∨
      ∃ blocks, buffer.flight.lookup flightId = some blocks ∧ block ∈ blocks.flatten := by
  unfold clear
  split
  · simp only [scanOrder, List.mem_append, List.mem_flatten, List.mem_map] at member ⊢
    rcases member with ⟨_, ⟨entry, entryMember, rfl⟩, inEntry⟩ | staged
    · rcases mem_removeEntry_or_lookup flightId entryMember with kept | found
      · exact Or.inl (Or.inl ⟨_, ⟨entry, kept, rfl⟩, inEntry⟩)
      · exact Or.inr ⟨entry.2, found, List.mem_flatten.mp inEntry⟩
    · exact Or.inl (Or.inr staged)
  · exact Or.inl member

/-- What a spill that moved staging into a flight reports, and where the
flight is. -/
theorem spill_eq_some {buffer : MemoryBuffer} {result : BufferSpillResult}
    (fresh : FlightIdsBelowCounter buffer) (spilled : buffer.spill.2 = some result) :
    result.flightId = buffer.flightCounter ∧
      buffer.spill.1.flight.lookup result.flightId = some result.blocks ∧
      buffer.spill.1.flightCounter = buffer.flightCounter + 1 := by
  have keysFresh : ∀ entry ∈ buffer.flight, entry.1 ≠ buffer.flightCounter :=
    fun entry member => (fresh entry member).ne
  unfold spill at spilled ⊢
  split at spilled
  · cases spilled
  · rename_i staged
    simp only [Option.some.injEq] at spilled
    subst spilled
    rw [if_neg staged]
    exact ⟨rfl, lookup_insertEntry_self keysFresh, rfl⟩

/-- A spill leaves every existing flight where it was. -/
theorem spill_lookup_of_lt {buffer : MemoryBuffer} (fresh : FlightIdsBelowCounter buffer)
    {flightId : Nat} (below : flightId < buffer.flightCounter) :
    buffer.spill.1.flight.lookup flightId = buffer.flight.lookup flightId := by
  have keysFresh : ∀ entry ∈ buffer.flight, entry.1 ≠ buffer.flightCounter :=
    fun entry member => (fresh entry member).ne
  unfold spill
  split
  · rfl
  · exact lookup_insertEntry_ne keysFresh below.ne

end MemoryBuffer

namespace MemoryStore

/-- The blocks a partition holds in memory, in the order a read visits
them. -/
def bufferedBlocks (store : MemoryStore) (uid : PartitionedUId) : List Block :=
  ((store.getBuffer uid).map MemoryBuffer.scanOrder).getD []

section Buffers

variable {store next : MemoryStore}

theorem getBuffer_of_state_eq (buffersEq : next.state = store.state) :
    next.getBuffer = store.getBuffer := by
  funext uid
  unfold getBuffer
  rw [buffersEq]

/-- Every write to the buffers replaces the buffer of one partition. -/
theorem getBuffer_of_replace {uid : PartitionedUId} {buffer : MemoryBuffer}
    (replaced : next.state = store.state.insert uid buffer) (other : PartitionedUId) :
    next.getBuffer other = if other = uid then some buffer else store.getBuffer other := by
  unfold getBuffer
  rw [replaced]
  split_ifs with same
  · rw [same, AList.lookup_insert]
  · exact AList.lookup_insert_ne same

theorem bufferedBlocks_of_replace {uid : PartitionedUId} {buffer : MemoryBuffer}
    (replaced : next.state = store.state.insert uid buffer) (other : PartitionedUId) :
    next.bufferedBlocks other =
      if other = uid then buffer.scanOrder else store.bufferedBlocks other := by
  unfold bufferedBlocks
  rw [getBuffer_of_replace replaced]
  split_ifs <;> rfl

theorem bufferedBlocks_of_getBuffer {uid : PartitionedUId} {buffer : MemoryBuffer}
    (found : store.getBuffer uid = some buffer) : store.bufferedBlocks uid = buffer.scanOrder := by
  unfold bufferedBlocks
  rw [found, Option.map_some, Option.getD_some]

theorem getOrCreateBuffer_of_getBuffer {uid : PartitionedUId} {buffer : MemoryBuffer}
    (found : store.getBuffer uid = some buffer) : store.getOrCreateBuffer uid = buffer := by
  unfold getOrCreateBuffer
  unfold getBuffer at found
  rw [found, Option.getD_some]

theorem scanOrder_getOrCreateBuffer (uid : PartitionedUId) :
    (store.getOrCreateBuffer uid).scanOrder = store.bufferedBlocks uid := by
  unfold getOrCreateBuffer bufferedBlocks getBuffer
  cases store.state.lookup uid <;> rfl

/-- An insert appends the request's blocks to its partition's blocks. -/
theorem bufferedBlocks_insert (ctx : WritingViewContext) (uid : PartitionedUId) :
    (store.insert ctx).bufferedBlocks uid =
      if uid = ctx.uid then store.bufferedBlocks ctx.uid ++ ctx.dataBlocks
      else store.bufferedBlocks uid := by
  rw [bufferedBlocks_of_replace rfl, MemoryBuffer.scanOrder_append, scanOrder_getOrCreateBuffer]

theorem flightIdsBelowCounter_getOrCreateBuffer
    (fresh : ∀ uid buffer, store.getBuffer uid = some buffer → buffer.FlightIdsBelowCounter)
    (uid : PartitionedUId) : (store.getOrCreateBuffer uid).FlightIdsBelowCounter := by
  cases found : store.getBuffer uid with
  | none =>
      unfold getOrCreateBuffer
      unfold getBuffer at found
      rw [found, Option.getD_none]
      exact MemoryBuffer.flightIdsBelowCounter_new
  | some buffer =>
      rw [getOrCreateBuffer_of_getBuffer found]
      exact fresh uid buffer found

theorem getBuffer_purge (appId : String) (shuffleId : Option Int) (uid : PartitionedUId) :
    (store.purge appId shuffleId).1.getBuffer uid =
      if purgeMatches appId shuffleId uid then none else store.getBuffer uid := by
  unfold purge getBuffer
  dsimp only
  rw [lookup_filter]
  cases purgeMatches appId shuffleId uid <;> rfl

end Buffers

end MemoryStore

/-- The release of a pending event whose buffer is there clears the event's
flight id in that buffer. -/
theorem releaseMemoryBuffer_state {store : MemoryStore} {event : SpillEvent}
    {buffer : MemoryBuffer} (found : store.getBuffer event.uid = some buffer) :
    (releaseMemoryBuffer store event).state =
      store.state.insert event.uid (buffer.clear event.flightId (toUnsigned 64 event.size)) := by
  unfold releaseMemoryBuffer MemoryStore.clearSpilledBuffer
  rw [found]
  rfl

namespace HotStoreState

open MemoryStore

/-- The dropping branch of `handle_spill_failure_whatever_error` for a live
app, which releases an event's memory without writing its blocks, is never
taken. -/
def DropsNoEvent : HotStoreAction → Prop
  | .dropSpill _ => False
  | _ => True

/-- A purge waits until no spill event of a partition it drops is pending. -/
def PurgesNoPendingEvent (state : HotStoreState) : HotStoreAction → Prop
  | .purge appId shuffleId => ∀ task event, state.events.lookup task = some event →
      purgeMatches appId shuffleId event.uid = false
  | _ => True

/-- A purge waits until no spill task holds the buffer of a partition it
drops. -/
def PurgesNoHeldBuffer (state : HotStoreState) : HotStoreAction → Prop
  | .purge appId shuffleId => ∀ task held, state.holds.lookup task = some held →
      purgeMatches appId shuffleId held.1 = false
  | _ => True

def KeepsPipelineDiscipline (state : HotStoreState) (action : HotStoreAction) : Prop :=
  DropsNoEvent action ∧ PurgesNoPendingEvent state action ∧ PurgesNoHeldBuffer state action

instance (action : HotStoreAction) : Decidable (DropsNoEvent action) :=
  match action with
  | .dropSpill _ => instDecidableFalse
  | .requireAllocated _ | .insertTicket _ | .releaseTicket .. | .insertPartition _
  | .getBufferStagingSize _ | .moveAllocated _ | .releaseUnused _ | .ticketCheck _
  | .getMemoryBuffer _ | .bufferSpillImpl .. | .flush _ | .finishSpill _ | .ignoreSpill _
  | .purge .. => instDecidableTrue

instance (state : HotStoreState) (action : HotStoreAction) :
    Decidable (PurgesNoPendingEvent state action) :=
  match action with
  | .purge appId shuffleId =>
      decidable_of_iff
        (∀ entry ∈ state.events.entries, purgeMatches appId shuffleId entry.2.uid = false) <| by
          constructor
          · intro waits task event found
            exact waits ⟨task, event⟩ (AList.mem_lookup_iff.mp found)
          · intro waits entry member
            exact waits entry.1 entry.2 (AList.mem_lookup_iff.mpr member)
  | .requireAllocated _ | .insertTicket _ | .releaseTicket .. | .insertPartition _
  | .getBufferStagingSize _ | .moveAllocated _ | .releaseUnused _ | .ticketCheck _
  | .getMemoryBuffer _ | .bufferSpillImpl .. | .flush _ | .finishSpill _ | .dropSpill _
  | .ignoreSpill _ => instDecidableTrue

instance (state : HotStoreState) (action : HotStoreAction) :
    Decidable (PurgesNoHeldBuffer state action) :=
  match action with
  | .purge appId shuffleId =>
      decidable_of_iff
        (∀ entry ∈ state.holds.entries, purgeMatches appId shuffleId entry.2.1 = false) <| by
          constructor
          · intro waits task held found
            exact waits ⟨task, held⟩ (AList.mem_lookup_iff.mp found)
          · intro waits entry member
            exact waits entry.1 entry.2 (AList.mem_lookup_iff.mpr member)
  | .requireAllocated _ | .insertTicket _ | .releaseTicket .. | .insertPartition _
  | .getBufferStagingSize _ | .moveAllocated _ | .releaseUnused _ | .ticketCheck _
  | .getMemoryBuffer _ | .bufferSpillImpl .. | .flush _ | .finishSpill _ | .dropSpill _
  | .ignoreSpill _ => instDecidableTrue

instance (state : HotStoreState) (action : HotStoreAction) :
    Decidable (KeepsPipelineDiscipline state action) :=
  inferInstanceAs (Decidable (_ ∧ _ ∧ _))

structure Durable (state : HotStoreState) : Prop where
  covered : ∀ uid block, (uid, block) ∈ state.acknowledged →
    block ∈ state.store.bufferedBlocks uid ∨ (uid, block) ∈ state.persisted
  ownFlight : ∀ task event, state.events.lookup task = some event →
    ∃ buffer, state.store.getBuffer event.uid = some buffer ∧
      buffer.flight.lookup event.flightId = some event.blocks
  flushedPersisted : ∀ task event, state.events.lookup task = some event →
    event.flushed = true → ∀ block ∈ event.blocks.flatten, (event.uid, block) ∈ state.persisted
  distinctFlights : ∀ task other event otherEvent, state.events.lookup task = some event →
    state.events.lookup other = some otherEvent → task ≠ other → event.uid = otherEvent.uid →
      event.flightId ≠ otherEvent.flightId
  flightsBelow : ∀ uid buffer, state.store.getBuffer uid = some buffer →
    buffer.FlightIdsBelowCounter
  eventsBelow : ∀ task ∈ state.events, task < state.nextTask
  holdsLive : ∀ task held, state.holds.lookup task = some held → held.2 = none

section Durable

variable {state next : HotStoreState}

theorem durable_start (store : MemoryStore) (noBuffers : store.state = ∅) :
    Durable (start store) := by
  have noBuffer : ∀ uid, store.getBuffer uid = none := by
    intro uid
    simp [getBuffer, noBuffers]
  refine ⟨?_, ?_, ?_, ?_, ?_, ?_, ?_⟩ <;> simp [start, noBuffer, AList.lookup, AList.mem_keys]

/-- A pending event's flight id is below its buffer's counter. -/
theorem Durable.flightId_lt (durable : Durable state) {task : Nat} {event : SpillEvent}
    {buffer : MemoryBuffer} (found : state.events.lookup task = some event)
    (bufferFound : state.store.getBuffer event.uid = some buffer) :
    event.flightId < buffer.flightCounter := by
  obtain ⟨own, ownFound, flight⟩ := durable.ownFlight task event found
  rw [bufferFound, Option.some.injEq] at ownFound
  subst ownFound
  exact MemoryBuffer.lt_flightCounter_of_lookup (durable.flightsBelow _ _ bufferFound) flight

/-- Steps that leave the buffers, the events and the two block lists alone
keep the agreement. -/
theorem Durable.of_frame (durable : Durable state)
    (buffersEq : next.store.state = state.store.state) (eventsEq : next.events = state.events)
    (acknowledgedEq : next.acknowledged = state.acknowledged)
    (persistedEq : next.persisted = state.persisted) (tasksGrow : state.nextTask ≤ next.nextTask)
    (holdsLive : ∀ task held, next.holds.lookup task = some held → held.2 = none) :
    Durable next := by
  have sameBuffers := getBuffer_of_state_eq buffersEq
  have sameBlocks : next.store.bufferedBlocks = state.store.bufferedBlocks := by
    funext uid
    unfold bufferedBlocks
    rw [sameBuffers]
  refine ⟨?_, ?_, ?_, ?_, ?_, ?_, holdsLive⟩
  · rw [acknowledgedEq, sameBlocks, persistedEq]
    exact durable.covered
  · rw [eventsEq, sameBuffers]
    exact durable.ownFlight
  · rw [eventsEq, persistedEq]
    exact durable.flushedPersisted
  · rw [eventsEq]
    exact durable.distinctFlights
  · rw [sameBuffers]
    exact durable.flightsBelow
  · intro task member
    rw [eventsEq] at member
    exact lt_of_lt_of_le (durable.eventsBelow task member) tasksGrow

/-- An event that leaves the pipeline takes nothing with it. -/
theorem Durable.erase_event (durable : Durable state) (task : Nat) :
    Durable { state with events := state.events.erase task } := by
  refine ⟨durable.covered, ?_, ?_, ?_, durable.flightsBelow, ?_, durable.holdsLive⟩
  · intro other event found
    exact durable.ownFlight other event (lookup_of_lookup_erase found)
  · intro other event found
    exact durable.flushedPersisted other event (lookup_of_lookup_erase found)
  · intro first second event otherEvent found otherFound
    exact durable.distinctFlights first second event otherEvent (lookup_of_lookup_erase found)
      (lookup_of_lookup_erase otherFound)
  · intro other member
    exact durable.eventsBelow other (AList.mem_erase.mp member).2

theorem durable_insertPartition (durable : Durable state) {task : Nat}
    (fired : state.insertPartition task = some next) : Durable next := by
  obtain ⟨request, partitionId, blocks, rest, _, _, _, rfl⟩ := insertPartition_eq_some fired
  have replaced := @getBuffer_of_replace state.store
    (state.store.insert (WritingViewContext.new (request.uidOf partitionId) blocks)) _ _ rfl
  refine ⟨?_, ?_, durable.flushedPersisted, durable.distinctFlights, ?_, durable.eventsBelow,
    durable.holdsLive⟩
  · intro uid block member
    rw [bufferedBlocks_insert]
    rcases List.mem_append.mp member with old | new
    · rcases durable.covered uid block old with buffered | persisted
      · left
        split_ifs with same
        · rw [← same]
          exact List.mem_append_left _ buffered
        · exact buffered
      · exact Or.inr persisted
    · obtain ⟨appended, appendedMember, same⟩ := List.mem_map.mp new
      simp only [Prod.mk.injEq] at same
      obtain ⟨rfl, rfl⟩ := same
      left
      split_ifs with same
      · exact List.mem_append_right _ appendedMember
      · exact absurd rfl same
  · intro other event found
    obtain ⟨buffer, bufferFound, flight⟩ := durable.ownFlight other event found
    rw [replaced]
    split_ifs with same
    · -- the appended buffer is the event's own, with the same flights
      refine ⟨_, rfl, ?_⟩
      rw [← same, getOrCreateBuffer_of_getBuffer bufferFound]
      exact flight
    · exact ⟨buffer, bufferFound, flight⟩
  · intro uid buffer found
    rw [replaced] at found
    split_ifs at found with same
    · rw [Option.some.injEq] at found
      subst found
      exact MemoryBuffer.flightIdsBelowCounter_append
        (flightIdsBelowCounter_getOrCreateBuffer durable.flightsBelow _) _ _
    · exact durable.flightsBelow uid buffer found

/-- A spill moves the staged blocks into a new flight and leaves every
pending event's flight in place. -/
theorem Durable.of_spilled (durable : Durable state) {uid : PartitionedUId}
    {buffer : MemoryBuffer} (found : state.store.getBuffer uid = some buffer) :
    Durable { state with
      store := { state.store with state := state.store.state.insert uid buffer.spill.1 } } := by
  have fresh := durable.flightsBelow uid buffer found
  have replaced := @getBuffer_of_replace state.store
    { state.store with state := state.store.state.insert uid buffer.spill.1 } _ _ rfl
  have sameBlocks := @bufferedBlocks_of_replace state.store
    { state.store with state := state.store.state.insert uid buffer.spill.1 } _ _ rfl
  refine ⟨?_, ?_, durable.flushedPersisted, durable.distinctFlights, ?_, durable.eventsBelow,
    durable.holdsLive⟩
  · intro other block member
    rw [sameBlocks]
    split_ifs with same
    · rw [MemoryBuffer.scanOrder_spill fresh, ← bufferedBlocks_of_getBuffer found, ← same]
      exact durable.covered other block member
    · exact durable.covered other block member
  · intro task event eventFound
    obtain ⟨own, ownFound, flight⟩ := durable.ownFlight task event eventFound
    rw [replaced]
    split_ifs with same
    · rw [same, found, Option.some.injEq] at ownFound
      subst ownFound
      refine ⟨_, rfl, ?_⟩
      rw [MemoryBuffer.spill_lookup_of_lt fresh (durable.flightId_lt eventFound (same ▸ found))]
      exact flight
    · exact ⟨own, ownFound, flight⟩
  · intro other spilled spilledFound
    rw [replaced] at spilledFound
    split_ifs at spilledFound
    · rw [Option.some.injEq] at spilledFound
      subst spilledFound
      exact MemoryBuffer.flightIdsBelowCounter_spill fresh
    · exact durable.flightsBelow other spilled spilledFound

/-- Publishing an event whose flight is in its buffer, under an id no other
pending event of the partition holds. -/
theorem Durable.publish (durable : Durable state) {event : SpillEvent}
    (ownNew : ∃ buffer, state.store.getBuffer event.uid = some buffer ∧
      buffer.flight.lookup event.flightId = some event.blocks)
    (freshId : ∀ task other, state.events.lookup task = some other → other.uid = event.uid →
      other.flightId ≠ event.flightId)
    (notFlushed : event.flushed = false) :
    Durable { state with
      events := state.events.insert state.nextTask event
      nextTask := state.nextTask + 1 } := by
  have fresh : state.nextTask ∉ state.events := fun member =>
    Nat.lt_irrefl _ (durable.eventsBelow _ member)
  have lookedUp : ∀ task value, (state.events.insert state.nextTask event).lookup task = some value →
      (task = state.nextTask ∧ value = event) ∨
        (task ≠ state.nextTask ∧ state.events.lookup task = some value) :=
    fun task value found => lookup_insert_eq_some.mp found
  refine ⟨durable.covered, ?_, ?_, ?_, durable.flightsBelow, ?_, durable.holdsLive⟩
  · intro task value found
    rcases lookedUp task value found with ⟨_, rfl⟩ | ⟨_, old⟩
    · exact ownNew
    · exact durable.ownFlight task value old
  · intro task value found flushed
    rcases lookedUp task value found with ⟨_, rfl⟩ | ⟨_, old⟩
    · rw [notFlushed] at flushed
      cases flushed
    · exact durable.flushedPersisted task value old flushed
  · intro task other value otherValue found otherFound different sameUid
    rcases lookedUp task value found with ⟨isNew, rfl⟩ | ⟨_, old⟩ <;>
      rcases lookedUp other otherValue otherFound with ⟨otherIsNew, rfl⟩ | ⟨_, otherOld⟩
    · exact absurd (isNew.trans otherIsNew.symm) different
    · exact (freshId other otherValue otherOld sameUid.symm).symm
    · exact freshId task value old sameUid
    · exact durable.distinctFlights task other value otherValue old otherOld different sameUid
  · intro task member
    rcases (AList.mem_insert _).mp member with same | old
    · rw [same]
      exact Nat.lt_succ_self _
    · exact Nat.lt_succ_of_lt (durable.eventsBelow task old)

theorem Durable.erase_hold (durable : Durable state) (task : Nat) :
    Durable { state with holds := state.holds.erase task } :=
  ⟨durable.covered, durable.ownFlight, durable.flushedPersisted, durable.distinctFlights,
    durable.flightsBelow, durable.eventsBelow,
    fun other held found => durable.holdsLive other held (lookup_of_lookup_erase found)⟩

/-- A spill task takes the buffer that is in the map. -/
theorem durable_getMemoryBuffer (durable : Durable state) (uid : PartitionedUId) :
    Durable (state.getMemoryBuffer uid) := by
  unfold getMemoryBuffer
  split
  · exact durable
  · refine durable.of_frame rfl rfl rfl rfl (Nat.le_succ _) ?_
    intro task held found
    rcases lookup_insert_eq_some.mp found with ⟨_, rfl⟩ | ⟨_, old⟩
    · rfl
    · exact durable.holdsLive task held old

/-- The held buffer is the one in the map, so its spill is a spill of the
partition's buffer, and a published event holds a fresh flight id. -/
theorem durable_bufferSpillImpl (durable : Durable state) {task : Nat} {published : Bool}
    (fired : state.bufferSpillImpl task published = some next) : Durable next := by
  obtain ⟨uid, detachedBy, buffer, held, found, rfl⟩ := bufferSpillImpl_eq_some fired
  obtain rfl : detachedBy = none := durable.holdsLive task _ held
  have relaid := (durable.of_spilled found).erase_hold task
  cases result : buffer.spill.2 with
  | none =>
      exact relaid
  | some spillResult =>
      obtain ⟨flightIdEq, flight, _⟩ :=
        MemoryBuffer.spill_eq_some (durable.flightsBelow uid buffer found) result
      cases published with
      | false =>
          exact relaid.of_frame rfl rfl rfl rfl (Nat.le_succ _) relaid.holdsLive
      | true =>
          refine relaid.publish ⟨buffer.spill.1, ?_, flight⟩ ?_ rfl
          · exact (getBuffer_of_replace rfl uid).trans (if_pos rfl)
          · -- the other events of the partition hold ids below the old counter
            intro other otherEvent otherFound sameUid
            have otherBuffer : state.store.getBuffer otherEvent.uid = some buffer := by
              rw [show otherEvent.uid = uid from sameUid]
              exact found
            have below := durable.flightId_lt otherFound otherBuffer
            exact (flightIdEq ▸ below).ne

theorem durable_flush (durable : Durable state) {task : Nat}
    (fired : state.flush task = some next) : Durable next := by
  obtain ⟨event, found, _, rfl⟩ := flush_eq_some fired
  have lookedUp : ∀ other value,
      (state.events.insert task { event with flushed := true }).lookup other = some value →
        (other = task ∧ value = { event with flushed := true }) ∨
          (other ≠ task ∧ state.events.lookup other = some value) :=
    fun other value otherFound => lookup_insert_eq_some.mp otherFound
  refine ⟨?_, ?_, ?_, ?_, durable.flightsBelow, ?_, durable.holdsLive⟩
  · intro uid block member
    rcases durable.covered uid block member with buffered | persisted
    · exact Or.inl buffered
    · exact Or.inr (List.mem_append_left _ persisted)
  · intro other value otherFound
    rcases lookedUp other value otherFound with ⟨_, rfl⟩ | ⟨_, old⟩
    · exact durable.ownFlight task event found
    · exact durable.ownFlight other value old
  · intro other value otherFound flushed block member
    rcases lookedUp other value otherFound with ⟨_, rfl⟩ | ⟨_, old⟩
    · exact List.mem_append_right _ (List.mem_map_of_mem member)
    · exact List.mem_append_left _ (durable.flushedPersisted other value old flushed block member)
  · intro first second value otherValue firstFound secondFound different sameUid
    have original : ∀ slot value,
        (state.events.insert task { event with flushed := true }).lookup slot = some value →
          ∃ before, state.events.lookup slot = some before ∧ before.uid = value.uid ∧
            before.flightId = value.flightId := by
      intro slot value slotFound
      rcases lookedUp slot value slotFound with ⟨rfl, rfl⟩ | ⟨_, old⟩
      · exact ⟨event, found, rfl, rfl⟩
      · exact ⟨value, old, rfl, rfl⟩
    obtain ⟨before, beforeFound, beforeUid, beforeId⟩ := original first value firstFound
    obtain ⟨otherBefore, otherFound, otherUid, otherId⟩ := original second otherValue secondFound
    rw [← beforeId, ← otherId]
    exact durable.distinctFlights first second before otherBefore beforeFound otherFound different
      (beforeUid.trans (sameUid.trans otherUid.symm))
  · intro other member
    rcases (AList.mem_insert _).mp member with same | old
    · rw [same]
      exact durable.eventsBelow task (AList.lookup_isSome.mp (by simp [found]))
    · exact durable.eventsBelow other old

/-- The release of a flushed event clears its own flight, whose blocks are
persisted, and no other event's flight. -/
theorem durable_finishSpill (durable : Durable state) {task : Nat}
    (fired : state.finishEvent task true true = some next) : Durable next := by
  obtain ⟨event, found, flushed, rfl⟩ := finishEvent_eq_some fired
  obtain ⟨buffer, bufferFound, flight⟩ := durable.ownFlight task event found
  have cleared := releaseMemoryBuffer_state bufferFound
  have replaced := getBuffer_of_replace cleared
  have sameBlocks := bufferedBlocks_of_replace cleared
  refine ⟨?_, ?_, ?_, ?_, ?_, ?_, durable.holdsLive⟩
  · intro uid block member
    rcases durable.covered uid block member with buffered | persisted
    · dsimp only
      rw [if_pos rfl, sameBlocks]
      split_ifs with same
      · rw [same, bufferedBlocks_of_getBuffer bufferFound] at buffered
        rcases MemoryBuffer.mem_scanOrder_clear event.flightId (toUnsigned 64 event.size)
            buffered with kept | ⟨blocks, flightFound, inFlight⟩
        · exact Or.inl kept
        · rw [flight, Option.some.injEq] at flightFound
          subst flightFound
          exact Or.inr (same ▸ durable.flushedPersisted task event found flushed block inFlight)
      · exact Or.inl buffered
    · exact Or.inr persisted
  · intro other value otherFound
    have otherOld := lookup_of_lookup_erase otherFound
    have different : other ≠ task := by
      rintro rfl
      simp at otherFound
    obtain ⟨own, ownFound, ownFlight⟩ := durable.ownFlight other value otherOld
    dsimp only
    rw [if_pos rfl, replaced]
    split_ifs with same
    · rw [same, bufferFound, Option.some.injEq] at ownFound
      subst ownFound
      refine ⟨_, rfl, ?_⟩
      rw [MemoryBuffer.clear_lookup_ne _
        (durable.distinctFlights other task value event otherOld found different same)]
      exact ownFlight
    · exact ⟨own, ownFound, ownFlight⟩
  · intro other value otherFound
    exact durable.flushedPersisted other value (lookup_of_lookup_erase otherFound)
  · intro first second value otherValue firstFound secondFound
    exact durable.distinctFlights first second value otherValue
      (lookup_of_lookup_erase firstFound) (lookup_of_lookup_erase secondFound)
  · intro uid cleared clearedFound
    dsimp only at clearedFound
    rw [if_pos rfl, replaced] at clearedFound
    split_ifs at clearedFound with same
    · rw [Option.some.injEq] at clearedFound
      subst clearedFound
      exact MemoryBuffer.flightIdsBelowCounter_clear
        (durable.flightsBelow event.uid buffer bufferFound) _ _
    · exact durable.flightsBelow uid cleared clearedFound
  · intro other member
    exact durable.eventsBelow other (AList.mem_erase.mp member).2

theorem durable_ignoreSpill (durable : Durable state) {task : Nat}
    (fired : state.finishEvent task false false = some next) : Durable next := by
  obtain ⟨event, _, _, rfl⟩ := finishEvent_eq_some fired
  exact durable.erase_event task

/-- A purge that waits for the pipeline and the spill tasks drops whole
partitions: their buffers, their acknowledged blocks and their persisted
blocks, and detaches no buffer a task holds. -/
theorem durable_purge (durable : Durable state) {appId : String} {shuffleId : Option Int}
    (waits : ∀ task event, state.events.lookup task = some event →
      purgeMatches appId shuffleId event.uid = false)
    (heldWaits : ∀ task held, state.holds.lookup task = some held →
      purgeMatches appId shuffleId held.1 = false) :
    Durable (state.purge appId shuffleId) := by
  have purged : ∀ uid, (state.purge appId shuffleId).store.getBuffer uid =
      if purgeMatches appId shuffleId uid then none else state.store.getBuffer uid :=
    getBuffer_purge appId shuffleId
  refine ⟨?_, ?_, ?_, durable.distinctFlights, ?_, durable.eventsBelow, ?_⟩
  · intro uid block member
    obtain ⟨old, kept⟩ := List.mem_filter.mp member
    simp only [Bool.not_eq_eq_eq_not, Bool.not_true] at kept
    rcases durable.covered uid block old with buffered | persisted
    · left
      unfold bufferedBlocks at buffered ⊢
      rw [purged, kept, if_neg (by simp)]
      exact buffered
    · exact Or.inr (List.mem_filter.mpr ⟨persisted, by simp [kept]⟩)
  · intro task event found
    obtain ⟨buffer, bufferFound, flight⟩ := durable.ownFlight task event found
    refine ⟨buffer, ?_, flight⟩
    rw [purged, waits task event found, if_neg (by simp)]
    exact bufferFound
  · intro task event found flushed block member
    refine List.mem_filter.mpr ⟨durable.flushedPersisted task event found flushed block member, ?_⟩
    simp [waits task event found]
  · intro uid buffer found
    rw [purged] at found
    split_ifs at found
    exact durable.flightsBelow uid buffer found
  · intro task held found
    rw [lookup_holds_purge] at found
    obtain ⟨old, oldFound, rfl⟩ := Option.map_eq_some_iff.mp found
    simp [durable.holdsLive task old oldFound, heldWaits task old oldFound]

theorem durable_requireAllocated (durable : Durable state) (size : Int) :
    Durable (state.requireAllocated size) := by
  by_cases enough : size ≤ state.store.budget.capacity - state.store.budget.allocated -
      state.store.budget.used
  · rw [requireAllocated_of_le enough]
    exact durable.of_frame rfl rfl rfl rfl (le_refl _)
        durable.holdsLive
  · rw [requireAllocated_of_lt (not_le.mp enough)]
    exact durable

theorem durable_releaseTicket (durable : Durable state) (transport : Transport) (appId : String)
    (shuffleId ticketId : Int) (partitions : List (Int × List Block)) :
    Durable (state.releaseTicket transport appId shuffleId ticketId partitions) := by
  rcases releaseTicket_cases transport appId shuffleId ticketId partitions with
    unchanged | ⟨_, _, _, released⟩
  · rw [unchanged]
    exact durable
  · rw [released]
    exact durable.of_frame rfl rfl rfl rfl (Nat.le_succ _)
        durable.holdsLive

/-- Every step of an environment that drops no event and purges only
partitions with no pending event and no held buffer keeps the agreement. -/
theorem durable_step (durable : Durable state) {action : HotStoreAction}
    (allowed : KeepsPipelineDiscipline state action)
    (fired : hotStoreNext state action = some next) : Durable next := by
  obtain ⟨dropsNone, waits, heldWaits⟩ := allowed
  cases action with
  | requireAllocated size =>
      cases fired
      exact durable_requireAllocated durable size
  | insertTicket ticketId =>
      obtain ⟨_, _, rfl⟩ := insertTicket_eq_some fired
      exact durable.of_frame rfl rfl rfl rfl (le_refl _)
        durable.holdsLive
  | releaseTicket transport appId shuffleId ticketId partitions =>
      cases fired
      exact durable_releaseTicket durable transport appId shuffleId ticketId partitions
  | insertPartition task =>
      exact durable_insertPartition durable fired
  | getBufferStagingSize task =>
      obtain ⟨_, _, _, _, _, rfl⟩ := getBufferStagingSize_eq_some fired
      exact durable.of_frame rfl rfl rfl rfl (le_refl _) durable.holdsLive
  | moveAllocated task =>
      obtain ⟨_, _, _, _, rfl⟩ := moveAllocated_eq_some fired
      exact durable.of_frame rfl rfl rfl rfl (le_refl _)
        durable.holdsLive
  | releaseUnused task =>
      obtain ⟨request, _, _, rfl⟩ := releaseUnused_eq_some fired
      exact durable.of_frame (request.releaseRemainder_frame state.store).2.2.2 rfl rfl rfl
        (le_refl _) durable.holdsLive
  | ticketCheck timedOut =>
      cases fired
      exact durable.of_frame (MemoryStore.ticketCheck_state _ _) rfl rfl rfl (le_refl _)
        durable.holdsLive
  | getMemoryBuffer uid =>
      cases fired
      exact durable_getMemoryBuffer durable uid
  | bufferSpillImpl task published =>
      exact durable_bufferSpillImpl durable fired
  | flush task =>
      exact durable_flush durable fired
  | finishSpill task =>
      exact durable_finishSpill durable fired
  | dropSpill task =>
      exact dropsNone.elim
  | ignoreSpill task =>
      exact durable_ignoreSpill durable fired
  | purge appId shuffleId =>
      cases fired
      exact durable_purge durable waits heldWaits

theorem durable_of_reachable {store : MemoryStore} (noBuffers : store.state = ∅)
    (reached : Relation.ReflTransGen (Steps hotStoreNext KeepsPipelineDiscipline) (start store)
      state) :
    Durable state := by
  refine invariant_of_steps ?_ reached (durable_start store noBuffers)
  intro source target action allowed durable fired
  exact durable_step durable allowed fired

end Durable

end HotStoreState

end Riffle.Store
