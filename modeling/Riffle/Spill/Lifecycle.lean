import Riffle.Spill.Pipeline

/-!
# Every spill event is counted in once and out once

`Tracked` says what the three counters of `HybridStore` hold in every
reachable state of the pipeline, under every interleaving and every result
of selection, flush and publish.  Each is the `u64` wrap of a sum over the
published events: an event counts once its publisher has run
`start_spill_event`, and counts back out once it is finished.  An event is
finished at most once, after at most four runs of
`flush_storage_for_buffer`.  The counters therefore give the pending events
exactly at points where every publisher has counted its event in; between a
publish and its `start_spill_event`, a handler that finishes the event first
makes them wrap (`spill_counters_wrap_or_stall`).

When every publish succeeds and selection picks a storage with a child bus
(`DeliversEvents`), no event is left on the way.  Each handler step lowers
the event's `rank`, which is at most 8, and no other step raises it.  So
however the steps of other events interleave, an event finishes after at
most eight handler steps, at most four of them flushes.
-/

namespace Riffle.Spill

open Riffle.FixedWidth Riffle.KeyedTotal Riffle.Transition Riffle.Store

namespace PipelineEvent

/-- What the event adds to `memory_spill_event_num`: one once its publisher
has counted it in, minus one for each finish. -/
def liveCount (event : PipelineEvent) : Int :=
  (if event.started then 1 else 0) - event.finishCalls

def liveBytes (event : PipelineEvent) : Int :=
  event.liveCount * toUnsigned 64 event.message.size

def hugeBytes (event : PipelineEvent) : Int :=
  if event.message.hugePartitionTag = some true then
    (1 - event.finishCalls) * toUnsigned 64 event.message.size
  else 0

/-- One while the event is published and not finished. -/
def pendingCount (event : PipelineEvent) : Int :=
  if event.place = .finished then 0 else 1

def pendingBytes (event : PipelineEvent) : Int :=
  event.pendingCount * toUnsigned 64 event.message.size

def pendingHugeBytes (event : PipelineEvent) : Int :=
  if event.message.hugePartitionTag = some true then event.pendingBytes else 0

/-- The handler steps the event can still take: two per flush it has left,
one fewer once it waits on a child bus. -/
def rank (event : PipelineEvent) : Nat :=
  match event.place with
  | .parent => 2 * (3 - event.message.retryCnt) + 2
  | .child _ => 2 * (3 - event.message.retryCnt) + 1
  | _ => 0

/-- The huge-partition weight reads only the tag, the size and the finishes. -/
theorem hugeBytes_eq_of_same {event other : PipelineEvent}
    (sameTag : event.message.hugePartitionTag = other.message.hugePartitionTag)
    (sameSize : event.message.size = other.message.size)
    (sameFinishes : event.finishCalls = other.finishCalls) :
    event.hugeBytes = other.hugeBytes := by
  simp only [hugeBytes, sameTag, sameSize, sameFinishes]

end PipelineEvent

/-- Whether the action is a handler's step on `event`. -/
def SpillAction.handles (event : Nat) : SpillAction → Bool
  | .select other _ _ => other == event
  | .flush other _ _ _ => other == event
  | _ => false

/-- Every publish to a bus succeeds and every selection picks a storage with
a child bus. -/
def DeliversEvents : SpillAction → Prop
  | .select _ (.selected _ storage) childPublished =>
      hasChildBus storage = true ∧ childPublished = true
  | .flush _ _ _ republished => republished = true
  | _ => True

instance (action : SpillAction) : Decidable (DeliversEvents action) := by
  cases action with
  | select event outcome childPublished =>
      cases outcome <;> dsimp only [DeliversEvents] <;> infer_instance
  | _ =>
      dsimp only [DeliversEvents]
      infer_instance

/-- A wrapping counter keeps tracking a sum when it moves by what the sum
moves. -/
theorem wrapped_tracks {counter : Nat} {value next updated : Int}
    (tracks : counter = toUnsigned 64 value) (moved : next - value = updated - counter) :
    toUnsigned 64 updated = toUnsigned 64 next := by
  have shifted : updated = (counter : Int) + (next - value) := by
    omega
  rw [shifted, tracks, toUnsigned_toUnsigned_add]
  congr 1
  omega

/-- A flush error that sends the event back to the parent bus comes from a
message retried fewer than three times. -/
theorem retryCnt_lt_of_retried {message : SpillMessage} {appValid : Bool}
    {insertResult : Except WorkerError Unit} {error : WorkerError}
    (failed : flushStorageForBuffer message appValid insertResult = .error error)
    (retried : endsSpill error = false) : message.retryCnt < 3 := by
  unfold flushStorageForBuffer at failed
  cases appValid with
  | false =>
      simp only [Bool.not_false, if_true, Except.error.injEq] at failed
      subst failed
      cases retried
  | true =>
      simp only [Bool.not_true, Bool.false_eq_true, if_false] at failed
      by_contra many
      rw [if_pos (not_lt.mp many), Except.error.injEq] at failed
      subst failed
      cases retried

namespace SpillPipeline

open PipelineEvent

structure Tracked (state : SpillPipeline) : Prop where
  eventNum : state.counters.memorySpillEventNum =
    toUnsigned 64 (total (fun _ event => event.liveCount) state.events)
  inFlight : state.counters.inFlightBytes =
    toUnsigned 64 (total (fun _ event => event.liveBytes) state.events)
  huge : state.counters.inFlightBytesOfHugePartition =
    toUnsigned 64 (total (fun _ event => event.hugeBytes) state.events)
  finishedOnce : ∀ index event, state.events.lookup index = some event →
    event.finishCalls = if event.place = .finished then 1 else 0
  retries : ∀ index event, state.events.lookup index = some event →
    event.place ≠ .finished → event.message.retryCnt = event.flushAttempts ∧ event.flushAttempts ≤ 3
  attempts : ∀ index event, state.events.lookup index = some event → event.flushAttempts ≤ 4
  eventsBelow : ∀ index ∈ state.events, index < state.nextEvent

section Tracked

variable {state next : SpillPipeline}

theorem tracked_start : Tracked start := by
  refine ⟨rfl, rfl, rfl, ?_, ?_, ?_, ?_⟩ <;> simp [start, AList.lookup, AList.mem_keys]

/-- The lookups after one event's entry is replaced. -/
theorem lookup_replaced {index other : Nat} {value event : PipelineEvent}
    (found : (state.events.insert index value).lookup other = some event) :
    (other = index ∧ event = value) ∨ state.events.lookup other = some event := by
  rcases lookup_insert_eq_some.mp found with ⟨same, rfl⟩ | ⟨_, old⟩
  · exact Or.inl ⟨same, rfl⟩
  · exact Or.inr old

/-- Replacing one event by another whose place, retries and finishes keep
the per-event facts keeps them for the whole map. -/
theorem Tracked.replace_facts (tracked : Tracked state) {index : Nat}
    {old : PipelineEvent} (value : PipelineEvent) (found : state.events.lookup index = some old)
    (finishedOnce : value.finishCalls = if value.place = .finished then 1 else 0)
    (retries : value.place ≠ .finished →
      value.message.retryCnt = value.flushAttempts ∧ value.flushAttempts ≤ 3)
    (attempts : value.flushAttempts ≤ 4) :
    (∀ other event, (state.events.insert index value).lookup other = some event →
      event.finishCalls = if event.place = .finished then 1 else 0) ∧
    (∀ other event, (state.events.insert index value).lookup other = some event →
      event.place ≠ .finished →
        event.message.retryCnt = event.flushAttempts ∧ event.flushAttempts ≤ 3) ∧
    (∀ other event, (state.events.insert index value).lookup other = some event →
      event.flushAttempts ≤ 4) ∧
    (∀ other ∈ state.events.insert index value, other < state.nextEvent) := by
  refine ⟨?_, ?_, ?_, ?_⟩
  · intro other event lookedUp
    rcases lookup_replaced lookedUp with ⟨_, rfl⟩ | old
    · exact finishedOnce
    · exact tracked.finishedOnce other event old
  · intro other event lookedUp
    rcases lookup_replaced lookedUp with ⟨_, rfl⟩ | old
    · exact retries
    · exact tracked.retries other event old
  · intro other event lookedUp
    rcases lookup_replaced lookedUp with ⟨_, rfl⟩ | old
    · exact attempts
    · exact tracked.attempts other event old
  · intro other member
    rcases (AList.mem_insert _).mp member with same | stored
    · rw [same]
      exact tracked.eventsBelow index (AList.lookup_isSome.mp (by simp [found]))
    · exact tracked.eventsBelow other stored

theorem tracked_publish (tracked : Tracked state) (uid : PartitionedUId) (size : Int)
    (published : Bool) : Tracked (state.publish uid size published) := by
  unfold publish
  cases published with
  | false =>
      exact tracked
  | true =>
      rw [if_pos rfl]
      have fresh : state.nextEvent ∉ state.events := fun member =>
        Nat.lt_irrefl _ (tracked.eventsBelow _ member)
      -- a message no publisher has counted in weighs nothing
      refine ⟨?_, ?_, ?_, ?_, ?_, ?_, ?_⟩
      · rw [total_insert_of_notMem _ _ fresh]
        simpa [liveCount] using tracked.eventNum
      · rw [total_insert_of_notMem _ _ fresh]
        simpa [liveBytes, liveCount] using tracked.inFlight
      · rw [total_insert_of_notMem _ _ fresh]
        simpa [hugeBytes] using tracked.huge
      · intro index event lookedUp
        rcases lookup_insert_eq_some.mp lookedUp with ⟨_, rfl⟩ | ⟨_, old⟩
        · rfl
        · exact tracked.finishedOnce index event old
      · intro index event lookedUp
        rcases lookup_insert_eq_some.mp lookedUp with ⟨_, rfl⟩ | ⟨_, old⟩
        · intro _
          exact ⟨rfl, Nat.zero_le _⟩
        · exact tracked.retries index event old
      · intro index event lookedUp
        rcases lookup_insert_eq_some.mp lookedUp with ⟨_, rfl⟩ | ⟨_, old⟩
        · exact Nat.zero_le _
        · exact tracked.attempts index event old
      · intro index member
        rcases (AList.mem_insert _).mp member with same | old
        · rw [same]
          exact Nat.lt_succ_self _
        · exact Nat.lt_succ_of_lt (tracked.eventsBelow index old)

theorem tracked_startEvent (tracked : Tracked state) {index : Nat}
    (fired : state.startEvent index = some next) : Tracked next := by
  obtain ⟨pending, found, started, rfl⟩ := startEvent_eq_some fired
  have countUp : ({ pending with started := true } : PipelineEvent).liveCount =
      pending.liveCount + 1 := by
    simp [liveCount, started]
    omega
  have bytesUp : ({ pending with started := true } : PipelineEvent).liveBytes =
      pending.liveBytes + toUnsigned 64 pending.message.size := by
    simp only [liveBytes, countUp]
    ring
  obtain ⟨finishedOnce, retries, attempts, eventsBelow⟩ :=
    tracked.replace_facts { pending with started := true } found
      (tracked.finishedOnce index pending found) (tracked.retries index pending found)
      (tracked.attempts index pending found)
  refine ⟨?_, ?_, ?_, finishedOnce, retries, attempts, eventsBelow⟩
  · dsimp only [SpillCounters.startSpillEvent]
    apply wrapped_tracks tracked.eventNum
    rw [total_insert_of_lookup _ _ found, countUp]
    omega
  · dsimp only [SpillCounters.startSpillEvent]
    apply wrapped_tracks tracked.inFlight
    rw [total_insert_of_lookup _ _ found, bytesUp]
    omega
  · have sameHuge : ({ pending with started := true } : PipelineEvent).hugeBytes =
        pending.hugeBytes := rfl
    rw [total_insert_of_lookup _ _ found, sameHuge, sub_add_cancel]
    exact tracked.huge

/-- `finish_spill_event` of an unfinished event, with a message of the same
size and tag, counts it out of all three counters. -/
theorem Tracked.finish (tracked : Tracked state) {index : Nat} {old pending : PipelineEvent}
    {message : SpillMessage} (found : state.events.lookup index = some old)
    (unfinished : old.place ≠ .finished) (sameStart : pending.started = old.started)
    (sameFinishes : pending.finishCalls = old.finishCalls) (attemptsBound : pending.flushAttempts ≤ 4)
    (sameSize : message.size = old.message.size)
    (sameTag : message.hugePartitionTag = old.message.hugePartitionTag) :
    Tracked (state.finishEvent index pending message) := by
  have notFinishedBefore : old.finishCalls = 0 := by
    simpa [unfinished] using tracked.finishedOnce index old found
  set finished : PipelineEvent :=
    { pending with message, place := .finished, finishCalls := pending.finishCalls + 1 }
    with finishedEq
  have countDown : finished.liveCount = old.liveCount - 1 := by
    simp only [finishedEq, liveCount, sameStart, sameFinishes]
    push_cast
    ring
  have bytesDown : finished.liveBytes = old.liveBytes - toUnsigned 64 message.size := by
    unfold liveBytes
    rw [countDown, show finished.message.size = old.message.size from sameSize]
    ring
  have hugeDown : finished.hugeBytes = old.hugeBytes -
      if message.hugePartitionTag = some true then (toUnsigned 64 message.size : Int) else 0 := by
    simp only [hugeBytes, finishedEq, sameTag, sameFinishes, notFinishedBefore, sameSize]
    split_ifs with tagged
    · push_cast
      ring
    · rfl
  obtain ⟨finishedOnce, retries, attempts, eventsBelow⟩ := tracked.replace_facts
    finished found (by simp [finishedEq, sameFinishes, notFinishedBefore])
    (fun notFinished => absurd rfl notFinished) attemptsBound
  refine ⟨?_, ?_, ?_, finishedOnce, retries, attempts, eventsBelow⟩
  · dsimp only [finishEvent]
    rw [SpillCounters.finishSpillEvent_memorySpillEventNum]
    apply wrapped_tracks tracked.eventNum
    rw [total_insert_of_lookup _ _ found, countDown]
    omega
  · dsimp only [finishEvent]
    rw [SpillCounters.finishSpillEvent_inFlightBytes]
    apply wrapped_tracks tracked.inFlight
    rw [total_insert_of_lookup _ _ found, bytesDown]
    omega
  · dsimp only [finishEvent]
    rw [SpillCounters.finishSpillEvent_inFlightBytesOfHugePartition]
    split_ifs with tagged
    · apply wrapped_tracks tracked.huge
      rw [total_insert_of_lookup _ _ found, hugeDown, if_pos tagged]
      omega
    · rw [total_insert_of_lookup _ _ found, hugeDown, if_neg tagged, sub_zero, sub_add_cancel]
      exact tracked.huge

/-- The huge-partition counter is a `u64` value, so adding nothing to it and
wrapping gives it back. -/
theorem Tracked.huge_self (tracked : Tracked state) :
    state.counters.inFlightBytesOfHugePartition =
      toUnsigned 64 ((state.counters.inFlightBytesOfHugePartition : Int) + 0) := by
  have bounded : state.counters.inFlightBytesOfHugePartition < 2 ^ 64 := by
    rw [tracked.huge]
    apply toUnsigned_lt
  rw [add_zero, toUnsigned_natCast bounded]

/-- Moving an unfinished event on without finishing it keeps `Tracked`, when
its retries keep pace with its flushes and the huge-partition counter moves
by what the event's huge weight moves. -/
theorem Tracked.move (tracked : Tracked state) {index : Nat} {old value : PipelineEvent}
    {counters : SpillCounters} (found : state.events.lookup index = some old)
    (unfinished : old.place ≠ .finished) (stillUnfinished : value.place ≠ .finished)
    (sameStart : value.started = old.started) (sameFinishes : value.finishCalls = old.finishCalls)
    (sameSize : value.message.size = old.message.size)
    (retries : value.message.retryCnt = value.flushAttempts ∧ value.flushAttempts ≤ 3)
    (sameNum : counters.memorySpillEventNum = state.counters.memorySpillEventNum)
    (sameBytes : counters.inFlightBytes = state.counters.inFlightBytes)
    (hugeMoved : counters.inFlightBytesOfHugePartition = toUnsigned 64
      ((state.counters.inFlightBytesOfHugePartition : Int) + (value.hugeBytes - old.hugeBytes))) :
    Tracked { state with counters, events := state.events.insert index value } := by
  have sameCount : value.liveCount = old.liveCount := by
    simp only [liveCount, sameStart, sameFinishes]
  have sameLiveBytes : value.liveBytes = old.liveBytes := by
    simp only [liveBytes, sameCount, sameSize]
  have finishedOnce : value.finishCalls = if value.place = .finished then 1 else 0 := by
    rw [if_neg stillUnfinished, sameFinishes]
    simpa [unfinished] using tracked.finishedOnce index old found
  obtain ⟨finishedOnce, retries, attempts, eventsBelow⟩ := tracked.replace_facts value found
    finishedOnce (fun _ => retries) (by omega)
  refine ⟨?_, ?_, ?_, finishedOnce, retries, attempts, eventsBelow⟩
  · dsimp only
    rw [sameNum, tracked.eventNum, total_insert_of_lookup _ _ found, sameCount, sub_add_cancel]
  · dsimp only
    rw [sameBytes, tracked.inFlight, total_insert_of_lookup _ _ found, sameLiveBytes,
      sub_add_cancel]
  · dsimp only
    rw [hugeMoved]
    apply wrapped_tracks tracked.huge
    rw [total_insert_of_lookup _ _ found]
    omega

theorem tracked_select (tracked : Tracked state) {index : Nat} {outcome : SelectOutcome}
    {childPublished : Bool} (fired : state.select index outcome childPublished = some next) :
    Tracked next := by
  obtain ⟨pending, found, parent, failed | selected⟩ := select_eq_some fired
  · obtain ⟨error, -, rfl⟩ := failed
    exact tracked.finish found (by rw [parent]; decide) rfl rfl
      (tracked.attempts index pending found) rfl rfl
  obtain ⟨huge, storage, message, place, -, sameSize, sameRetries, sameTag, routed, rfl⟩ := selected
  have unfinished : pending.place ≠ .finished := by
    simp [parent]
  have stillUnfinished : place ≠ .finished := by
    rcases routed with ⟨-, -, rfl⟩ | ⟨-, rfl⟩ <;> simp
  obtain ⟨retried, attemptsBound⟩ := tracked.retries index pending found unfinished
  refine tracked.move found unfinished stillUnfinished rfl rfl sameSize
    ⟨sameRetries.trans retried, attemptsBound⟩ ?_ ?_ ?_
  · apply SpillCounters.tagHugePartition_memorySpillEventNum
  · apply SpillCounters.tagHugePartition_inFlightBytes
  rcases SpillCounters.tagHugePartition_cases state.counters pending.message huge with
    ⟨untagged, -, tagged⟩ | kept
  · -- the first selection that finds the partition huge counts it in
    have notFinishedBefore : pending.finishCalls = 0 := by
      simpa [unfinished] using tracked.finishedOnce index pending found
    rw [tagged] at sameTag ⊢
    have oldHuge : pending.hugeBytes = 0 := by
      simp [hugeBytes, untagged]
    have newHuge : ({ pending with message, place } : PipelineEvent).hugeBytes =
        toUnsigned 64 pending.message.size := by
      simp [hugeBytes, sameTag, sameSize, notFinishedBefore]
    rw [oldHuge, newHuge, sub_zero]
  · rw [kept] at sameTag ⊢
    have sameHuge : ({ pending with message, place } : PipelineEvent).hugeBytes =
        pending.hugeBytes :=
      hugeBytes_eq_of_same sameTag sameSize rfl
    rw [sameHuge, sub_self]
    exact tracked.huge_self

theorem tracked_flush (tracked : Tracked state) {index : Nat} {appValid : Bool}
    {insertResult : Except WorkerError Unit} {republished : Bool}
    (fired : state.flush index appValid insertResult republished = some next) : Tracked next := by
  obtain ⟨pending, storage, found, onChild, flushed⟩ := flush_eq_some fired
  have unfinished : pending.place ≠ .finished := by
    simp [onChild]
  obtain ⟨retried, attemptsBound⟩ := tracked.retries index pending found unfinished
  have attempts : pending.flushAttempts + 1 ≤ 4 := by
    omega
  rcases flushed with ⟨-, rfl⟩ | ⟨error, failed, ⟨-, rfl⟩ | ⟨retryable, rfl⟩⟩
  · exact tracked.finish found unfinished rfl rfl attempts rfl rfl
  · exact tracked.finish found unfinished rfl rfl attempts rfl rfl
  -- a retryable error sends the event back with one more retry and one more attempt
  have fewRetries := retryCnt_lt_of_retried failed retryable
  refine tracked.move found unfinished ?_ rfl rfl rfl ⟨?_, ?_⟩ rfl rfl ?_
  · cases republished <;> simp
  · simp [retried]
  · simp only
    omega
  · simp only [hugeBytes, sub_self]
    exact tracked.huge_self

theorem tracked_step (tracked : Tracked state) {action : SpillAction}
    (stepped : spillNext state action = some next) : Tracked next := by
  cases action with
  | publish uid size published =>
      rw [spillNext, Option.some.injEq] at stepped
      subst stepped
      exact tracked_publish tracked uid size published
  | start index =>
      exact tracked_startEvent tracked stepped
  | select index outcome childPublished =>
      exact tracked_select tracked stepped
  | flush index appValid insertResult republished =>
      exact tracked_flush tracked stepped

/-- Every state the pipeline reaches, under any environment, is tracked. -/
theorem tracked_of_reachable {allowed : SpillPipeline → SpillAction → Prop}
    (reached : Relation.ReflTransGen (Steps spillNext allowed) start state) : Tracked state := by
  apply invariant_of_steps _ reached tracked_start
  intro source target action _ tracked stepped
  exact tracked_step tracked stepped

/-- Where every published event has been counted in, the two counters are
the wraps of the number and the bytes of the unfinished events. -/
theorem Tracked.counters_of_allStarted (tracked : Tracked state)
    (allStarted : ∀ index event, state.events.lookup index = some event → event.started = true) :
    state.counters.memorySpillEventNum =
        toUnsigned 64 (total (fun _ event => event.pendingCount) state.events) ∧
      state.counters.inFlightBytes =
        toUnsigned 64 (total (fun _ event => event.pendingBytes) state.events) := by
  have sameCount : ∀ index event, state.events.lookup index = some event →
      event.liveCount = event.pendingCount := by
    intro index event found
    rw [liveCount, pendingCount, allStarted index event found,
      tracked.finishedOnce index event found]
    by_cases finished : event.place = .finished <;> simp [finished]
  have sameBytes : ∀ index event, state.events.lookup index = some event →
      event.liveBytes = event.pendingBytes := by
    intro index event found
    rw [liveBytes, pendingBytes, sameCount index event found]
  exact ⟨by rw [tracked.eventNum, total_congr _ sameCount],
    by rw [tracked.inFlight, total_congr _ sameBytes]⟩

/-- The huge-partition counter is at every point the wrap of the bytes of
the unfinished events tagged huge: the tag is set only after the publish, so
no finish can come before the count. -/
theorem Tracked.huge_eq_pending (tracked : Tracked state) :
    state.counters.inFlightBytesOfHugePartition =
      toUnsigned 64 (total (fun _ event => event.pendingHugeBytes) state.events) := by
  have sameHuge : ∀ index event, state.events.lookup index = some event →
      event.hugeBytes = event.pendingHugeBytes := by
    intro index event found
    rw [hugeBytes, pendingHugeBytes, pendingBytes, pendingCount,
      tracked.finishedOnce index event found]
    by_cases finished : event.place = .finished <;> simp [finished]
  rw [tracked.huge, total_congr _ sameHuge]

end Tracked

end SpillPipeline

end Riffle.Spill
