import Riffle.Store.Block
import Riffle.Lib.KeyedTotal
import Riffle.Lib.Transition

/-!
# The spill-event pipeline

`HybridStore::publish_spill_event` puts a `SpillMessage` on the parent bus of
the `HierarchyEventBus` and only then counts it in with `start_spill_event`.
The parent's `StorageSelectHandler` picks a storage and passes the event on to
that storage's child bus.  The child's `StorageFlushHandler` writes the
event.  A failed write that may be retried goes back to the parent bus.
Every other end calls `finish_spill_event`, which counts the event out
(`src/store/hybrid.rs`, `src/store/spill/`).

Each published message is a token whose place the handlers move.  The
publishing task, the handlers, and the results of selection, flush and
publish are the environment's choices, so `spillNext` runs every
interleaving.  Each token also keeps two ghost counters: how often
`flush_storage_for_buffer` ran for it and how often it was finished.  The
three counters of `HybridStore` are `AtomicU64`s, whose `fetch_add` and
`fetch_sub` wrap.
-/

namespace Riffle.Spill

open Riffle.FixedWidth Riffle.KeyedTotal Riffle.Transition Riffle.Store

/-- `crate::config::StorageType`. -/
inductive StorageType where
  | memory
  | localfile
  | memoryLocalfile
  | hdfs
  | memoryHdfs
  | memoryLocalfileHdfs
  deriving DecidableEq, Repr

/-- The storages `HierarchyEventBus::new` gives a child bus. -/
def hasChildBus : StorageType → Bool
  | .localfile => true
  | .hdfs => true
  | _ => false

/-- The fields of `SpillMessage` the lifecycle reads and writes. -/
structure SpillMessage where
  uid : PartitionedUId
  size : Int
  retryCnt : Nat
  candidateStoreType : Option StorageType
  hugePartitionTag : Option Bool
  deriving DecidableEq, Repr

/-- Where a published message is: queued on the parent bus or on a child
bus, finished, or dropped by a handler without being finished. -/
inductive EventPlace where
  | parent
  | child (storage : StorageType)
  | finished
  | lost
  deriving DecidableEq, Repr

structure PipelineEvent where
  message : SpillMessage
  place : EventPlace
  started : Bool
  flushAttempts : Nat
  finishCalls : Nat
  deriving DecidableEq, Repr

/-- `memory_spill_event_num`, `in_flight_bytes` and
`in_flight_bytes_of_huge_partition`. -/
structure SpillCounters where
  memorySpillEventNum : Nat
  inFlightBytes : Nat
  inFlightBytesOfHugePartition : Nat
  deriving DecidableEq, Repr

structure SpillPipeline where
  counters : SpillCounters
  events : AList fun _ : Nat => PipelineEvent
  nextEvent : Nat
  deriving DecidableEq

/-- What `select_storage_for_buffer` returns, as the environment chooses it:
an error, or a storage together with whether the app counts the partition
as huge. -/
inductive SelectOutcome where
  | failed (error : WorkerError)
  | selected (huge : Bool) (storage : StorageType)
  deriving DecidableEq, Repr

inductive SpillAction where
  | publish (uid : PartitionedUId) (size : Int) (published : Bool)
  | start (event : Nat)
  | select (event : Nat) (outcome : SelectOutcome) (childPublished : Bool)
  | flush (event : Nat) (appValid : Bool) (insertResult : Except WorkerError Unit)
      (republished : Bool)
  deriving DecidableEq, Repr

namespace SpillCounters

def startSpillEvent (counters : SpillCounters) (bytesSize : Nat) : SpillCounters :=
  { counters with
    memorySpillEventNum := toUnsigned 64 ((counters.memorySpillEventNum : Int) + 1)
    inFlightBytes := toUnsigned 64 ((counters.inFlightBytes : Int) + bytesSize) }

def finishSpillEvent (counters : SpillCounters) (message : SpillMessage) : SpillCounters :=
  let bytesSize := toUnsigned 64 message.size
  let counted := { counters with
    memorySpillEventNum := toUnsigned 64 ((counters.memorySpillEventNum : Int) - 1)
    inFlightBytes := toUnsigned 64 ((counters.inFlightBytes : Int) - bytesSize) }
  if message.hugePartitionTag = some true then
    { counted with
      inFlightBytesOfHugePartition :=
        toUnsigned 64 ((counted.inFlightBytesOfHugePartition : Int) - bytesSize) }
  else counted

/-- The huge-partition step of `select_storage_for_buffer`: the first
selection that finds the partition huge tags the message and counts it. -/
def tagHugePartition (counters : SpillCounters) (message : SpillMessage) (huge : Bool) :
    SpillCounters × SpillMessage :=
  if message.hugePartitionTag = none ∧ huge = true then
    ({ counters with
        inFlightBytesOfHugePartition := toUnsigned 64
          ((counters.inFlightBytesOfHugePartition : Int) + toUnsigned 64 message.size) },
      { message with hugePartitionTag := some true })
  else (counters, message)

variable (counters : SpillCounters) (message : SpillMessage) (huge : Bool)

@[simp]
theorem finishSpillEvent_memorySpillEventNum :
    (counters.finishSpillEvent message).memorySpillEventNum =
      toUnsigned 64 ((counters.memorySpillEventNum : Int) - 1) := by
  unfold finishSpillEvent
  split <;> rfl

@[simp]
theorem finishSpillEvent_inFlightBytes :
    (counters.finishSpillEvent message).inFlightBytes =
      toUnsigned 64 ((counters.inFlightBytes : Int) - toUnsigned 64 message.size) := by
  unfold finishSpillEvent
  split <;> rfl

theorem finishSpillEvent_inFlightBytesOfHugePartition :
    (counters.finishSpillEvent message).inFlightBytesOfHugePartition =
      if message.hugePartitionTag = some true then
        toUnsigned 64 ((counters.inFlightBytesOfHugePartition : Int) - toUnsigned 64 message.size)
      else counters.inFlightBytesOfHugePartition := by
  unfold finishSpillEvent
  split <;> rfl

/-- Either the selection tags the message and counts it as huge, or it
changes nothing. -/
theorem tagHugePartition_cases :
    (message.hugePartitionTag = none ∧ huge = true ∧
      counters.tagHugePartition message huge =
        ({ counters with
            inFlightBytesOfHugePartition := toUnsigned 64
              ((counters.inFlightBytesOfHugePartition : Int) + toUnsigned 64 message.size) },
          { message with hugePartitionTag := some true })) ∨
    counters.tagHugePartition message huge = (counters, message) := by
  by_cases tagging : message.hugePartitionTag = none ∧ huge = true
  · exact Or.inl ⟨tagging.1, tagging.2, if_pos tagging⟩
  · exact Or.inr (if_neg tagging)

@[simp]
theorem tagHugePartition_memorySpillEventNum :
    (counters.tagHugePartition message huge).1.memorySpillEventNum =
      counters.memorySpillEventNum := by
  rcases tagHugePartition_cases counters message huge with ⟨-, -, tagged⟩ | kept
  · rw [tagged]
  · rw [kept]

@[simp]
theorem tagHugePartition_inFlightBytes :
    (counters.tagHugePartition message huge).1.inFlightBytes = counters.inFlightBytes := by
  rcases tagHugePartition_cases counters message huge with ⟨-, -, tagged⟩ | kept
  · rw [tagged]
  · rw [kept]

@[simp]
theorem tagHugePartition_size : (counters.tagHugePartition message huge).2.size = message.size := by
  rcases tagHugePartition_cases counters message huge with ⟨-, -, tagged⟩ | kept
  · rw [tagged]
  · rw [kept]

@[simp]
theorem tagHugePartition_retryCnt :
    (counters.tagHugePartition message huge).2.retryCnt = message.retryCnt := by
  rcases tagHugePartition_cases counters message huge with ⟨-, -, tagged⟩ | kept
  · rw [tagged]
  · rw [kept]

end SpillCounters

/-- `flush_storage_for_buffer`, with the result of `spill_insert` chosen by
the environment. -/
def flushStorageForBuffer (message : SpillMessage) (appValid : Bool)
    (insertResult : Except WorkerError Unit) : Except WorkerError Unit :=
  if !appValid then .error .appIsNotFound
  else if 3 ≤ message.retryCnt then .error (.spillEventExceedRetryMaxLimit message.uid.appId)
  else
    match message.candidateStoreType with
    | none => .error .noCandidateStore
    | some _ => insertResult

/-- The errors on which `handle_spill_failure` ends the event instead of
sending it back to the parent bus. -/
def endsSpill : WorkerError → Bool
  | .spillEventExceedRetryMaxLimit _ => true
  | .partialDataLost _ => true
  | .appHasBeenPurged => true
  | .appIsNotFound => true
  | .futureExecTimeout => true
  | .dirOrFileNotFound => true
  | _ => false

namespace SpillPipeline

def start : SpillPipeline :=
  ⟨⟨0, 0, 0⟩, ∅, 0⟩

/-- The publish of `publish_spill_event`.  A failed publish returns before
anything is counted, and no handler sees the message. -/
def publish (state : SpillPipeline) (uid : PartitionedUId) (size : Int) (published : Bool) :
    SpillPipeline :=
  if published then
    { state with
      events := state.events.insert state.nextEvent
        ⟨⟨uid, size, 0, none, none⟩, .parent, false, 0, 0⟩
      nextEvent := state.nextEvent + 1 }
  else state

/-- The rest of `publish_spill_event`: `start_spill_event(size as u64)`. -/
def startEvent (state : SpillPipeline) (event : Nat) : Option SpillPipeline :=
  (state.events.lookup event).bind fun pending =>
    if pending.started then none
    else
      some { state with
        counters := state.counters.startSpillEvent (toUnsigned 64 pending.message.size)
        events := state.events.insert event { pending with started := true } }

/-- `finish_spill_event` of `message`, which every end of the lifecycle
calls. -/
def finishEvent (state : SpillPipeline) (event : Nat) (pending : PipelineEvent)
    (message : SpillMessage) : SpillPipeline :=
  { state with
    counters := state.counters.finishSpillEvent message
    events := state.events.insert event
      { pending with message, place := .finished, finishCalls := pending.finishCalls + 1 } }

/-- `StorageSelectHandler::on_event`.  A failed selection ends the event
through `handle_spill_failure_whatever_error`; a selected storage without a
child bus, or a failed publish to the child bus, leaves it unfinished. -/
def select (state : SpillPipeline) (event : Nat) (outcome : SelectOutcome)
    (childPublished : Bool) : Option SpillPipeline :=
  (state.events.lookup event).bind fun pending =>
    if pending.place ≠ .parent then none
    else
      match outcome with
      | .failed _ => some (state.finishEvent event pending pending.message)
      | .selected huge storage =>
          let tagged := state.counters.tagHugePartition pending.message huge
          let message :=
            if hasChildBus storage then { tagged.2 with candidateStoreType := some storage }
            else tagged.2
          let place := if hasChildBus storage ∧ childPublished then .child storage else .lost
          some { state with
            counters := tagged.1
            events := state.events.insert event { pending with message, place } }

/-- `StorageFlushHandler::on_event`.  A failed flush bumps the retry
counter; an error `handle_spill_failure` ends on finishes the event, any
other goes back to the parent bus, and is lost when that publish fails. -/
def flush (state : SpillPipeline) (event : Nat) (appValid : Bool)
    (insertResult : Except WorkerError Unit) (republished : Bool) : Option SpillPipeline :=
  (state.events.lookup event).bind fun pending =>
    match pending.place with
    | .child _ =>
        let attempted := { pending with flushAttempts := pending.flushAttempts + 1 }
        match flushStorageForBuffer pending.message appValid insertResult with
        | .ok () => some (state.finishEvent event attempted pending.message)
        | .error error =>
            let message := { pending.message with retryCnt := pending.message.retryCnt + 1 }
            if endsSpill error then some (state.finishEvent event attempted message)
            else
              some { state with
                events := state.events.insert event
                  { attempted with message, place := if republished then .parent else .lost } }
    | _ => none

variable {state next : SpillPipeline} {index : Nat}

@[simp]
theorem finishEvent_events (pending : PipelineEvent) (message : SpillMessage) :
    (state.finishEvent index pending message).events = state.events.insert index
      { pending with message, place := .finished, finishCalls := pending.finishCalls + 1 } :=
  rfl

@[simp]
theorem finishEvent_nextEvent (pending : PipelineEvent) (message : SpillMessage) :
    (state.finishEvent index pending message).nextEvent = state.nextEvent :=
  rfl

/-- A start counts in a published event that no start has counted yet. -/
theorem startEvent_eq_some (fired : state.startEvent index = some next) :
    ∃ pending, state.events.lookup index = some pending ∧ pending.started = false ∧
      next = { state with
        counters := state.counters.startSpillEvent (toUnsigned 64 pending.message.size)
        events := state.events.insert index { pending with started := true } } := by
  obtain ⟨pending, found, counted⟩ := Option.bind_eq_some_iff.mp fired
  cases started : pending.started
  · rw [started, if_neg Bool.false_ne_true] at counted
    exact ⟨pending, found, started, (Option.some.inj counted).symm⟩
  · rw [started, if_pos rfl] at counted
    cases counted

/-- What a selection can do: end the event on an error, or route it to the
child bus of the selected storage, or lose it when there is none or the
publish to it fails.  The routed message keeps its size and retries. -/
theorem select_eq_some {outcome : SelectOutcome} {childPublished : Bool}
    (fired : state.select index outcome childPublished = some next) :
    ∃ pending, state.events.lookup index = some pending ∧ pending.place = .parent ∧
      ((∃ error, outcome = .failed error ∧
          next = state.finishEvent index pending pending.message) ∨
        ∃ huge storage message place, outcome = .selected huge storage ∧
          message.size = pending.message.size ∧
          message.retryCnt = pending.message.retryCnt ∧
          message.hugePartitionTag =
            (state.counters.tagHugePartition pending.message huge).2.hugePartitionTag ∧
          (hasChildBus storage = true ∧ childPublished = true ∧ place = .child storage ∨
            ¬(hasChildBus storage = true ∧ childPublished = true) ∧ place = .lost) ∧
          next = { state with
            counters := (state.counters.tagHugePartition pending.message huge).1
            events := state.events.insert index { pending with message, place } }) := by
  obtain ⟨pending, found, selected⟩ := Option.bind_eq_some_iff.mp fired
  by_cases parent : pending.place = .parent
  · rw [if_neg (not_not_intro parent)] at selected
    refine ⟨pending, found, parent, ?_⟩
    cases outcome with
    | failed error =>
        exact Or.inl ⟨error, rfl, (Option.some.inj selected).symm⟩
    | selected huge storage =>
        refine Or.inr ⟨huge, storage, _, _, rfl, ?_, ?_, ?_, ?_, (Option.some.inj selected).symm⟩
        · split <;> simp
        · split <;> simp
        · split <;> rfl
        · split
          · rename_i routed
            exact Or.inl ⟨routed.1, routed.2, rfl⟩
          · rename_i unrouted
            exact Or.inr ⟨unrouted, rfl⟩
  · rw [if_pos parent] at selected
    cases selected

/-- What a flush can do: finish the event when the write succeeds or the
error ends the spill, or send it back to the parent bus with one more retry,
losing it when that publish fails.  Either way it counts one more attempt. -/
theorem flush_eq_some {appValid : Bool} {insertResult : Except WorkerError Unit}
    {republished : Bool} (fired : state.flush index appValid insertResult republished = some next) :
    ∃ pending storage, state.events.lookup index = some pending ∧
      pending.place = .child storage ∧
      (flushStorageForBuffer pending.message appValid insertResult = .ok () ∧
          next = state.finishEvent index
            { pending with flushAttempts := pending.flushAttempts + 1 } pending.message ∨
        ∃ error, flushStorageForBuffer pending.message appValid insertResult = .error error ∧
          (endsSpill error = true ∧
              next = state.finishEvent index
                { pending with flushAttempts := pending.flushAttempts + 1 }
                { pending.message with retryCnt := pending.message.retryCnt + 1 } ∨
            endsSpill error = false ∧
              next = { state with
                events := state.events.insert index
                  { pending with
                    message := { pending.message with retryCnt := pending.message.retryCnt + 1 }
                    flushAttempts := pending.flushAttempts + 1
                    place := if republished then .parent else .lost } })) := by
  obtain ⟨pending, found, flushed⟩ := Option.bind_eq_some_iff.mp fired
  refine ⟨pending, ?_⟩
  split at flushed
  · rename_i storage onChild
    refine ⟨storage, found, onChild, ?_⟩
    split at flushed
    · rename_i written
      exact Or.inl ⟨written, (Option.some.inj flushed).symm⟩
    · rename_i error failed
      refine Or.inr ⟨error, failed, ?_⟩
      split at flushed
      · rename_i ends
        exact Or.inl ⟨ends, (Option.some.inj flushed).symm⟩
      · rename_i retried
        exact Or.inr ⟨Bool.eq_false_iff.mpr retried, (Option.some.inj flushed).symm⟩
  · cases flushed

end SpillPipeline

open SpillPipeline in
def spillNext (state : SpillPipeline) : SpillAction → Option SpillPipeline
  | .publish uid size published => some (state.publish uid size published)
  | .start event => state.startEvent event
  | .select event outcome childPublished => state.select event outcome childPublished
  | .flush event appValid insertResult republished =>
      state.flush event appValid insertResult republished

end Riffle.Spill
