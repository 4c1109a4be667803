import Riffle.Spill.Lifecycle

/-!
# Every delivered spill event is finished

The lifecycle of one spill event ends only through a handler's step on it.
Where every publish succeeds and every selection picks a storage with a child
bus (`DeliversEvents`), no event is ever dropped on the way (`NoneLost`), so an
unfinished event always waits on a bus whose handler can take it, whatever
the selection or the flush returns (`handler_fires`).  Each handler step on
the event lowers its `rank`, which is at most 8, and no other step of any
other task changes it (`eventRank_step`), so any continuation of the run
takes at most eight handler steps on the event, and an event that is still
unfinished has had at most seven.

Without `DeliversEvents` an event can be dropped: a selection of a storage
without a child bus, or a failed publish to a bus, leaves it where no
handler takes it again (`lost_stays`).
-/

namespace Riffle.Spill

open Riffle.FixedWidth Riffle.KeyedTotal Riffle.Transition Riffle.Store

/-- The event an action works on; a publish creates its event instead. -/
def SpillAction.worksOn : SpillAction → Option Nat
  | .publish _ _ _ => none
  | .start event => some event
  | .select event _ _ => some event
  | .flush event _ _ _ => some event

theorem SpillAction.handles_of_worksOn_ne {action : SpillAction} {index : Nat}
    (elsewhere : action.worksOn ≠ some index) : action.handles index = false := by
  cases action <;> simp_all [worksOn, handles]

namespace PipelineEvent

theorem rank_le_eight (event : PipelineEvent) : event.rank ≤ 8 := by
  unfold rank
  split <;> omega

/-- An unfinished event that no handler dropped still has a step left. -/
theorem rank_pos {event : PipelineEvent} (unfinished : event.place ≠ .finished)
    (kept : event.place ≠ .lost) : 0 < event.rank := by
  cases placed : event.place with
  | parent => simp [rank, placed]
  | child storage => simp [rank, placed]
  | finished => exact absurd placed unfinished
  | lost => exact absurd placed kept

end PipelineEvent

namespace SpillPipeline

open PipelineEvent

/-- The rank of the event published under `index`; zero while there is none. -/
def eventRank (index : Nat) (state : SpillPipeline) : Nat :=
  ((state.events.lookup index).map rank).getD 0

theorem eventRank_of_lookup {state : SpillPipeline} {index : Nat} {event : PipelineEvent}
    (found : state.events.lookup index = some event) : eventRank index state = event.rank := by
  simp [eventRank, found]

section Frame

variable {state next : SpillPipeline} {index : Nat}

theorem nextEvent_le_of_step {action : SpillAction} (stepped : spillNext state action = some next) :
    state.nextEvent ≤ next.nextEvent := by
  cases action with
  | publish uid size published =>
      rw [spillNext, Option.some.injEq] at stepped
      subst stepped
      unfold publish
      split
      · exact Nat.le_succ _
      · exact Nat.le_refl _
  | start event =>
      obtain ⟨_, _, _, rfl⟩ := startEvent_eq_some stepped
      exact Nat.le_refl _
  | select event outcome childPublished =>
      obtain ⟨_, _, _, ⟨_, _, rfl⟩ | ⟨_, _, _, _, _, _, _, _, _, rfl⟩⟩ := select_eq_some stepped
      · exact Nat.le_refl _
      · exact Nat.le_refl _
  | flush event appValid insertResult republished =>
      obtain ⟨_, _, _, _, ⟨_, rfl⟩ | ⟨_, _, ⟨_, rfl⟩ | ⟨_, rfl⟩⟩⟩ := flush_eq_some stepped
      · exact Nat.le_refl _
      · exact Nat.le_refl _
      · exact Nat.le_refl _

/-- Every step other than a publish replaces the entry of the event it works
on, and nothing else. -/
theorem events_of_step {action : SpillAction} {event : Nat}
    (working : action.worksOn = some event) (stepped : spillNext state action = some next) :
    ∃ value, next.events = state.events.insert event value := by
  cases action with
  | publish uid size published =>
      cases working
  | start other =>
      cases working
      obtain ⟨_, _, _, rfl⟩ := startEvent_eq_some stepped
      exact ⟨_, rfl⟩
  | select other outcome childPublished =>
      cases working
      obtain ⟨_, _, _, ⟨_, _, rfl⟩ | ⟨_, _, _, _, _, _, _, _, _, rfl⟩⟩ := select_eq_some stepped
      · exact ⟨_, rfl⟩
      · exact ⟨_, rfl⟩
  | flush other appValid insertResult republished =>
      cases working
      obtain ⟨_, _, _, _, ⟨_, rfl⟩ | ⟨_, _, ⟨_, rfl⟩ | ⟨_, rfl⟩⟩⟩ := flush_eq_some stepped
      · exact ⟨_, rfl⟩
      · exact ⟨_, rfl⟩
      · exact ⟨_, rfl⟩

/-- Frame: a step of another task leaves a published event as it is. -/
theorem lookup_of_step_elsewhere (published : index < state.nextEvent) {action : SpillAction}
    (elsewhere : action.worksOn ≠ some index) (stepped : spillNext state action = some next) :
    next.events.lookup index = state.events.lookup index := by
  cases working : action.worksOn with
  | none =>
      -- only a publish works on no event, and it inserts at a fresh index
      cases action with
      | publish uid size succeeded =>
          rw [spillNext, Option.some.injEq] at stepped
          subst stepped
          unfold publish
          split
          · exact AList.lookup_insert_ne (Nat.ne_of_lt published)
          · rfl
      | _ => cases working
  | some event =>
      obtain ⟨value, replaced⟩ := events_of_step working stepped
      have different : index ≠ event := fun same => elsewhere (same ▸ working)
      rw [replaced, AList.lookup_insert_ne different]

/-- No step removes a published event. -/
theorem mem_events_of_step {action : SpillAction} (member : index ∈ state.events)
    (stepped : spillNext state action = some next) : index ∈ next.events := by
  cases working : action.worksOn with
  | none =>
      cases action with
      | publish uid size succeeded =>
          rw [spillNext, Option.some.injEq] at stepped
          subst stepped
          unfold publish
          split
          · exact (AList.mem_insert _).mpr (Or.inr member)
          · exact member
      | _ => cases working
  | some event =>
      obtain ⟨value, replaced⟩ := events_of_step working stepped
      rw [replaced]
      exact (AList.mem_insert _).mpr (Or.inr member)

theorem mem_events_of_reachable {allowed : SpillPipeline → SpillAction → Prop}
    (member : index ∈ state.events)
    (reached : Relation.ReflTransGen (Steps spillNext allowed) state next) :
    index ∈ next.events := by
  apply invariant_of_steps _ reached member
  intro source target action _ sourceMember stepped
  exact mem_events_of_step sourceMember stepped

end Frame

section Rank

variable {state next : SpillPipeline} {index : Nat}

/-- A selection takes at least one off the event's rank: it finishes the
event, routes it to a child bus, or drops it. -/
theorem eventRank_select {outcome : SelectOutcome} {childPublished : Bool}
    (fired : state.select index outcome childPublished = some next) :
    eventRank index next + 1 ≤ eventRank index state := by
  obtain ⟨pending, found, parent, failed | selected⟩ := select_eq_some fired
  · obtain ⟨_, -, rfl⟩ := failed
    simp only [eventRank, finishEvent_events, AList.lookup_insert, found, Option.map_some,
      Option.getD_some, rank, parent]
    omega
  · obtain ⟨huge, storage, message, place, -, -, sameRetries, -, routed, rfl⟩ := selected
    rcases routed with ⟨-, -, rfl⟩ | ⟨-, rfl⟩
    · simp only [eventRank, AList.lookup_insert, found, Option.map_some, Option.getD_some, rank,
        parent, sameRetries]
      omega
    · simp only [eventRank, AList.lookup_insert, found, Option.map_some, Option.getD_some, rank,
        parent]
      omega

/-- A flush takes at least one off the event's rank: a retry goes back to
the parent bus with one retry fewer left. -/
theorem eventRank_flush {appValid : Bool}
    {insertResult : Except WorkerError Unit} {republished : Bool}
    (fired : state.flush index appValid insertResult republished = some next) :
    eventRank index next + 1 ≤ eventRank index state := by
  obtain ⟨pending, storage, found, onChild, flushed⟩ := flush_eq_some fired
  rcases flushed with ⟨-, rfl⟩ | ⟨error, failed, ⟨-, rfl⟩ | ⟨retryable, rfl⟩⟩
  · simp only [eventRank, finishEvent_events, AList.lookup_insert, found, Option.map_some,
      Option.getD_some, rank, onChild]
    omega
  · simp only [eventRank, finishEvent_events, AList.lookup_insert, found, Option.map_some,
      Option.getD_some, rank, onChild]
    omega
  · -- the retried event has one retry fewer left
    have fewRetries := retryCnt_lt_of_retried failed retryable
    cases republished
    · simp only [eventRank, AList.lookup_insert, found, Option.map_some, Option.getD_some, rank,
        onChild, Bool.false_eq_true, if_false]
      omega
    · simp only [eventRank, AList.lookup_insert, found, Option.map_some, Option.getD_some, rank,
        onChild, if_true]
      omega

/-- The rank of a published event never rises, and each handler step on it
lowers it, under every interleaving with the other tasks. -/
theorem eventRank_step (published : index < state.nextEvent)
    {action : SpillAction} (stepped : spillNext state action = some next) :
    eventRank index next + (if action.handles index then 1 else 0) ≤ eventRank index state := by
  by_cases working : action.worksOn = some index
  · cases action with
    | publish uid size published =>
        cases working
    | start other =>
        cases working
        -- counting an event in does not move it
        obtain ⟨pending, found, -, rfl⟩ := startEvent_eq_some stepped
        simp [eventRank, found, rank, SpillAction.handles]
    | select other outcome childPublished =>
        cases working
        simpa [SpillAction.handles] using eventRank_select stepped
    | flush other appValid insertResult republished =>
        cases working
        simpa [SpillAction.handles] using eventRank_flush stepped
  · rw [SpillAction.handles_of_worksOn_ne working, eventRank,
      lookup_of_step_elsewhere published working stepped]
    exact Nat.le_refl _

/-- Along any checked continuation of a run, the handler steps on
a published event and its rank at the end together stay within its rank at
the start. -/
theorem handled_add_eventRank_le {allowed : SpillPipeline → SpillAction → Prop}
    [∀ source action, Decidable (allowed source action)] (published : index < state.nextEvent) {labels : List SpillAction}
    (replay : checkedRun spillNext allowed state labels = some next) :
    labels.countP (SpillAction.handles index) + eventRank index next ≤ eventRank index state := by
  refine @countP_add_rank_le_of_checkedRun _ _ spillNext allowed _ (eventRank index)
    (SpillAction.handles index) (fun source => index < source.nextEvent) ?_
    state next labels published replay
  intro source target action sourcePublished _ stepped
  exact ⟨Nat.lt_of_lt_of_le sourcePublished (nextEvent_le_of_step stepped),
    eventRank_step sourcePublished stepped⟩

end Rank

section Delivery

variable {state next : SpillPipeline}

/-- No published event has been dropped by a handler. -/
def NoneLost (state : SpillPipeline) : Prop :=
  ∀ index event, state.events.lookup index = some event → event.place ≠ .lost

theorem noneLost_start : NoneLost start := by
  intro index event found
  simp [start] at found

theorem NoneLost.replace (noneLost : NoneLost state) {index : Nat} {value : PipelineEvent}
    (kept : value.place ≠ .lost) :
    ∀ other event, (state.events.insert index value).lookup other = some event →
      event.place ≠ .lost := by
  intro other event found
  rcases lookup_replaced found with ⟨-, rfl⟩ | old
  · exact kept
  · exact noneLost other event old

/-- A step the environment of `DeliversEvents` allows drops no event. -/
theorem noneLost_step (noneLost : NoneLost state) {action : SpillAction}
    (delivers : DeliversEvents action) (stepped : spillNext state action = some next) :
    NoneLost next := by
  cases action with
  | publish uid size published =>
      rw [spillNext, Option.some.injEq] at stepped
      subst stepped
      unfold publish
      split
      · exact noneLost.replace (by simp)
      · exact noneLost
  | start index =>
      obtain ⟨pending, found, -, rfl⟩ := startEvent_eq_some stepped
      exact noneLost.replace (noneLost index pending found)
  | select index outcome childPublished =>
      obtain ⟨pending, -, -, ⟨_, -, rfl⟩ | selected⟩ := select_eq_some stepped
      · exact noneLost.replace (by simp)
      obtain ⟨huge, storage, message, place, rfl, -, -, -, routed, rfl⟩ := selected
      -- the environment routes every selection to a child bus
      rcases routed with ⟨-, -, rfl⟩ | ⟨unrouted, -⟩
      · exact noneLost.replace (by simp)
      · exact absurd delivers unrouted
  | flush index appValid insertResult republished =>
      obtain ⟨pending, storage, -, -, flushed⟩ := flush_eq_some stepped
      rcases flushed with ⟨-, rfl⟩ | ⟨error, -, ⟨-, rfl⟩ | ⟨-, rfl⟩⟩
      · exact noneLost.replace (by simp)
      · exact noneLost.replace (by simp)
      · have republishes : republished = true := delivers
        exact noneLost.replace (by simp [republishes])

theorem noneLost_of_reachable
    (reached : Relation.ReflTransGen (Steps spillNext fun _ action => DeliversEvents action)
      start state) : NoneLost state := by
  apply invariant_of_steps _ reached noneLost_start
  intro source target action delivers noneLost stepped
  exact noneLost_step noneLost delivers stepped

/-- Progress: an unfinished event that was not dropped waits on a bus whose
handler takes it, whatever the selection or the flush returns. -/
theorem handler_fires (noneLost : NoneLost state) {index : Nat} {event : PipelineEvent}
    (found : state.events.lookup index = some event) (unfinished : event.place ≠ .finished) :
    (event.place = .parent ∧ ∀ outcome, (spillNext state (.select index outcome true)).isSome) ∨
      ∃ storage, event.place = .child storage ∧ ∀ appValid insertResult,
        (spillNext state (.flush index appValid insertResult true)).isSome := by
  cases placed : event.place with
  | parent =>
      refine Or.inl ⟨rfl, fun outcome => ?_⟩
      cases outcome <;> simp [spillNext, select, found, placed]
  | child storage =>
      refine Or.inr ⟨storage, rfl, fun appValid insertResult => ?_⟩
      simp only [spillNext, flush, found, placed, Option.bind_some]
      split
      · rfl
      · split <;> rfl
  | finished =>
      exact absurd placed unfinished
  | lost =>
      exact absurd placed (noneLost index event found)

end Delivery

section Lost

variable {state next : SpillPipeline} {index : Nat} {event : PipelineEvent}

/-- A dropped event that its publisher has counted in is never touched
again: no handler takes it, and the publisher's start has run. -/
theorem lost_stays (published : index < state.nextEvent)
    (found : state.events.lookup index = some event) (dropped : event.place = .lost)
    (counted : event.started = true) {action : SpillAction}
    (stepped : spillNext state action = some next) : next.events.lookup index = some event := by
  by_cases working : action.worksOn = some index
  · cases action with
    | publish uid size published =>
        cases working
    | start other =>
        cases working
        obtain ⟨pending, foundAgain, fresh, -⟩ := startEvent_eq_some stepped
        cases found.symm.trans foundAgain
        simp [counted] at fresh
    | select other outcome childPublished =>
        cases working
        obtain ⟨pending, foundAgain, parent, -⟩ := select_eq_some stepped
        cases found.symm.trans foundAgain
        simp [dropped] at parent
    | flush other appValid insertResult republished =>
        cases working
        obtain ⟨pending, storage, foundAgain, onChild, -⟩ := flush_eq_some stepped
        cases found.symm.trans foundAgain
        simp [dropped] at onChild
  · rw [lookup_of_step_elsewhere published working stepped, found]

theorem lost_stays_of_reachable {allowed : SpillPipeline → SpillAction → Prop}
    (published : index < state.nextEvent) (found : state.events.lookup index = some event)
    (dropped : event.place = .lost) (counted : event.started = true)
    (reached : Relation.ReflTransGen (Steps spillNext allowed) state next) :
    next.events.lookup index = some event := by
  refine (@invariant_of_steps _ _ spillNext allowed
    (fun source => index < source.nextEvent ∧ source.events.lookup index = some event) ?_ _ _
    reached ⟨published, found⟩).2
  rintro source target action - ⟨sourcePublished, sourceFound⟩ stepped
  exact ⟨Nat.lt_of_lt_of_le sourcePublished (nextEvent_le_of_step stepped),
    lost_stays sourcePublished sourceFound dropped counted stepped⟩

end Lost

section Lifecycle

/-- Under an environment that delivers every event, the counters of
`HybridStore` are at every point the `u64` wraps of the sums over the events
counted in and not finished, and give the unfinished events exactly where
every publisher has counted its event in; the huge-partition counter gives
the unfinished huge events at every point.  Every event is finished at most
once, after at most four flushes; while unfinished it has a handler step that
fires whatever the selection or the flush returns; and any continuation of
the run takes at most eight handler steps on it, at most seven while it stays
unfinished. -/
theorem spill_events_finish_once {state : SpillPipeline}
    (reached : Relation.ReflTransGen (Steps spillNext fun _ action => DeliversEvents action)
      start state) :
    state.counters.memorySpillEventNum =
        toUnsigned 64 (total (fun _ event => event.liveCount) state.events) ∧
      state.counters.inFlightBytes =
        toUnsigned 64 (total (fun _ event => event.liveBytes) state.events) ∧
      ((∀ index event, state.events.lookup index = some event → event.started = true) →
        state.counters.memorySpillEventNum =
            toUnsigned 64 (total (fun _ event => event.pendingCount) state.events) ∧
          state.counters.inFlightBytes =
            toUnsigned 64 (total (fun _ event => event.pendingBytes) state.events)) ∧
      state.counters.inFlightBytesOfHugePartition =
        toUnsigned 64 (total (fun _ event => event.pendingHugeBytes) state.events) ∧
      ∀ index event, state.events.lookup index = some event →
        event.finishCalls = (if event.place = .finished then 1 else 0) ∧
        event.flushAttempts ≤ 4 ∧
        (event.place ≠ .finished →
          (event.place = .parent ∧
              ∀ outcome, (spillNext state (.select index outcome true)).isSome) ∨
            ∃ storage, event.place = .child storage ∧ ∀ appValid insertResult,
              (spillNext state (.flush index appValid insertResult true)).isSome) ∧
        ∀ labels later,
          checkedRun spillNext (fun _ action => DeliversEvents action) state labels = some later →
          ∃ laterEvent, later.events.lookup index = some laterEvent ∧
            labels.countP (SpillAction.handles index) +
              (if laterEvent.place = .finished then 0 else 1) ≤ 8 := by
  have tracked := tracked_of_reachable reached
  have noneLost := noneLost_of_reachable reached
  refine ⟨tracked.eventNum, tracked.inFlight, tracked.counters_of_allStarted,
    tracked.huge_eq_pending, ?_⟩
  intro index event found
  refine ⟨tracked.finishedOnce index event found, tracked.attempts index event found,
    handler_fires noneLost found, ?_⟩
  intro labels later replay
  have member : index ∈ state.events := AList.lookup_isSome.mp (by simp [found])
  -- the event's rank bounds the handler steps on it
  have bound := handled_add_eventRank_le (tracked.eventsBelow index member) replay
  have laterReached := reached.trans (reflTransGen_of_checkedRun replay)
  obtain ⟨laterEvent, laterFound⟩ :=
    Option.isSome_iff_exists.mp (AList.lookup_isSome.mpr
      (mem_events_of_reachable member (reflTransGen_of_checkedRun replay)))
  refine ⟨laterEvent, laterFound, ?_⟩
  rw [eventRank_of_lookup found, eventRank_of_lookup laterFound] at bound
  have startBound := rank_le_eight event
  split
  · omega
  · -- an unfinished event that was not dropped still has rank left
    rename_i unfinished
    have laterRank := rank_pos unfinished
      (noneLost_of_reachable laterReached index laterEvent laterFound)
    omega

theorem spill_events_finish_once_afterRetry :
    ∃ state, Relation.ReflTransGen (Steps spillNext fun _ action => DeliversEvents action)
        start state ∧
      state.counters = ⟨0, 0, 0⟩ ∧
      (∃ event, state.events.lookup 0 = some event ∧ event.place = .finished ∧
        event.flushAttempts = 2 ∧ event.finishCalls = 1) ∧
      state.counters.inFlightBytesOfHugePartition =
        toUnsigned 64 (total (fun _ event => event.pendingHugeBytes) state.events) := by
  have replay : checkedRun spillNext (fun _ action => DeliversEvents action) start
      [.publish ⟨"app", 0, 0⟩ 10 true, .start 0, .select 0 (.selected true .localfile) true,
        .flush 0 true (.error (.other "io")) true, .select 0 (.selected true .localfile) true,
        .flush 0 true (.ok ()) true] = some _ := rfl
  have reached := reflTransGen_of_checkedRun replay
  exact ⟨_, reached, rfl, ⟨_, rfl, rfl, rfl, rfl⟩, (spill_events_finish_once reached).2.2.2.1⟩

/-- Two runs of the unrestricted pipeline.  In the first, the selection
fails before the publisher has counted the event in: the event is finished
and `memory_spill_event_num` has wrapped to `u64::MAX`.  In the second, the
publish to the selected storage's child bus fails, which the handler
ignores: the counted event is never touched again, so it never reaches
`finish_spill_event`. -/
theorem spill_counters_wrap_or_stall :
    (∃ state, Relation.ReflTransGen (Steps spillNext fun _ _ => True) start state ∧
      total (fun _ event => event.pendingCount) state.events = 0 ∧
      state.counters.memorySpillEventNum = 2 ^ 64 - 1) ∧
    ∃ state event, Relation.ReflTransGen (Steps spillNext fun _ _ => True) start state ∧
      state.events.lookup 0 = some event ∧ event.place ≠ .finished ∧
      ∀ later, Relation.ReflTransGen (Steps spillNext fun _ _ => True) state later →
        later.events.lookup 0 = some event := by
  have wrapReplay : checkedRun spillNext (fun _ _ => True) start
      [.publish ⟨"app", 0, 0⟩ 10 true, .select 0 (.failed .noCandidateStore) false] = some _ := rfl
  have stallReplay : checkedRun spillNext (fun _ _ => True) start
      [.publish ⟨"app", 0, 0⟩ 10 true, .start 0, .select 0 (.selected false .localfile) false] =
        some _ := rfl
  have stallReached := reflTransGen_of_checkedRun stallReplay
  refine ⟨⟨_, reflTransGen_of_checkedRun wrapReplay, rfl, rfl⟩, _, _, stallReached, rfl, by decide,
    fun later laterReached => ?_⟩
  exact lost_stays_of_reachable (by decide) rfl rfl rfl laterReached

end Lifecycle

end SpillPipeline

end Riffle.Spill
