import Riffle.Spill.Delivery
import Riffle.Spill.EventBus

/-!
# The spill pipeline on its buses

`spillNext` lets a handler step on any event at its place.  Here the places
are the buses of the `HierarchyEventBus`, which carry the events' numbers.
`publish_spill_event` sends an event to the parent bus.  The parent's handler
is the selection, and a selection that routes the event sends it to its
storage's child bus.  The child's handler is the flush, and a flush that
sends the event back publishes it to the parent bus again.  A handler's work
is one step, taken when it returns and drops its permit (`EventBus.finish`).
The dispatchers' `recv` and `spawn` are steps of their own.

Every run through the buses is a run of `spillNext`, in which the discipline
of `Riffle.Spill.Delivery` holds when it holds of the handlers here.  And
the buses hold exactly the events at their places: each bus holds each
event at its place once, and no other event (`pipeline_runs_on_its_buses`).
So the place a handler finds its event at is its own bus's, and an event no
bus holds is finished or lost.
-/

namespace Riffle.Spill

open Riffle.Transition Riffle.Store

universe u

/-! ## What the buses hold -/

namespace EventBus

variable {α : Type u} {bus after : EventBus α}

/-- The events a bus holds: queued, received, or with a running handler. -/
def contents (bus : EventBus α) : List α :=
  bus.pending ++ bus.handling

theorem contents_publish (bus : EventBus α) (event : α) :
    (bus.publish event).contents.Perm (event :: bus.contents) := by
  have grown : (bus.publish event).contents = bus.pending ++ event :: bus.handling := by
    simp [contents, publish, pending]
  rw [grown]
  exact List.perm_middle

theorem contents_receive (fired : bus.receive = some after) : after.contents = bus.contents := by
  obtain ⟨event, rest, held, queued, rfl⟩ := receive_eq_some fired
  simp [contents, pending, held, queued]

theorem contents_spawn (fired : bus.spawn = some after) : after.contents.Perm bus.contents := by
  obtain ⟨event, held, _, afterEq⟩ := spawn_eq_some fired
  have spawned : after.contents = (bus.queue ++ bus.handling) ++ [event] := by
    simp [afterEq, contents, pending]
  have waiting : bus.contents = event :: (bus.queue ++ bus.handling) := by
    simp [contents, pending, held]
  rw [spawned, waiting]
  exact List.perm_append_singleton _ _

/-- A handler that returns takes its event off the bus. -/
theorem contents_finish {index : Nat} {event : α} (found : bus.handling[index]? = some event)
    (fired : bus.finish index = some after) : bus.contents.Perm (event :: after.contents) := by
  obtain ⟨inside, rfl⟩ := finish_eq_some fired
  have taken : bus.handling[index] = event := by
    rw [List.getElem?_eq_getElem inside, Option.some.injEq] at found
    exact found
  have split := List.getElem_cons_eraseIdx_perm inside
  rw [taken] at split
  show (bus.pending ++ bus.handling).Perm (event :: (bus.pending ++ bus.handling.eraseIdx index))
  exact (List.Perm.append_left bus.pending split.symm).trans List.perm_middle

end EventBus

/-- Whether a place is a bus. -/
def EventPlace.onBus : EventPlace → Bool
  | .parent => true
  | .child storage => hasChildBus storage
  | _ => false

namespace HierarchyEventBus

variable {α : Type u} {buses after : HierarchyEventBus α}

/-- The bus of a place, where it has one. -/
def busAt (buses : HierarchyEventBus α) : EventPlace → Option (EventBus α)
  | .parent => some buses.parent
  | .child .localfile => some buses.localfile
  | .child .hdfs => some buses.hdfs
  | _ => none

/-- The bus of a place replaced. -/
def setBusAt (buses : HierarchyEventBus α) (bus : EventBus α) : EventPlace → HierarchyEventBus α
  | .parent => { buses with parent := bus }
  | .child .localfile => { buses with localfile := bus }
  | .child .hdfs => { buses with hdfs := bus }
  | _ => buses

/-- The events the bus of a place holds; a place without a bus holds none. -/
def holding (buses : HierarchyEventBus α) (place : EventPlace) : List α :=
  ((buses.busAt place).map EventBus.contents).getD []

/-- `publish` to the bus of a place; nothing, for a place without a bus. -/
def route (buses : HierarchyEventBus α) (place : EventPlace) (event : α) : HierarchyEventBus α :=
  match buses.busAt place with
  | some bus => buses.setBusAt (bus.publish event) place
  | none => buses

/-- A handler of the bus of a place returns: its event, and the buses after. -/
def take (buses : HierarchyEventBus α) (place : EventPlace) (index : Nat) :
    Option (α × HierarchyEventBus α) :=
  (buses.busAt place).bind fun bus =>
    bus.handling[index]?.bind fun event =>
      (bus.finish index).map fun finished => (event, buses.setBusAt finished place)

theorem busAt_isSome (buses : HierarchyEventBus α) (place : EventPlace) :
    (buses.busAt place).isSome = place.onBus := by
  cases place with
  | child storage => cases storage <;> rfl
  | _ => rfl

theorem busAt_setBusAt {place : EventPlace} {current : EventBus α}
    (found : buses.busAt place = some current) (bus : EventBus α) (other : EventPlace) :
    (buses.setBusAt bus place).busAt other =
      if other = place then some bus else buses.busAt other := by
  -- a place without a bus has nothing to replace
  have settled : ∀ other : EventPlace, (buses.setBusAt bus place).busAt other =
      if other = place then some bus else buses.busAt other := by
    cases place with
    | parent =>
        intro other
        cases other with
        | child storage => cases storage <;> rfl
        | _ => rfl
    | child storage =>
        cases storage
        all_goals first
          | intro other
            cases other with
            | child other => cases other <;> rfl
            | _ => rfl
          | cases found
    | _ => cases found
  exact settled other

theorem holding_of_busAt {place : EventPlace} {bus : EventBus α}
    (found : buses.busAt place = some bus) : buses.holding place = bus.contents := by
  rw [holding, found, Option.map_some, Option.getD_some]

/-- After a bus is replaced, its place holds what the new bus holds. -/
theorem holding_setBusAt {place : EventPlace} {current : EventBus α}
    (found : buses.busAt place = some current) (bus : EventBus α) (other : EventPlace) :
    (buses.setBusAt bus place).holding other =
      if other = place then bus.contents else buses.holding other := by
  unfold holding
  rw [busAt_setBusAt found]
  split_ifs <;> rfl

/-- Replacing a bus by one holding the same events changes no count. -/
theorem count_holding_setBusAt [DecidableEq α] {place : EventPlace} {current bus : EventBus α}
    (found : buses.busAt place = some current) (same : bus.contents.Perm current.contents)
    (other : EventPlace) (item : α) :
    ((buses.setBusAt bus place).holding other).count item = (buses.holding other).count item := by
  rw [holding_setBusAt found]
  split_ifs with atPlace
  · rw [atPlace, holding_of_busAt found]
    exact same.count_eq item
  · rfl

/-- A publish adds its event to the bus of its place, if there is one. -/
theorem count_holding_route [DecidableEq α] (buses : HierarchyEventBus α) (place : EventPlace)
    (event : α) (other : EventPlace) (item : α) :
    ((buses.route place event).holding other).count item =
      (buses.holding other).count item +
        if other = place ∧ place.onBus = true ∧ item = event then 1 else 0 := by
  unfold route
  cases found : buses.busAt place with
  | none =>
      have noBus : place.onBus = false := by
        rw [← busAt_isSome buses place, found]
        rfl
      simp [noBus]
  | some bus =>
      have onBus : place.onBus = true := by
        rw [← busAt_isSome buses place, found]
        rfl
      rw [holding_setBusAt found]
      by_cases atPlace : other = place
      · subst atPlace
        rw [if_pos rfl, holding_of_busAt found, (bus.contents_publish event).count_eq item,
          List.count_cons]
        by_cases same : item = event
        · simp [onBus, same]
        · simp [onBus, same, Ne.symm same]
      · simp [atPlace]

/-- The event a returning handler held comes off the bus of its place, and
nothing else does. -/
theorem count_holding_take [DecidableEq α] {place : EventPlace} {index : Nat} {event : α}
    (taken : buses.take place index = some (event, after)) (other : EventPlace) (item : α) :
    (buses.holding other).count item =
      (after.holding other).count item + if other = place ∧ item = event then 1 else 0 := by
  obtain ⟨bus, found, held⟩ := Option.bind_eq_some_iff.mp taken
  obtain ⟨heldEvent, heldFound, finished⟩ := Option.bind_eq_some_iff.mp held
  obtain ⟨finishedBus, finishedFound, sameResult⟩ := Option.map_eq_some_iff.mp finished
  simp only [Prod.mk.injEq] at sameResult
  obtain ⟨heldEq, rfl⟩ := sameResult
  rw [heldEq] at heldFound
  rw [holding_setBusAt found]
  by_cases atPlace : other = place
  · subst atPlace
    rw [if_pos rfl, holding_of_busAt found,
      (bus.contents_finish heldFound finishedFound).count_eq item, List.count_cons]
    by_cases same : item = event
    · simp [same]
    · simp [same, Ne.symm same]
  · simp [atPlace]

/-- A returning handler held an event of its bus. -/
theorem mem_holding_of_take {place : EventPlace} {index : Nat} {event : α}
    (taken : buses.take place index = some (event, after)) : event ∈ buses.holding place := by
  obtain ⟨bus, found, held⟩ := Option.bind_eq_some_iff.mp taken
  obtain ⟨heldEvent, heldFound, finished⟩ := Option.bind_eq_some_iff.mp held
  obtain ⟨finishedBus, _, sameResult⟩ := Option.map_eq_some_iff.mp finished
  simp only [Prod.mk.injEq] at sameResult
  obtain ⟨rfl, -⟩ := sameResult
  rw [holding_of_busAt found, EventBus.contents]
  exact List.mem_append_right _ (List.mem_of_getElem? heldFound)

end HierarchyEventBus

/-! ## The pipeline on the buses -/

/-- The place an event is at, once it is published. -/
def SpillPipeline.placeOf (pipeline : SpillPipeline) (event : Nat) : Option EventPlace :=
  (pipeline.events.lookup event).map PipelineEvent.place

/-- The pipeline's events and the buses that carry their numbers. -/
structure SpillBuses where
  pipeline : SpillPipeline
  buses : HierarchyEventBus Nat

/-- `HybridStore` before any spill, with the child buses' concurrencies. -/
def SpillBuses.new (localfileConcurrency hdfsConcurrency : Nat) : SpillBuses :=
  ⟨SpillPipeline.start, HierarchyEventBus.new localfileConcurrency hdfsConcurrency⟩

inductive SpillBusAction where
  | publish (uid : PartitionedUId) (size : Int) (published : Bool)
  | start (event : Nat)
  /-- The dispatcher of the bus of `place` receives the next event. -/
  | receive (place : EventPlace)
  /-- The dispatcher of the bus of `place` gets a permit and spawns a handler. -/
  | spawn (place : EventPlace)
  /-- The parent's handler at `index` returns from the selection. -/
  | select (index : Nat) (outcome : SelectOutcome) (childPublished : Bool)
  /-- The handler at `index` of `storage`'s child bus returns from the flush. -/
  | flush (storage : StorageType) (index : Nat) (appValid : Bool)
      (insertResult : Except WorkerError Unit) (republished : Bool)

/-- The bus a handler sends its event on, by the place the event is at
after the handler's step. -/
def routeByPlace (pipeline : SpillPipeline) (event : Nat) (buses : HierarchyEventBus Nat) :
    HierarchyEventBus Nat :=
  match pipeline.placeOf event with
  | some place => buses.route place event
  | none => buses

def spillBusNext (state : SpillBuses) : SpillBusAction → Option SpillBuses
  | .publish uid size published =>
      some ⟨state.pipeline.publish uid size published,
        if published then state.buses.route .parent state.pipeline.nextEvent else state.buses⟩
  | .start event => (state.pipeline.startEvent event).map fun pipeline => { state with pipeline }
  | .receive place =>
      ((state.buses.busAt place).bind EventBus.receive).map fun bus =>
        { state with buses := state.buses.setBusAt bus place }
  | .spawn place =>
      ((state.buses.busAt place).bind EventBus.spawn).map fun bus =>
        { state with buses := state.buses.setBusAt bus place }
  | .select index outcome childPublished =>
      (state.buses.take .parent index).bind fun taken =>
        (state.pipeline.select taken.1 outcome childPublished).map fun pipeline =>
          ⟨pipeline, routeByPlace pipeline taken.1 taken.2⟩
  | .flush storage index appValid insertResult republished =>
      (state.buses.take (.child storage) index).bind fun taken =>
        (state.pipeline.flush taken.1 appValid insertResult republished).map fun pipeline =>
          ⟨pipeline, routeByPlace pipeline taken.1 taken.2⟩

/-- Every publish to a bus succeeds and every selection picks a storage with
a child bus: `DeliversEvents` of the handlers. -/
def BusDelivers : SpillBusAction → Prop
  | .select _ (.selected _ storage) childPublished =>
      hasChildBus storage = true ∧ childPublished = true
  | .flush _ _ _ _ republished => republished = true
  | _ => True

/-- Each bus holds each event at its place once, and no other event. -/
def OnTheirBuses (state : SpillBuses) : Prop :=
  ∀ place event, (state.buses.holding place).count event =
    if state.pipeline.placeOf event = some place ∧ place.onBus = true then 1 else 0

section Steps

variable {state next : SpillBuses} {action : SpillBusAction}

/-- A step through the buses is a step of the pipeline, or leaves the
pipeline as it is. -/
theorem pipeline_of_spillBusNext (fired : spillBusNext state action = some next) :
    next.pipeline = state.pipeline ∨
      ∃ label, (BusDelivers action → DeliversEvents label) ∧
        spillNext state.pipeline label = some next.pipeline := by
  cases action with
  | publish uid size published =>
      cases fired
      exact Or.inr ⟨.publish uid size published, fun _ => trivial, rfl⟩
  | start event =>
      obtain ⟨pipeline, started, rfl⟩ := Option.map_eq_some_iff.mp fired
      exact Or.inr ⟨.start event, fun _ => trivial, started⟩
  | receive place =>
      obtain ⟨_, _, rfl⟩ := Option.map_eq_some_iff.mp fired
      exact Or.inl rfl
  | spawn place =>
      obtain ⟨_, _, rfl⟩ := Option.map_eq_some_iff.mp fired
      exact Or.inl rfl
  | select index outcome childPublished =>
      obtain ⟨taken, _, selected⟩ := Option.bind_eq_some_iff.mp fired
      obtain ⟨pipeline, stepped, rfl⟩ := Option.map_eq_some_iff.mp selected
      exact Or.inr ⟨.select taken.1 outcome childPublished,
        fun delivers => by cases outcome <;> exact delivers, stepped⟩
  | flush storage index appValid insertResult republished =>
      obtain ⟨taken, _, flushed⟩ := Option.bind_eq_some_iff.mp fired
      obtain ⟨pipeline, stepped, rfl⟩ := Option.map_eq_some_iff.mp flushed
      exact Or.inr ⟨.flush taken.1 appValid insertResult republished, id, stepped⟩

/-- A publish puts its new event at the parent. -/
theorem placeOf_publish (pipeline : SpillPipeline) (uid : PartitionedUId) (size : Int)
    (other : Nat) : (pipeline.publish uid size true).placeOf other =
      if other = pipeline.nextEvent then some .parent else pipeline.placeOf other := by
  by_cases same : other = pipeline.nextEvent
  · subst same
    simp [SpillPipeline.placeOf, SpillPipeline.publish]
  · simp [SpillPipeline.placeOf, SpillPipeline.publish, same, AList.lookup_insert_ne same]

/-- A start leaves every event at its place. -/
theorem placeOf_startEvent {pipeline after : SpillPipeline} {event : Nat}
    (fired : pipeline.startEvent event = some after) : after.placeOf = pipeline.placeOf := by
  obtain ⟨pending, found, _, rfl⟩ := SpillPipeline.startEvent_eq_some fired
  funext other
  by_cases same : other = event
  · subst same
    simp [SpillPipeline.placeOf, found]
  · simp only [SpillPipeline.placeOf]
    rw [AList.lookup_insert_ne same]

/-- A handler's step on one event leaves every other event at its place. -/
theorem placeOf_of_handled {pipeline after : SpillPipeline} {label : SpillAction} {event : Nat}
    (working : label.worksOn = some event) (stepped : spillNext pipeline label = some after)
    {other : Nat} (different : other ≠ event) : after.placeOf other = pipeline.placeOf other := by
  obtain ⟨value, replaced⟩ := SpillPipeline.events_of_step working stepped
  rw [SpillPipeline.placeOf, SpillPipeline.placeOf, replaced, AList.lookup_insert_ne different]

/-- A handler sends its event on to the bus of the place it is at. -/
theorem count_holding_routeByPlace (pipeline : SpillPipeline) (event : Nat)
    (buses : HierarchyEventBus Nat) (other : EventPlace) (item : Nat) :
    ((routeByPlace pipeline event buses).holding other).count item =
      (buses.holding other).count item +
        if pipeline.placeOf event = some other ∧ other.onBus = true ∧ item = event then 1 else 0 := by
  unfold routeByPlace
  cases moved : pipeline.placeOf event with
  | none =>
      simp
  | some newPlace =>
      rw [HierarchyEventBus.count_holding_route]
      by_cases same : other = newPlace
      · subst same
        simp
      · simp [same, Ne.symm same]

/-- The event a handler returns with was at the handler's place. -/
theorem OnTheirBuses.placeOf_of_take (onBuses : OnTheirBuses state) {place : EventPlace}
    {index : Nat} {event : Nat} {buses : HierarchyEventBus Nat}
    (taken : state.buses.take place index = some (event, buses)) :
    state.pipeline.placeOf event = some place ∧ place.onBus = true := by
  have held := List.count_pos_iff.mpr (HierarchyEventBus.mem_holding_of_take taken)
  rw [onBuses place event] at held
  split_ifs at held with atPlace
  · exact atPlace
  · cases held

/-- Once a handler has taken its event off its bus, no bus holds it. -/
theorem OnTheirBuses.count_of_take (onBuses : OnTheirBuses state) {place : EventPlace}
    {index : Nat} {event : Nat} {buses : HierarchyEventBus Nat}
    (taken : state.buses.take place index = some (event, buses)) (other : EventPlace) :
    (buses.holding other).count event = 0 := by
  have atPlace := onBuses.placeOf_of_take taken
  have before := HierarchyEventBus.count_holding_take taken other event
  rw [onBuses other event] at before
  by_cases same : other = place
  · subst same
    simp only [atPlace, and_self, if_true] at before
    omega
  · -- the event was at the handler's place, so on no other bus
    have notThere : ¬(state.pipeline.placeOf event = some other ∧ other.onBus = true) := by
      rintro ⟨there, -⟩
      rw [atPlace.1, Option.some.injEq] at there
      exact same there.symm
    rw [if_neg notThere, if_neg (fun both => same both.1)] at before
    omega

/-- A handler takes its event off its bus, the pipeline moves the event, and
the event goes to the bus of its new place: the buses still hold each event
at its place. -/
theorem OnTheirBuses.handle (onBuses : OnTheirBuses state) {place : EventPlace} {index : Nat}
    {event : Nat} {buses : HierarchyEventBus Nat} {pipeline : SpillPipeline}
    (taken : state.buses.take place index = some (event, buses))
    (elsewhere : ∀ other, other ≠ event → pipeline.placeOf other = state.pipeline.placeOf other) :
    OnTheirBuses ⟨pipeline, routeByPlace pipeline event buses⟩ := by
  intro other item
  rw [count_holding_routeByPlace]
  by_cases same : item = event
  · -- the moved event is on the bus of its new place alone
    subst same
    rw [onBuses.count_of_take taken other, Nat.zero_add]
    simp
  · -- every other event stays where it was
    have before := HierarchyEventBus.count_holding_take taken other item
    rw [onBuses other item, if_neg (show ¬(other = place ∧ item = event) from
      fun both => same both.2), Nat.add_zero] at before
    rw [← before, elsewhere item same]
    simp [same]

/-- Every step keeps the buses holding the events at their places. -/
theorem OnTheirBuses.of_step (tracked : state.pipeline.Tracked) (onBuses : OnTheirBuses state)
    (fired : spillBusNext state action = some next) : OnTheirBuses next := by
  cases action with
  | publish uid size published =>
      cases fired
      cases published with
      | false =>
          exact onBuses
      | true =>
          -- the new event is fresh: it was at no place and on no bus
          have fresh : state.pipeline.placeOf state.pipeline.nextEvent = none := by
            rw [SpillPipeline.placeOf, AList.lookup_eq_none.mpr
              (fun member => Nat.lt_irrefl _ (tracked.eventsBelow _ member))]
            rfl
          intro place event
          rw [if_pos rfl, HierarchyEventBus.count_holding_route, placeOf_publish, onBuses place]
          by_cases same : event = state.pipeline.nextEvent
          · subst same
            rw [fresh]
            cases place <;> simp [EventPlace.onBus]
          · simp [same]
  | start event =>
      obtain ⟨pipeline, started, rfl⟩ := Option.map_eq_some_iff.mp fired
      intro place other
      rw [placeOf_startEvent started]
      exact onBuses place other
  | receive place =>
      obtain ⟨bus, received, rfl⟩ := Option.map_eq_some_iff.mp fired
      obtain ⟨current, found, fired⟩ := Option.bind_eq_some_iff.mp received
      intro other item
      rw [HierarchyEventBus.count_holding_setBusAt found
        (List.Perm.of_eq (EventBus.contents_receive fired)), onBuses other item]
  | spawn place =>
      obtain ⟨bus, spawned, rfl⟩ := Option.map_eq_some_iff.mp fired
      obtain ⟨current, found, fired⟩ := Option.bind_eq_some_iff.mp spawned
      intro other item
      rw [HierarchyEventBus.count_holding_setBusAt found (EventBus.contents_spawn fired),
        onBuses other item]
  | select index outcome childPublished =>
      obtain ⟨⟨event, buses⟩, taken, selected⟩ := Option.bind_eq_some_iff.mp fired
      obtain ⟨pipeline, stepped, rfl⟩ := Option.map_eq_some_iff.mp selected
      exact onBuses.handle taken fun other different =>
        @placeOf_of_handled state.pipeline pipeline (.select event outcome childPublished) event
          rfl stepped other different
  | flush storage index appValid insertResult republished =>
      obtain ⟨⟨event, buses⟩, taken, flushed⟩ := Option.bind_eq_some_iff.mp fired
      obtain ⟨pipeline, stepped, rfl⟩ := Option.map_eq_some_iff.mp flushed
      exact onBuses.handle taken fun other different =>
        @placeOf_of_handled state.pipeline pipeline (.flush event appValid insertResult republished)
          event rfl stepped other different

end Steps

theorem onTheirBuses_new (localfileConcurrency hdfsConcurrency : Nat) :
    OnTheirBuses (SpillBuses.new localfileConcurrency hdfsConcurrency) := by
  intro place event
  cases place with
  | child storage => cases storage <;> rfl
  | _ => rfl

/-- The spill pipeline runs on its buses: along every run in which the
handlers deliver every event, the pipeline moves by steps of `spillNext`
that keep `DeliversEvents`, and each bus holds each event at its place once,
and no other event. -/
theorem pipeline_runs_on_its_buses {localfileConcurrency hdfsConcurrency : Nat}
    {state : SpillBuses}
    (reached : Relation.ReflTransGen (Steps spillBusNext fun _ action => BusDelivers action)
      (SpillBuses.new localfileConcurrency hdfsConcurrency) state) :
    Relation.ReflTransGen (Steps spillNext fun _ action => DeliversEvents action)
        SpillPipeline.start state.pipeline ∧
      ∀ place event, (state.buses.holding place).count event =
        if state.pipeline.placeOf event = some place ∧ place.onBus = true then 1 else 0 := by
  -- the pipeline's run, with the freshness of new events its invariant gives
  refine @invariant_of_steps _ _ spillBusNext (fun _ action => BusDelivers action)
    (fun state => Relation.ReflTransGen (Steps spillNext fun _ action => DeliversEvents action)
      SpillPipeline.start state.pipeline ∧ OnTheirBuses state) ?_ _ _ reached
    ⟨Relation.ReflTransGen.refl, onTheirBuses_new localfileConcurrency hdfsConcurrency⟩
  rintro source target action delivers ⟨pipelineRun, onBuses⟩ fired
  have tracked := SpillPipeline.tracked_of_reachable pipelineRun
  refine ⟨?_, onBuses.of_step tracked fired⟩
  rcases pipeline_of_spillBusNext fired with same | ⟨label, labelDelivers, stepped⟩
  · rw [same]
    exact pipelineRun
  · exact pipelineRun.tail ⟨label, labelDelivers delivers, stepped⟩

/- A published event goes through the parent's handler to the local file
bus, which then holds it alone. -/
example :
    ((run spillBusNext (SpillBuses.new 1 1)
        [.publish ⟨"app", 0, 0⟩ 8 true, .start 0, .receive .parent, .spawn .parent,
          .select 0 (.selected false .localfile) true]).map fun state =>
      (state.buses.holding .parent, state.buses.holding (.child .localfile))) =
      some ([], [0]) := by
  rfl

end Riffle.Spill
