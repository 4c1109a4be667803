import Mathlib
import Riffle.Lib.Transition

/-!
# The event bus

`EventBus<T>` (`src/event_bus.rs`) hands events to one subscriber through
an unbounded `async_channel`, and lets at most `concurrency_limit` handlers
run at once:

* `publish` sends the event into the channel;
* one dispatcher task, `EventBus::handle`, loops: it receives the next event
  (`recv`), waits for a permit of the `concurrency_limit` semaphore
  (`acquire_owned`), and spawns a handler task;
* the handler runs the subscriber's `on_event` and drops the permit when it
  returns.

The spill pipeline's `HierarchyEventBus` (`src/store/spill/hierarchy_event_bus.rs`)
is three such buses: a parent with `Semaphore::MAX_PERMITS` permits and a
child per storage with the configured flush concurrency.

`BusLedger` runs a bus together with a record of the events published,
started and finished, which the server does not keep.  Over every
interleaving the bus starts handlers in the order the events were published,
loses and repeats none (`Accounted`), and never runs more handlers than its
limit.  With a positive limit the dispatcher and the handlers alone can start
every pending event; with a limit of 0 no handler ever starts.
-/

namespace Riffle.Spill

open Riffle.Transition

universe u

/-- An `EventBus<T>` between steps: the events in the channel, the event the
dispatcher has received and holds while it waits for a permit, the events of
the running handlers in the order they were spawned, the free permits of the
`concurrency_limit` semaphore, and `concurrency_num`, the number it was
created with. -/
structure EventBus (α : Type u) where
  queue : List α
  received : Option α
  handling : List α
  available : Nat
  concurrencyNum : Nat
  deriving DecidableEq, Repr

/-- The steps of the tasks around a bus.  `finish` names a running handler by
its place among them. -/
inductive BusAction (α : Type u) where
  | publish (event : α)
  | receive
  | spawn
  | finish (index : Nat)
  deriving DecidableEq, Repr

namespace EventBus

variable {α : Type u}

/-- `EventBus::new(runtime, name, concurrency_limit)`: an empty channel and
a semaphore with `concurrency_limit` permits. -/
def new (concurrencyLimit : Nat) : EventBus α :=
  ⟨[], none, [], concurrencyLimit, concurrencyLimit⟩

/-- `publish`: `queue_send.send(event)`, which an unbounded channel whose
receiver lives as long as the bus always accepts. -/
def publish (bus : EventBus α) (event : α) : EventBus α :=
  { bus with queue := bus.queue ++ [event] }

/-- `queue_recv.recv()` of the dispatcher, between two events: it takes the
head of the channel, and waits while the channel is empty. -/
def receive (bus : EventBus α) : Option (EventBus α) :=
  match bus.received, bus.queue with
  | none, event :: rest => some { bus with queue := rest, received := some event }
  | _, _ => none

/-- `acquire_owned()` of the dispatcher returning a permit, and the handler
task it spawns with the received event. -/
def spawn (bus : EventBus α) : Option (EventBus α) :=
  match bus.received with
  | some event =>
      if 0 < bus.available then
        some { bus with
          received := none
          handling := bus.handling ++ [event]
          available := bus.available - 1 }
      else none
  | none => none

/-- A handler returns from `on_event` and drops its permit. -/
def finish (bus : EventBus α) (index : Nat) : Option (EventBus α) :=
  if index < bus.handling.length then
    some { bus with handling := bus.handling.eraseIdx index, available := bus.available + 1 }
  else none

def next (bus : EventBus α) : BusAction α → Option (EventBus α)
  | .publish event => some (bus.publish event)
  | .receive => bus.receive
  | .spawn => bus.spawn
  | .finish index => bus.finish index

/-- The events not started yet, in the order the dispatcher starts them. -/
def pending (bus : EventBus α) : List α :=
  bus.received.toList ++ bus.queue

end EventBus

/-- `HierarchyEventBus::new`: the parent bus only dispatches, with
`Semaphore::MAX_PERMITS` (`usize::MAX >> 3`) permits; each child flushes to
its storage with the configured concurrency. -/
structure HierarchyEventBus (α : Type u) where
  parent : EventBus α
  localfile : EventBus α
  hdfs : EventBus α

def HierarchyEventBus.new {α : Type u} (localfileConcurrency hdfsConcurrency : Nat) :
    HierarchyEventBus α :=
  ⟨EventBus.new (2 ^ 61 - 1), EventBus.new localfileConcurrency, EventBus.new hdfsConcurrency⟩

/-- A bus with the events published, started and finished so far, in order.
The three lists are a record of the run for the statements; the server does
not keep them. -/
structure BusLedger (α : Type u) where
  bus : EventBus α
  published : List α
  started : List α
  finished : List α
  deriving DecidableEq, Repr

namespace BusLedger

variable {α : Type u}

def new (concurrencyLimit : Nat) : BusLedger α :=
  ⟨EventBus.new concurrencyLimit, [], [], []⟩

/-- The event an action publishes. -/
def publishedBy : BusAction α → List α
  | .publish event => [event]
  | _ => []

/-- The event an action starts: the one the dispatcher holds, when it spawns. -/
def startedBy (bus : EventBus α) : BusAction α → List α
  | .spawn => bus.received.toList
  | _ => []

/-- The event an action finishes: that of the handler it names. -/
def finishedBy (bus : EventBus α) : BusAction α → List α
  | .finish index => bus.handling[index]?.toList
  | _ => []

/-- One step of the bus, recorded. -/
def next (ledger : BusLedger α) (action : BusAction α) : Option (BusLedger α) :=
  (ledger.bus.next action).map fun bus =>
    ⟨bus, ledger.published ++ publishedBy action, ledger.started ++ startedBy ledger.bus action,
      ledger.finished ++ finishedBy ledger.bus action⟩

end BusLedger

/-! ## One step of the bus -/

namespace EventBus

variable {α : Type u} {bus after : EventBus α}

@[simp]
theorem pending_publish (bus : EventBus α) (event : α) :
    (bus.publish event).pending = bus.pending ++ [event] := by
  simp [pending, publish]

theorem receive_eq_some (fired : bus.receive = some after) :
    ∃ event rest, bus.received = none ∧ bus.queue = event :: rest ∧
      after = { bus with queue := rest, received := some event } := by
  unfold receive at fired
  split at fired
  · rename_i event rest held queued
    exact ⟨event, rest, held, queued, (Option.some.inj fired).symm⟩
  · cases fired

theorem spawn_eq_some (fired : bus.spawn = some after) :
    ∃ event, bus.received = some event ∧ 0 < bus.available ∧
      after = { bus with
        received := none
        handling := bus.handling ++ [event]
        available := bus.available - 1 } := by
  unfold spawn at fired
  split at fired
  · rename_i event held
    split_ifs at fired with free
    exact ⟨event, held, free, (Option.some.inj fired).symm⟩
  · cases fired

theorem finish_eq_some {index : Nat} (fired : bus.finish index = some after) :
    index < bus.handling.length ∧
      after = { bus with
        handling := bus.handling.eraseIdx index
        available := bus.available + 1 } := by
  unfold finish at fired
  split_ifs at fired with inside
  exact ⟨inside, (Option.some.inj fired).symm⟩

/-- No step changes the number of permits the bus was created with. -/
theorem concurrencyNum_next {action : BusAction α} (fired : bus.next action = some after) :
    after.concurrencyNum = bus.concurrencyNum := by
  cases action with
  | publish event =>
      cases fired
      rfl
  | receive =>
      obtain ⟨_, _, _, _, rfl⟩ := receive_eq_some fired
      rfl
  | spawn =>
      obtain ⟨_, _, _, rfl⟩ := spawn_eq_some fired
      rfl
  | finish index =>
      obtain ⟨_, rfl⟩ := finish_eq_some fired
      rfl

/-- Every permit of the semaphore is free or held by a running handler. -/
def PermitsHeld (bus : EventBus α) : Prop :=
  bus.available + bus.handling.length = bus.concurrencyNum

theorem permitsHeld_new (concurrencyLimit : Nat) :
    (EventBus.new concurrencyLimit : EventBus α).PermitsHeld := by
  simp [PermitsHeld, new]

theorem PermitsHeld.next (held : bus.PermitsHeld) {action : BusAction α}
    (fired : bus.next action = some after) : after.PermitsHeld := by
  cases action with
  | publish event =>
      cases fired
      exact held
  | receive =>
      obtain ⟨_, _, _, _, rfl⟩ := receive_eq_some fired
      exact held
  | spawn =>
      -- the spawned handler takes the permit the dispatcher acquired
      obtain ⟨_, _, free, rfl⟩ := spawn_eq_some fired
      unfold PermitsHeld at held ⊢
      simp only [List.length_append, List.length_singleton]
      omega
  | finish index =>
      -- the finished handler's permit goes back to the semaphore
      obtain ⟨inside, rfl⟩ := finish_eq_some fired
      unfold PermitsHeld at held ⊢
      simp only [List.length_eraseIdx_of_lt inside]
      omega

theorem reachable_permitsHeld {concurrencyLimit : Nat} {bus : EventBus α}
    (reached : Relation.ReflTransGen (Steps EventBus.next fun _ _ => True)
      (EventBus.new concurrencyLimit) bus) :
    bus.concurrencyNum = concurrencyLimit ∧ bus.PermitsHeld :=
  @invariant_of_steps _ _ EventBus.next (fun _ _ => True)
    (fun bus => bus.concurrencyNum = concurrencyLimit ∧ bus.PermitsHeld)
    (fun _ _ _ _ kept fired => ⟨(concurrencyNum_next fired).trans kept.1, kept.2.next fired⟩)
    _ _ reached ⟨rfl, permitsHeld_new concurrencyLimit⟩

end EventBus

/-- Over every interleaving of publishers, the dispatcher and the handlers,
a bus created with `concurrency_limit` permits never runs more handlers than
that: the free permits are the limit less the running handlers. -/
theorem handlers_within_concurrency_limit {α : Type u} {concurrencyLimit : Nat}
    {bus : EventBus α}
    (reached : Relation.ReflTransGen (Steps EventBus.next fun _ _ => True)
      (EventBus.new concurrencyLimit) bus) :
    bus.handling.length ≤ concurrencyLimit ∧
      bus.available = concurrencyLimit - bus.handling.length := by
  obtain ⟨sameLimit, held⟩ := EventBus.reachable_permitsHeld reached
  unfold EventBus.PermitsHeld at held
  omega

/-! ## The record of a run -/

namespace BusLedger

variable {α : Type u} {ledger after : BusLedger α}

/-- What the record says of the bus: the events start in the order they were
published, those started have finished or are running, and every permit is
free or held. -/
structure Accounted (ledger : BusLedger α) : Prop where
  order : ledger.published = ledger.started ++ ledger.bus.pending
  running : (ledger.finished ++ ledger.bus.handling).Perm ledger.started
  permits : ledger.bus.PermitsHeld

theorem accounted_new (concurrencyLimit : Nat) : (BusLedger.new concurrencyLimit : BusLedger α).Accounted :=
  ⟨rfl, List.Perm.refl _, EventBus.permitsHeld_new concurrencyLimit⟩

theorem next_eq_some {action : BusAction α} (fired : ledger.next action = some after) :
    ledger.bus.next action = some after.bus ∧
      after.published = ledger.published ++ publishedBy action ∧
      after.started = ledger.started ++ startedBy ledger.bus action ∧
      after.finished = ledger.finished ++ finishedBy ledger.bus action := by
  obtain ⟨bus, stepped, rfl⟩ := Option.map_eq_some_iff.mp fired
  exact ⟨stepped, rfl, rfl, rfl⟩

theorem Accounted.next (accounted : ledger.Accounted) {action : BusAction α}
    (fired : ledger.next action = some after) : after.Accounted := by
  obtain ⟨stepped, published, started, finished⟩ := next_eq_some fired
  have permits := accounted.permits.next stepped
  cases action with
  | publish event =>
      have moved : after.bus = ledger.bus.publish event := (Option.some.inj stepped).symm
      refine ⟨?_, ?_, permits⟩
      · rw [published, started, moved, accounted.order, EventBus.pending_publish]
        simp [publishedBy, startedBy]
      · rw [started, finished, moved]
        simpa [startedBy, finishedBy, EventBus.publish] using accounted.running
  | receive =>
      -- the head of the channel moves to the dispatcher: still pending
      obtain ⟨event, rest, idle, queued, moved⟩ := EventBus.receive_eq_some stepped
      refine ⟨?_, ?_, permits⟩
      · rw [published, started, moved, accounted.order]
        simp [publishedBy, startedBy, EventBus.pending, idle, queued]
      · rw [started, finished, moved]
        simpa [startedBy, finishedBy] using accounted.running
  | spawn =>
      -- the held event starts: it leaves the pending events for the running ones
      obtain ⟨event, held, free, moved⟩ := EventBus.spawn_eq_some stepped
      have startedEvent : startedBy ledger.bus .spawn = [event] := by simp [startedBy, held]
      refine ⟨?_, ?_, permits⟩
      · rw [published, started, startedEvent, moved, accounted.order]
        simp [publishedBy, EventBus.pending, held]
      · rw [started, finished, startedEvent, moved]
        simpa [finishedBy, List.append_assoc] using accounted.running.append_right [event]
  | finish index =>
      -- the named handler's event moves from the running ones to the finished
      obtain ⟨inside, moved⟩ := EventBus.finish_eq_some stepped
      have finishedEvent :
          finishedBy ledger.bus (.finish index) = [ledger.bus.handling[index]] := by
        simp [finishedBy, inside]
      refine ⟨?_, ?_, permits⟩
      · rw [published, started, moved, accounted.order]
        simp [publishedBy, startedBy, EventBus.pending]
      · rw [started, finished, finishedEvent, moved]
        have swapped := (List.getElem_cons_eraseIdx_perm inside).append_left ledger.finished
        simpa [startedBy, List.append_assoc] using swapped.trans accounted.running

theorem accounted_of_reachable {concurrencyLimit : Nat}
    (reached : Relation.ReflTransGen (Steps BusLedger.next fun _ _ => True)
      (BusLedger.new concurrencyLimit) ledger) :
    ledger.Accounted :=
  @invariant_of_steps _ _ BusLedger.next (fun _ _ => True) Accounted
    (fun _ _ _ _ accounted fired => accounted.next fired) _ _ reached (accounted_new concurrencyLimit)

end BusLedger

/-! ## Draining the bus -/

/-- A step of the dispatcher or a handler: anything but a publish. -/
def BusAction.Dispatches {α : Type u} : BusAction α → Prop
  | .publish _ => False
  | _ => True

namespace BusLedger

variable {α : Type u} {ledger after : BusLedger α}

/-- The runs in which nothing is published. -/
def Dispatched (ledger after : BusLedger α) : Prop :=
  Relation.ReflTransGen (Steps BusLedger.next fun _ action => action.Dispatches) ledger after

theorem Dispatched.accounted (accounted : ledger.Accounted) (path : Dispatched ledger after) :
    after.Accounted :=
  @invariant_of_steps _ _ BusLedger.next _ Accounted
    (fun _ _ _ _ accounted fired => accounted.next fired) _ _ path accounted

theorem Dispatched.concurrencyNum (path : Dispatched ledger after) :
    after.bus.concurrencyNum = ledger.bus.concurrencyNum :=
  @invariant_of_steps _ _ BusLedger.next _
    (fun middle => middle.bus.concurrencyNum = ledger.bus.concurrencyNum)
    (fun _ _ _ _ same fired => (EventBus.concurrencyNum_next (next_eq_some fired).1).trans same)
    _ _ path rfl

/-- The dispatcher, between two events, takes the head of a non-empty
channel. -/
theorem dispatched_hold {event : α} {rest : List α} (pendingEq : ledger.bus.pending = event :: rest) :
    ∃ holding, Dispatched ledger holding ∧ holding.bus.received = some event ∧
      holding.bus.queue = rest ∧ holding.started = ledger.started ∧
      holding.bus.handling = ledger.bus.handling ∧ holding.bus.available = ledger.bus.available := by
  cases held : ledger.bus.received with
  | some heldEvent =>
      -- the dispatcher already holds the first pending event
      simp only [EventBus.pending, held, Option.toList_some, List.singleton_append,
        List.cons.injEq] at pendingEq
      obtain ⟨rfl, queued⟩ := pendingEq
      exact ⟨ledger, Relation.ReflTransGen.refl, held, queued, rfl, rfl, rfl⟩
  | none =>
      simp only [EventBus.pending, held, Option.toList_none, List.nil_append] at pendingEq
      have fired : ledger.next .receive =
          some ⟨{ ledger.bus with queue := rest, received := some event },
            ledger.published, ledger.started, ledger.finished⟩ := by
        simp [next, EventBus.next, EventBus.receive, held, pendingEq, publishedBy, startedBy,
          finishedBy]
      exact ⟨_, Relation.ReflTransGen.single ⟨.receive, trivial, fired⟩, rfl, rfl, rfl, rfl, rfl⟩

/-- A dispatcher that holds an event and finds no free permit gets one once a
handler returns; one is running, since the bus has permits and all are
held. -/
theorem Accounted.dispatched_permit (accounted : ledger.Accounted)
    (positive : 0 < ledger.bus.concurrencyNum) :
    ∃ freed, Dispatched ledger freed ∧ freed.bus.received = ledger.bus.received ∧
      freed.bus.queue = ledger.bus.queue ∧ freed.started = ledger.started ∧
      0 < freed.bus.available := by
  by_cases free : 0 < ledger.bus.available
  · exact ⟨ledger, Relation.ReflTransGen.refl, rfl, rfl, rfl, free⟩
  · have running : 0 < ledger.bus.handling.length := by
      have held := accounted.permits
      unfold EventBus.PermitsHeld at held
      omega
    have fired : ledger.next (.finish 0) =
        some ⟨{ ledger.bus with
            handling := ledger.bus.handling.eraseIdx 0
            available := ledger.bus.available + 1 },
          ledger.published, ledger.started,
          ledger.finished ++ finishedBy ledger.bus (.finish 0)⟩ := by
      simp [BusLedger.next, EventBus.next, EventBus.finish, running, publishedBy, startedBy]
    exact ⟨_, Relation.ReflTransGen.single ⟨.finish 0, trivial, fired⟩, rfl, rfl, rfl,
      Nat.succ_pos _⟩

/-- The first pending event can be started without publishing anything. -/
theorem Accounted.dispatched_start (accounted : ledger.Accounted)
    (positive : 0 < ledger.bus.concurrencyNum) {event : α} {rest : List α}
    (pendingEq : ledger.bus.pending = event :: rest) :
    ∃ started, Dispatched ledger started ∧ started.started = ledger.started ++ [event] ∧
      started.bus.pending = rest := by
  obtain ⟨holding, toHolding, held, queued, sameStarted, -, -⟩ := dispatched_hold pendingEq
  have holdingAccounted := toHolding.accounted accounted
  obtain ⟨freed, toFreed, stillHeld, sameQueue, freedStarted, free⟩ :=
    holdingAccounted.dispatched_permit (toHolding.concurrencyNum ▸ positive)
  rw [held] at stillHeld
  have fired : freed.next .spawn =
      some ⟨{ freed.bus with
          received := none
          handling := freed.bus.handling ++ [event]
          available := freed.bus.available - 1 },
        freed.published, freed.started ++ [event], freed.finished⟩ := by
    simp [BusLedger.next, EventBus.next, EventBus.spawn, stillHeld, free, publishedBy, startedBy,
      finishedBy]
  refine ⟨_, (toHolding.trans toFreed).tail ⟨.spawn, trivial, fired⟩, ?_, ?_⟩
  · rw [freedStarted, sameStarted]
  · simp [EventBus.pending, sameQueue, queued]

/-- With a positive limit, the dispatcher and the handlers alone start every
pending event, in order. -/
theorem Accounted.dispatched_drain (accounted : ledger.Accounted)
    (positive : 0 < ledger.bus.concurrencyNum) :
    ∃ drained, Dispatched ledger drained ∧
      drained.started = ledger.started ++ ledger.bus.pending ∧ drained.bus.pending = [] := by
  -- induction on the pending events, each started by `dispatched_start`
  generalize pendingEq : ledger.bus.pending = pending
  induction pending generalizing ledger with
  | nil => exact ⟨ledger, Relation.ReflTransGen.refl, by simp, pendingEq⟩
  | cons event rest inductionHypothesis =>
      obtain ⟨first, toFirst, firstStarted, firstPending⟩ :=
        accounted.dispatched_start positive pendingEq
      obtain ⟨drained, toDrained, drainedStarted, drainedPending⟩ :=
        inductionHypothesis (toFirst.accounted accounted)
          (toFirst.concurrencyNum ▸ positive) firstPending
      refine ⟨drained, toFirst.trans toDrained, ?_, drainedPending⟩
      rw [drainedStarted, firstStarted, List.append_assoc, List.singleton_append]

/-- Without permits nothing is started. -/
theorem Accounted.startedBy_eq_nil (accounted : ledger.Accounted)
    (noPermits : ledger.bus.concurrencyNum = 0) {action : BusAction α}
    (fired : ledger.next action = some after) : startedBy ledger.bus action = [] := by
  cases action with
  | spawn =>
      obtain ⟨_, _, free, _⟩ := EventBus.spawn_eq_some (next_eq_some fired).1
      have held := accounted.permits
      unfold EventBus.PermitsHeld at held
      omega
  | publish event => rfl
  | receive => rfl
  | finish index => rfl

end BusLedger

/-- A bus with a positive `concurrency_limit` can always catch up: from every
reachable state, the dispatcher and the handlers alone, with nothing
published meanwhile, start every pending event in order.  A bus created with
`concurrency_limit` 0 never starts a handler: every event it is given stays
pending. -/
theorem bus_drains_iff_permits {α : Type u} {concurrencyLimit : Nat} {ledger : BusLedger α}
    (reached : Relation.ReflTransGen (Steps BusLedger.next fun _ _ => True)
      (BusLedger.new concurrencyLimit) ledger) :
    (0 < concurrencyLimit → ∃ drained, BusLedger.Dispatched ledger drained ∧
        drained.started = ledger.started ++ ledger.bus.pending ∧ drained.bus.pending = []) ∧
      (concurrencyLimit = 0 → ledger.started = [] ∧ ledger.bus.handling = []) := by
  have kept := @invariant_of_steps _ _ BusLedger.next (fun _ _ => True)
    (fun middle => middle.Accounted ∧ middle.bus.concurrencyNum = concurrencyLimit ∧
      (concurrencyLimit = 0 → middle.started = []))
    (fun source target action _ invariant fired => by
      obtain ⟨accounted, sameLimit, idle⟩ := invariant
      refine ⟨accounted.next fired,
        (EventBus.concurrencyNum_next (BusLedger.next_eq_some fired).1).trans sameLimit,
        fun noPermits => ?_⟩
      rw [(BusLedger.next_eq_some fired).2.2.1, idle noPermits,
        accounted.startedBy_eq_nil (sameLimit.trans noPermits) fired]
      rfl)
    _ _ reached ⟨BusLedger.accounted_new concurrencyLimit, rfl, fun _ => rfl⟩
  obtain ⟨accounted, sameLimit, idle⟩ := kept
  refine ⟨fun positive => accounted.dispatched_drain (sameLimit ▸ positive),
    fun noPermits => ⟨idle noPermits, ?_⟩⟩
  have held := accounted.permits
  unfold EventBus.PermitsHeld at held
  exact List.eq_nil_of_length_eq_zero (by omega)

/-- One permit, taken by the first of two events while the dispatcher holds
the second: the handler has to return before the second starts. -/
theorem one_permit_bus_drains :
    ∃ ledger, Relation.ReflTransGen (Steps BusLedger.next fun _ _ => True)
        (BusLedger.new 1) ledger ∧
      ledger.bus.received = some 2 ∧ ledger.bus.available = 0 ∧
      (0 < 1 → ∃ drained, BusLedger.Dispatched ledger drained ∧
        drained.started = ledger.started ++ ledger.bus.pending ∧ drained.bus.pending = []) ∧
      ((1 : Nat) = 0 → ledger.started = [] ∧ ledger.bus.handling = []) := by
  have replay : run BusLedger.next (BusLedger.new 1)
      [.publish 1, .publish 2, .receive, .spawn, .receive] = some _ := rfl
  have reached := reflTransGen_of_run (fun _ _ _ => trivial) replay
  exact ⟨_, reached, rfl, rfl, bus_drains_iff_permits reached⟩

/-- Over every interleaving, a bus starts its handlers in the order the
events were published, and loses and repeats none: what was published is
what was started followed by the held event and the channel, each started
event has finished or is running, and so every published event is exactly
once finished, running or pending. -/
theorem bus_starts_in_publish_order {α : Type u} {concurrencyLimit : Nat} {ledger : BusLedger α}
    (reached : Relation.ReflTransGen (Steps BusLedger.next fun _ _ => True)
      (BusLedger.new concurrencyLimit) ledger) :
    ledger.published = ledger.started ++ ledger.bus.pending ∧
      (ledger.finished ++ ledger.bus.handling).Perm ledger.started ∧
      ledger.published.Perm (ledger.finished ++ ledger.bus.handling ++ ledger.bus.pending) := by
  have accounted := BusLedger.accounted_of_reachable reached
  refine ⟨accounted.order, accounted.running, ?_⟩
  rw [accounted.order]
  exact accounted.running.symm.append_right _

end Riffle.Spill
