import Mathlib
import Riffle.Store.Block
import Riffle.Lib.FixedWidth
import Riffle.Lib.Transition

/-!
# Apps: registration, heartbeats and purges

`AppManager` (`src/app.rs`) keeps the registered apps in a `DashMap` and
runs two tasks beside the gRPC handlers.  Every ten seconds the heartbeat
checker walks the apps and queues an `APP_LEVEL_HEARTBEAT_TIMEOUT` purge for
each app whose latest heartbeat lies more than `app_heartbeat_timeout_min`
minutes back; the purger takes the queued events one by one and runs
`purge_app_data`, which removes an app-level event's app from the map and
then purges its data.  `unregister_shuffle` and `unregister_app` queue their
events on the same unbounded channel.

Of an app only its latest heartbeat is kept here: a `u64` of seconds of the
wall clock (`SystemTime`), read by the step that needs it.  The purges the
purger starts on the store are recorded in `storePurges`; what
`HybridStore::purge` does with them is modelled in `Riffle.Store`.  The
historical record of `purge_app_data` is left out: `save` cannot fail, so
the record changes nothing the lifecycle reads.

Three things follow from the code as it is.  An event names an app id, not
the app it was queued for: the purger removes whatever app is registered
under the id when it gets to the event, also one that registered again,
with a fresh heartbeat, after the event was queued.  Once an app is
removed, every later event for its id fails with the "should not happen"
error until an app of that id registers again; the checker queues such a
second event whenever the purger lags a round behind.  And the checker takes
`current - last_time` in `u64`: a wall clock stepped back below an app's
latest heartbeat wraps the difference round, and the app is purged.
-/

namespace Riffle

open Riffle.FixedWidth Riffle.Store Riffle.Transition

/-- A purge event that removes its app: the app-level ones. -/
def Store.PurgeReason.IsAppLevel (reason : PurgeReason) : Prop :=
  reason.extract.2 = none

instance (reason : PurgeReason) : Decidable reason.IsAppLevel :=
  inferInstanceAs (Decidable (reason.extract.2 = none))

/-- The status codes of the answers modelled here. -/
inductive StatusCode where
  | success
  | noRegister
  deriving DecidableEq, Repr

/-- The state of `AppManager`: the latest heartbeat of each registered app,
the queued purge events, `app_heartbeat_timeout_min`,
`PURGE_FAILED_COUNTER`, and the purges started on the store. -/
structure AppManager where
  apps : AList fun _ : String => Nat
  queue : List PurgeReason
  appHeartbeatTimeoutMin : Nat
  purgeFailed : Nat
  storePurges : List PurgeReason
  deriving DecidableEq

/-- The tasks of the manager and the requests that reach it. -/
inductive ManagerAction where
  /-- `AppManager::register`, whose `register_shuffle` beats at `now`. -/
  | register (appId : String) (now : Nat)
  /-- the gRPC `app_heartbeat`, and the heartbeat of `App::insert`. -/
  | heartbeat (appId : String) (now : Nat)
  | unregisterShuffle (appId : String) (shuffleId : Int)
  | unregisterApp (appId : String)
  /-- the heartbeat checker at one app of its round. -/
  | checkHeartbeat (appId : String) (now : Nat)
  /-- the purger at the head of the queue, with what the store purge returns. -/
  | purge (purged : Except String Unit)
  deriving DecidableEq, Repr

/-- The purger's steps, which take events off the queue. -/
def ManagerAction.isPurge : ManagerAction → Bool
  | .purge _ => true
  | _ => false

/-- The steps that register an app under `appId`. -/
def ManagerAction.registers (appId : String) : ManagerAction → Bool
  | .register registered _ => registered == appId
  | _ => false

namespace AppManager

/-- A manager with no app. -/
def new (appHeartbeatTimeoutMin : Nat) : AppManager :=
  ⟨∅, [], appHeartbeatTimeoutMin, 0, []⟩

/-- The checker's test: `current - last_time > (app_heartbeat_timeout_min * 60) as u64`,
with the subtraction in `u64` and the product in `u32`. -/
def isTimedOut (appHeartbeatTimeoutMin lastTime current : Nat) : Bool :=
  toUnsigned 32 (appHeartbeatTimeoutMin * 60) < toUnsigned 64 ((current : Int) - lastTime)

/-- `register`: the app entry is found or made, and `register_shuffle`
stores the heartbeat. -/
def register (manager : AppManager) (appId : String) (now : Nat) : AppManager :=
  { manager with apps := manager.apps.insert appId now }

/-- `app_heartbeat`: an app the manager does not know is answered
`NO_REGISTER`. -/
def appHeartbeat (manager : AppManager) (appId : String) (now : Nat) :
    AppManager × StatusCode × String :=
  match manager.apps.lookup appId with
  | none => (manager, .noRegister, "No such app in this shuffle server")
  | some _ => ({ manager with apps := manager.apps.insert appId now }, .success, "")

/-- One app of a checker round; the round only visits registered apps. -/
def checkHeartbeat (manager : AppManager) (appId : String) (now : Nat) :
    Option AppManager :=
  (manager.apps.lookup appId).map fun lastTime =>
    if isTimedOut manager.appHeartbeatTimeoutMin lastTime now then
      { manager with queue := manager.queue ++ [.appLevelHeartbeatTimeout appId] }
    else manager

/-- `purge_app_data`: an event for an unknown app fails; an app-level event
removes the app; then the app's data is purged. -/
def purgeAppData (manager : AppManager) (reason : PurgeReason) (purged : Except String Unit) :
    AppManager × Except String Unit :=
  let (appId, shuffleId) := reason.extract
  match manager.apps.lookup appId with
  | none =>
      (manager, .error ("App:" ++ appId ++ " don't exist when purging data, this should not happen"))
  | some _ =>
      let removed :=
        if shuffleId.isNone then { manager with apps := manager.apps.erase appId } else manager
      ({ removed with storePurges := removed.storePurges ++ [reason] }, purged)

/-- The purger: the next event, and a failure counted when `purge_app_data`
returns an error. -/
def purge (manager : AppManager) (purged : Except String Unit) : Option AppManager :=
  match manager.queue with
  | [] => none
  | reason :: rest =>
      let handled := purgeAppData { manager with queue := rest } reason purged
      some { handled.1 with
        purgeFailed := handled.1.purgeFailed + if handled.2.isOk then 0 else 1 }

def next (manager : AppManager) : ManagerAction → Option AppManager
  | .register appId now => some (manager.register appId now)
  | .heartbeat appId now => some (manager.appHeartbeat appId now).1
  | .unregisterShuffle appId shuffleId =>
      some { manager with queue := manager.queue ++ [.shuffleLevelExplicitUnregister appId shuffleId] }
  | .unregisterApp appId =>
      some { manager with queue := manager.queue ++ [.appLevelExplicitUnregister appId] }
  | .checkHeartbeat appId now => manager.checkHeartbeat appId now
  | .purge purged => manager.purge purged

variable {manager after : AppManager}

/-! ## The checker -/

/-- A wall clock read before an app's latest heartbeat always times it out:
the `u64` difference wraps round past any `u32` threshold. -/
theorem isTimedOut_of_lt (appHeartbeatTimeoutMin : Nat) {lastTime current : Nat}
    (recent : lastTime < 2 ^ 63) (back : current < lastTime) :
    isTimedOut appHeartbeatTimeoutMin lastTime current = true := by
  have threshold := toUnsigned_lt 32 (appHeartbeatTimeoutMin * 60)
  have wrapped : toUnsigned 64 ((current : Int) - lastTime) = 2 ^ 64 - (lastTime - current) :=
    toUnsigned_sub_of_lt back (by omega)
  unfold isTimedOut
  rw [wrapped, decide_eq_true_eq]
  omega

theorem checkHeartbeat_of_timedOut {appId : String} {lastTime now : Nat}
    (registered : manager.apps.lookup appId = some lastTime)
    (timedOut : isTimedOut manager.appHeartbeatTimeoutMin lastTime now = true) :
    manager.checkHeartbeat appId now =
      some { manager with queue := manager.queue ++ [.appLevelHeartbeatTimeout appId] } := by
  unfold checkHeartbeat
  rw [registered, Option.map_some, if_pos timedOut]

/-- An app the manager does not know is answered `NO_REGISTER`, and the
heartbeat leaves the manager as it is. -/
theorem appHeartbeat_of_absent {appId : String} (absent : manager.apps.lookup appId = none)
    (now : Nat) :
    manager.appHeartbeat appId now = (manager, .noRegister, "No such app in this shuffle server") := by
  unfold appHeartbeat
  rw [absent]

/-! ## The purger -/

/-- `purge_app_data` of an event whose app is not registered. -/
theorem purgeAppData_of_absent {reason : PurgeReason}
    (absent : manager.apps.lookup reason.extract.1 = none) (purged : Except String Unit) :
    purgeAppData manager reason purged =
      (manager, .error ("App:" ++ reason.extract.1 ++
        " don't exist when purging data, this should not happen")) := by
  unfold purgeAppData
  simp only [absent]

/-- `purge_app_data` of an event whose app is registered. -/
theorem purgeAppData_of_registered {reason : PurgeReason} {lastTime : Nat}
    (registered : manager.apps.lookup reason.extract.1 = some lastTime)
    (purged : Except String Unit) :
    purgeAppData manager reason purged =
      ({ manager with
          apps := if reason.IsAppLevel then manager.apps.erase reason.extract.1 else manager.apps
          storePurges := manager.storePurges ++ [reason] }, purged) := by
  unfold purgeAppData PurgeReason.IsAppLevel
  simp only [registered]
  by_cases appLevel : reason.extract.2 = none
  · simp [appLevel]
  · simp [appLevel, Option.isNone_iff_eq_none]

@[simp]
theorem purgeAppData_queue (reason : PurgeReason) (purged : Except String Unit) :
    (purgeAppData manager reason purged).1.queue = manager.queue := by
  cases registered : manager.apps.lookup reason.extract.1 with
  | none => rw [purgeAppData_of_absent registered]
  | some lastTime => rw [purgeAppData_of_registered registered]

/-- What `purge_app_data` leaves in the map: only an app-level event's own
app goes. -/
theorem lookup_purgeAppData (reason : PurgeReason) (purged : Except String Unit)
    (appId : String) :
    (purgeAppData manager reason purged).1.apps.lookup appId =
      if reason.IsAppLevel ∧ appId = reason.extract.1 then none
      else manager.apps.lookup appId := by
  by_cases same : appId = reason.extract.1
  · -- the event's own app
    subst same
    cases registered : manager.apps.lookup reason.extract.1 with
    | none =>
        rw [purgeAppData_of_absent registered]
        split_ifs <;> exact registered
    | some lastTime =>
        rw [purgeAppData_of_registered registered]
        by_cases appLevel : reason.IsAppLevel
        · simp [appLevel, AList.lookup_erase]
        · simp [appLevel, registered]
  · -- any other app is left as it was
    have kept : (purgeAppData manager reason purged).1.apps.lookup appId =
        manager.apps.lookup appId := by
      cases registered : manager.apps.lookup reason.extract.1 with
      | none => rw [purgeAppData_of_absent registered]
      | some lastTime =>
          rw [purgeAppData_of_registered registered]
          split_ifs
          · exact AList.lookup_erase_ne same
          · rfl
    simp [kept, same]

/-- An event whose app is not registered counts a failure and changes
nothing but the queue. -/
theorem purge_of_absent {reason : PurgeReason} {rest : List PurgeReason}
    (queued : manager.queue = reason :: rest)
    (absent : manager.apps.lookup reason.extract.1 = none) (purged : Except String Unit) :
    manager.purge purged =
      some { manager with queue := rest, purgeFailed := manager.purgeFailed + 1 } := by
  unfold purge
  rw [queued]
  simp only [purgeAppData_of_absent (show ({ manager with queue := rest } : AppManager).apps.lookup
    reason.extract.1 = none from absent)]
  rfl

/-- The purger takes the head of the queue and removes the app of an
app-level event. -/
theorem purge_eq_some {purged : Except String Unit} (fired : manager.purge purged = some after) :
    ∃ reason, manager.queue = reason :: after.queue ∧ ∀ appId,
      after.apps.lookup appId =
        if reason.IsAppLevel ∧ appId = reason.extract.1 then none
        else manager.apps.lookup appId := by
  unfold purge at fired
  split at fired
  · cases fired
  · rename_i reason rest queued
    cases fired
    refine ⟨reason, ?_, lookup_purgeAppData reason purged⟩
    rw [queued, purgeAppData_queue]

/-- The purger's step takes the queue's head. -/
theorem purge_pops_head {purged : Except String Unit}
    (fired : manager.next (.purge purged) = some after) :
    ∃ head, manager.queue = head :: after.queue := by
  obtain ⟨reason, queued, -⟩ := purge_eq_some fired
  exact ⟨reason, queued⟩

/-- Every other step only appends to the queue. -/
theorem next_queue_of_not_purge {action : ManagerAction} (kept : action.isPurge = false)
    (fired : manager.next action = some after) :
    ∃ added, after.queue = manager.queue ++ added := by
  cases action with
  | register appId now =>
      cases fired
      exact ⟨[], (List.append_nil _).symm⟩
  | heartbeat appId now =>
      cases fired
      refine ⟨[], ?_⟩
      unfold appHeartbeat
      split <;> simp
  | unregisterShuffle appId shuffleId =>
      cases fired
      exact ⟨_, rfl⟩
  | unregisterApp appId =>
      cases fired
      exact ⟨_, rfl⟩
  | checkHeartbeat appId now =>
      obtain ⟨lastTime, -, checked⟩ := Option.map_eq_some_iff.mp fired
      rw [← checked]
      split_ifs
      · exact ⟨_, rfl⟩
      · exact ⟨[], (List.append_nil _).symm⟩
  | purge purged =>
      cases kept

/-- The purge channel is FIFO: after as many purges as there were events
ahead of one, whatever else happened meanwhile, the event is at the head. -/
theorem queue_head_of_run {actions : List ManagerAction} {before behind : List PurgeReason}
    {reason : PurgeReason} {final : AppManager}
    (queued : manager.queue = before ++ reason :: behind)
    (reaches : actions.countP ManagerAction.isPurge = before.length)
    (replay : run next manager actions = some final) :
    ∃ later, final.queue = reason :: later := by
  refine head_of_run queue ManagerAction.isPurge ?_
    (fun _ _ _ kept fired => next_queue_of_not_purge kept fired) queued reaches replay
  intro source target action popping fired
  cases action with
  | purge purged => exact purge_pops_head fired
  | _ => cases popping

/-- The purge of an app-level event at the head of the queue leaves no app
under its id. -/
theorem purge_head_removes {reason : PurgeReason} {rest : List PurgeReason}
    (appLevel : reason.IsAppLevel) (queued : manager.queue = reason :: rest)
    {purged : Except String Unit} (fired : manager.next (.purge purged) = some after) :
    after.apps.lookup reason.extract.1 = none := by
  obtain ⟨head, popped, lookups⟩ := purge_eq_some fired
  rw [queued, List.cons.injEq] at popped
  rw [lookups, ← popped.1, if_pos ⟨appLevel, rfl⟩]

/-- The purge that reaches an app-level event removes its app. -/
theorem run_purge_removes {first : List ManagerAction} {before behind : List PurgeReason}
    {reason : PurgeReason} {reached final : AppManager} (appLevel : reason.IsAppLevel)
    (queued : manager.queue = before ++ reason :: behind)
    (reachesEvent : first.countP ManagerAction.isPurge = before.length)
    (replay : run next manager first = some reached) {purged : Except String Unit}
    (fired : reached.next (.purge purged) = some final) :
    final.apps.lookup reason.extract.1 = none := by
  obtain ⟨later, atHead⟩ := queue_head_of_run queued reachesEvent replay
  exact purge_head_removes appLevel atHead fired

/-- No step but a registration under `appId` puts an app there. -/
theorem next_absent {appId : String} {action : ManagerAction}
    (other : action.registers appId = false) (absent : manager.apps.lookup appId = none)
    (fired : manager.next action = some after) : after.apps.lookup appId = none := by
  cases action with
  | register registered now =>
      cases fired
      have different : appId ≠ registered := by
        rintro rfl
        simp [ManagerAction.registers] at other
      simp only [register]
      rw [AList.lookup_insert_ne different, absent]
  | heartbeat beating now =>
      cases fired
      unfold appHeartbeat
      split
      · exact absent
      · -- the app that beats is registered, so it is not `appId`
        rename_i lastTime found
        have different : appId ≠ beating := by
          rintro rfl
          rw [absent] at found
          cases found
        simp only
        rw [AList.lookup_insert_ne different, absent]
  | unregisterShuffle shuffleApp shuffleId =>
      cases fired
      exact absent
  | unregisterApp unregistered =>
      cases fired
      exact absent
  | checkHeartbeat checked now =>
      obtain ⟨lastTime, -, result⟩ := Option.map_eq_some_iff.mp fired
      rw [← result]
      split_ifs <;> exact absent
  | purge purged =>
      obtain ⟨reason, -, lookups⟩ := purge_eq_some fired
      rw [lookups]
      split_ifs
      · rfl
      · exact absent

/-- Until an app registers under `appId` again, no app is there. -/
theorem absent_of_run {appId : String} {actions : List ManagerAction} {final : AppManager}
    (others : ∀ action ∈ actions, action.registers appId = false)
    (absent : manager.apps.lookup appId = none)
    (replay : run next manager actions = some final) :
    final.apps.lookup appId = none :=
  @invariant_of_steps _ _ next (fun _ action => action.registers appId = false)
    (fun state => state.apps.lookup appId = none)
    (fun _ _ _ other stateAbsent fired => next_absent other stateAbsent fired) _ _
    (reflTransGen_of_run (fun _ action member => others action member) replay) absent

end AppManager

open AppManager

/-- Every app-level purge event removes the app registered under its id
when the purger reaches it.  From any state whose queue holds such an event,
once the purger has handled the events ahead of it, whatever else happened
meanwhile, and then the event itself, no app is registered under the id,
whatever the store purges returned.  This holds as well of an app that
registered again, with a fresh heartbeat, after the event was queued. -/
theorem appLevel_purge_removes_registered_app {manager final : AppManager}
    {reason : PurgeReason} (appLevel : reason.IsAppLevel) {before behind : List PurgeReason}
    (queued : manager.queue = before ++ reason :: behind) (first : List ManagerAction)
    (reachesEvent : first.countP ManagerAction.isPurge = before.length)
    (purged : Except String Unit)
    (replay : run next manager (first ++ [.purge purged]) = some final) :
    final.apps.lookup reason.extract.1 = none := by
  rw [run_append] at replay
  obtain ⟨reached, reachedRun, handled⟩ := Option.bind_eq_some_iff.mp replay
  rw [run_singleton] at handled
  exact run_purge_removes appLevel queued reachesEvent reachedRun handled

/-- Where the checker leaves app `a` when it times it out in two rounds
before the purger runs. -/
def laggingPurger : AppManager :=
  ⟨(∅ : AList fun _ : String => Nat).insert "a" 0,
    [.appLevelHeartbeatTimeout "a", .appLevelHeartbeatTimeout "a"], 10, 0, []⟩

/-- The checker lags the purger: it queues a second timeout before the
purger has handled the first, the app registers again after the first
purge, and the stale second event removes it. -/
theorem stale_timeout_purges_reregistered_app :
    run next (new 10) [.register "a" 0, .checkHeartbeat "a" 601, .checkHeartbeat "a" 611] =
        some laggingPurger ∧
      ∃ final, run next laggingPurger ([.purge (.ok ()), .register "a" 620] ++ [.purge (.ok ())]) =
          some final ∧
        final.apps.lookup "a" = none :=
  ⟨rfl, _, rfl, by
    exact appLevel_purge_removes_registered_app (by decide)
      (show laggingPurger.queue = [.appLevelHeartbeatTimeout "a"] ++ .appLevelHeartbeatTimeout "a" :: []
        from rfl)
      [.purge (.ok ()), .register "a" 620] rfl (.ok ()) rfl⟩

/-- A wall clock stepped back below an app's latest heartbeat makes the
checker purge the app.  The `u64` difference of the check wraps round past
any timeout, so the check queues a heartbeat-timeout event, and once the
purger has handled the events queued before it, whatever else happened
meanwhile (the app beating or registering again at the new clock), the app
is gone. -/
theorem stepped_back_clock_purges_app {manager final : AppManager} {appId : String}
    {lastTime now : Nat} (registered : manager.apps.lookup appId = some lastTime)
    (recent : lastTime < 2 ^ 63) (back : now < lastTime) (actions : List ManagerAction)
    (reachesEvent : actions.countP ManagerAction.isPurge = manager.queue.length)
    (purged : Except String Unit)
    (replay : run next manager (.checkHeartbeat appId now :: (actions ++ [.purge purged])) =
      some final) :
    final.apps.lookup appId = none := by
  have checked := checkHeartbeat_of_timedOut registered
    (isTimedOut_of_lt manager.appHeartbeatTimeoutMin recent back)
  rw [run_cons, show manager.next (.checkHeartbeat appId now) = _ from checked, Option.bind_some,
    run_append] at replay
  obtain ⟨reached, reachedRun, handled⟩ := Option.bind_eq_some_iff.mp replay
  rw [run_singleton] at handled
  have queued : ({ manager with queue := manager.queue ++ [.appLevelHeartbeatTimeout appId] } :
      AppManager).queue = manager.queue ++ .appLevelHeartbeatTimeout appId :: [] := rfl
  have timeout : (PurgeReason.appLevelHeartbeatTimeout appId).IsAppLevel := rfl
  exact run_purge_removes timeout queued reachesEvent reachedRun handled

/-- The clock is stepped back ten seconds below app `a`'s heartbeat: the
check purges the app although it beats again at the new clock. -/
theorem stepped_back_clock_purges_beating_app :
    ∃ final, run next ((new 10).register "a" 1000)
        (.checkHeartbeat "a" 990 :: ([.heartbeat "a" 995] ++ [.purge (.ok ())])) = some final ∧
      final.apps.lookup "a" = none :=
  ⟨_, rfl, by
    exact @stepped_back_clock_purges_app ((new 10).register "a" 1000) _ "a" 1000 990 rfl
      (by decide) (by decide) [.heartbeat "a" 995] rfl (.ok ()) rfl⟩

/-- Once the purger has removed an app, every later event for its id fails
with the "should not happen" error until an app registers under the id
again.  From any state whose queue holds an app-level event and, behind it,
another event for the same app: once the purger has handled the first event,
every heartbeat of the app is answered `NO_REGISTER` and changes nothing;
and once it has handled the events ahead of the second, with no registration
of the id since the first, the second is at the head, `purge_app_data`
returns the error, and the purger counts a failure and changes nothing but
the queue. -/
theorem events_after_app_purge_fail {manager prior : AppManager} {reason later : PurgeReason}
    (appLevel : reason.IsAppLevel) (sameApp : later.extract.1 = reason.extract.1)
    {before middle behind : List PurgeReason}
    (queued : manager.queue = before ++ reason :: (middle ++ later :: behind))
    (first rest : List ManagerAction) (handled : Except String Unit)
    (reachesEvent : first.countP ManagerAction.isPurge = before.length)
    (reachesLater : rest.countP ManagerAction.isPurge = middle.length)
    (noRegistration : ∀ action ∈ rest, action.registers reason.extract.1 = false)
    (replay : run next manager (first ++ .purge handled :: rest) = some prior)
    (purged : Except String Unit) :
    (∀ shorter, shorter <+: rest → ∀ between,
      run next manager (first ++ .purge handled :: shorter) = some between → ∀ now,
        between.appHeartbeat reason.extract.1 now =
          (between, .noRegister, "No such app in this shuffle server")) ∧
    ∃ remaining, prior.queue = later :: remaining ∧
      (purgeAppData { prior with queue := remaining } later purged).2 =
        .error ("App:" ++ later.extract.1 ++ " don't exist when purging data, this should not happen") ∧
      prior.next (.purge purged) =
        some { prior with queue := remaining, purgeFailed := prior.purgeFailed + 1 } := by
  -- the first event removes the app, and nothing registers it again
  have absentAfter : ∀ shorter, shorter <+: rest → ∀ between,
      run next manager (first ++ .purge handled :: shorter) = some between →
        between.apps.lookup reason.extract.1 = none := by
    intro shorter isPrefix between shorterReplay
    rw [run_append] at shorterReplay
    obtain ⟨reached, reachedRun, tail⟩ := Option.bind_eq_some_iff.mp shorterReplay
    rw [run_cons] at tail
    obtain ⟨removed, fired, restRun⟩ := Option.bind_eq_some_iff.mp tail
    have gone := run_purge_removes appLevel queued reachesEvent reachedRun fired
    exact absent_of_run (fun action member => noRegistration action (isPrefix.subset member))
      gone restRun
  refine ⟨fun shorter isPrefix between shorterReplay now =>
    appHeartbeat_of_absent (absentAfter shorter isPrefix between shorterReplay) now, ?_⟩
  -- the second event is at the head once all events ahead of it are handled
  have laterQueued : manager.queue = (before ++ reason :: middle) ++ later :: behind := by
    rw [queued, List.append_assoc, List.cons_append]
  have reachesLater' : (first ++ .purge handled :: rest).countP ManagerAction.isPurge =
      (before ++ reason :: middle).length := by
    simp only [List.countP_append, List.countP_cons, List.length_append, List.length_cons,
      reachesEvent, reachesLater]
    rfl
  obtain ⟨remaining, atHead⟩ := queue_head_of_run laterQueued reachesLater' replay
  have absent := absentAfter rest (List.prefix_refl rest) prior replay
  rw [← sameApp] at absent
  refine ⟨remaining, atHead, ?_, purge_of_absent atHead absent purged⟩
  rw [purgeAppData_of_absent (show ({ prior with queue := remaining } : AppManager).apps.lookup
    later.extract.1 = none from absent)]

/-- The purger handles the first of two timeouts of app `a`, the app beats
and is answered `NO_REGISTER`, and the second timeout fails. -/
theorem second_timeout_of_purged_app_fails :
    ∃ prior, run next laggingPurger ([] ++ .purge (.ok ()) :: [.heartbeat "a" 620]) = some prior ∧
      (∀ shorter, shorter <+: [ManagerAction.heartbeat "a" 620] → ∀ between,
        run next laggingPurger ([] ++ .purge (.ok ()) :: shorter) = some between → ∀ now,
          between.appHeartbeat (PurgeReason.appLevelHeartbeatTimeout "a").extract.1 now =
            (between, .noRegister, "No such app in this shuffle server")) ∧
      ∃ remaining, prior.queue = .appLevelHeartbeatTimeout "a" :: remaining ∧
        (purgeAppData { prior with queue := remaining } (.appLevelHeartbeatTimeout "a") (.ok ())).2 =
          .error ("App:" ++ (PurgeReason.appLevelHeartbeatTimeout "a").extract.1 ++
            " don't exist when purging data, this should not happen") ∧
        prior.next (.purge (.ok ())) =
          some { prior with queue := remaining, purgeFailed := prior.purgeFailed + 1 } :=
  ⟨_, rfl, by
    exact events_after_app_purge_fail (by decide) rfl
      (show laggingPurger.queue = [] ++ .appLevelHeartbeatTimeout "a" ::
        ([] ++ .appLevelHeartbeatTimeout "a" :: []) from rfl)
      [] [.heartbeat "a" 620] (.ok ()) rfl rfl (by decide) rfl (.ok ())⟩

end Riffle
