import Mathlib
import Riffle.App.Lifecycle

/-!
# Decommissioning the server

`DecommissionManager` (`src/decommission.rs`) holds the state a
`decommission` or `cancel_decommission` request (gRPC or the admin HTTP
endpoint) sets, with the wall-clock second it was set.  Every coordinator
heartbeat asks it for the server status; a server that has been
decommissioning for more than `kill_interval` seconds and has no app left
moves to `DECOMMISSIONED` and sends itself `SIGTERM`.

The server is modelled as the app manager of `Riffle.App.Lifecycle` beside
the decommission manager: the status report reads the number of alive apps
from the app map.  The `SIGTERM`s sent are counted in `sigterms`.
-/

namespace Riffle.Server

open Riffle.FixedWidth Riffle.Transition

/-- `DecommissionState`. -/
inductive DecommissionState where
  | noop
  | decommissioning
  | cancelDecommission
  | decommissioned
  deriving DecidableEq, Repr

/-- The protocol's `ServerStatus`. -/
inductive ServerStatus where
  | active
  | decommissioning
  | decommissioned
  deriving DecidableEq, Repr

/-- The seconds a server waits, decommissioning and without apps, before it
stops. -/
def interval : Nat :=
  60 * 10

/-- `DecommissionManager`: the state and the second it was set (`u64`),
`kill_interval` and `kill_signal_send_enable`, and the `SIGTERM`s sent. -/
structure DecommissionManager where
  state : DecommissionState
  stateTime : Nat
  killInterval : Nat
  killSignalSendEnable : Bool
  sigterms : Nat
  deriving DecidableEq, Repr

namespace DecommissionManager

def new (now : Nat) : DecommissionManager :=
  ⟨.noop, now, interval, true, 0⟩

def asState (manager : DecommissionManager) (state : DecommissionState) (now : Nat) :
    DecommissionManager :=
  { manager with state := state, stateTime := now }

/-- `get_server_status`: the status of the state it finds, and the move to
`DECOMMISSIONED` with its `SIGTERM`.  The elapsed time is a `u64`
difference. -/
def getServerStatus (manager : DecommissionManager) (aliveAppNumber now : Nat) :
    DecommissionManager × ServerStatus :=
  let serverStatus : ServerStatus :=
    match manager.state with
    | .noop => .active
    | .decommissioning => .decommissioning
    | .decommissioned => .decommissioning
    | .cancelDecommission => .active
  if manager.state = .decommissioning ∧ aliveAppNumber ≤ 0 ∧
      manager.killInterval < toUnsigned 64 ((now : Int) - manager.stateTime) then
    let decommissioned := manager.asState .decommissioned now
    (if decommissioned.killSignalSendEnable then
        { decommissioned with sigterms := decommissioned.sigterms + 1 }
      else decommissioned, serverStatus)
  else (manager, serverStatus)

end DecommissionManager

/-- The server: its apps and its decommission manager. -/
structure ShuffleServer where
  appManager : AppManager
  decommissionManager : DecommissionManager
  deriving DecidableEq

inductive ServerAction where
  | manager (action : ManagerAction)
  | decommission (now : Nat)
  | cancelDecommission (now : Nat)
  /-- the coordinator heartbeat's status report -/
  | heartbeat (now : Nat)
  deriving DecidableEq, Repr

/-- The decommission requests. -/
def ServerAction.isDecommission : ServerAction → Bool
  | .decommission _ => true
  | _ => false

namespace ShuffleServer

/-- `get_alive_app_number`. -/
def aliveAppNumber (server : ShuffleServer) : Nat :=
  server.appManager.apps.entries.length

def next (server : ShuffleServer) : ServerAction → Option ShuffleServer
  | .manager action =>
      (server.appManager.next action).map fun appManager => { server with appManager := appManager }
  | .decommission now =>
      some { server with
        decommissionManager := server.decommissionManager.asState .decommissioning now }
  | .cancelDecommission now =>
      some { server with
        decommissionManager := server.decommissionManager.asState .cancelDecommission now }
  | .heartbeat now =>
      some { server with
        decommissionManager :=
          (server.decommissionManager.getServerStatus server.aliveAppNumber now).1 }

/-- The `SIGTERM`s sent, and one more owed while decommissioning. -/
def sigtermsOwed (server : ShuffleServer) : Nat :=
  server.decommissionManager.sigterms +
    if server.decommissionManager.state = .decommissioning then 1 else 0

/-- Only a decommission request raises what is owed, and by one: a status
report that stops the server leaves the decommissioning state. -/
theorem sigtermsOwed_next {server after : ShuffleServer} {action : ServerAction}
    (fired : server.next action = some after) :
    after.sigtermsOwed ≤ server.sigtermsOwed + if action.isDecommission then 1 else 0 := by
  cases action with
  | manager action =>
      obtain ⟨appManager, -, rfl⟩ := Option.map_eq_some_iff.mp fired
      simp [sigtermsOwed, ServerAction.isDecommission]
  | decommission now =>
      cases fired
      simp [sigtermsOwed, ServerAction.isDecommission, DecommissionManager.asState]
  | cancelDecommission now =>
      cases fired
      simp [sigtermsOwed, ServerAction.isDecommission, DecommissionManager.asState]
  | heartbeat now =>
      cases fired
      unfold sigtermsOwed DecommissionManager.getServerStatus
      dsimp only
      by_cases stops : server.decommissionManager.state = .decommissioning ∧
          server.aliveAppNumber ≤ 0 ∧
          server.decommissionManager.killInterval <
            toUnsigned 64 ((now : Int) - server.decommissionManager.stateTime)
      · -- the report stops the server: the one owed SIGTERM, if sent, is paid
        -- out of the decommissioning state it leaves
        rw [if_pos stops, if_pos stops.1]
        simp only [DecommissionManager.asState, ServerAction.isDecommission]
        by_cases sends : server.decommissionManager.killSignalSendEnable = true <;> simp [sends]
      · rw [if_neg stops]
        simp [ServerAction.isDecommission]

end ShuffleServer

open ShuffleServer

/-- The server sends itself at most one `SIGTERM` for each decommission
request: over any run, the `SIGTERM`s sent, with one more owed while it is
decommissioning, grow by no more than the decommission requests received,
however many status reports, cancels and app changes come between. -/
theorem sigterm_once_per_decommission {server final : ShuffleServer}
    (actions : List ServerAction) (replay : run ShuffleServer.next server actions = some final) :
    final.sigtermsOwed ≤ server.sigtermsOwed + actions.countP ServerAction.isDecommission :=
  measure_le_countP_of_run sigtermsOwed ServerAction.isDecommission
    (fun _ _ _ fired => sigtermsOwed_next fired) replay

end Riffle.Server
