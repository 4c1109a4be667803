import Riffle.Store.Durability
import Riffle.Store.UsedMemory

/-!
# A purge is not final for a send in flight

`AppManager::purge_app_data` (`src/app.rs`) removes the app from the manager
and then purges its data: `HybridStore::purge` drops the app's buffers from
`MemoryStore.state` and their `total_size` from `used` (`HotStoreState.purge`).
A send request that took its `Arc<App>` from `get_app` before the removal is
not stopped by it.  Its next `App::insert` reaches `MemoryStore::insert`,
whose `get_or_create_buffer` makes the partition's buffer anew
(`insertPartition_purge`); the staging lookup finds that buffer, and the send
then moves the bytes into `used`.
Nothing purges the app again: the manager no longer lists it, so neither the
heartbeat checker nor an unregister finds it.
-/

namespace Riffle.Store

open Riffle.KeyedTotal Riffle.Transition MemoryStore

namespace HotStoreState

/-- No buffer of a partition of `appId` is in the memory store. -/
def NoBufferOf (state : HotStoreState) (appId : String) : Prop :=
  ∀ uid ∈ state.store.state.keys, uid.appId ≠ appId

instance (state : HotStoreState) (appId : String) : Decidable (state.NoBufferOf appId) :=
  inferInstanceAs (Decidable (∀ uid ∈ state.store.state.keys, uid.appId ≠ appId))

/-- The `total_size` of the buffers of `appId`. -/
def appTotal (state : HotStoreState) (appId : String) : Int :=
  bufferedTotal (filter (purgeMatches appId none) state.store.state)

variable {state : HotStoreState}

/-- The purge step itself leaves no buffer of the app. -/
theorem noBufferOf_purge (appId : String) : (state.purge appId none).NoBufferOf appId := by
  intro uid member same
  have kept := (mem_filter.mp (AList.mem_keys.mpr member)).1
  simp [purgeMatches, same] at kept

@[simp]
theorem purge_requests (appId : String) (shuffleId : Option Int) :
    (state.purge appId shuffleId).requests = state.requests :=
  rfl

/-- A send that released its ticket before the purge of its app, and has a
partition left to insert, appends it after the purge: the buffer of that
partition is in the store again. -/
theorem insertPartition_purge {task : Nat} {request : SendRequest} {partitionId : Int}
    {blocks : List Block} {rest : List (Int × List Block)}
    (found : state.requests.lookup task = some request) (inFlight : request.stage.isReady = true)
    (pending : request.remaining = (partitionId, blocks) :: rest) :
    ∃ next, (state.purge request.appId none).insertPartition task = some next ∧
      request.uidOf partitionId ∈ next.store.state.keys := by
  unfold insertPartition
  rw [purge_requests, found, Option.bind_some, if_pos inFlight, pending]
  refine ⟨_, rfl, ?_⟩
  -- `get_or_create_buffer` inserts the partition's buffer whatever the purge left
  exact AList.mem_keys.mp ((AList.mem_insert _).mpr (Or.inl rfl))

/-- The staging lookup and the move of a send keep the store's buffers. -/
theorem state_of_staging_and_move {staged moved : HotStoreState} {task : Nat}
    (staging : state.getBufferStagingSize task = some staged)
    (moving : staged.moveAllocated task = some moved) :
    moved.store.state = state.store.state := by
  obtain ⟨_, _, _, _, rfl⟩ := moveAllocated_eq_some moving
  obtain ⟨_, _, _, _, _, rfl⟩ := getBufferStagingSize_eq_some staging
  exact moveAllocatedToUsed_state _ _

/-- The race for every state: a send that released its ticket before the
purge of its app, with one partition left to insert, inserts it, looks up its
staging size and moves its bytes, and its app then has a buffer again. -/
theorem send_after_purge_keeps_buffer {task : Nat} {request : SendRequest} {partitionId : Int}
    {blocks : List Block} {later : HotStoreState}
    (found : state.requests.lookup task = some request) (inFlight : request.stage.isReady = true)
    (pending : request.remaining = [(partitionId, blocks)])
    (ran : run hotStoreNext (state.purge request.appId none)
      [.insertPartition task, .getBufferStagingSize task, .moveAllocated task] = some later) :
    ¬ later.NoBufferOf request.appId := by
  obtain ⟨inserted, insertStep, member⟩ := insertPartition_purge found inFlight pending
  -- the send's three steps, one at a time
  rw [run_cons] at ran
  obtain ⟨_, firstStep, afterInsert⟩ := Option.bind_eq_some_iff.mp ran
  rw [hotStoreNext, insertStep, Option.some.injEq] at firstStep
  subst firstStep
  rw [run_cons] at afterInsert
  obtain ⟨staged, staging, moving⟩ := Option.bind_eq_some_iff.mp afterInsert
  rw [run_singleton] at moving
  have kept := state_of_staging_and_move staging moving
  intro noBuffer
  exact noBuffer (request.uidOf partitionId) (kept ▸ member) rfl

end HotStoreState

open HotStoreState

/-- A gRPC send of 10 bytes to partition 0 of `app` releases its ticket, and
then the app is purged. -/
def sendThenPurge : List HotStoreAction :=
  [.requireAllocated 10, .insertTicket 1,
    .releaseTicket .grpc "app" 0 1 [(0, [⟨1, 10, 10, 0, List.replicate 10 0, 0⟩])],
    .purge "app" none]

/-- The state the purge finds: the send has released its ticket. -/
def beforePurge : HotStoreState :=
  (run hotStoreNext (start (MemoryStore.from 100)) sendThenPurge.dropLast).getD
    (start (MemoryStore.from 100))

def afterPurge : HotStoreState :=
  (run hotStoreNext (start (MemoryStore.from 100)) sendThenPurge).getD
    (start (MemoryStore.from 100))

/-- The failing interleaving: after `sendThenPurge` the send inserts and moves
its bytes.  Right after the purge no buffer of `app` is left and `used` is 0;
afterwards `app` has a buffer again and all 10 bytes of `used` are its. -/
theorem late_insert_resurrects_purged_app :
    ∃ later, Relation.ReflTransGen (Steps hotStoreNext fun _ _ => True)
        (start (MemoryStore.from 100)) afterPurge ∧
      afterPurge.NoBufferOf "app" ∧ afterPurge.store.budget.used = 0 ∧
      Relation.ReflTransGen (Steps hotStoreNext fun _ _ => True) afterPurge later ∧
      ¬ later.NoBufferOf "app" ∧ later.store.budget.used = 10 ∧ later.appTotal "app" = 10 := by
  have purging : run hotStoreNext (start (MemoryStore.from 100)) sendThenPurge =
      some afterPurge := rfl
  have inserting : run hotStoreNext afterPurge
      [.insertPartition 0, .getBufferStagingSize 0, .moveAllocated 0] = some _ := rfl
  -- the purge is the last step, and the send is still in flight when it runs
  have purged : afterPurge = beforePurge.purge "app" none := rfl
  refine ⟨_, reflTransGen_of_run (fun _ _ _ => trivial) purging, purged ▸ noBufferOf_purge "app",
    rfl, reflTransGen_of_run (fun _ _ _ => trivial) inserting,
    @send_after_purge_keeps_buffer beforePurge 0 _ 0 _ _ rfl rfl rfl inserting, rfl, by decide⟩

end Riffle.Store
