import Mathlib
import Riffle.Lib.Transition

/-!
# The token-bucket io limiter

`TokenBucketLimiter` (`src/store/local/limiter.rs`) throttles the direct
reads and appends of one local disk: `LocalDiskDelegator::get_permit` calls
`acquire(len)` before every direct append and `acquire(14 MiB)` before every
direct read.  The bucket is the `Inner` record behind a tokio mutex; a
`Notify` wakes the acquiring tasks after a refill.

The tasks interleave with the refill task at the points where `acquire`
gives up the mutex, so each task is modelled by the point its loop has
reached (`AcquirePhase`):

* `locking`: it waits for the mutex, or holds it and is about to compare;
  the comparison and what follows up to `drop(inner)` are one step, since
  the mutex is held throughout;
* `unlocked`: the comparison failed and `drop(inner)` released the mutex,
  but `self.notify.notified()` has not created its `Notified` yet;
* `waiting`: the `Notified` exists; `notify_waiters` completes every
  `Notified` created before the call, polled or not;
* `acquired`: `acquire` returned.

`fill_rate` and `last_refill` only decide how many tokens a refill adds, so
that number is the refill step's argument, chosen by the environment.

The results: the bucket never holds more than its capacity and never lets
through more than its capacity plus what the refills added; an acquire of
more than the capacity never returns; a task that misses the notification
of the refill which fills the bucket waits for good, while any other task
whose amount fits gets its tokens by refills alone.
-/

namespace Riffle.Local

open Riffle.Transition

/-- How far a task's `acquire` call has got. -/
inductive AcquirePhase
  | locking
  | unlocked
  | waiting
  | acquired
  deriving DecidableEq, Repr

/-- One call of `TokenBucketLimiter::acquire`. -/
structure Acquire where
  amount : Nat
  phase : AcquirePhase
  deriving DecidableEq, Repr

/-- The limiter's `Inner` with the calls of `acquire` in flight, indexed by
the order they were made in. -/
structure TokenBucketLimiter where
  capacity : Nat
  tokens : Nat
  acquires : List Acquire
  deriving DecidableEq, Repr

/-- `TokenBucketLimiter::new`: the bucket starts full. -/
def TokenBucketLimiter.new (capacity : Nat) : TokenBucketLimiter :=
  ⟨capacity, capacity, []⟩

/-- The permit `LocalDiskDelegator::direct_read` asks for, whatever length
it reads: `14 * 1024 * 1024`. -/
def directReadPermit : Nat :=
  14 * 1024 * 1024

/-- The environment's moves: a task calls `acquire`; a task holding the
mutex compares; a task creates its `Notified`; the periodic task refills. -/
inductive LimiterAction
  | acquire (amount : Nat)
  | check (task : Nat)
  | register (task : Nat)
  | refill (newTokens : Nat)
  deriving DecidableEq, Repr

/-- `notify_waiters` completes the task's `Notified`; it goes back to the
mutex. -/
def Acquire.wake (acquire : Acquire) : Acquire :=
  match acquire.phase with
  | .waiting => { acquire with phase := .locking }
  | _ => acquire

namespace TokenBucketLimiter

/-- `if *tokens >= amount` in `acquire`'s loop, with the mutex held: take
the tokens and return, or `drop(inner)`. -/
def check (limiter : TokenBucketLimiter) (task : Nat) : Option TokenBucketLimiter :=
  match limiter.acquires[task]? with
  | some ⟨amount, .locking⟩ =>
      if amount ≤ limiter.tokens then
        some { limiter with
          tokens := limiter.tokens - amount
          acquires := limiter.acquires.set task ⟨amount, .acquired⟩ }
      else
        some { limiter with acquires := limiter.acquires.set task ⟨amount, .unlocked⟩ }
  | _ => none

/-- `self.notify.notified()` after `drop(inner)`. -/
def register (limiter : TokenBucketLimiter) (task : Nat) : Option TokenBucketLimiter :=
  match limiter.acquires[task]? with
  | some ⟨amount, .unlocked⟩ =>
      some { limiter with acquires := limiter.acquires.set task ⟨amount, .waiting⟩ }
  | _ => none

/-- `refill`: nothing when the bucket is full; otherwise the new tokens,
capped at the capacity, and `notify_waiters` if there are any.  The sum
`inner.tokens + new_tokens` is a `usize` addition, which wraps in the
crate's builds. -/
def refill (limiter : TokenBucketLimiter) (newTokens : Nat) : TokenBucketLimiter :=
  if limiter.capacity ≤ limiter.tokens then limiter
  else if 0 < newTokens then
    { limiter with
      tokens := min ((limiter.tokens + newTokens) % 2 ^ 64) limiter.capacity
      acquires := limiter.acquires.map Acquire.wake }
  else limiter

def next (limiter : TokenBucketLimiter) : LimiterAction → Option TokenBucketLimiter
  | .acquire amount =>
      some { limiter with acquires := limiter.acquires ++ [⟨amount, .locking⟩] }
  | .check task => limiter.check task
  | .register task => limiter.register task
  | .refill newTokens => some (limiter.refill newTokens)

end TokenBucketLimiter

/-- The tokens a call has taken out of the bucket. -/
def Acquire.granted (acquire : Acquire) : Nat :=
  if acquire.phase = .acquired then acquire.amount else 0

/-- The tokens taken out of the bucket by the calls that returned. -/
def TokenBucketLimiter.granted (limiter : TokenBucketLimiter) : Nat :=
  (limiter.acquires.map Acquire.granted).sum

/-- The tokens an action adds at most. -/
def LimiterAction.refilled : LimiterAction → Nat
  | .refill newTokens => newTokens
  | _ => 0

/-- A new call of `acquire`; every other action is a step of calls already
made or of the refill task. -/
def LimiterAction.IsAcquire : LimiterAction → Prop
  | .acquire _ => True
  | _ => False

/-! ## One step of the limiter -/

theorem sum_map_set_add {α : Type} (f : α → Nat) {items : List α} {index : Nat}
    {old : α} (lookup : items[index]? = some old) (new : α) :
    ((items.set index new).map f).sum + f old = (items.map f).sum + f new := by
  obtain ⟨inside, rfl⟩ := List.getElem?_eq_some_iff.mp lookup
  have split := List.sum_take_add_sum_drop (items.map f) index
  rw [List.drop_eq_getElem_cons (by simpa using inside), List.sum_cons,
    List.getElem_map] at split
  rw [List.map_set, List.sum_set, if_pos (by simpa using inside)]
  omega

@[simp]
theorem Acquire.granted_acquired (amount : Nat) : (⟨amount, .acquired⟩ : Acquire).granted = amount :=
  rfl

theorem Acquire.granted_eq_zero (amount : Nat) {phase : AcquirePhase}
    (pending : phase ≠ .acquired) : (⟨amount, phase⟩ : Acquire).granted = 0 :=
  if_neg pending

@[simp]
theorem Acquire.wake_granted (acquire : Acquire) : acquire.wake.granted = acquire.granted := by
  obtain ⟨amount, phase⟩ := acquire
  cases phase <;> rfl

@[simp]
theorem Acquire.wake_amount (acquire : Acquire) : acquire.wake.amount = acquire.amount := by
  obtain ⟨amount, phase⟩ := acquire
  cases phase <;> rfl

namespace TokenBucketLimiter

variable {limiter after : TokenBucketLimiter} {task : Nat}

theorem check_eq_some (fired : limiter.check task = some after) :
    ∃ amount, limiter.acquires[task]? = some ⟨amount, .locking⟩ ∧
      (amount ≤ limiter.tokens ∧
          after = { limiter with
            tokens := limiter.tokens - amount
            acquires := limiter.acquires.set task ⟨amount, .acquired⟩ } ∨
        limiter.tokens < amount ∧
          after = { limiter with acquires := limiter.acquires.set task ⟨amount, .unlocked⟩ }) := by
  unfold check at fired
  split at fired
  · rename_i amount lookup
    refine ⟨amount, lookup, ?_⟩
    split at fired
    · exact .inl ⟨by assumption, (Option.some.inj fired).symm⟩
    · exact .inr ⟨by omega, (Option.some.inj fired).symm⟩
  · cases fired

theorem register_eq_some (fired : limiter.register task = some after) :
    ∃ amount, limiter.acquires[task]? = some ⟨amount, .unlocked⟩ ∧
      after = { limiter with acquires := limiter.acquires.set task ⟨amount, .waiting⟩ } := by
  unfold register at fired
  split at fired
  · rename_i amount lookup
    exact ⟨amount, lookup, (Option.some.inj fired).symm⟩
  · cases fired

@[simp]
theorem refill_capacity (newTokens : Nat) : (limiter.refill newTokens).capacity = limiter.capacity := by
  unfold refill
  split_ifs <;> rfl

theorem refill_tokens_le (newTokens : Nat) :
    (limiter.refill newTokens).tokens ≤ limiter.tokens + newTokens := by
  unfold refill
  split_ifs
  · omega
  · exact (min_le_left _ _).trans (Nat.mod_le _ _)
  · omega

theorem refill_granted (newTokens : Nat) : (limiter.refill newTokens).granted = limiter.granted := by
  unfold refill granted
  split_ifs
  · rfl
  · simp [Function.comp_def]
  · rfl

theorem capacity_next {action : LimiterAction} (fired : limiter.next action = some after) :
    after.capacity = limiter.capacity := by
  cases action with
  | acquire amount => cases fired; rfl
  | check task =>
      obtain ⟨_, _, ⟨_, rfl⟩ | ⟨_, rfl⟩⟩ := check_eq_some fired <;> rfl
  | register task =>
      obtain ⟨_, _, rfl⟩ := register_eq_some fired
      rfl
  | refill newTokens =>
      cases fired
      exact refill_capacity newTokens

/-! ## What the bucket lets through -/

/-- The bucket holds at most its capacity, and every call that returned
asked for at most the capacity. -/
structure Bounded (limiter : TokenBucketLimiter) : Prop where
  tokens : limiter.tokens ≤ limiter.capacity
  grants : ∀ acquire ∈ limiter.acquires, acquire.phase = .acquired →
    acquire.amount ≤ limiter.capacity

theorem bounded_new (capacity : Nat) : (new capacity).Bounded :=
  ⟨le_rfl, by simp [new]⟩

/-- A call whose phase is set keeps the bound on grants if its new phase
is not `acquired` or it fits the capacity. -/
theorem Bounded.grants_set (bounded : limiter.Bounded) (amount : Nat) (phase : AcquirePhase)
    (fits : phase = .acquired → amount ≤ limiter.capacity) :
    ∀ acquire ∈ limiter.acquires.set task ⟨amount, phase⟩, acquire.phase = .acquired →
      acquire.amount ≤ limiter.capacity := by
  intro acquire member granted
  rcases List.mem_or_eq_of_mem_set member with old | rfl
  · exact bounded.grants acquire old granted
  · exact fits granted

theorem Bounded.refill (bounded : limiter.Bounded) (newTokens : Nat) :
    (limiter.refill newTokens).Bounded := by
  unfold TokenBucketLimiter.refill
  split_ifs
  · exact bounded
  · refine ⟨min_le_right _ _, ?_⟩
    simp only [List.mem_map]
    rintro _ ⟨acquire, member, rfl⟩ granted
    have wasGranted : acquire.phase = .acquired := by
      obtain ⟨amount, phase⟩ := acquire
      cases phase <;> simp_all [Acquire.wake]
    simpa using bounded.grants acquire member wasGranted
  · exact bounded

theorem Bounded.next (bounded : limiter.Bounded) {action : LimiterAction}
    (fired : limiter.next action = some after) : after.Bounded := by
  cases action with
  | acquire amount =>
      cases fired
      refine ⟨bounded.tokens, ?_⟩
      simp only [List.mem_append, List.mem_singleton]
      rintro acquire (old | rfl) granted
      · exact bounded.grants acquire old granted
      · cases granted
  | check task =>
      obtain ⟨amount, _, ⟨enough, rfl⟩ | ⟨_, rfl⟩⟩ := check_eq_some fired
      · -- the call returns: its amount came out of a bucket within capacity
        exact ⟨by have := bounded.tokens; dsimp only; omega,
          bounded.grants_set amount .acquired fun _ => enough.trans bounded.tokens⟩
      · exact ⟨bounded.tokens, bounded.grants_set amount .unlocked nofun⟩
  | register task =>
      obtain ⟨amount, _, rfl⟩ := register_eq_some fired
      exact ⟨bounded.tokens, bounded.grants_set amount .waiting nofun⟩
  | refill newTokens =>
      cases fired
      exact bounded.refill newTokens

theorem bounded_of_reachable {capacity : Nat}
    (reached : Relation.ReflTransGen (Steps next fun _ _ => True) (new capacity) limiter) :
    limiter.Bounded ∧ limiter.capacity = capacity :=
  @invariant_of_steps _ _ next _ (fun middle => middle.Bounded ∧ middle.capacity = capacity)
    (fun _ _ _ _ invariant fired =>
      ⟨invariant.1.next fired, (capacity_next fired).trans invariant.2⟩)
    _ _ reached ⟨bounded_new capacity, rfl⟩

/-- No step adds to the bucket and the grants together more than its
action's refill. -/
theorem tokens_add_granted_next {action : LimiterAction} (fired : limiter.next action = some after) :
    after.tokens + after.granted ≤ limiter.tokens + limiter.granted + action.refilled := by
  cases action with
  | acquire amount =>
      cases fired
      simp [granted, Acquire.granted, LimiterAction.refilled]
  | check task =>
      obtain ⟨amount, lookup, ⟨enough, rfl⟩ | ⟨_, rfl⟩⟩ := check_eq_some fired
      · -- the tokens move from the bucket to the call's grant
        have moved := sum_map_set_add Acquire.granted lookup ⟨amount, .acquired⟩
        rw [Acquire.granted_eq_zero amount (by decide), Acquire.granted_acquired] at moved
        simp only [granted, LimiterAction.refilled]
        omega
      · have moved := sum_map_set_add Acquire.granted lookup ⟨amount, .unlocked⟩
        rw [Acquire.granted_eq_zero amount (by decide),
          Acquire.granted_eq_zero amount (by decide)] at moved
        simp only [granted, LimiterAction.refilled]
        omega
  | register task =>
      obtain ⟨amount, lookup, rfl⟩ := register_eq_some fired
      have moved := sum_map_set_add Acquire.granted lookup ⟨amount, .waiting⟩
      rw [Acquire.granted_eq_zero amount (by decide),
        Acquire.granted_eq_zero amount (by decide)] at moved
      simp only [granted, LimiterAction.refilled]
      omega
  | refill newTokens =>
      cases fired
      have added : (limiter.refill newTokens).tokens ≤ limiter.tokens + newTokens :=
        refill_tokens_le newTokens
      rw [refill_granted]
      simp only [LimiterAction.refilled]
      omega

/-! ## Waking up -/

/-- Every call has returned or waits on its `Notified`. -/
def Quiescent (limiter : TokenBucketLimiter) : Prop :=
  ∀ acquire ∈ limiter.acquires, acquire.phase = .waiting ∨ acquire.phase = .acquired

instance (limiter : TokenBucketLimiter) : Decidable limiter.Quiescent :=
  inferInstanceAs (Decidable (∀ acquire ∈ limiter.acquires, _ ∨ _))

/-- The runs of the calls already made and of the refill task. -/
def Proceeds (limiter after : TokenBucketLimiter) : Prop :=
  Relation.ReflTransGen (Steps next fun _ action => ¬ action.IsAcquire) limiter after

/-- With the bucket full and no call at the mutex, no step but a new call
fires a change: a refill returns early, before `notify_waiters`. -/
theorem Quiescent.next_eq (quiet : limiter.Quiescent) (full : limiter.capacity ≤ limiter.tokens)
    {action : LimiterAction} (notAcquire : ¬ action.IsAcquire)
    (fired : limiter.next action = some after) : after = limiter := by
  cases action with
  | acquire amount => exact absurd trivial notAcquire
  | check task =>
      obtain ⟨amount, lookup, -⟩ := check_eq_some fired
      rcases quiet _ (List.mem_of_getElem? lookup) with phase | phase <;> cases phase
  | register task =>
      obtain ⟨amount, lookup, -⟩ := register_eq_some fired
      rcases quiet _ (List.mem_of_getElem? lookup) with phase | phase <;> cases phase
  | refill newTokens =>
      cases fired
      exact if_pos full

/-- A refill of the tokens missing from a bucket that is not full fills it
and wakes every waiting call. -/
theorem refill_missing (below : limiter.tokens < limiter.capacity)
    (small : limiter.capacity < 2 ^ 64) :
    limiter.refill (limiter.capacity - limiter.tokens) =
      { limiter with
        tokens := limiter.capacity
        acquires := limiter.acquires.map Acquire.wake } := by
  have filled : (limiter.tokens + (limiter.capacity - limiter.tokens)) % 2 ^ 64 =
      limiter.capacity := by
    rw [Nat.add_sub_cancel' below.le, Nat.mod_eq_of_lt small]
  rw [refill, if_neg (by omega), if_pos (by omega), filled, min_self]

/-- A call at the mutex whose amount is in the bucket returns. -/
theorem check_grants {amount : Nat} (lookup : limiter.acquires[task]? = some ⟨amount, .locking⟩)
    (enough : amount ≤ limiter.tokens) :
    ∃ granted, limiter.Proceeds granted ∧
      granted.acquires[task]? = some ⟨amount, .acquired⟩ := by
  have inside : task < limiter.acquires.length := (List.getElem?_eq_some_iff.mp lookup).1
  have fired : limiter.next (.check task) = some { limiter with
      tokens := limiter.tokens - amount
      acquires := limiter.acquires.set task ⟨amount, .acquired⟩ } := by
    simp only [next, check, lookup, if_pos enough]
  exact ⟨_, .single ⟨.check task, id, fired⟩, List.getElem?_set_self inside⟩

/-- A call at the mutex whose amount fits the capacity returns, after a
refill if the bucket holds too few tokens. -/
theorem locking_completes {amount : Nat}
    (lookup : limiter.acquires[task]? = some ⟨amount, .locking⟩)
    (fits : amount ≤ limiter.capacity) (small : limiter.capacity < 2 ^ 64) :
    ∃ granted, limiter.Proceeds granted ∧
      granted.acquires[task]? = some ⟨amount, .acquired⟩ := by
  by_cases enough : amount ≤ limiter.tokens
  · exact check_grants lookup enough
  · -- the bucket is short of the amount, so it is not full and a refill fills it
    have below : limiter.tokens < limiter.capacity := by omega
    have fired : limiter.next (.refill (limiter.capacity - limiter.tokens)) =
        some { limiter with
          tokens := limiter.capacity
          acquires := limiter.acquires.map Acquire.wake } := by
      rw [next, refill_missing below small]
    have stillLocking : ({ limiter with
        tokens := limiter.capacity
        acquires := limiter.acquires.map Acquire.wake } :
          TokenBucketLimiter).acquires[task]? = some ⟨amount, .locking⟩ := by
      rw [List.getElem?_map, lookup]
      rfl
    obtain ⟨granted, toGranted, returned⟩ := check_grants stillLocking fits
    exact ⟨granted, Relation.ReflTransGen.head ⟨_, id, fired⟩ toGranted, returned⟩

/-- A waiting call is woken by a refill of a bucket that is not full, and
returns if its amount fits the capacity. -/
theorem waiting_completes {amount : Nat}
    (lookup : limiter.acquires[task]? = some ⟨amount, .waiting⟩)
    (fits : amount ≤ limiter.capacity) (small : limiter.capacity < 2 ^ 64)
    (below : limiter.tokens < limiter.capacity) :
    ∃ granted, limiter.Proceeds granted ∧
      granted.acquires[task]? = some ⟨amount, .acquired⟩ := by
  have fired : limiter.next (.refill (limiter.capacity - limiter.tokens)) =
      some { limiter with
        tokens := limiter.capacity
        acquires := limiter.acquires.map Acquire.wake } := by
    rw [next, refill_missing below small]
  have woken : ({ limiter with
      tokens := limiter.capacity
      acquires := limiter.acquires.map Acquire.wake } :
        TokenBucketLimiter).acquires[task]? = some ⟨amount, .locking⟩ := by
    rw [List.getElem?_map, lookup]
    rfl
  obtain ⟨granted, toGranted, returned⟩ := locking_completes woken fits small
  exact ⟨granted, Relation.ReflTransGen.head ⟨_, id, fired⟩ toGranted, returned⟩

end TokenBucketLimiter

open TokenBucketLimiter

/-- Over every sequence of calls, checks and refills from a new limiter,
the bucket holds at most its capacity, and the tokens in it and those the
returned calls took out are together at most the capacity plus what the
refills added: the limiter never lets through more than it was given. -/
theorem limiter_grants_within_refills {capacity : Nat} {actions : List LimiterAction}
    {limiter : TokenBucketLimiter}
    (replay : run next (new capacity) actions = some limiter) :
    limiter.tokens ≤ capacity ∧
      limiter.tokens + limiter.granted ≤ capacity + (actions.map LimiterAction.refilled).sum := by
  obtain ⟨bounded, sameCapacity⟩ :=
    bounded_of_reachable (reflTransGen_of_run (fun _ _ _ => trivial) replay)
  have conserved := measure_le_of_run (fun limiter => limiter.tokens + limiter.granted)
    LimiterAction.refilled (fun _ _ _ fired => tokens_add_granted_next fired) replay
  have startsFull : (new capacity).tokens + (new capacity).granted = capacity := by
    simp [new, granted]
  exact ⟨sameCapacity ▸ bounded.tokens, startsFull ▸ conserved⟩

/-- In every reachable state, no call of `acquire` for more than the
capacity has returned: such a call loops for good.  With a capacity below
`directReadPermit`, no direct read ever gets its permit. -/
theorem oversized_acquire_never_returns {capacity : Nat} {limiter : TokenBucketLimiter}
    (reached : Relation.ReflTransGen (Steps next fun _ _ => True) (new capacity) limiter) :
    (∀ acquire ∈ limiter.acquires, capacity < acquire.amount → acquire.phase ≠ .acquired) ∧
      (capacity < directReadPermit → ∀ acquire ∈ limiter.acquires,
        acquire.amount = directReadPermit → acquire.phase ≠ .acquired) := by
  obtain ⟨bounded, sameCapacity⟩ := bounded_of_reachable reached
  have fitting : ∀ acquire ∈ limiter.acquires, capacity < acquire.amount →
      acquire.phase ≠ .acquired := by
    intro acquire member tooLarge returned
    have fits := bounded.grants acquire member returned
    omega
  refine ⟨fitting, fun small acquire member isRead => fitting acquire member ?_⟩
  rw [isRead]
  exact small

/-- Once the bucket is full and every call has returned or waits on its
`Notified`, nothing but a new call of `acquire` changes the limiter: each
refill returns before `notify_waiters`, so the waiting calls wait for good,
however few tokens they ask for.  A call gets there when the refill that
fills the bucket runs between its `drop(inner)` and its `notified()`. -/
theorem full_bucket_strands_waiters {limiter after : TokenBucketLimiter}
    (quiet : limiter.Quiescent) (full : limiter.capacity ≤ limiter.tokens)
    (path : limiter.Proceeds after) : after = limiter :=
  @invariant_of_steps _ _ next _ (· = limiter)
    (fun _ _ _ notAcquire same fired => by
      subst same
      exact quiet.next_eq full notAcquire fired)
    _ _ path rfl

/-- A bucket of 4: the call of 4 empties it, the call of 2 finds it empty
and drops the mutex, the refill of 4 fills it before the call of 2 creates
its `Notified`, and from then on the call of 2 waits beside a full bucket. -/
theorem missed_refill_strands_call :
    Relation.ReflTransGen (Steps next fun _ _ => True) (new 4)
        ⟨4, 4, [⟨4, .acquired⟩, ⟨2, .waiting⟩]⟩ ∧
      ∀ after, Proceeds ⟨4, 4, [⟨4, .acquired⟩, ⟨2, .waiting⟩]⟩ after →
        after = ⟨4, 4, [⟨4, .acquired⟩, ⟨2, .waiting⟩]⟩ := by
  have replay : run next (new 4)
      [.acquire 4, .check 0, .acquire 2, .check 1, .refill 4, .register 1] =
        some ⟨4, 4, [⟨4, .acquired⟩, ⟨2, .waiting⟩]⟩ := rfl
  exact ⟨reflTransGen_of_run (fun _ _ _ => trivial) replay,
    fun _ path => full_bucket_strands_waiters (by decide) (by decide) path⟩

/-- A call whose amount fits the capacity returns through the steps of the
calls already made and of refills alone, unless it has let go of the mutex
while the bucket is full, which `full_bucket_strands_waiters` shows can
strand it. -/
theorem acquire_completes_unless_full {limiter : TokenBucketLimiter} {task amount : Nat}
    {phase : AcquirePhase} (lookup : limiter.acquires[task]? = some ⟨amount, phase⟩)
    (fits : amount ≤ limiter.capacity) (small : limiter.capacity < 2 ^ 64)
    (reachesMutex : phase = .locking ∨ limiter.tokens < limiter.capacity) :
    ∃ granted, limiter.Proceeds granted ∧
      granted.acquires[task]? = some ⟨amount, .acquired⟩ := by
  cases phase with
  | acquired => exact ⟨limiter, .refl, lookup⟩
  | locking => exact locking_completes lookup fits small
  | waiting =>
      have below := reachesMutex.resolve_left (by decide)
      exact waiting_completes lookup fits small below
  | unlocked =>
      -- the call creates its `Notified` first; the bucket is not full, so a refill reaches it
      have below := reachesMutex.resolve_left (by decide)
      have inside : task < limiter.acquires.length := (List.getElem?_eq_some_iff.mp lookup).1
      have fired : limiter.next (.register task) = some { limiter with
          acquires := limiter.acquires.set task ⟨amount, .waiting⟩ } := by
        simp only [next, register, lookup]
      have registered : ({ limiter with
          acquires := limiter.acquires.set task ⟨amount, .waiting⟩ } :
            TokenBucketLimiter).acquires[task]? = some ⟨amount, .waiting⟩ :=
        List.getElem?_set_self inside
      obtain ⟨granted, toGranted, returned⟩ := waiting_completes registered fits small below
      exact ⟨granted, Relation.ReflTransGen.head ⟨_, id, fired⟩ toGranted, returned⟩

/-- The call of 2 in the source's test, after it dropped the mutex on an
empty bucket of 4, returns after one refill. -/
theorem dropped_call_completes_after_refill :
    ∃ granted, Proceeds ⟨4, 0, [⟨4, .acquired⟩, ⟨2, .unlocked⟩]⟩ granted ∧
      granted.acquires[1]? = some ⟨2, .acquired⟩ :=
  acquire_completes_unless_full
    (show (⟨4, 0, [⟨4, .acquired⟩, ⟨2, .unlocked⟩]⟩ : TokenBucketLimiter).acquires[1]? =
      some ⟨2, .unlocked⟩ from rfl) (by decide) (by decide) (.inr (by decide))

end Riffle.Local
