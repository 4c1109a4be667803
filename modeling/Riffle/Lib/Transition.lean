import Mathlib

/-!
# Labelled transition systems

A server component is modelled by an executable partial step function
`next : state → action → Option state`: the action carries every choice the
environment makes (which request arrives, what an I/O call returns), and
`none` means that the action cannot fire in that state.  Runs are the
reflexive-transitive closure of the induced relation, taken from Mathlib.
A guard `allowed : state → action → Prop` restricts the environment, e.g. to
clients that keep a protocol's discipline.

This module names nothing of the server.  It gives the two rules every
invariant proof of the development uses:

* `invariant_of_reflTransGen`: an invariant preserved by each step holds
  along every run;
* `reflTransGen_of_run` and `reflTransGen_of_checkedRun`: a concrete replay
  of actions is a run, which is how a concrete trace of the server is
  shown to be reachable.
-/

namespace Riffle.Transition

universe u v w

variable {state : Type u} {action : Type v}

/-- The step relation of `next`, restricted to the actions `allowed` lets
fire in the current state. -/
def Steps (next : state → action → Option state) (allowed : state → action → Prop)
    (source target : state) : Prop :=
  ∃ label, allowed source label ∧ next source label = some target

/-- Replay a list of actions from `source`; `none` as soon as one of them
cannot fire. -/
def run (next : state → action → Option state) :
    state → List action → Option state
  | source, [] => some source
  | source, label :: rest =>
      (next source label).bind fun middle => run next middle rest

@[simp]
theorem run_nil (next : state → action → Option state) (source : state) :
    run next source [] = some source :=
  rfl

theorem run_cons (next : state → action → Option state) (source : state)
    (label : action) (rest : List action) :
    run next source (label :: rest) =
      (next source label).bind fun middle => run next middle rest :=
  rfl

@[simp]
theorem run_singleton (next : state → action → Option state) (source : state)
    (label : action) :
    run next source [label] = next source label := by
  rw [run_cons]
  cases next source label <;> rfl

theorem run_append (next : state → action → Option state) (source : state)
    (first second : List action) :
    run next source (first ++ second) =
      (run next source first).bind fun middle => run next middle second := by
  induction first generalizing source with
  | nil =>
      rfl
  | cons label rest inductionHypothesis =>
      simp only [List.cons_append, run_cons]
      cases next source label with
      | none => rfl
      | some middle => exact inductionHypothesis middle

/-- A replayed list of actions, each allowed in every state, is a run of the
step relation. -/
theorem reflTransGen_of_run {next : state → action → Option state}
    {allowed : state → action → Prop} :
    ∀ {source target : state} {labels : List action},
      (∀ middle, ∀ label ∈ labels, allowed middle label) →
      run next source labels = some target →
      Relation.ReflTransGen (Steps next allowed) source target
  | source, target, [], _, replay => by
      cases replay
      exact Relation.ReflTransGen.refl
  | source, target, label :: rest, allAllowed, replay => by
      rw [run_cons] at replay
      cases fired : next source label with
      | none =>
          simp [fired] at replay
      | some middle =>
          rw [fired, Option.bind_some] at replay
          have firstStep : Steps next allowed source middle :=
            ⟨label, allAllowed source label (List.mem_cons_self ..), fired⟩
          exact Relation.ReflTransGen.head firstStep <|
            reflTransGen_of_run
              (fun state other member => allAllowed state other
                (List.mem_cons_of_mem label member))
              replay

/-- A measure that no step raises by more than its action's cost is raised
by a whole replay by at most the summed costs of its actions. -/
theorem measure_le_of_run {next : state → action → Option state}
    (measure : state → Nat) (cost : action → Nat)
    (bounded : ∀ source target label, next source label = some target →
      measure target ≤ measure source + cost label) :
    ∀ {source target : state} {labels : List action},
      run next source labels = some target →
      measure target ≤ measure source + (labels.map cost).sum
  | source, target, [], replay => by
      cases replay
      simp
  | source, target, label :: rest, replay => by
      obtain ⟨middle, fired, restReplay⟩ := Option.bind_eq_some_iff.mp replay
      have firstBound := bounded source middle label fired
      have restBound := measure_le_of_run measure cost bounded restReplay
      rw [List.map_cons, List.sum_cons]
      omega

/-- A measure that only the counted steps raise, each by at most one, is
raised by a whole replay by at most the number of its counted steps. -/
theorem measure_le_countP_of_run {next : state → action → Option state}
    (measure : state → Nat) (counted : action → Bool)
    (bounded : ∀ source target label, next source label = some target →
      measure target ≤ measure source + if counted label then 1 else 0)
    {source target : state} {labels : List action}
    (replay : run next source labels = some target) :
    measure target ≤ measure source + labels.countP counted := by
  have summed : ∀ labels : List action,
      (labels.map fun label => if counted label then 1 else 0).sum = labels.countP counted := by
    intro labels
    induction labels with
    | nil => rfl
    | cons label rest inductionHypothesis =>
        rw [List.map_cons, List.sum_cons, inductionHypothesis, List.countP_cons]
        omega
  rw [← summed]
  exact measure_le_of_run measure _ bounded replay

/-- A FIFO channel inside the state: the steps `pops` marks take the
channel's head and every other step appends to it.  After as many popping
steps as there were items ahead of one, whatever else the replay did in
between, that item is at the head. -/
theorem head_of_run {item : Type w} {next : state → action → Option state}
    (channel : state → List item) (pops : action → Bool)
    (popsHead : ∀ source target label, pops label = true →
      next source label = some target → ∃ head, channel source = head :: channel target)
    (appends : ∀ source target label, pops label = false →
      next source label = some target → ∃ added, channel target = channel source ++ added) :
    ∀ {source target : state} {labels : List action} {ahead behind : List item} {queued : item},
      channel source = ahead ++ queued :: behind → labels.countP pops = ahead.length →
      run next source labels = some target → ∃ later, channel target = queued :: later
  | source, target, [], ahead, behind, queued, position, counted, replay => by
      cases replay
      have noneAhead : ahead = [] := List.eq_nil_of_length_eq_zero counted.symm
      subst noneAhead
      exact ⟨behind, position⟩
  | source, target, label :: rest, ahead, behind, queued, position, counted, replay => by
      obtain ⟨middle, fired, restReplay⟩ := Option.bind_eq_some_iff.mp replay
      cases popping : pops label
      · -- the item keeps its place; what the step adds queues behind it
        obtain ⟨added, appended⟩ := appends source middle label popping fired
        rw [List.countP_cons_of_neg (by simp [popping])] at counted
        exact head_of_run channel pops popsHead appends
          (by rw [appended, position, List.append_assoc, List.cons_append]) counted restReplay
      · -- the step takes the head, which lies ahead of the item
        obtain ⟨head, popped⟩ := popsHead source middle label popping fired
        rw [List.countP_cons_of_pos popping] at counted
        cases ahead with
        | nil =>
            simp at counted
        | cons first earlier =>
            rw [position, List.cons_append, List.cons.injEq] at popped
            exact head_of_run channel pops popsHead appends popped.2.symm
              (by simpa using counted) restReplay

/-- Replay a list of actions, each checked against `allowed` in the state it
fires from; `none` as soon as one is refused or cannot fire. -/
def checkedRun (next : state → action → Option state) (allowed : state → action → Prop)
    [∀ source label, Decidable (allowed source label)] :
    state → List action → Option state
  | source, [] => some source
  | source, label :: rest =>
      if allowed source label then
        (next source label).bind fun middle => checkedRun next allowed middle rest
      else none

/-- A checked replay is a run of the restricted step relation, which is how
runs of a guarded environment are shown reachable. -/
theorem reflTransGen_of_checkedRun {next : state → action → Option state}
    {allowed : state → action → Prop} [∀ source label, Decidable (allowed source label)] :
    ∀ {source target : state} {labels : List action},
      checkedRun next allowed source labels = some target →
      Relation.ReflTransGen (Steps next allowed) source target
  | source, target, [], replay => by
      cases replay
      exact Relation.ReflTransGen.refl
  | source, target, label :: rest, replay => by
      rw [checkedRun] at replay
      by_cases labelAllowed : allowed source label
      · rw [if_pos labelAllowed] at replay
        obtain ⟨middle, fired, restReplay⟩ := Option.bind_eq_some_iff.mp replay
        exact Relation.ReflTransGen.head ⟨label, labelAllowed, fired⟩
          (reflTransGen_of_checkedRun restReplay)
      · rw [if_neg labelAllowed] at replay
        cases replay

/-- A rank that the counted steps lower and no other step raises, from
states where `good` holds and which `good` keeps, bounds how many counted
steps any checked replay takes: the termination argument for one task among
others the environment interleaves. -/
theorem countP_add_rank_le_of_checkedRun {next : state → action → Option state}
    {allowed : state → action → Prop} [∀ source label, Decidable (allowed source label)]
    (rank : state → Nat) (counted : action → Bool) {good : state → Prop}
    (lowers : ∀ source target label, good source → allowed source label →
      next source label = some target →
        good target ∧ rank target + (if counted label then 1 else 0) ≤ rank source) :
    ∀ {source target : state} {labels : List action}, good source →
      checkedRun next allowed source labels = some target →
      labels.countP counted + rank target ≤ rank source
  | source, target, [], _, replay => by
      cases replay
      simp
  | source, target, label :: rest, sourceGood, replay => by
      rw [checkedRun] at replay
      by_cases labelAllowed : allowed source label
      · rw [if_pos labelAllowed] at replay
        obtain ⟨middle, fired, restReplay⟩ := Option.bind_eq_some_iff.mp replay
        obtain ⟨middleGood, lower⟩ := lowers source middle label sourceGood labelAllowed fired
        have restBound :=
          countP_add_rank_le_of_checkedRun rank counted lowers middleGood restReplay
        rw [List.countP_cons]
        omega
      · rw [if_neg labelAllowed] at replay
        cases replay

/-- Invariant induction: a predicate that every step preserves holds at the
end of every run that starts where it holds. -/
theorem invariant_of_reflTransGen {step : state → state → Prop}
    {invariant : state → Prop}
    (preserved : ∀ source target,
      invariant source → step source target → invariant target)
    {source target : state}
    (path : Relation.ReflTransGen step source target)
    (initial : invariant source) :
    invariant target := by
  induction path with
  | refl =>
      exact initial
  | tail _ last inductionHypothesis =>
      exact preserved _ _ inductionHypothesis last

/-- The invariant rule for the relation of a step function: it suffices that
each allowed action that fires preserves the invariant. -/
theorem invariant_of_steps {next : state → action → Option state}
    {allowed : state → action → Prop} {invariant : state → Prop}
    (preserved : ∀ source target label, allowed source label →
      invariant source → next source label = some target →
      invariant target)
    {source target : state}
    (path : Relation.ReflTransGen (Steps next allowed) source target)
    (initial : invariant source) :
    invariant target := by
  refine invariant_of_reflTransGen ?_ path initial
  rintro middle final middleInvariant ⟨label, labelAllowed, fired⟩
  exact preserved middle final label labelAllowed middleInvariant fired

/-- Enlarging the set of allowed actions keeps every run. -/
theorem Steps.mono {next : state → action → Option state}
    {allowed wider : state → action → Prop}
    (widening : ∀ source label, allowed source label → wider source label)
    {source target : state}
    (path : Relation.ReflTransGen (Steps next allowed) source target) :
    Relation.ReflTransGen (Steps next wider) source target := by
  have stepWidening : Steps next allowed ≤ Steps next wider := by
    rintro middle final ⟨label, labelAllowed, fired⟩
    exact ⟨label, widening middle label labelAllowed, fired⟩
  exact Relation.ReflTransGen.mono stepWidening source target path

end Riffle.Transition
