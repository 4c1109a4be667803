import Mathlib

/-!
# Ordered maps from keys to groups of values

A `BTreeMap<K, Vec<V>>` filled by `entry(key).or_insert_with(Vec::new).push(value)`
groups the values pushed under each key and iterates its keys in ascending
order.  It is modelled by the list of its groups, ascending in key.

This module names nothing of the server.  It gives what a scan over such a
map needs:

* `entries_pushAll`: the map holds exactly the values pushed;
* `keys_pushAll`: its keys stay strictly ascending;
* `entries_reverse_pairwise`: iterating it backwards (`iter().rev()`) visits
  the values by descending key, each group in the order it was filled.
-/

namespace Riffle.SortedGroups

universe u v

variable {κ : Type u} {α : Type v}

/-- The values of the map with their keys, in iteration order. -/
def entries (groups : List (κ × List α)) : List (α × κ) :=
  groups.flatMap fun group => group.2.map fun value => (value, group.1)

@[simp]
theorem entries_nil : entries ([] : List (κ × List α)) = [] :=
  rfl

@[simp]
theorem entries_cons (group : κ × List α) (rest : List (κ × List α)) :
    entries (group :: rest) = group.2.map (fun value => (value, group.1)) ++ entries rest :=
  rfl

@[simp]
theorem entries_append (front back : List (κ × List α)) :
    entries (front ++ back) = entries front ++ entries back :=
  List.flatMap_append

theorem snd_mem_keys_of_mem_entries {item : α × κ} {groups : List (κ × List α)}
    (member : item ∈ entries groups) : item.2 ∈ groups.map Prod.fst := by
  obtain ⟨group, groupMember, inGroup⟩ := List.mem_flatMap.mp member
  obtain ⟨value, -, rfl⟩ := List.mem_map.mp inGroup
  exact List.mem_map_of_mem groupMember

variable [LinearOrder κ]

/-- `entry(key).or_insert_with(Vec::new).push(value)`. -/
def push (key : κ) (value : α) : List (κ × List α) → List (κ × List α)
  | [] => [(key, [value])]
  | (other, values) :: rest =>
      if key < other then (key, [value]) :: (other, values) :: rest
      else if key = other then (other, values ++ [value]) :: rest
      else (other, values) :: push key value rest

/-- Push every `(value, key)` pair in turn. -/
def pushAll (items : List (α × κ)) (groups : List (κ × List α)) : List (κ × List α) :=
  items.foldl (fun groups item => push item.2 item.1 groups) groups

@[simp]
theorem pushAll_nil (groups : List (κ × List α)) : pushAll [] groups = groups :=
  rfl

@[simp]
theorem pushAll_cons (item : α × κ) (rest : List (α × κ)) (groups : List (κ × List α)) :
    pushAll (item :: rest) groups = pushAll rest (push item.2 item.1 groups) :=
  rfl

/-! ## What a push holds -/

theorem entries_push (key : κ) (value : α) :
    ∀ groups : List (κ × List α), (entries (push key value groups)).Perm
      ((value, key) :: entries groups)
  | [] => by
      simp [push]
  | (other, values) :: rest => by
      unfold push
      split_ifs with below same
      · simp
      · -- the value joins the end of its key's group
        subst same
        simp only [entries_cons, List.map_append, List.map_cons, List.map_nil,
          List.append_assoc, List.singleton_append]
        exact List.perm_middle
      · -- the value goes into a later group
        exact ((entries_push key value rest).append_left _).trans List.perm_middle

theorem entries_pushAll :
    ∀ (items : List (α × κ)) (groups : List (κ × List α)),
      (entries (pushAll items groups)).Perm (items ++ entries groups)
  | [], groups => by
      simp [pushAll]
  | item :: rest, groups =>
      ((entries_pushAll rest _).trans ((entries_push item.2 item.1 groups).append_left rest)).trans
        List.perm_middle

/-! ## Keys stay ascending -/

theorem mem_keys_push {key other : κ} {value : α} :
    ∀ {groups : List (κ × List α)}, other ∈ (push key value groups).map Prod.fst →
      other = key ∨ other ∈ groups.map Prod.fst
  | [], member => by
      simpa [push] using member
  | (first, values) :: rest, member => by
      unfold push at member
      split_ifs at member with below same
      · simpa using member
      · simpa using Or.inr member
      · rcases List.mem_cons.mp member with head | later
        · exact Or.inr (head ▸ List.mem_cons_self)
        · rcases mem_keys_push later with pushed | old
          · exact Or.inl pushed
          · exact Or.inr (List.mem_cons_of_mem _ old)

theorem keys_push (key : κ) (value : α) :
    ∀ {groups : List (κ × List α)}, (groups.map Prod.fst).Pairwise (· < ·) →
      ((push key value groups).map Prod.fst).Pairwise (· < ·)
  | [], _ => by
      simp [push]
  | (other, values) :: rest, sorted => by
      rw [List.map_cons, List.pairwise_cons] at sorted
      obtain ⟨otherBelow, restSorted⟩ := sorted
      unfold push
      split_ifs with below same
      · simp only [List.map_cons, List.pairwise_cons, List.mem_cons]
        refine ⟨?_, otherBelow, restSorted⟩
        rintro k (rfl | later)
        · exact below
        · exact below.trans (otherBelow k later)
      · simp only [List.map_cons]
        exact List.pairwise_cons.mpr ⟨otherBelow, restSorted⟩
      · have above : other < key := lt_of_le_of_ne (not_lt.mp below) (Ne.symm same)
        simp only [List.map_cons, List.pairwise_cons]
        refine ⟨fun k member => ?_, keys_push key value restSorted⟩
        rcases mem_keys_push member with rfl | old
        · exact above
        · exact otherBelow k old

theorem keys_pushAll :
    ∀ (items : List (α × κ)) {groups : List (κ × List α)},
      (groups.map Prod.fst).Pairwise (· < ·) →
      ((pushAll items groups).map Prod.fst).Pairwise (· < ·)
  | [], _, sorted => sorted
  | item :: rest, _, sorted => keys_pushAll rest (keys_push item.2 item.1 sorted)

/-! ## Backwards iteration -/

/-- Iterating a map with ascending keys backwards visits its values by
descending key. -/
theorem entries_reverse_pairwise :
    ∀ {groups : List (κ × List α)}, (groups.map Prod.fst).Pairwise (· < ·) →
      (entries groups.reverse).Pairwise fun first second => second.2 ≤ first.2
  | [], _ => by
      simp
  | group :: rest, sorted => by
      rw [List.map_cons, List.pairwise_cons] at sorted
      obtain ⟨groupBelow, restSorted⟩ := sorted
      rw [List.reverse_cons, entries_append, List.pairwise_append]
      refine ⟨entries_reverse_pairwise restSorted, ?_, ?_⟩
      · -- one group shares its key
        simp only [entries_cons, entries_nil, List.append_nil, List.pairwise_map]
        exact List.pairwise_of_forall fun _ _ => le_refl _
      · intro first firstMember second secondMember
        have firstKey := snd_mem_keys_of_mem_entries firstMember
        rw [List.map_reverse, List.mem_reverse] at firstKey
        obtain ⟨value, -, rfl⟩ := List.mem_map.mp (by simpa using secondMember)
        exact le_of_lt (groupBelow first.2 firstKey)

end Riffle.SortedGroups
