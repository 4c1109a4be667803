import Mathlib

/-!
# Totals over association lists

A concurrent hash map keyed by ids is modelled as Mathlib's `AList`: its
entries have distinct keys by construction, and `insert`, `erase` and
`lookup` are the map's operations.  Counters that a program keeps beside such
a map (bytes reserved, bytes buffered) are compared with the `total` of a
weight over the map's values.

This module names nothing of the server.  It gives the bookkeeping every
ledger invariant of the development uses: how `insert`, `erase` and `filter`
change a total, and how removing one entry of a list with distinct keys
changes the list and its sum.
-/

namespace Riffle.KeyedTotal

open List

universe u v

variable {α : Type u} {β : α → Type v}

/-- The sum of `weight` over the entries of a map. -/
def total (weight : (a : α) → β a → Int) (s : AList β) : Int :=
  (s.entries.map fun entry => weight entry.1 entry.2).sum

/-- The entries whose key satisfies `keep`. -/
def filter (keep : α → Bool) (s : AList β) : AList β :=
  ⟨s.entries.filter fun entry => keep entry.1,
    s.nodupKeys.sublist List.filter_sublist⟩

section Totals

variable (weight : (a : α) → β a → Int)

@[simp]
theorem total_empty : total weight (∅ : AList β) = 0 :=
  rfl

/-- A map splits into the entries `keep` selects and the others. -/
theorem total_filter_add (keep : α → Bool) (s : AList β) :
    total weight (filter keep s) + total weight (filter (fun a => !keep a) s) =
      total weight s := by
  unfold total filter
  dsimp only
  induction s.entries with
  | nil =>
      rfl
  | cons entry rest inductionHypothesis =>
      by_cases kept : keep entry.1 = true
      · simp only [List.filter_cons, kept, Bool.not_true, if_true, Bool.false_eq_true,
          if_false, List.map_cons, List.sum_cons]
        omega
      · simp only [List.filter_cons, kept, Bool.not_false, if_true, Bool.false_eq_true,
          if_false, List.map_cons, List.sum_cons]
        omega

variable [DecidableEq α]

theorem total_nonneg {s : AList β} (nonneg : ∀ a b, s.lookup a = some b → 0 ≤ weight a b) :
    0 ≤ total weight s := by
  unfold total
  refine List.sum_nonneg fun value member => ?_
  obtain ⟨entry, entryMember, rfl⟩ := List.mem_map.mp member
  exact nonneg entry.1 entry.2 (AList.mem_lookup_iff.mpr entryMember)

theorem total_eq_zero {s : AList β} (zero : ∀ a b, s.lookup a = some b → weight a b = 0) :
    total weight s = 0 := by
  unfold total
  refine List.sum_eq_zero fun value member => ?_
  obtain ⟨entry, entryMember, rfl⟩ := List.mem_map.mp member
  exact zero entry.1 entry.2 (AList.mem_lookup_iff.mpr entryMember)

theorem total_congr {weight' : (a : α) → β a → Int} {s : AList β}
    (same : ∀ a b, s.lookup a = some b → weight a b = weight' a b) :
    total weight s = total weight' s := by
  unfold total
  congr 1
  refine List.map_congr_left fun entry member => ?_
  exact same entry.1 entry.2 (AList.mem_lookup_iff.mpr member)

theorem total_insert (a : α) (b : β a) (s : AList β) :
    total weight (s.insert a b) = weight a b + total weight (s.erase a) := by
  simp [total, AList.erase]

/-- Erasing a present key takes its weight out of the total. -/
theorem total_erase_of_lookup {a : α} {b : β a} {s : AList β}
    (found : s.lookup a = some b) :
    total weight (s.erase a) = total weight s - weight a b := by
  have present : a ∈ s.entries.keys :=
    AList.mem_keys.mp (AList.lookup_isSome.mp (by simp [found]))
  obtain ⟨stored, front, back, notFront, split, erased⟩ := List.exists_of_kerase present
  have storedFound : s.lookup a = some stored := by
    have nodup := s.nodupKeys
    rw [split] at nodup
    unfold AList.lookup
    rw [split]
    exact (List.mem_dlookup_iff nodup).mpr (by simp)
  have sameValue : stored = b := Option.some.inj (storedFound.symm.trans found)
  subst sameValue
  unfold total AList.erase
  simp only [erased]
  rw [split]
  simp only [List.map_append, List.map_cons, List.sum_append, List.sum_cons]
  omega

/-- With non-negative weights, one entry weighs at most the total. -/
theorem weight_le_total {a : α} {b : β a} {s : AList β} (found : s.lookup a = some b)
    (nonneg : ∀ a b, s.lookup a = some b → 0 ≤ weight a b) :
    weight a b ≤ total weight s := by
  have restNonneg : 0 ≤ total weight (s.erase a) := by
    refine total_nonneg weight fun other value foundOther => ?_
    by_cases same : other = a
    · subst same
      simp at foundOther
    · rw [AList.lookup_erase_ne same] at foundOther
      exact nonneg other value foundOther
  rw [total_erase_of_lookup weight found] at restNonneg
  omega

theorem total_erase_of_notMem {a : α} {s : AList β} (absent : a ∉ s) :
    total weight (s.erase a) = total weight s := by
  have unchanged : (s.erase a).entries = s.entries :=
    List.kerase_of_notMem_keys fun present => absent (AList.mem_keys.mpr present)
  unfold total
  rw [unchanged]

theorem total_insert_of_notMem {a : α} (b : β a) {s : AList β} (absent : a ∉ s) :
    total weight (s.insert a b) = weight a b + total weight s := by
  rw [total_insert, total_erase_of_notMem weight absent]

/-- Replacing the value of a present key swaps its weight in the total. -/
theorem total_insert_of_lookup {a : α} {old : β a} (new : β a) {s : AList β}
    (found : s.lookup a = some old) :
    total weight (s.insert a new) = total weight s - weight a old + weight a new := by
  rw [total_insert, total_erase_of_lookup weight found]
  omega

end Totals

variable [DecidableEq α]

theorem lookup_filter (keep : α → Bool) (a : α) (s : AList β) :
    (filter keep s).lookup a = if keep a then s.lookup a else none := by
  unfold filter AList.lookup
  dsimp only
  induction s.entries with
  | nil =>
      simp
  | cons entry rest inductionHypothesis =>
      obtain ⟨key, value⟩ := entry
      by_cases sameKey : a = key
      · subst sameKey
        by_cases kept : keep a = true
        · simp [kept]
        · simp [kept, inductionHypothesis]
      · have skipped : ∀ tail : List (Sigma β), dlookup a (⟨key, value⟩ :: tail) = dlookup a tail :=
          fun tail => List.dlookup_cons_ne tail ⟨key, value⟩ sameKey
        by_cases kept : keep key = true
        · simp [kept, skipped, inductionHypothesis]
        · simp [kept, skipped, inductionHypothesis]

theorem mem_filter {keep : α → Bool} {a : α} {s : AList β} :
    a ∈ filter keep s ↔ keep a = true ∧ a ∈ s := by
  rw [← AList.lookup_isSome, ← AList.lookup_isSome, lookup_filter]
  by_cases kept : keep a = true <;> simp [kept]

theorem lookup_of_lookup_filter {keep : α → Bool} {a : α} {b : β a} {s : AList β}
    (found : (filter keep s).lookup a = some b) : s.lookup a = some b := by
  rw [lookup_filter] at found
  split at found
  · exact found
  · cases found

theorem lookup_of_lookup_erase {a a' : α} {b : β a'} {s : AList β}
    (found : (s.erase a).lookup a' = some b) : s.lookup a' = some b := by
  by_cases same : a' = a
  · subst same
    simp at found
  · rwa [AList.lookup_erase_ne same] at found

/-! ## Removing a list of keys -/

theorem kerase_eq_filter {a : α} {l : List (Sigma β)} (nodup : l.NodupKeys) :
    l.kerase a = l.filter fun entry => !decide (entry.1 = a) := by
  induction l with
  | nil =>
      rfl
  | cons entry rest inductionHypothesis =>
      rw [List.nodupKeys_cons] at nodup
      by_cases same : a = entry.1
      · subst same
        rw [List.kerase_cons_eq rfl, List.filter_cons_of_neg (by simp)]
        -- no later entry has the erased key
        refine (List.filter_eq_self.mpr fun later member => ?_).symm
        have differs : later.1 ≠ entry.1 := fun equal =>
          nodup.1 (equal ▸ List.mem_keys_of_mem member)
        simp [differs]
      · rw [List.kerase_cons_ne same, List.filter_cons_of_pos (by simp [Ne.symm same]),
          inductionHypothesis nodup.2]

theorem erase_eq_filter (a : α) (s : AList β) :
    s.erase a = filter (fun key => !decide (key = a)) s :=
  AList.ext (kerase_eq_filter s.nodupKeys)

omit [DecidableEq α] in
theorem filter_filter (keep keep' : α → Bool) (s : AList β) :
    filter keep (filter keep' s) = filter (fun a => keep a && keep' a) s :=
  AList.ext List.filter_filter

omit [DecidableEq α] in
/-- Two filters agree when their conditions agree on the keys present. -/
theorem filter_congr {keep keep' : α → Bool} {s : AList β} (same : ∀ a ∈ s, keep a = keep' a) :
    filter keep s = filter keep' s :=
  AList.ext (List.filter_congr fun entry member =>
    same entry.1 (AList.mem_keys.mpr (List.mem_keys_of_mem member)))

section Removal

variable (weight : (a : α) → β a → Int)

/-- One turn of a loop that removes a key from a map and adds the weight of
the value it removed, if there was one, to an accumulator. -/
def removeWeighed (accumulated : Int × AList β) (a : α) : Int × AList β :=
  match accumulated.2.lookup a with
  | some b => (accumulated.1 + weight a b, accumulated.2.erase a)
  | none => accumulated

/-- Removing a list of keys one by one keeps the entries whose key is not
listed and adds up the weight of the others. -/
theorem foldl_removeWeighed (keys : List α) (start : Int) (s : AList β) :
    keys.foldl (removeWeighed weight) (start, s) =
      (start + total weight (filter (fun a => decide (a ∈ keys)) s),
        filter (fun a => !decide (a ∈ keys)) s) := by
  induction keys generalizing start s with
  | nil =>
      have kept : filter (fun _ => true) s = s := AList.ext (by simp [filter])
      have removed : total weight (filter (fun _ => false) s) = 0 := by
        simp [total, filter]
      simp [kept, removed]
  | cons key rest inductionHypothesis =>
      rw [List.foldl_cons]
      cases found : s.lookup key with
      | none =>
          -- the key is absent: the loop skips it and listing it changes no filter
          have absent : key ∉ s := fun present => by
            simp [← AList.lookup_isSome, found] at present
          have sameKeys : ∀ a ∈ s, (a ∈ key :: rest ↔ a ∈ rest) := fun a present => by
            have differs : a ≠ key := fun equal => absent (equal ▸ present)
            simp [differs]
          have listedSame : filter (fun a => decide (a ∈ key :: rest)) s =
              filter (fun a => decide (a ∈ rest)) s :=
            filter_congr fun a present => by simp [sameKeys a present]
          have keptSame : filter (fun a => !decide (a ∈ key :: rest)) s =
              filter (fun a => !decide (a ∈ rest)) s :=
            filter_congr fun a present => by simp [sameKeys a present]
          simp only [removeWeighed, found]
          rw [inductionHypothesis, listedSame, keptSame]
      | some value =>
          simp only [removeWeighed, found]
          rw [inductionHypothesis]
          have erasedListed : (filter (fun a => decide (a ∈ key :: rest)) s).erase key =
              filter (fun a => decide (a ∈ rest)) (s.erase key) := by
            rw [erase_eq_filter, erase_eq_filter, filter_filter, filter_filter]
            exact filter_congr fun a _ => by by_cases same : a = key <;> simp [same]
          have listedFound : (filter (fun a => decide (a ∈ key :: rest)) s).lookup key =
              some value := by
            rw [lookup_filter]
            simp [found]
          have removedTotal := total_erase_of_lookup weight listedFound
          rw [erasedListed] at removedTotal
          have keptRest : filter (fun a => !decide (a ∈ rest)) (s.erase key) =
              filter (fun a => !decide (a ∈ key :: rest)) s := by
            rw [erase_eq_filter, filter_filter]
            exact filter_congr fun a _ => by by_cases same : a = key <;> simp [same]
          rw [removedTotal, keptRest]
          simp only [Prod.mk.injEq, and_true]
          omega

/-- The same loop, when the listed keys present in the map are those that
`keep` selects. -/
theorem foldl_removeWeighed_of_listed {keys : List α} {keep : α → Bool} {s : AList β}
    (listed : ∀ a ∈ s, a ∈ keys ↔ keep a = true) (start : Int) :
    keys.foldl (removeWeighed weight) (start, s) =
      (start + total weight (filter keep s), filter (fun a => !keep a) s) := by
  have removed : filter (fun a => decide (a ∈ keys)) s = filter keep s :=
    filter_congr fun a present => by simp [listed a present]
  have kept : filter (fun a => !decide (a ∈ keys)) s = filter (fun a => !keep a) s :=
    filter_congr fun a present => by simp [listed a present]
  rw [foldl_removeWeighed, removed, kept]

end Removal

section Plain

variable {γ : Type v}

/-- A lookup after an insert finds the inserted value or an old one. -/
theorem lookup_insert_eq_some {s : AList fun _ : α => γ} {a a' : α} {b b' : γ} :
    (s.insert a b).lookup a' = some b' ↔ (a' = a ∧ b' = b) ∨ (a' ≠ a ∧ s.lookup a' = some b') := by
  by_cases same : a' = a
  · subst same
    simp [eq_comm]
  · simp [AList.lookup_insert_ne same, same]

/-- Every value replaced by `change` of its key and value, under the same
keys. -/
def mapValues {δ : Type w} (change : α → γ → δ) (s : AList fun _ : α => γ) :
    AList fun _ : α => δ :=
  ⟨s.entries.map (Sigma.map id change), s.nodupKeys.map₂ change⟩

theorem lookup_mapValues {δ : Type w} (change : α → γ → δ) (s : AList fun _ : α => γ)
    (a : α) : (mapValues change s).lookup a = (s.lookup a).map (change a) :=
  List.dlookup_map₂ a

end Plain

/-! ## Lists with distinct keys

The entries of a map kept as a list whose keys are distinct. -/

section DistinctKeys

variable {γ : Type u} {κ : Type v} [DecidableEq κ] (key : γ → κ)

/-- Under distinct keys, erasing the first element with a key removes every
element with it. -/
theorem eraseP_eq_filter_of_nodup {k : κ} :
    ∀ {entries : List γ}, (entries.map key).Nodup →
      entries.eraseP (fun entry => key entry = k) = entries.filter fun entry => key entry ≠ k
  | [], _ => rfl
  | entry :: rest, distinct => by
      rw [List.map_cons, List.nodup_cons] at distinct
      by_cases matched : key entry = k
      · have restFree : ∀ other ∈ rest, key other ≠ k := fun other member same =>
          distinct.1 (matched ▸ same ▸ List.mem_map_of_mem member)
        have restKept : rest.filter (fun other => !decide (key other = k)) = rest :=
          List.filter_eq_self.mpr fun other member => by simpa using restFree other member
        simp [matched, restKept]
      · simp [matched, eraseP_eq_filter_of_nodup distinct.2]

/-- Under distinct keys, the other elements of a list weigh what the list
weighs less the element itself. -/
theorem sum_map_filter_ne_add (weight : γ → Nat) {entry : γ} :
    ∀ {entries : List γ}, (entries.map key).Nodup → entry ∈ entries →
      ((entries.filter fun other => key other ≠ key entry).map weight).sum + weight entry =
        (entries.map weight).sum
  | [], _, member => absurd member List.not_mem_nil
  | first :: rest, distinct, member => by
      rw [List.map_cons, List.nodup_cons] at distinct
      rcases List.mem_cons.mp member with rfl | later
      · have restKept : rest.filter (fun other => !decide (key other = key entry)) = rest :=
          List.filter_eq_self.mpr fun other member => by
            simpa using fun (same : key other = key entry) =>
              distinct.1 (same ▸ List.mem_map_of_mem member)
        simp [restKept, Nat.add_comm]
      · have firstDiffers : key first ≠ key entry := fun same =>
          distinct.1 (same ▸ List.mem_map_of_mem later)
        have restSum := sum_map_filter_ne_add weight distinct.2 later
        simp only [List.filter_cons, firstDiffers, ne_eq, not_false_eq_true, decide_true,
          if_true, List.map_cons, List.sum_cons] at restSum ⊢
        omega

end DistinctKeys

end Riffle.KeyedTotal
