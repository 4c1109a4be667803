import Mathlib.Data.List.Infix

/-!
# Prefixes of separated paths

Paths and file names are built by joining segments with a separator, and a
purge selects what to delete by testing whether a name starts with a given
string.  Whether that test picks out exactly the names of one segment value
depends on the segments being free of the separator and on the tested string
ending with one.  The two lemmas below say what the test decides in each case:

* `append_sep_prefix_iff`: a string that ends with the separator selects the
  names whose first segment is exactly its own;
* `prefix_append_sep_iff`: a string without the separator selects the names
  whose first segment merely starts with it.

This module names nothing of the server.
-/

namespace Riffle.PathPrefix

universe u

variable {α : Type u} {separator : α}

/-- Two names that start with a separator-free segment and the separator
agree up to their first separator exactly when the segments are equal. -/
theorem append_sep_prefix_iff :
    ∀ {segment other : List α} {rest rest' : List α}, separator ∉ segment →
      separator ∉ other →
      (segment ++ separator :: rest <+: other ++ separator :: rest' ↔
        segment = other ∧ rest <+: rest')
  | [], [], _, _, _, _ => by
      simp [List.cons_prefix_cons]
  | [], first :: other, _, _, _, otherFree => by
      have differs : separator ≠ first := fun same => otherFree (same ▸ List.mem_cons_self)
      simp [List.cons_prefix_cons, differs]
  | first :: segment, [], _, _, segmentFree, _ => by
      have differs : first ≠ separator := fun same => segmentFree (same ▸ List.mem_cons_self)
      simp [List.cons_prefix_cons, differs]
  | first :: segment, first' :: other, rest, rest', segmentFree, otherFree => by
      have segmentTailFree : separator ∉ segment := fun member =>
        segmentFree (List.mem_cons_of_mem first member)
      have otherTailFree : separator ∉ other := fun member =>
        otherFree (List.mem_cons_of_mem first' member)
      simp only [List.cons_append, List.cons_prefix_cons, List.cons.injEq,
        append_sep_prefix_iff segmentTailFree otherTailFree, and_assoc]

/-- A separator-free string is a prefix of a name exactly when it is a
prefix of the name's first segment. -/
theorem prefix_append_sep_iff :
    ∀ {tested segment : List α} {rest : List α}, separator ∉ tested →
      (tested <+: segment ++ separator :: rest ↔ tested <+: segment)
  | [], _, _, _ => by
      simp
  | first :: tested, [], rest, testedFree => by
      have differs : first ≠ separator := fun same => testedFree (same ▸ List.mem_cons_self)
      simp [List.cons_prefix_cons, differs]
  | first :: tested, first' :: segment, rest, testedFree => by
      have testedTailFree : separator ∉ tested := fun member =>
        testedFree (List.mem_cons_of_mem first member)
      simp only [List.cons_append, List.cons_prefix_cons, prefix_append_sep_iff testedTailFree]

end Riffle.PathPrefix
