import Mathlib.Data.List.Nodup

/-!
# Walking a list by index while it is edited

A loop that walks a list by index, and whose body erases and appends entries,
meets the entries that some test picks out at positions that only get smaller.
Whatever an edit moves from behind the index to it or before it, the walk passes
over.
-/

namespace IndexWalk

variable {Entry : Type*} {wanted : Entry → Bool} {before middle after : List Entry} {entry : Entry}
  {n : Nat}

/-- A picked entry that occurs once is not also further on. -/
theorem not_mem_drop (once : (before.filter wanted).Nodup) (picked : wanted entry = true)
    (member : entry ∈ before.take n) : entry ∉ before.drop n := by
  rw [← List.take_append_drop n before, List.filter_append, List.nodup_append] at once
  intro later
  exact once.2.2 entry (List.mem_filter.mpr ⟨member, picked⟩) entry
    (List.mem_filter.mpr ⟨later, picked⟩) rfl

/-- Nor does a picked entry at a position stand before it. -/
theorem not_mem_take (once : (before.filter wanted).Nodup) (picked : wanted entry = true)
    (here : before[n]? = some entry) : entry ∉ before.take n := by
  intro member
  obtain ⟨inside, same⟩ := List.getElem?_eq_some_iff.mp here
  apply not_mem_drop once picked member
  rw [List.drop_eq_getElem_cons inside, same]
  exact List.mem_cons_self

theorem not_mem_drop_succ (once : (before.filter wanted).Nodup) (picked : wanted entry = true)
    (here : before[n]? = some entry) : entry ∉ before.drop (n + 1) := by
  apply not_mem_drop once picked
  rw [List.take_add_one, here]
  exact List.mem_append_right _ List.mem_cons_self

theorem mem_take_succ (here : before[n]? = some entry) {other : Entry} :
    other ∈ before.take (n + 1) ↔ other ∈ before.take n ∨ other = entry := by
  rw [List.take_add_one, here, List.mem_append, Option.toList_some, List.mem_singleton]

/-- An entry at a position, before it or behind it. -/
theorem mem_iff (here : before[n]? = some entry) {other : Entry} :
    other ∈ before ↔ other ∈ before.take n ∨ other = entry ∨ other ∈ before.drop (n + 1) := by
  rw [← or_assoc, ← mem_take_succ here, ← List.mem_append, List.take_append_drop]

/-- What begins a list and is no longer than `n` stands before position `n`. -/
theorem mem_take_append {first rest : List Entry} (short : first.length ≤ n)
    (member : entry ∈ first) : entry ∈ (first ++ rest).take n := by
  rw [List.take_append, List.take_of_length_le short]
  exact List.mem_append_left _ member

/-- The picked entries that are left stand in the order in which they stood, none
at a larger position. -/
structure Shifts (wanted : Entry → Bool) (before after : List Entry) : Prop where
  sublist : (after.filter wanted).Sublist (before.filter wanted)
  back : ∀ entry n, wanted entry = true → entry ∈ before.take n → entry ∈ after →
    entry ∈ after.take n

namespace Shifts

theorem refl (before : List Entry) : Shifts wanted before before where
  sublist := .refl _
  back _ _ _ member _ := member

/-- A picked entry that is left was there before. -/
theorem mem (shifts : Shifts wanted before after) (picked : wanted entry = true)
    (left : entry ∈ after) : entry ∈ before :=
  (List.mem_filter.mp (shifts.sublist.subset (List.mem_filter.mpr ⟨left, picked⟩))).1

theorem trans (first : Shifts wanted before middle) (second : Shifts wanted middle after) :
    Shifts wanted before after where
  sublist := second.sublist.trans first.sublist
  back entry n picked member left :=
    second.back entry n picked (first.back entry n picked member (second.mem picked left)) left

/-- Erasing a position, when no picked entry occurs twice. -/
theorem eraseIdx (once : (before.filter wanted).Nodup) (i : Nat) :
    Shifts wanted before (before.eraseIdx i) where
  sublist := (List.eraseIdx_sublist ..).filter _
  back entry n picked member left := by
    by_cases early : i < (before.take n).length
    · have split : before.eraseIdx i = (before.take n).eraseIdx i ++ before.drop n := by
        conv_lhs => rw [← List.take_append_drop n before]
        exact List.eraseIdx_append_of_lt_length early _
      rw [split] at left ⊢
      apply mem_take_append (Nat.le_trans (List.length_eraseIdx_le ..) (List.length_take_le ..))
      exact (List.mem_append.mp left).resolve_right (not_mem_drop once picked member)
    · have split : before.eraseIdx i =
          before.take n ++ (before.drop n).eraseIdx (i - (before.take n).length) := by
        conv_lhs => rw [← List.take_append_drop n before]
        exact List.eraseIdx_append_of_length_le (Nat.le_of_not_lt early) _
      rw [split]
      exact mem_take_append (List.length_take_le ..) member

/-- Appending an entry that the test does not pick out. -/
theorem append (unpicked : wanted entry = false) : Shifts wanted before (before ++ [entry]) where
  sublist := by
    rw [List.filter_append, List.filter_singleton, unpicked]
    simp
  back other n _ member _ := by
    rw [List.take_append]
    exact List.mem_append_left _ member

end Shifts

end IndexWalk
