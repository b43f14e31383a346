import Mathlib.Algebra.Order.BigOperators.Group.Finset
import Mathlib.Logic.Function.Basic

/-!
# Program counters of many threads

When one thread moves, a fact about every thread or about some thread needs to
be looked at for the moved one only.
-/

namespace Threads

variable {Thread Pc : Type*} [DecidableEq Thread] {pc : Thread → Pc} {thread : Thread} {next : Pc}

/-- Every thread still satisfies what the moved one satisfies. -/
theorem forall_update {p : Thread → Pc → Prop} (others : ∀ other, p other (pc other))
    (moved : p thread next) (other : Thread) : p other (Function.update pc thread next other) := by
  by_cases same : other = thread
  · subst same
    rwa [Function.update_self]
  · rw [Function.update_of_ne same]
    exact others other

/-- Some thread still satisfies what the moved one has not lost. -/
theorem exists_update {p : Thread → Pc → Prop} (some_thread : ∃ other, p other (pc other))
    (kept : p thread (pc thread) → p thread next) :
    ∃ other, p other (Function.update pc thread next other) := by
  obtain ⟨other, holds⟩ := some_thread
  by_cases same : other = thread
  · subst same
    exact ⟨other, by rw [Function.update_self]; exact kept holds⟩
  · exact ⟨other, by rw [Function.update_of_ne same]; exact holds⟩

/-- What a thread satisfies after the move it satisfied before, unless it is
the moved one. -/
theorem of_update {p : Thread → Pc → Prop} {other : Thread}
    (holds : p other (Function.update pc thread next other)) :
    (other = thread ∧ p thread next) ∨ (other ≠ thread ∧ p other (pc other)) := by
  by_cases same : other = thread
  · subst same
    rw [Function.update_self] at holds
    exact Or.inl ⟨rfl, holds⟩
  · rw [Function.update_of_ne same] at holds
    exact Or.inr ⟨same, holds⟩

omit [DecidableEq Thread] in
/-- What is in the hands of the other threads, at most one item each, is less
than there are threads. -/
theorem length_lt_card [Fintype Thread] {Item : Type*} (thread : Thread)
    (holds : Thread → Item → Prop) {items : List Item} (apart : items.Nodup)
    (held : ∀ item ∈ items, ∃ other ≠ thread, holds other item)
    (one : ∀ other item item', holds other item → holds other item' → item = item') :
    items.length < Fintype.card Thread := by
  classical
  have : Nonempty Thread := ⟨thread⟩
  choose! holder different holding using held
  rw [← List.toFinset_card_of_nodup apart, ← Finset.card_univ]
  calc items.toFinset.card ≤ (Finset.univ.erase thread).card := by
        apply Finset.card_le_card_of_injOn holder
        · exact fun item member => Finset.mem_coe.mpr (Finset.mem_erase.mpr
            ⟨different item (List.mem_toFinset.mp member), Finset.mem_univ _⟩)
        · intro item member item' member' same
          exact one (holder item) item item' (holding item (List.mem_toFinset.mp member))
            (same ▸ holding item' (List.mem_toFinset.mp member'))
    _ < Finset.univ.card := Finset.card_lt_card (Finset.erase_ssubset (Finset.mem_univ thread))

section Total

variable [Fintype Thread] (weight : Pc → Nat)

/-- What all threads weigh together. -/
def total (pc : Thread → Pc) : Nat := Finset.univ.sum fun thread => weight (pc thread)

/-- A move replaces the weight of one thread. -/
theorem total_update : total weight (Function.update pc thread next) + weight (pc thread) =
    total weight pc + weight next := by
  have others : ∀ other ∈ Finset.univ.erase thread,
      weight (Function.update pc thread next other) = weight (pc other) := by
    intro other member
    rw [Function.update_of_ne (Finset.ne_of_mem_erase member)]
  unfold total
  rw [← Finset.add_sum_erase Finset.univ _ (Finset.mem_univ thread),
    ← Finset.add_sum_erase Finset.univ (fun other => weight (pc other)) (Finset.mem_univ thread),
    Finset.sum_congr rfl others, Function.update_self]
  omega

/-- A move to a place of the same weight changes nothing. -/
theorem total_update_of_eq (same : weight next = weight (pc thread)) :
    total weight (Function.update pc thread next) = total weight pc := by
  apply Nat.add_right_cancel (m := weight (pc thread))
  rw [total_update, same]

omit [DecidableEq Thread] in
theorem total_congr {other : Thread → Pc}
    (same : ∀ thread, weight (other thread) = weight (pc thread)) :
    total weight other = total weight pc :=
  Finset.sum_congr rfl fun thread _ => same thread

omit [DecidableEq Thread] in
theorem total_eq_zero (weightless : ∀ thread, weight (pc thread) = 0) : total weight pc = 0 :=
  Finset.sum_eq_zero fun thread _ => weightless thread

/-- Where all threads together weigh at most one, one of them has all the weight. -/
theorem eq_of_total_le_one (light : total weight pc ≤ 1) {other : Thread}
    (here : 0 < weight (pc thread)) (there : 0 < weight (pc other)) : thread = other := by
  by_contra different
  have both : weight (pc thread) + weight (pc other) ≤ total weight pc := by
    rw [← Finset.sum_pair (f := fun thread => weight (pc thread)) different]
    exact Finset.sum_le_sum_of_subset (Finset.subset_univ _)
  omega

end Total

end Threads
