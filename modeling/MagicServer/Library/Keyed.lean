import Mathlib.Data.List.Nodup

/-!
# Lists with distinct keys

A list whose entries have distinct keys behaves like a finite map: erasing the
first entry with a key removes exactly the entries with that key.
-/

namespace Keyed

variable {Entry Key : Type*} [DecidableEq Key] (key : Entry → Key)

/-- Erase the first entry with the given key. -/
def erase (entries : List Entry) (k : Key) : List Entry := entries.eraseP fun entry => key entry = k

variable {key} {entries : List Entry} {k : Key}

theorem erase_eq_filter (distinct : (entries.map key).Nodup) :
    erase key entries k = entries.filter fun entry => key entry ≠ k := by
  unfold erase
  induction entries with
  | nil => rfl
  | cons entry rest ih =>
      obtain ⟨fresh, distinct⟩ := List.nodup_cons.mp distinct
      by_cases found : key entry = k
      · have others : ∀ other ∈ rest, key other ≠ k := fun other member same =>
          fresh (found ▸ same ▸ List.mem_map_of_mem member)
        rw [List.eraseP_cons_of_pos (by simpa using found),
          List.filter_cons_of_neg (by simpa using found),
          List.filter_eq_self.mpr fun other member => by simpa using others other member]
      · rw [List.eraseP_cons_of_neg (by simpa using found),
          List.filter_cons_of_pos (by simpa using found), ih distinct]

theorem mem_erase (distinct : (entries.map key).Nodup) {entry : Entry} :
    entry ∈ erase key entries k ↔ entry ∈ entries ∧ key entry ≠ k := by
  rw [erase_eq_filter distinct, List.mem_filter, decide_eq_true_iff]

/-- Another entry that stands first stays there. -/
theorem head?_erase {first : Entry} (head : entries.head? = some first)
    (different : key first ≠ k) : (erase key entries k).head? = some first := by
  obtain ⟨rest, rfl⟩ := List.head?_eq_some_iff.mp head
  rw [erase, List.eraseP_cons_of_neg (by simpa using different)]
  rfl

/-- Erasing leaves a sublist, whatever the keys. -/
theorem erase_sublist : (erase key entries k).Sublist entries := List.eraseP_sublist ..

/-- Exactly one entry has the key of an entry of the list. -/
theorem filter_key (distinct : (entries.map key).Nodup) {entry : Entry} (listed : entry ∈ entries) :
    (entries.filter fun other => key other = key entry) = [entry] := by
  obtain ⟨before, after, rfl⟩ := List.append_of_mem listed
  rw [List.map_append, List.map_cons, List.nodup_append, List.nodup_cons] at distinct
  obtain ⟨_, ⟨absent, _⟩, apart⟩ := distinct
  have none_before : before.filter (fun other => key other = key entry) = [] :=
    List.filter_eq_nil_iff.mpr fun other member same =>
      apart _ (List.mem_map_of_mem member) _ List.mem_cons_self (of_decide_eq_true same)
  have none_after : after.filter (fun other => key other = key entry) = [] :=
    List.filter_eq_nil_iff.mpr fun other member same =>
      absent (of_decide_eq_true same ▸ List.mem_map_of_mem member)
  rw [List.filter_append, List.filter_cons_of_pos (by simp), none_before, none_after]
  rfl

end Keyed
