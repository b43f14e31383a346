import MagicServer.Container.Array

/-!
# Positions outside the array

What any call of `add` and `remove`, with any position, does to the count and to
the blocks of an `Array`. Only a position above the count is refused, and then
the lock is not let go; `remove` from an empty array counts below zero.
-/

namespace MSrv.Array

variable {TYPE : Type*} {array next : Array TYPE}

/-- The block has a slot for every item counted; without a block there is none
to count. -/
def Backed (array : Array TYPE) : Prop :=
  (array.mpItems = none ∧ array.mItemCount ≤ 0) ∨
    ∃ number slots, array.mpItems = some number ∧ array.heap.size number = some slots ∧
      array.mItemCount = (slots : Nat)

theorem backed_empty : (empty : Array TYPE).Backed := Or.inl ⟨rfl, le_rfl⟩

theorem Holds.backed {items : List TYPE} (holds : array.Holds items) : array.Backed := by
  rcases holds.block with ⟨pointer, rfl⟩ | ⟨number, pointer, block⟩
  · exact Or.inl ⟨pointer, holds.count.le⟩
  · refine Or.inr ⟨number, items.length, pointer, ?_, holds.count⟩
    rw [BlockHeap.size, block, Option.map_some, List.length_map]

/-- The block of an array is one that has been allocated. -/
theorem Backed.lt_next (backed : array.Backed) {number : Nat}
    (pointer : array.mpItems = some number) : number < array.heap.next := by
  rcases backed with ⟨null, _⟩ | ⟨number', slots, pointer', size, _⟩
  · cases null.symm.trans pointer
  · cases pointer'.symm.trans pointer
    exact array.heap.lt_next_of_size size

/-- A call that returns 0 frees the block that the array had, and no number of a
freed block is used again. -/
structure Replaces (array next : Array TYPE) (count : Int) : Prop where
  backed : next.Backed
  count : next.mItemCount = count
  lock : next.mThreadLock = array.mThreadLock
  later : array.heap.next ≤ next.heap.next
  freed : ∀ number, array.mpItems = some number → next.heap.size number = none
  gone : ∀ number < array.heap.next, array.heap.size number = none →
    next.heap.size number = none

/-- The old block is freed after the new one has been made and written. -/
theorem replaces_of_malloc (backed : array.Backed) {count : Int} {pNewItems : BlockHeap.Pointer}
    {made written heap : BlockHeap TYPE} (allocation : array.heap.malloc count = (pNewItems, made))
    (next : written.next = made.next) (size : written.size = made.size)
    (free : written.free array.mpItems = some heap) :
    Replaces array ⟨heap, pNewItems, count, array.mThreadLock⟩ count := by
  obtain ⟨after, lost, others⟩ := BlockHeap.size_free free
  rcases array.heap.size_malloc count with
    ⟨negative, failed⟩ | ⟨nonneg, heap', done, more, fresh, old⟩
  · cases failed.symm.trans allocation
    refine ⟨Or.inl ⟨rfl, negative.le⟩, rfl, rfl, (after.trans next).ge, lost,
      fun number _ gone => ?_⟩
    by_cases mine : array.mpItems = some number
    · exact lost number mine
    · exact (others number mine).trans ((congrFun size number).trans gone)
  · cases done.symm.trans allocation
    have apart : array.mpItems ≠ some array.heap.next :=
      fun pointer => lt_irrefl _ (backed.lt_next pointer)
    refine ⟨Or.inr ⟨array.heap.next, count.toNat, rfl, ?_, (Int.toNat_of_nonneg nonneg).symm⟩, rfl,
      rfl, ?_, lost, fun number used gone => ?_⟩
    · exact (others _ apart).trans ((congrFun size _).trans fresh)
    · change array.heap.next ≤ heap.next
      omega
    · by_cases mine : array.mpItems = some number
      · exact lost number mine
      · exact (others number mine).trans
          ((congrFun size number).trans ((old number used.ne).trans gone))

/-- Or nothing is left of the array. -/
theorem replaces_of_free {heap : BlockHeap TYPE}
    (free : array.heap.free array.mpItems = some heap) :
    Replaces array ⟨heap, none, 0, array.mThreadLock⟩ 0 := by
  obtain ⟨after, lost, others⟩ := BlockHeap.size_free free
  refine ⟨Or.inl ⟨rfl, le_rfl⟩, rfl, rfl, after.ge, lost, fun number _ gone => ?_⟩
  by_cases mine : array.mpItems = some number
  · exact lost number mine
  · exact (others number mine).trans gone

/-- An `add` that has a result returns 0, and the array counted nothing below zero. -/
theorem add_cases (backed : array.Backed) {item : TYPE} {result : MSrvResult}
    (added : array.add item = some (result, next)) :
    result = 0 ∧ 0 ≤ array.mItemCount ∧ Replaces array next (array.mItemCount + 1) := by
  unfold add lock at added
  rw [Option.ite_none_left_eq_some] at added
  obtain ⟨_, added⟩ := added
  cases allocation : array.heap.malloc (array.mItemCount + 1) with
  | mk pNewItems made =>
      simp only [allocation] at added
      obtain ⟨copied, copy, added⟩ := Option.bind_eq_some_iff.mp added
      obtain ⟨written, store, added⟩ := Option.bind_eq_some_iff.mp added
      obtain ⟨heap, free, added⟩ := Option.bind_eq_some_iff.mp added
      cases added
      have same : copied.next = made.next ∧ copied.size = made.size := by
        split_ifs at copy
        · exact BlockHeap.size_memcpy copy
        · cases copy
          exact ⟨rfl, rfl⟩
      obtain ⟨next, size, nonneg, _⟩ := BlockHeap.size_store store
      exact ⟨rfl, nonneg, replaces_of_malloc backed allocation (next.trans same.1)
        (size.trans same.2) free⟩

/-- A `remove` refuses a position above the count, with the lock held, and
replaces the block for any other for which it has a result. -/
theorem remove_cases (backed : array.Backed) {pos : Int} {result : MSrvResult}
    (removed : array.remove pos = some (result, next)) :
    (array.mItemCount < pos ∧ result = MSRVERR_INVALID_ARGUMENT ∧ next = array.lock) ∨
      (pos ≤ array.mItemCount ∧ result = 0 ∧ Replaces array next (array.mItemCount - 1)) := by
  unfold remove at removed
  by_cases above : pos > array.mItemCount
  · left
    change (if pos > array.mItemCount then _ else _) = _ at removed
    rw [if_pos above] at removed
    cases removed
    exact ⟨above, rfl, rfl⟩
  right
  refine ⟨not_lt.mp above, ?_⟩
  change (if pos > array.mItemCount then _ else
    if array.mItemCount = 1 then _ else _) = _ at removed
  rw [if_neg above] at removed
  by_cases only : array.mItemCount = 1
  · rw [if_pos only] at removed
    obtain ⟨heap, free, removed⟩ := Option.bind_eq_some_iff.mp removed
    cases removed
    refine ⟨rfl, ?_⟩
    change Replaces array ⟨heap, none, array.mItemCount - 1, array.mThreadLock⟩ _
    rw [only]
    exact replaces_of_free free
  · rw [if_neg only] at removed
    cases allocation : array.heap.malloc (array.mItemCount - 1) with
    | mk pNewItems made =>
        change array.lock.heap.malloc (array.lock.mItemCount - 1) = _ at allocation
        simp only [allocation] at removed
        obtain ⟨lower, copy, removed⟩ := Option.bind_eq_some_iff.mp removed
        obtain ⟨written, copy', removed⟩ := Option.bind_eq_some_iff.mp removed
        obtain ⟨heap, free, removed⟩ := Option.bind_eq_some_iff.mp removed
        cases removed
        have same : lower.next = made.next ∧ lower.size = made.size := by
          split_ifs at copy
          · exact BlockHeap.size_memcpy copy
          · cases copy
            exact ⟨rfl, rfl⟩
        have same' : written.next = lower.next ∧ written.size = lower.size := by
          split_ifs at copy'
          · exact BlockHeap.size_memcpy copy'
          · cases copy'
            exact ⟨rfl, rfl⟩
        exact ⟨rfl, replaces_of_malloc backed allocation (same'.1.trans same.1)
          (same'.2.trans same.2) free⟩

/-- The array under calls with any result. -/
def performed : Machine (Array TYPE) (Call TYPE) where
  step array call := (call.perform array).map Prod.snd

/-- A call that has a result changes nothing but the lock, and is then a
`remove` above the count, or it replaces the block. -/
theorem performed_cases {call : Call TYPE} (backed : array.Backed)
    (taken : performed.step array call = some next) :
    (next = array.lock ∧ ∃ pos, call = .remove pos ∧ array.mItemCount < pos) ∨
      (∃ item, call = .add item ∧ 0 ≤ array.mItemCount ∧
        Replaces array next (array.mItemCount + 1)) ∨
      ∃ pos, call = .remove pos ∧ pos ≤ array.mItemCount ∧
        Replaces array next (array.mItemCount - 1) := by
  obtain ⟨⟨result, next⟩, made, same⟩ := Option.map_eq_some_iff.mp taken
  cases same
  cases call with
  | add item =>
      obtain ⟨_, nonneg, replaces⟩ := add_cases backed made
      exact Or.inr (Or.inl ⟨item, rfl, nonneg, replaces⟩)
  | remove pos =>
      rcases remove_cases backed made with ⟨above, _, same⟩ | ⟨below, _, replaces⟩
      · exact Or.inl ⟨same, pos, rfl, above⟩
      · exact Or.inr (Or.inr ⟨pos, rfl, below, replaces⟩)

theorem Backed.performed {call : Call TYPE} (backed : array.Backed)
    (taken : performed.step array call = some next) : next.Backed := by
  rcases performed_cases backed taken with ⟨rfl, _⟩ | ⟨_, _, _, replaces⟩ | ⟨_, _, _, replaces⟩
  · exact backed
  · exact replaces.backed
  · exact replaces.backed

/-- Every array that calls make of an empty one. -/
theorem backed_of_run {calls : List (Call TYPE)} (ran : performed.run empty calls = some next) :
    next.Backed := by
  apply performed.run_invariant Backed _ backed_empty (performed.steps_true _ _) ran
  intro array call next backed _
  exact backed.performed

/-! ## The count -/

/-- No `remove` of position 0 or below is called on an empty array. -/
def RemovesAnItem (array : Array TYPE) : Call TYPE → Prop
  | .add _ => True
  | .remove pos => array.length = 0 → 0 < pos

instance (array : Array TYPE) : (call : Call TYPE) → Decidable (RemovesAnItem array call)
  | .add _ => instDecidableTrue
  | .remove pos => inferInstanceAs (Decidable (array.length = 0 → 0 < pos))

/-- The length stays above zero exactly along calls that remove nothing from an
empty array, and it never comes back. -/
theorem length_nonneg_iff (backed : array.Backed) (nonneg : 0 ≤ array.length)
    {calls : List (Call TYPE)} {final : Array TYPE}
    (ran : performed.run array calls = some final) :
    0 ≤ final.length ↔ performed.Steps RemovesAnItem array calls := by
  apply performed.law_iff_steps (fun array => array.Backed ∧ 0 ≤ array.length)
    (fun array => array.Backed ∧ array.length < 0) _ _ _ _ _ ⟨backed, nonneg⟩
    (performed.steps_true _ _) ran
  · rintro array call next ⟨backed, nonneg⟩ _ removes taken
    refine ⟨backed.performed taken, ?_⟩
    unfold length at nonneg ⊢
    rcases performed_cases backed taken with
      ⟨rfl, _⟩ | ⟨_, _, _, replaces⟩ | ⟨pos, rfl, below, replaces⟩
    · exact nonneg
    · rw [replaces.count]
      omega
    · have some_item : array.mItemCount ≠ 0 := fun none_left => not_lt.mpr below
        (lt_of_eq_of_lt none_left (removes none_left))
      rw [replaces.count]
      omega
  · rintro array call next ⟨backed, nonneg⟩ _ removes taken
    refine ⟨backed.performed taken, ?_⟩
    cases call with
    | add item => exact absurd trivial removes
    | remove pos =>
        obtain ⟨none_left, low⟩ := Classical.not_imp.mp removes
        unfold length at none_left ⊢
        rcases performed_cases backed taken with
          ⟨_, _, same, above⟩ | ⟨_, same, _⟩ | ⟨_, _, _, replaces⟩
        · cases same
          omega
        · cases same
        · rw [replaces.count]
          omega
  · rintro array call next ⟨backed, negative⟩ _ taken
    refine ⟨backed.performed taken, ?_⟩
    unfold length at negative ⊢
    rcases performed_cases backed taken with ⟨rfl, _⟩ | ⟨_, _, nonneg, _⟩ | ⟨_, _, _, replaces⟩
    · exact negative
    · omega
    · rw [replaces.count]
      omega
  · exact fun array kept => kept.2
  · exact fun array lost => not_le.mpr lost.2

/-! ## What is refused -/

/-- `remove` refuses the position, and leaves the items, the length and the lock
as they were. -/
def Refuses (array : Array TYPE) (pos : Int) : Prop :=
  ∃ next, array.remove pos = some (MSRVERR_INVALID_ARGUMENT, next) ∧
    (∀ index, next.get index = array.get index) ∧ next.length = array.length ∧
    next.mThreadLock = array.mThreadLock

/-- No position is refused as it should be, and the length stays above zero
exactly as long as nothing is removed from an empty array. -/
theorem not_refuses_and_length_nonneg_iff (backed : array.Backed) (nonneg : 0 ≤ array.length) :
    (∀ pos, ¬ (0 ≤ pos ∧ pos < array.length) → ¬ array.Refuses pos) ∧
      ∀ calls final, performed.run array calls = some final →
        (0 ≤ final.length ↔ performed.Steps RemovesAnItem array calls) := by
  refine ⟨fun pos _ refuses => ?_, fun calls final => length_nonneg_iff backed nonneg⟩
  obtain ⟨next, refused, _, _, lock⟩ := refuses
  rcases remove_cases backed refused with ⟨_, _, rfl⟩ | ⟨_, done, _⟩
  · exact Nat.succ_ne_self _ lock
  · cases done

/-- Two items, and calls that never empty the array. -/
theorem not_refuses_and_length_nonneg_iff_pair : ∃ array : Array Nat,
    performed.run empty [.add 10, .add 11] = some array ∧
      (∀ pos, ¬ (0 ≤ pos ∧ pos < array.length) → ¬ array.Refuses pos) ∧
      ∀ calls final, performed.run array calls = some final →
        (0 ≤ final.length ↔ performed.Steps RemovesAnItem array calls) := by
  obtain ⟨array, ran, length⟩ : ∃ array : Array Nat,
      performed.run empty [.add 10, .add 11] = some array ∧ array.length = 2 := ⟨_, rfl, rfl⟩
  exact ⟨array, ran, not_refuses_and_length_nonneg_iff (backed_of_run ran) (by omega)⟩

/-- `remove (3)` of two items keeps the lock, `remove (2)` writes outside the new
block, and `remove (0)` of none leaves length -1. -/
theorem remove_outside_of_pair :
    (∃ array next : Array Nat, performed.run empty [.add 10, .add 11] = some array ∧
      array.remove 3 = some (MSRVERR_INVALID_ARGUMENT, next) ∧ array.mThreadLock = 0 ∧
      next.mThreadLock = 1 ∧ array.remove 2 = none ∧ ¬ array.Refuses 3 ∧ ¬ array.Refuses 2) ∧
      ∃ next : Array Nat, (empty : Array Nat).remove 0 = some (0, next) ∧ next.length = -1 := by
  refine ⟨⟨_, _, rfl, rfl, rfl, rfl, rfl, ?_, ?_⟩, _, rfl, rfl⟩
  · rintro ⟨next, refused, _, _, lock⟩
    cases refused
    cases lock
  · rintro ⟨next, refused, _⟩
    cases refused

end MSrv.Array
