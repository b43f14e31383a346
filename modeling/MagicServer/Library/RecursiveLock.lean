import Mathlib.Tactic.ByContra

/-!
# A recursive lock

A lock that its holder may take again, and that is free when it has been let go
as often as it was taken. No state of it has two holders.
-/

/-- The thread that holds the lock, and how often it has taken it again. -/
structure RecursiveLock (Thread : Type*) where
  held : Option (Thread × Nat)

namespace RecursiveLock

variable {Thread : Type*}

/-- The lock that nobody holds. -/
def free : RecursiveLock Thread := ⟨none⟩

def owner (lock : RecursiveLock Thread) : Option Thread := lock.held.map Prod.fst

/-- The lock that a thread holds so often. -/
def heldBy (thread : Thread) : Nat → RecursiveLock Thread
  | 0 => free
  | again + 1 => ⟨some (thread, again)⟩

variable [DecidableEq Thread]

/-- Take the lock; there is no result while another thread holds it. -/
def take (lock : RecursiveLock Thread) (thread : Thread) : Option (RecursiveLock Thread) :=
  match lock.held with
  | none => some ⟨some (thread, 0)⟩
  | some (holder, again) =>
      if holder = thread then some ⟨some (thread, again + 1)⟩ else none

/-- Let the lock go; a thread that does not hold it changes nothing. -/
def release (lock : RecursiveLock Thread) (thread : Thread) : RecursiveLock Thread :=
  match lock.held with
  | none => lock
  | some (holder, again) =>
      if holder = thread then
        match again with
        | 0 => free
        | again + 1 => ⟨some (thread, again)⟩
      else lock

/-- How often the thread would have to let the lock go. -/
def count (lock : RecursiveLock Thread) (thread : Thread) : Nat :=
  match lock.held with
  | none => 0
  | some (holder, again) => if holder = thread then again + 1 else 0

/-- The thread need not wait for the lock. -/
def Available (lock : RecursiveLock Thread) (thread : Thread) : Prop :=
  lock.owner = none ∨ lock.owner = some thread

variable {lock lock' : RecursiveLock Thread} {thread : Thread}

/-- Whoever takes the lock holds it then, and nobody else held it before. -/
theorem owner_take (taken : lock.take thread = some lock') :
    lock'.owner = some thread ∧ (lock.owner = none ∨ lock.owner = some thread) := by
  unfold take at taken
  split at taken
  · next nobody =>
      cases taken
      exact ⟨rfl, Or.inl (by rw [owner, nobody, Option.map_none])⟩
  · next holder again someone =>
      obtain ⟨rfl, same⟩ := Option.ite_none_right_eq_some.mp taken
      cases same
      exact ⟨rfl, Or.inr (by rw [owner, someone, Option.map_some])⟩

/-- After the holder has let the lock go once, nobody else holds it. -/
theorem owner_release (held : lock.owner = some thread) :
    (lock.release thread).owner = none ∨ (lock.release thread).owner = some thread := by
  obtain ⟨⟨holder, again⟩, someone, rfl⟩ := Option.map_eq_some_iff.mp held
  unfold release
  rw [someone]
  simp only [↓reduceIte]
  cases again with
  | zero => exact Or.inl rfl
  | succ again => exact Or.inr rfl

/-- A thread takes a lock that it need not wait for, and holds it once more then. -/
theorem Available.take (available : lock.Available thread) : ∃ lock',
    lock.take thread = some lock' ∧ lock'.Available thread ∧
      lock'.count thread = lock.count thread + 1 ∧ lock'.release thread = lock := by
  obtain ⟨_ | ⟨holder, again⟩⟩ := lock
  · refine ⟨⟨some (thread, 0)⟩, rfl, Or.inr rfl, ?_, ?_⟩
    · simp only [count, if_true]
    · simp only [release, if_true]
      rfl
  · rcases available with nobody | self
    · cases nobody
    · cases Option.some_inj.mp self
      refine ⟨⟨some (holder, again + 1)⟩, ?_, Or.inr rfl, ?_, ?_⟩
      · simp only [RecursiveLock.take, if_true]
      · simp only [count, if_true]
      · simp only [release, if_true]

/-- A lock that a thread need not wait for is free when the thread does not hold it. -/
theorem Available.count_eq_zero (available : lock.Available thread) :
    lock.count thread = 0 ↔ lock = free := by
  obtain ⟨_ | ⟨holder, again⟩⟩ := lock
  · exact iff_of_true rfl rfl
  · rcases available with nobody | self
    · cases nobody
    · cases Option.some_inj.mp self
      apply iff_of_false
      · simp only [count, if_true, Nat.succ_ne_zero, not_false_iff]
      · intro same
        cases same

/-- While a thread holds the lock, every other has to wait for it. -/
theorem take_eq_none {other : Thread} (held : lock.count thread ≠ 0) (different : other ≠ thread) :
    lock.take other = none := by
  obtain ⟨_ | ⟨holder, again⟩⟩ := lock
  · exact absurd rfl held
  · have self : holder = thread := by
      by_contra else_held
      exact held (if_neg else_held)
    apply if_neg
    rw [self]
    exact different.symm

/-- Taking the lock counts for the thread that takes it, -/
theorem count_take (taken : lock.take thread = some lock') :
    lock'.count thread = lock.count thread + 1 := by
  obtain ⟨_ | ⟨holder, again⟩⟩ := lock
  · cases taken
    simp only [count, if_true]
  · obtain ⟨rfl, same⟩ := Option.ite_none_right_eq_some.mp taken
    cases same
    simp only [count, if_true]

/-- and for no other. -/
theorem count_take_of_ne {other : Thread} (taken : lock.take thread = some lock')
    (different : other ≠ thread) : lock'.count other = lock.count other := by
  obtain ⟨_ | ⟨holder, again⟩⟩ := lock
  · cases taken
    exact if_neg different.symm
  · obtain ⟨rfl, same⟩ := Option.ite_none_right_eq_some.mp taken
    cases same
    exact (if_neg different.symm).trans (if_neg different.symm).symm

/-- So does letting it go. -/
theorem count_release (thread : Thread) (lock : RecursiveLock Thread) :
    (lock.release thread).count thread = lock.count thread - 1 := by
  obtain ⟨_ | ⟨holder, again⟩⟩ := lock
  · rfl
  · by_cases self : holder = thread
    · cases again <;> simp [release, count, free, self]
    · simp [release, count, self]

theorem count_release_of_ne {other : Thread} (lock : RecursiveLock Thread)
    (different : other ≠ thread) : (lock.release thread).count other = lock.count other := by
  obtain ⟨_ | ⟨holder, again⟩⟩ := lock
  · rfl
  · by_cases self : holder = thread
    · subst self
      cases again <;> simp [release, count, free, different.symm]
    · simp only [release, if_neg self]

/-- While a thread holds the lock, no other does. -/
theorem count_eq_zero_of_ne {other : Thread} (held : lock.count thread ≠ 0)
    (different : other ≠ thread) : lock.count other = 0 := by
  obtain ⟨_ | ⟨holder, again⟩⟩ := lock
  · rfl
  · apply if_neg
    rintro rfl
    exact held (if_neg different)

/-- The thread that holds the lock takes it again, -/
theorem take_heldBy (thread : Thread) (again : Nat) :
    (heldBy thread again).take thread = some (heldBy thread (again + 1)) := by
  cases again with
  | zero => rfl
  | succ again =>
      unfold take heldBy
      simp only [if_true]

/-- and lets it go as often. -/
theorem release_heldBy (thread : Thread) (again : Nat) :
    (heldBy thread (again + 1)).release thread = heldBy thread again := by
  unfold release heldBy
  simp only [if_true]

omit [DecidableEq Thread] in
theorem available_free (thread : Thread) : (free : RecursiveLock Thread).Available thread :=
  Or.inl rfl

end RecursiveLock
