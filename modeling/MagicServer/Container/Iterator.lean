import MagicServer.Container.Bounds

/-!
# The iterator of the array

`Array::Iterator` keeps a copy of the `Array` object, which points to the block
that the array had when the copy was made. Any call that changes the array frees
that block, so the iterator may read exactly as long as there has been none.
-/

namespace MSrv

/-- Array iterator: the position, and the members of its copy of the array. -/
structure Iterator where
  mPos : Int
  mpItems : BlockHeap.Pointer
  mItemCount : Int

namespace Iterator

variable {TYPE : Type*}

/-- Creates an iterator for the given array. -/
def create (array : Array TYPE) : Iterator where
  mPos := 0
  mpItems := array.mpItems
  mItemCount := array.mItemCount

/-- The slot that `get` refers to, when it lies in a block that is allocated. -/
def get (heap : BlockHeap TYPE) (iter : Iterator) : Option (List (Option TYPE)) :=
  heap.load iter.mpItems iter.mPos 1

/-- Moves to next array position. -/
def next (iter : Iterator) : Iterator := { iter with mPos := iter.mPos + 1 }

/-- Are there no more items? -/
def exhausted (iter : Iterator) : Bool := iter.mPos ≥ iter.mItemCount

end Iterator

/-- An array and an iterator made on it. -/
structure Iterating (TYPE : Type*) where
  array : Array TYPE
  iter : Iterator
  /-- `exhausted` has returned false at this position. -/
  checked : Bool
  /-- `add` or `remove` has returned 0 since the iterator was made. -/
  changed : Bool

namespace Iterating

variable {TYPE : Type*}

/-- The iterator is made. -/
def start (array : Array TYPE) : Iterating TYPE where
  array := array
  iter := .create array
  checked := false
  changed := false

inductive Action (TYPE : Type*) where
  | exhausted
  | get
  | next
  /-- The body of the loop, or another thread, calls the array. -/
  | call (call : Array.Call TYPE)

/-- The steps of the iterator and the calls of the array, in any order. -/
def machine : Machine (Iterating TYPE) (Action TYPE) where
  step state
    | .exhausted => some { state with checked := !state.iter.exhausted }
    | .get => some state
    | .next => some { state with iter := state.iter.next, checked := false }
    | .call call =>
        (call.perform state.array).map fun called =>
          { state with
            array := called.2
            changed := state.changed || decide (called.1 = (0 : MSrvResult)) }

/-- A `get` that follows an `exhausted` that returned false refers to a slot of
a block that is allocated. -/
def ReadsAllocated (state : Iterating TYPE) : Action TYPE → Prop
  | .get => state.checked = true → (state.iter.get state.array.heap).isSome = true
  | .exhausted | .next | .call _ => True

/-- No call has changed the array before such a `get`. -/
def ReadsUnchanged (state : Iterating TYPE) : Action TYPE → Prop
  | .get => state.checked = true → state.changed = false
  | .exhausted | .next | .call _ => True

/-- What ties the iterator to the array: until the array is changed they share
the block, and afterwards that block is gone. -/
structure Tied (state : Iterating TYPE) : Prop where
  backed : state.array.Backed
  pos : 0 ≤ state.iter.mPos
  inside : state.checked = true → state.iter.mPos < state.iter.mItemCount
  shared : state.changed = false →
    state.iter.mpItems = state.array.mpItems ∧ state.iter.mItemCount = state.array.mItemCount
  gone : state.changed = true → ∀ number, state.iter.mpItems = some number →
    number < state.array.heap.next ∧ state.array.heap.size number = none

variable {state next : Iterating TYPE} {action : Action TYPE}

theorem tied_start {array : Array TYPE} (backed : array.Backed) : (start array).Tied where
  backed := backed
  pos := le_rfl
  inside checked := absurd checked Bool.false_ne_true
  shared _ := ⟨rfl, rfl⟩
  gone changed := absurd changed Bool.false_ne_true

/-- A call that returns 0 frees the block of the iterator, if it is still there. -/
theorem Tied.replaced (tied : state.Tied) {array : Array TYPE} {count : Int}
    (replaces : Array.Replaces state.array array count) :
    Tied { state with array := array, changed := true } where
  backed := replaces.backed
  pos := tied.pos
  inside := tied.inside
  shared unchanged := absurd unchanged.symm Bool.false_ne_true
  gone _ number pointer := by
    cases changed : state.changed with
    | true =>
        obtain ⟨used, freed⟩ := tied.gone changed number pointer
        exact ⟨used.trans_le replaces.later, replaces.gone number used freed⟩
    | false =>
        have mine := (tied.shared changed).1.symm.trans pointer
        exact ⟨(tied.backed.lt_next mine).trans_le replaces.later, replaces.freed number mine⟩

theorem Tied.step (tied : state.Tied) (taken : machine.step state action = some next) :
    next.Tied := by
  cases action with
  | exhausted =>
      cases taken
      refine ⟨tied.backed, tied.pos, fun more => ?_, tied.shared, tied.gone⟩
      have left : ¬ state.iter.mPos ≥ state.iter.mItemCount := by
        simpa [Iterator.exhausted] using more
      exact not_le.mp left
  | get =>
      cases taken
      exact tied
  | next =>
      cases taken
      exact ⟨tied.backed, tied.pos.trans (Int.le_add_one le_rfl),
        fun checked => absurd checked Bool.false_ne_true, tied.shared, tied.gone⟩
  | call call =>
      obtain ⟨⟨result, array⟩, made, same⟩ := Option.map_eq_some_iff.mp taken
      cases same
      cases call with
      | add item =>
          obtain ⟨rfl, _, replaces⟩ := Array.add_cases tied.backed made
          simpa using tied.replaced replaces
      | remove pos =>
          rcases Array.remove_cases tied.backed made with ⟨_, rfl, rfl⟩ | ⟨_, rfl, replaces⟩
          · have kept : (state.changed || decide (MSRVERR_INVALID_ARGUMENT = 0)) = state.changed :=
              Bool.or_false _
            refine ⟨tied.backed, tied.pos, tied.inside, fun unchanged => ?_, fun changed => ?_⟩
            · exact tied.shared (kept.symm.trans unchanged)
            · exact tied.gone (kept.symm.trans changed)
          · simpa using tied.replaced replaces

/-- Where a `get` is checked, its slot is there exactly when nothing has changed. -/
theorem Tied.get_isSome_iff (tied : state.Tied) (checked : state.checked = true) :
    (state.iter.get state.array.heap).isSome = true ↔ state.changed = false := by
  unfold Iterator.get
  rw [BlockHeap.load_isSome_iff _ _ tied.pos]
  constructor
  · rintro ⟨number, slots, pointer, size, _⟩
    cases changed : state.changed with
    | false => rfl
    | true => cases size.symm.trans (tied.gone changed number pointer).2
  · intro unchanged
    obtain ⟨pointer, count⟩ := tied.shared unchanged
    have inside := tied.inside checked
    rcases tied.backed with ⟨_, none_left⟩ | ⟨number, slots, pointer', size, counted⟩
    · have pos := tied.pos
      omega
    · exact ⟨number, slots, pointer.trans pointer', size, by omega⟩

/-- In every interleaving, all that the iterator reads is allocated exactly when
no call has changed the array before it reads. -/
theorem readsAllocated_iff {array : Array TYPE} (backed : array.Backed)
    (actions : List (Action TYPE)) :
    machine.Steps ReadsAllocated (start array) actions ↔
      machine.Steps ReadsUnchanged (start array) actions := by
  apply machine.steps_congr Tied _ _ (tied_start backed)
  · intro state action next
    exact Tied.step
  · intro state action tied
    cases action with
    | get => exact forall_congr' tied.get_isSome_iff
    | exhausted | next | call => exact Iff.rfl

instance (state : Iterating TYPE) :
    (action : Action TYPE) → Decidable (ReadsAllocated state action)
  | .get => inferInstanceAs (Decidable (state.checked = true → _ = true))
  | .exhausted | .next | .call _ => instDecidableTrue

/-- A loop over two items that changes nothing. -/
theorem readsAllocated_iff_walk : ∃ array : Array Nat,
    Array.performed.run .empty [.add 10, .add 11] = some array ∧
      (machine.Steps ReadsAllocated (start array)
          [.exhausted, .get, .next, .exhausted, .get, .next, .exhausted] ↔
        machine.Steps ReadsUnchanged (start array)
          [.exhausted, .get, .next, .exhausted, .get, .next, .exhausted]) := by
  obtain ⟨array, ran⟩ : ∃ array : Array Nat,
      Array.performed.run .empty [.add 10, .add 11] = some array := ⟨_, rfl⟩
  exact ⟨array, ran, readsAllocated_iff (Array.backed_of_run ran) _⟩

/-- The body of the loop removes the first of two items, and the second `get`
reads the block that this has freed. -/
theorem reads_freed_block : ∃ array : Array Nat,
    Array.performed.run .empty [.add 10, .add 11] = some array ∧
      ¬ machine.Steps ReadsAllocated (start array)
        [.exhausted, .get, .call (.remove 0), .next, .exhausted, .get] :=
  ⟨_, rfl, by decide⟩

end Iterating

end MSrv
