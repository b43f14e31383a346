import MagicServer.Def
import MagicServer.Library.BlockHeap
import MagicServer.Library.Simulation
import Mathlib.Tactic.ByContra

/-!
# The resizable array

`Array` of `msrvcontainer.h` over a heap of numbered blocks. Every `add` and
`remove` allocates a new block, copies what it keeps and frees the old block. An
operation has no result when the code's behaviour is undefined: a copy outside
an allocated block, or `mItemCount` leaving the range of `int`.

The array is compared with a list to which `add` appends and from which `remove`
erases one position. The comparison is exact: the array follows the list
precisely along the calls in which no `remove` leaves out the upper part.
-/

namespace MSrv

/-- `Array<TYPE>` with the heap its blocks live in. `mThreadLock` counts how
often the calling thread holds the recursive lock. -/
structure Array (TYPE : Type*) where
  heap : BlockHeap TYPE
  mpItems : BlockHeap.Pointer
  mItemCount : Int
  mThreadLock : Nat

namespace Array

variable {TYPE : Type*}

/-- Creates an empty array. -/
def empty : Array TYPE where
  heap := .empty
  mpItems := none
  mItemCount := 0
  mThreadLock := 0

def lock (array : Array TYPE) : Array TYPE :=
  { array with mThreadLock := array.mThreadLock + 1 }

def unlock (array : Array TYPE) : Array TYPE :=
  { array with mThreadLock := array.mThreadLock - 1 }

/-- Adds an item to the end of array. -/
def add (array : Array TYPE) (item : TYPE) : Option (MSrvResult × Array TYPE) :=
  let array := array.lock
  if array.mItemCount = INT_MAX then none
  else do
    let (pNewItems, heap) := array.heap.malloc (array.mItemCount + 1)
    let heap ←
      (if array.mItemCount > 0 then heap.memcpy pNewItems 0 array.mpItems 0 array.mItemCount
      else some heap)
    let heap ← heap.store pNewItems array.mItemCount [some item]
    let heap ← heap.free array.mpItems
    let array :=
      { array with heap := heap, mpItems := pNewItems, mItemCount := array.mItemCount + 1 }
    some (0, array.unlock)

/-- Removes the item at given position and shifts down the rest of the array. -/
def remove (array : Array TYPE) (pos : Int) : Option (MSrvResult × Array TYPE) :=
  let array := array.lock
  if pos > array.mItemCount then some (MSRVERR_INVALID_ARGUMENT, array)
  else if array.mItemCount = 1 then do
    let heap ← array.heap.free array.mpItems
    let array := { array with heap := heap, mpItems := none, mItemCount := array.mItemCount - 1 }
    some (0, array.unlock)
  else do
    let (pNewItems, heap) := array.heap.malloc (array.mItemCount - 1)
    let heap ← (if pos > 0 then heap.memcpy pNewItems 0 array.mpItems 0 pos else some heap)
    -- The upper part is copied only while `pos` lies in the lower half.
    let heap ←
      (if pos < array.mItemCount - pos then
        heap.memcpy pNewItems pos array.mpItems (pos + 1) (array.mItemCount - pos - 1)
      else some heap)
    let heap ← heap.free array.mpItems
    let array :=
      { array with heap := heap, mpItems := pNewItems, mItemCount := array.mItemCount - 1 }
    some (0, array.unlock)

/-- Returns the number of items in the array. -/
def length (array : Array TYPE) : Int := array.mItemCount

/-- The item that `operator[]` reads; `none` when the position lies outside the
block or nothing has been written there. -/
def get (array : Array TYPE) (pos : Int) : Option TYPE := array.heap.read array.mpItems pos

/-- One call of the array. -/
inductive Call (TYPE : Type*) where
  | add (item : TYPE)
  | remove (pos : Int)

def Call.perform (array : Array TYPE) : Call TYPE → Option (MSrvResult × Array TYPE)
  | .add item => array.add item
  | .remove pos => array.remove pos

/-- The array under calls that return 0. -/
def calls : Machine (Array TYPE) (Call TYPE) where
  step array call :=
    (call.perform array).bind fun (result, next) => if result = 0 then some next else none

/-- What the array is for: a list that grows at its end and loses the item at a
position inside it. -/
def asList : Machine (List TYPE) (Call TYPE) where
  step items
    | .add item => some (items ++ [item])
    | .remove pos =>
        if 0 ≤ pos ∧ pos < items.length then some (items.eraseIdx pos.toNat) else none

/-- The array shows exactly these items: its length is theirs, and every
position below it reads a written slot that holds the item. -/
def Shows (array : Array TYPE) (items : List TYPE) : Prop :=
  array.length = items.length ∧
    ∀ (index : Nat) (inside : index < items.length), array.get index = some items[index]

/-- The calls that the array carries out as the list does: an `add` that leaves
the count in the range of `int`, and a `remove` in the lower half, where the
upper part is copied, or of the last item, where there is no upper part. -/
def KeepsUpperPart (items : List TYPE) : Call TYPE → Prop
  | .add _ => (items.length : Int) < INT_MAX
  | .remove pos => pos < items.length - pos ∨ pos = items.length - 1

/-- The representation: no block for no items, or one block with a written slot
for each item. -/
structure Holds (array : Array TYPE) (items : List TYPE) : Prop where
  count : array.mItemCount = items.length
  range : (items.length : Int) ≤ INT_MAX
  block : (array.mpItems = none ∧ items = []) ∨
    ∃ number, array.mpItems = some number ∧ array.heap.block number = some (items.map some)

theorem holds_empty : Holds (empty : Array TYPE) [] := ⟨rfl, INT_MAX_nonneg, Or.inl ⟨rfl, rfl⟩⟩

/-- A represented array shows its items. -/
theorem Holds.shows {array : Array TYPE} {items : List TYPE} (holds : array.Holds items) :
    array.Shows items := by
  refine ⟨holds.count, fun index inside => ?_⟩
  rcases holds.block with ⟨_, rfl⟩ | ⟨number, pointer, allocated⟩
  · exact absurd inside (Nat.not_lt_zero index)
  · unfold get
    rw [pointer, BlockHeap.read_of_block _ allocated, List.getElem?_map,
      List.getElem?_eq_getElem inside]
    rfl

/-- Before an operation frees the old block, the heap still has it, and the
new block is another one. -/
theorem free_old {heap heap' : BlockHeap TYPE} {mpItems : BlockHeap.Pointer}
    {items : List TYPE} {slots : List (Option TYPE)}
    (block : (mpItems = none ∧ items = []) ∨
      ∃ number, mpItems = some number ∧ heap.block number = some (items.map some))
    (kept : ∀ other, other ≠ heap.next → heap'.block other = heap.block other)
    (filled : heap'.block heap.next = some slots) :
    ∃ heap'' : BlockHeap TYPE, heap'.free mpItems = some heap'' ∧
      heap''.block heap.next = some slots := by
  rcases block with ⟨rfl, _⟩ | ⟨number, rfl, allocated⟩
  · exact ⟨heap', rfl, filled⟩
  · have different := heap.ne_next_of_block allocated
    obtain ⟨heap'', freed, _, others⟩ :=
      heap'.free_of_block ((kept number different).trans allocated)
    exact ⟨heap'', freed, (others _ different.symm).trans filled⟩

/-- `add` appends a copy of the item while the count stays in the range of `int`. -/
theorem Holds.add {array : Array TYPE} {items : List TYPE} (holds : array.Holds items)
    (room : (items.length : Int) < INT_MAX) (item : TYPE) :
    ∃ next, array.add item = some (0, next) ∧ next.Holds (items ++ [item]) := by
  obtain ⟨heap, allocation, fresh, others⟩ :=
    array.heap.malloc_of_nonneg (show (0 : Int) ≤ array.mItemCount + 1 by
      rw [holds.count]
      omega)
  rw [holds.count, show ((items.length : Int) + 1).toNat = items.length + 1 by omega] at fresh
  -- The old items are copied only when there are any; either way they fill the block but one slot.
  have copied : ∃ heap₁ : BlockHeap TYPE,
      (if array.mItemCount > 0 then
        heap.memcpy (some array.heap.next) 0 array.mpItems 0 array.mItemCount
      else some heap) = some heap₁ ∧
      heap₁.block array.heap.next = some (items.map some ++ [none]) ∧
      ∀ other, other ≠ array.heap.next → heap₁.block other = array.heap.block other := by
    rw [holds.count]
    rcases holds.block with ⟨_, rfl⟩ | ⟨number, pointer, allocated⟩
    · exact ⟨heap, if_neg (lt_irrefl _), fresh, others⟩
    · by_cases some_items : (items.length : Int) > 0
      · have source := (others number (array.heap.ne_next_of_block allocated)).trans allocated
        obtain ⟨heap₁, copy, target, kept⟩ :=
          heap.memcpy_of_le 0 0 items.length fresh source (by simp) (by simp)
        refine ⟨heap₁, ?_, ?_, fun other different => ?_⟩
        · rw [if_pos some_items, pointer]
          exact copy
        · simpa [List.take_of_length_le] using target
        · exact (kept other different).trans (others other different)
      · obtain rfl : items = [] := List.eq_nil_of_length_eq_zero (by omega)
        exact ⟨heap, if_neg some_items, fresh, others⟩
  obtain ⟨heap₁, copy, target, kept⟩ := copied
  have stored : heap₁.store (some array.heap.next) items.length [some item] =
      some (heap₁.put array.heap.next ((items ++ [item]).map some)) := by
    rw [heap₁.store_of_le target (by simp)]
    simp [List.drop_of_length_le]
  obtain ⟨heap₃, freed, final⟩ := free_old holds.block
    (fun other different => (heap₁.block_put_of_ne different _).trans (kept other different))
    ((heap₁.block_put_self _ ((items ++ [item]).map some)).trans
      (by rw [target, Option.map_some]))
  refine ⟨⟨heap₃, some array.heap.next, array.mItemCount + 1, array.mThreadLock⟩,
    ?_, ?_, ?_, Or.inr ⟨array.heap.next, rfl, final⟩⟩
  · unfold Array.add lock unlock
    dsimp only
    rw [if_neg (by rw [holds.count]; omega), allocation]
    dsimp only
    rw [copy, Option.bind_eq_bind, Option.bind_some, holds.count, stored, Option.bind_some, freed]
    rfl
  · rw [List.length_append, List.length_singleton, Nat.cast_add, ← holds.count]
    rfl
  · rw [List.length_append, List.length_singleton]
    omega

/-- What `remove` leaves of several items in the new block: the lower part, and
above it the upper part or, when `pos` is not in the lower half, slots in which
nothing has been written. -/
def leftover (items : List TYPE) (pos : Nat) : List (Option TYPE) :=
  (items.take pos).map some ++
    if pos < items.length - pos then (items.drop (pos + 1)).map some
    else List.replicate (items.length - 1 - pos) none

/-- `remove` of the only item leaves no block. -/
theorem Holds.remove_only {array : Array TYPE} {item : TYPE} (holds : array.Holds [item]) :
    ∃ next, array.remove 0 = some (0, next) ∧ next.Holds [] := by
  have one : array.mItemCount = 1 := holds.count
  rcases holds.block with ⟨_, impossible⟩ | ⟨number, pointer, allocated⟩
  · cases impossible
  · obtain ⟨heap, freed, _, _⟩ := array.heap.free_of_block allocated
    refine ⟨⟨heap, none, array.mItemCount - 1, array.mThreadLock⟩, ?_, ?_, INT_MAX_nonneg,
      Or.inl ⟨rfl, rfl⟩⟩
    · unfold Array.remove lock unlock
      dsimp only
      rw [if_neg (by omega), if_pos one, pointer, freed]
      rfl
    · rw [one]
      rfl

/-- `remove` of one of several items leaves the leftover in a new block. -/
theorem Holds.remove_block {array : Array TYPE} {items : List TYPE} (holds : array.Holds items)
    {pos : Nat} (inside : pos < items.length) (several : items.length ≠ 1) :
    ∃ next number, array.remove pos = some (0, next) ∧
      next.mItemCount = (items.length : Int) - 1 ∧ next.mpItems = some number ∧
      next.heap.block number = some (leftover items pos) := by
  rcases holds.block with ⟨_, rfl⟩ | ⟨number, pointer, allocated⟩
  · exact absurd inside (Nat.not_lt_zero pos)
  obtain ⟨heap, allocation, fresh, others⟩ :=
    array.heap.malloc_of_nonneg (show (0 : Int) ≤ array.mItemCount - 1 by
      rw [holds.count]
      omega)
  rw [holds.count, show ((items.length : Int) - 1).toNat = items.length - 1 by omega] at fresh
  have source := (others number (array.heap.ne_next_of_block allocated)).trans allocated
  have lower : ∃ heap₁ : BlockHeap TYPE,
      (if (pos : Int) > 0 then heap.memcpy (some array.heap.next) 0 array.mpItems 0 pos
      else some heap) = some heap₁ ∧
      heap₁.block array.heap.next =
        some ((items.take pos).map some ++ List.replicate (items.length - 1 - pos) none) ∧
      ∀ other, other ≠ array.heap.next → heap₁.block other = array.heap.block other := by
    by_cases positive : (pos : Int) > 0
    · obtain ⟨heap₁, copy, target, kept⟩ :=
        heap.memcpy_of_le 0 0 pos fresh source
          (by simp; omega) (by simp; omega)
      refine ⟨heap₁, ?_, ?_, fun other different => ?_⟩
      · rw [if_pos positive, pointer]
        exact copy
      · simpa using target
      · exact (kept other different).trans (others other different)
    · obtain rfl : pos = 0 := by omega
      refine ⟨heap, if_neg positive, ?_, others⟩
      simpa using fresh
  obtain ⟨heap₁, lowerCopy, lowerTarget, lowerKept⟩ := lower
  have upper : ∃ heap₂ : BlockHeap TYPE,
      (if (pos : Int) < array.mItemCount - pos then
        heap₁.memcpy (some array.heap.next) pos array.mpItems (pos + 1)
          (array.mItemCount - pos - 1)
      else some heap₁) = some heap₂ ∧
      heap₂.block array.heap.next = some (leftover items pos) ∧
      ∀ other, other ≠ array.heap.next → heap₂.block other = array.heap.block other := by
    rw [holds.count]
    unfold leftover
    by_cases lowerHalf : (pos : Int) < items.length - pos
    · have source₁ := (lowerKept number (array.heap.ne_next_of_block allocated)).trans allocated
      obtain ⟨heap₂, copy, target, kept⟩ :=
        heap₁.memcpy_of_le pos (pos + 1) (items.length - pos - 1) lowerTarget source₁
          (by simp; omega) (by simp; omega)
      refine ⟨heap₂, ?_, ?_, fun other different => ?_⟩
      · rw [if_pos lowerHalf, pointer, ← copy]
        congr 1
        omega
      · rw [target, if_pos (by omega)]
        have lowerLength : ((items.take pos).map some).length = pos := by
          rw [List.length_map, List.length_take]
          omega
        have nothingLeft : ((items.take pos).map some ++
            List.replicate (items.length - 1 - pos) none).drop
              (pos + (items.length - pos - 1)) = [] :=
          List.drop_eq_nil_of_le (by rw [List.length_append, List.length_replicate]; omega)
        have upperPart : ((items.map some).drop (pos + 1)).take (items.length - pos - 1) =
            (items.drop (pos + 1)).map some := by
          rw [← List.map_drop]
          exact List.take_of_length_le (by rw [List.length_map, List.length_drop]; omega)
        rw [List.take_append_of_le_length lowerLength.ge, List.take_of_length_le lowerLength.le,
          nothingLeft, upperPart, List.append_nil]
      · exact (kept other different).trans (lowerKept other different)
    · refine ⟨heap₁, if_neg lowerHalf, ?_, lowerKept⟩
      rw [lowerTarget, if_neg (by omega)]
  obtain ⟨heap₂, upperCopy, upperTarget, upperKept⟩ := upper
  obtain ⟨heap₃, freed, final⟩ := free_old holds.block upperKept upperTarget
  refine ⟨⟨heap₃, some array.heap.next, array.mItemCount - 1, array.mThreadLock⟩,
    array.heap.next, ?_, ?_, rfl, final⟩
  · unfold Array.remove lock unlock
    dsimp only
    rw [if_neg (by rw [holds.count]; omega), if_neg (by rw [holds.count]; omega), allocation]
    dsimp only
    rw [lowerCopy, Option.bind_eq_bind, Option.bind_some, upperCopy, Option.bind_some, freed]
    rfl
  · rw [holds.count]

/-- The items that still have a written slot after `remove (pos)`. -/
def written (items : List TYPE) (pos : Nat) : List TYPE :=
  if pos < items.length - pos then items.eraseIdx pos else items.take pos

/-- All other items have one exactly when the upper part is kept or empty. -/
theorem written_eq_eraseIdx {items : List TYPE} {pos : Nat}
    (keeps : pos < items.length - pos ∨ pos = items.length - 1) :
    written items pos = items.eraseIdx pos := by
  unfold written
  split_ifs with lowerHalf
  · rfl
  · rw [List.eraseIdx_eq_take_drop_succ, List.drop_eq_nil_of_le (by omega), List.append_nil]

/-- They are what `remove` leaves, with the slots in which nothing has been written
behind them. -/
theorem leftover_eq_written (items : List TYPE) (pos : Nat) :
    leftover items pos = (written items pos).map some ++
      List.replicate (items.length - 1 - (written items pos).length) none := by
  unfold leftover written
  split_ifs with lowerHalf
  · rw [← List.map_append, ← List.eraseIdx_eq_take_drop_succ,
      List.length_eraseIdx_of_lt (by omega), Nat.sub_self, List.replicate_zero, List.append_nil]
  · rw [List.length_take]
    congr 2
    omega

/-- A `remove` that keeps the upper part leaves every slot written. -/
theorem leftover_of_keeps {items : List TYPE} {pos : Nat} (inside : pos < items.length)
    (keeps : pos < items.length - pos ∨ pos = items.length - 1) :
    leftover items pos = (items.eraseIdx pos).map some := by
  rw [leftover_eq_written, written_eq_eraseIdx keeps, List.length_eraseIdx_of_lt inside,
    Nat.sub_self, List.replicate_zero, List.append_nil]

/-- A `remove` that keeps the upper part erases the position from the list. -/
theorem Holds.remove {array : Array TYPE} {items : List TYPE} (holds : array.Holds items)
    {pos : Nat} (inside : pos < items.length)
    (keeps : pos < items.length - pos ∨ pos = items.length - 1) :
    ∃ next, array.remove pos = some (0, next) ∧ next.Holds (items.eraseIdx pos) := by
  by_cases several : items.length ≠ 1
  · obtain ⟨next, number, removed, count, pointer, block⟩ := holds.remove_block inside several
    have size : (items.eraseIdx pos).length = items.length - 1 :=
      List.length_eraseIdx_of_lt inside
    refine ⟨next, removed, ?_, ?_, Or.inr ⟨number, pointer,
      block.trans (congrArg some (leftover_of_keeps inside keeps))⟩⟩
    · rw [count, size]
      omega
    · rw [size]
      have := holds.range
      omega
  · obtain ⟨item, rfl⟩ := List.length_eq_one_iff.mp (not_not.mp several)
    obtain rfl : pos = 0 := by simpa using inside
    exact holds.remove_only

/-- Any other `remove` shows a slot in which nothing has been written. -/
theorem Holds.remove_unwritten {array : Array TYPE} {items : List TYPE} (holds : array.Holds items)
    {pos : Nat} (inside : pos < items.length)
    (drops : ¬ (pos < items.length - pos ∨ pos = items.length - 1)) :
    ∃ next, array.remove pos = some (0, next) ∧ next.get pos = none := by
  obtain ⟨next, number, removed, _, pointer, block⟩ := holds.remove_block inside (by omega)
  refine ⟨next, removed, ?_⟩
  unfold get
  rw [pointer, BlockHeap.read_of_block _ block]
  unfold leftover
  rw [if_neg (by omega), List.getElem?_append_right (by simp), List.getElem?_replicate]
  split <;> rfl

/-- No item is written that is not left in the list. -/
theorem written_sublist (items : List TYPE) (pos : Nat) :
    (written items pos).Sublist (items.eraseIdx pos) := by
  unfold written
  split_ifs
  · exact List.Sublist.refl _
  · rw [List.eraseIdx_eq_take_drop_succ]
    exact List.sublist_append_left ..

/-- The array follows the list exactly along the calls in which every `remove`
keeps the upper part and every `add` keeps the count in the range of `int`. -/
theorem calls_tracks_asList_iff (sequence : List (Call TYPE)) :
    calls.Tracks asList Shows empty [] sequence ↔ asList.Steps KeepsUpperPart [] sequence := by
  apply Machine.tracks_iff_steps Holds
  · intro array items holds
    exact holds.shows
  · intro array items items' call holds listed keeps
    cases call with
    | add item =>
        cases listed
        obtain ⟨next, added, holds'⟩ := holds.add keeps item
        refine ⟨next, ?_, holds'⟩
        simp only [calls, Call.perform, added, Option.bind_some, ↓reduceIte]
    | remove pos =>
        simp only [asList, Option.ite_none_right_eq_some, Option.some.injEq] at listed
        obtain ⟨⟨nonneg, inside⟩, rfl⟩ := listed
        lift pos to Nat using nonneg
        have keeps' : pos < items.length - pos ∨ pos = items.length - 1 := by
          simp only [KeepsUpperPart] at keeps
          omega
        obtain ⟨next, removed, holds'⟩ := holds.remove (by omega) keeps'
        refine ⟨next, ?_, holds'⟩
        simp only [calls, Call.perform, removed, Option.bind_some, ↓reduceIte]
  · intro array items items' call holds listed drops array' performed
    cases call with
    | add item =>
        have full : array.mItemCount = INT_MAX := by
          rw [holds.count]
          exact le_antisymm holds.range (not_lt.mp drops)
        simp only [calls, Call.perform, Array.add, lock, full, ↓reduceIte, Option.bind_none,
          reduceCtorEq] at performed
    | remove pos =>
        simp only [asList, Option.ite_none_right_eq_some, Option.some.injEq] at listed
        obtain ⟨⟨nonneg, inside⟩, rfl⟩ := listed
        lift pos to Nat using nonneg
        have drops' : ¬ (pos < items.length - pos ∨ pos = items.length - 1) := by
          simp only [KeepsUpperPart] at drops
          omega
        obtain ⟨next, removed, unwritten⟩ := holds.remove_unwritten (by omega) drops'
        simp only [calls, Call.perform, removed, Option.bind_some, ↓reduceIte,
          Option.some.injEq] at performed
        subst performed
        rintro ⟨_, shown⟩
        have size : pos < (items.eraseIdx pos).length := by
          rw [List.length_eraseIdx_of_lt (by omega)]
          omega
        exact Option.some_ne_none _ ((shown pos size).symm.trans unwritten)
  · exact holds_empty

/-- Removing position 2 of four items leaves position 2 without a value. -/
theorem remove_third_of_four :
    asList.run [] [.add 10, .add 11, .add 12, .add 13, .remove 2] = some [10, 11, 13] ∧
      (∃ array, calls.run empty [.add 10, .add 11, .add 12, .add 13, .remove 2] = some array ∧
        array.length = 3 ∧ array.get 2 = none) ∧
      ¬ calls.Tracks asList Shows empty [] [.add 10, .add 11, .add 12, .add 13, .remove 2] := by
  have final : ∃ array,
      calls.run empty [.add 10, .add 11, .add 12, .add 13, .remove 2] = some array ∧
        array.length = 3 ∧ array.get 2 = none := ⟨_, rfl, rfl, rfl⟩
  refine ⟨rfl, final, fun tracks => ?_⟩
  obtain ⟨array, ran, _, unwritten⟩ := final
  obtain ⟨array', ran', _, shown⟩ := tracks.run (show asList.run _ _ = some [10, 11, 13] from rfl)
  cases ran.symm.trans ran'
  exact Option.some_ne_none _ ((shown 2 (by decide)).symm.trans unwritten)

end Array

end MSrv
