import Mathlib.Algebra.Order.Ring.Int
import Mathlib.Data.List.TakeDrop
import Mathlib.Logic.Function.Basic

/-!
# A heap of numbered blocks

Blocks are numbered in the order of their allocation and have a fixed number of
slots. A slot of a new block holds nothing until something is copied into it.
Operations that touch memory outside an allocated block have no result, since
the program that makes them has no defined behaviour from there on.
-/

/-- The block with a given number, when it is allocated, as its slots. -/
structure BlockHeap (Value : Type*) where
  block : Nat → Option (List (Option Value))
  next : Nat
  fresh : ∀ number, next ≤ number → block number = none

namespace BlockHeap

variable {Value : Type*}

/-- A pointer to the start of a block, or the null pointer. -/
abbrev Pointer := Option Nat

/-- The heap without any block. -/
def empty : BlockHeap Value where
  block _ := none
  next := 0
  fresh _ _ := rfl

/-- Allocate a block of `size` slots. A negative size is taken as an unsigned
number that no allocator can serve. -/
def malloc (heap : BlockHeap Value) (size : Int) : Pointer × BlockHeap Value :=
  if size < 0 then (none, heap)
  else
    (some heap.next,
      { block := Function.update heap.block heap.next (some (List.replicate size.toNat none))
        next := heap.next + 1
        fresh := by
          intro number unused
          rw [Function.update_of_ne (by omega)]
          exact heap.fresh number (by omega) })

/-- Release an allocated block; releasing the null pointer does nothing. -/
def free (heap : BlockHeap Value) : Pointer → Option (BlockHeap Value)
  | none => some heap
  | some number =>
      if (heap.block number).isSome then
        some
          { block := Function.update heap.block number none
            next := heap.next
            fresh := by
              intro other unused
              by_cases same : other = number
              · rw [same, Function.update_self]
              · rw [Function.update_of_ne same]
                exact heap.fresh other unused }
      else none

/-- Replace the slots of a block that is allocated. -/
def put (heap : BlockHeap Value) (number : Nat) (slots : List (Option Value)) :
    BlockHeap Value where
  block := Function.update heap.block number ((heap.block number).map fun _ => slots)
  next := heap.next
  fresh := by
    intro other unused
    by_cases same : other = number
    · rw [same, Function.update_self, ← same, heap.fresh other unused, Option.map_none]
    · rw [Function.update_of_ne same]
      exact heap.fresh other unused

/-- Move an allocated block to a new block of `size` slots, which keeps what fits. -/
def realloc (heap : BlockHeap Value) (source : Pointer) (size : Int) :
    Option (Pointer × BlockHeap Value) :=
  match source with
  | none => some (heap.malloc size)
  | some number =>
      (heap.block number).bind fun slots =>
        if size < 0 then some (none, heap)
        else
          let kept := slots.take size.toNat ++ List.replicate (size.toNat - slots.length) none
          (((heap.malloc size).2.put heap.next kept).free (some number)).map fun heap' =>
            (some heap.next, heap')

/-- The `count` slots from `offset` on, when all of them exist. -/
def slice (slots : List (Option Value)) (offset count : Int) : Option (List (Option Value)) :=
  if 0 ≤ offset ∧ 0 ≤ count ∧ offset + count ≤ slots.length then
    some ((slots.drop offset.toNat).take count.toNat)
  else none

/-- Overwrite the slots from `offset` on, when all of them exist. -/
def paste (slots : List (Option Value)) (offset : Int) (piece : List (Option Value)) :
    Option (List (Option Value)) :=
  if 0 ≤ offset ∧ offset + piece.length ≤ slots.length then
    some (slots.take offset.toNat ++ piece ++ slots.drop (offset.toNat + piece.length))
  else none

/-- Overwrite the slots of a block from `offset` on. -/
def store (heap : BlockHeap Value) (target : Pointer) (offset : Int)
    (piece : List (Option Value)) : Option (BlockHeap Value) :=
  target.bind fun number =>
    (heap.block number).bind fun slots =>
      (paste slots offset piece).map (heap.put number)

/-- The `count` slots of a block from `offset` on. -/
def load (heap : BlockHeap Value) (source : Pointer) (offset count : Int) :
    Option (List (Option Value)) :=
  source.bind fun number => (heap.block number).bind fun slots => slice slots offset count

/-- Copy `count` slots from one block to another, written or not. Copying
nothing touches no memory. -/
def memcpy (heap : BlockHeap Value) (target : Pointer) (targetOffset : Int)
    (source : Pointer) (sourceOffset count : Int) : Option (BlockHeap Value) :=
  if count = 0 then some heap
  else (heap.load source sourceOffset count).bind (heap.store target targetOffset)

/-- The value in one slot; `none` when there is no such slot or nothing has
been written to it. -/
def read (heap : BlockHeap Value) (source : Pointer) (offset : Int) : Option Value :=
  (heap.load source offset 1).bind fun piece => piece.head?.join

/-! ## What the operations do to a block -/

@[simp] theorem block_put_self (heap : BlockHeap Value) (number : Nat)
    (slots : List (Option Value)) :
    (heap.put number slots).block number = (heap.block number).map fun _ => slots :=
  Function.update_self ..

theorem block_put_of_ne (heap : BlockHeap Value) {number other : Nat} (different : other ≠ number)
    (slots : List (Option Value)) : (heap.put number slots).block other = heap.block other :=
  Function.update_of_ne different ..

theorem malloc_of_nonneg (heap : BlockHeap Value) {size : Int} (nonneg : 0 ≤ size) :
    ∃ heap' : BlockHeap Value, heap.malloc size = (some heap.next, heap') ∧
      heap'.block heap.next = some (List.replicate size.toNat none) ∧
      ∀ other, other ≠ heap.next → heap'.block other = heap.block other := by
  refine ⟨_, if_neg (not_lt.mpr nonneg), Function.update_self .., fun other different => ?_⟩
  exact Function.update_of_ne different ..

/-- An allocated block is not the one the next allocation returns. -/
theorem ne_next_of_block (heap : BlockHeap Value) {number : Nat} {slots : List (Option Value)}
    (allocated : heap.block number = some slots) : number ≠ heap.next := by
  rintro rfl
  rw [heap.fresh heap.next le_rfl] at allocated
  cases allocated

theorem free_of_block (heap : BlockHeap Value) {number : Nat} {slots : List (Option Value)}
    (allocated : heap.block number = some slots) :
    ∃ heap' : BlockHeap Value, heap.free (some number) = some heap' ∧
      heap'.block number = none ∧
      ∀ other, other ≠ number → heap'.block other = heap.block other := by
  have present : (heap.block number).isSome := by rw [allocated]; rfl
  refine ⟨_, if_pos present, Function.update_self .., fun other different => ?_⟩
  exact Function.update_of_ne different ..

/-- Growing a block keeps what is in it. -/
theorem realloc_of_block (heap : BlockHeap Value) {number : Nat} (more : Nat)
    {slots : List (Option Value)} (allocated : heap.block number = some slots) :
    ∃ heap' : BlockHeap Value,
      heap.realloc (some number) (slots.length + more : Nat) = some (some heap.next, heap') ∧
      heap'.block heap.next = some (slots ++ List.replicate more none) := by
  obtain ⟨grown, allocation, fresh, others⟩ :=
    heap.malloc_of_nonneg (Int.natCast_nonneg (slots.length + more))
  have different := heap.ne_next_of_block allocated
  have old : (grown.put heap.next (slots ++ List.replicate more none)).block number = some slots :=
    (grown.block_put_of_ne different _).trans ((others number different).trans allocated)
  obtain ⟨heap', freed, _, kept⟩ := free_of_block _ old
  refine ⟨heap', ?_, ?_⟩
  · unfold realloc
    simp only [allocated, Option.bind_some, allocation, Int.toNat_natCast, Nat.add_sub_cancel_left]
    rw [if_neg (Int.natCast_nonneg _).not_gt, List.take_of_length_le (by omega), freed]
    rfl
  · rw [kept _ different.symm, block_put_self, fresh, Option.map_some]

theorem slice_of_le {slots : List (Option Value)} {offset count : Nat}
    (inside : offset + count ≤ slots.length) :
    slice slots offset count = some ((slots.drop offset).take count) := by
  unfold slice
  rw [if_pos (by omega), Int.toNat_natCast, Int.toNat_natCast]

theorem paste_of_le {slots piece : List (Option Value)} {offset : Nat}
    (inside : offset + piece.length ≤ slots.length) :
    paste slots offset piece =
      some (slots.take offset ++ piece ++ slots.drop (offset + piece.length)) := by
  unfold paste
  rw [if_pos (by omega), Int.toNat_natCast]

/-- A store inside an allocated block changes that block only. -/
theorem store_of_le (heap : BlockHeap Value) {number offset : Nat}
    {slots piece : List (Option Value)} (allocated : heap.block number = some slots)
    (inside : offset + piece.length ≤ slots.length) :
    heap.store (some number) offset piece =
      some (heap.put number
        (slots.take offset ++ piece ++ slots.drop (offset + piece.length))) := by
  unfold store
  rw [Option.bind_some, allocated, Option.bind_some, paste_of_le inside, Option.map_some]

/-- A copy inside two allocated blocks changes the target block only. -/
theorem memcpy_of_le (heap : BlockHeap Value) (targetOffset sourceOffset count : Nat)
    {target source : Nat} {old slots : List (Option Value)}
    (targetBlock : heap.block target = some old)
    (sourceBlock : heap.block source = some slots)
    (sourceInside : sourceOffset + count ≤ slots.length)
    (targetInside : targetOffset + count ≤ old.length) :
    ∃ heap' : BlockHeap Value,
      heap.memcpy (some target) targetOffset (some source) sourceOffset count = some heap' ∧
      heap'.block target = some (old.take targetOffset ++ (slots.drop sourceOffset).take count ++
        old.drop (targetOffset + count)) ∧
      ∀ other, other ≠ target → heap'.block other = heap.block other := by
  unfold memcpy
  by_cases none_copied : (count : Int) = 0
  · obtain rfl : count = 0 := by omega
    rw [if_pos none_copied]
    refine ⟨heap, rfl, ?_, fun _ _ => rfl⟩
    rw [targetBlock, List.take_zero, List.append_nil, Nat.add_zero, List.take_append_drop]
  · have size : ((slots.drop sourceOffset).take count).length = count := by
      rw [List.length_take, List.length_drop]
      omega
    rw [if_neg none_copied]
    unfold load
    rw [Option.bind_some, sourceBlock, Option.bind_some, slice_of_le sourceInside,
      Option.bind_some, heap.store_of_le targetBlock (by rw [size]; exact targetInside), size]
    refine ⟨_, rfl, ?_, fun other different => heap.block_put_of_ne different _⟩
    rw [block_put_self, targetBlock, Option.map_some]

/-- Reading a slot of an allocated block. -/
theorem read_of_block (heap : BlockHeap Value) {number : Nat} {slots : List (Option Value)}
    (allocated : heap.block number = some slots) (offset : Nat) :
    heap.read (some number) offset = slots[offset]?.join := by
  unfold read load
  rw [Option.bind_some, allocated, Option.bind_some]
  by_cases inside : offset < slots.length
  · have sliced : slice slots offset (1 : Nat) = some ((slots.drop offset).take 1) :=
      slice_of_le inside
    rw [Nat.cast_one] at sliced
    rw [sliced, Option.bind_some, List.head?_take, if_neg one_ne_zero, List.head?_drop]
  · unfold slice
    rw [if_neg (by omega), List.getElem?_eq_none (by omega)]
    rfl

/-! ## Which blocks there are, and how large -/

/-- The number of slots of a block that is allocated. -/
def size (heap : BlockHeap Value) (number : Nat) : Option Nat :=
  (heap.block number).map List.length

theorem size_fresh (heap : BlockHeap Value) {number : Nat} (unused : heap.next ≤ number) :
    heap.size number = none := by
  rw [size, heap.fresh number unused, Option.map_none]

/-- An allocated block has a number that is not fresh. -/
theorem lt_next_of_size (heap : BlockHeap Value) {number slots : Nat}
    (allocated : heap.size number = some slots) : number < heap.next := by
  by_contra unused
  rw [heap.size_fresh (not_lt.mp unused)] at allocated
  cases allocated

/-- An allocation makes a block of the size asked for, or none. -/
theorem size_malloc (heap : BlockHeap Value) (slots : Int) :
    (slots < 0 ∧ heap.malloc slots = (none, heap)) ∨
      (0 ≤ slots ∧ ∃ heap' : BlockHeap Value, heap.malloc slots = (some heap.next, heap') ∧
        heap'.next = heap.next + 1 ∧ heap'.size heap.next = some slots.toNat ∧
        ∀ other, other ≠ heap.next → heap'.size other = heap.size other) := by
  by_cases negative : slots < 0
  · exact Or.inl ⟨negative, if_pos negative⟩
  · refine Or.inr ⟨not_lt.mp negative, _, if_neg negative, rfl, ?_, fun other different => ?_⟩
    · change (Function.update heap.block heap.next _ heap.next).map List.length = _
      rw [Function.update_self, Option.map_some, List.length_replicate]
    · exact congrArg (Option.map List.length) (Function.update_of_ne different ..)

theorem paste_length {slots piece slots' : List (Option Value)} {offset : Int}
    (pasted : paste slots offset piece = some slots') : slots'.length = slots.length := by
  obtain ⟨⟨nonneg, inside⟩, whole⟩ := Option.ite_none_right_eq_some.mp pasted
  cases whole
  simp only [List.length_append, List.length_take, List.length_drop]
  omega

/-- A store allocates nothing and frees nothing, and it is inside a block. -/
theorem size_store {heap heap' : BlockHeap Value} {target : Pointer} {offset : Int}
    {piece : List (Option Value)} (stored : heap.store target offset piece = some heap') :
    heap'.next = heap.next ∧ heap'.size = heap.size ∧ 0 ≤ offset ∧
      ∃ number slots, target = some number ∧ heap.size number = some slots ∧
        offset + piece.length ≤ slots := by
  obtain ⟨number, rfl, inBlock⟩ := Option.bind_eq_some_iff.mp stored
  obtain ⟨slots, allocated, replaced⟩ := Option.bind_eq_some_iff.mp inBlock
  obtain ⟨slots', pasted, rfl⟩ := Option.map_eq_some_iff.mp replaced
  obtain ⟨⟨nonneg, inside⟩, _⟩ := Option.ite_none_right_eq_some.mp pasted
  have same : (heap.put number slots').size = heap.size := by
    funext other
    unfold size
    by_cases here : other = number
    · rw [here, block_put_self, allocated, Option.map_some, Option.map_some, Option.map_some,
        paste_length pasted]
    · rw [heap.block_put_of_ne here]
  refine ⟨rfl, same, nonneg, number, slots.length, rfl, ?_, inside⟩
  rw [size, allocated, Option.map_some]

/-- Nor does a copy. -/
theorem size_memcpy {heap heap' : BlockHeap Value} {target source : Pointer}
    {targetOffset sourceOffset count : Int}
    (copied : heap.memcpy target targetOffset source sourceOffset count = some heap') :
    heap'.next = heap.next ∧ heap'.size = heap.size := by
  unfold memcpy at copied
  split_ifs at copied
  · cases copied
    exact ⟨rfl, rfl⟩
  · obtain ⟨piece, _, stored⟩ := Option.bind_eq_some_iff.mp copied
    obtain ⟨next, same, _⟩ := size_store stored
    exact ⟨next, same⟩

/-- A released block is gone, and no other. -/
theorem size_free {heap heap' : BlockHeap Value} {pointer : Pointer}
    (freed : heap.free pointer = some heap') :
    heap'.next = heap.next ∧ (∀ number, pointer = some number → heap'.size number = none) ∧
      ∀ other, pointer ≠ some other → heap'.size other = heap.size other := by
  cases pointer with
  | none =>
      cases freed
      exact ⟨rfl, nofun, fun _ _ => rfl⟩
  | some number =>
      obtain ⟨_, whole⟩ := Option.ite_none_right_eq_some.mp freed
      cases whole
      refine ⟨rfl, fun other same => ?_, fun other different => ?_⟩
      · cases same
        change (Function.update heap.block number none number).map List.length = none
        rw [Function.update_self, Option.map_none]
      · have apart : other ≠ number := fun same => different (congrArg some same.symm)
        exact congrArg (Option.map List.length) (Function.update_of_ne apart ..)

/-- One slot can be loaded when the block is there and has it. -/
theorem load_isSome_iff (heap : BlockHeap Value) (source : Pointer) {offset : Int}
    (nonneg : 0 ≤ offset) : (heap.load source offset 1).isSome = true ↔
      ∃ number slots, source = some number ∧ heap.size number = some slots ∧ offset < slots := by
  cases source with
  | none =>
      apply iff_of_false Bool.false_ne_true
      rintro ⟨number, _, pointer, _⟩
      cases pointer
  | some number =>
      unfold load size
      rw [Option.bind_some]
      cases allocated : heap.block number with
      | none =>
          apply iff_of_false Bool.false_ne_true
          rintro ⟨_, _, same, gone, _⟩
          cases same
          rw [allocated] at gone
          cases gone
      | some slots =>
          rw [Option.bind_some, slice]
          constructor
          · intro loaded
            refine ⟨number, slots.length, rfl, by rw [allocated, Option.map_some], ?_⟩
            split_ifs at loaded with inside
            · omega
            · cases loaded
          · rintro ⟨_, _, same, length, inside⟩
            cases same
            rw [allocated] at length
            cases length
            rw [if_pos (by omega)]
            rfl

end BlockHeap
