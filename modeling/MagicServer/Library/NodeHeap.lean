import Mathlib.Data.List.Induction
import Mathlib.Data.List.Perm.Subperm
import Mathlib.Logic.Function.Basic

/-!
# A heap of numbered nodes and chains in it

Nodes are numbered in the order of their allocation. Reading, changing or
freeing a node that is not allocated has no result. A chain is a sequence of
nodes linked both ways; it can be cut and joined between any two of them, and
following the links from either end gives its nodes.
-/

/-- The node with a given number, when it is allocated. -/
structure NodeHeap (Node : Type*) where
  node : Nat → Option Node
  next : Nat
  fresh : ∀ number, next ≤ number → node number = none

namespace NodeHeap

variable {Node : Type*}

/-- A pointer to a node, or the null pointer. -/
abbrev Pointer := Option Nat

/-- The heap without any node. -/
def empty : NodeHeap Node where
  node _ := none
  next := 0
  fresh _ _ := rfl

/-- Allocate a node. -/
def new (heap : NodeHeap Node) (node : Node) : Pointer × NodeHeap Node :=
  (some heap.next,
    { node := Function.update heap.node heap.next (some node)
      next := heap.next + 1
      fresh := by
        intro number unused
        rw [Function.update_of_ne (by omega)]
        exact heap.fresh number (by omega) })

/-- Apply `change` to what a number stands for, if it is allocated. -/
def alter (heap : NodeHeap Node) (number : Nat) (change : Node → Option Node) :
    NodeHeap Node where
  node := Function.update heap.node number ((heap.node number).bind change)
  next := heap.next
  fresh := by
    intro other unused
    by_cases same : other = number
    · rw [same, Function.update_self, ← same, heap.fresh other unused, Option.bind_none]
    · rw [Function.update_of_ne same]
      exact heap.fresh other unused

/-- The node a pointer leads to. -/
def read (heap : NodeHeap Node) (pointer : Pointer) : Option Node :=
  pointer.bind heap.node

/-- Change the node a pointer leads to. -/
def update (heap : NodeHeap Node) (pointer : Pointer) (change : Node → Node) :
    Option (NodeHeap Node) :=
  pointer.bind fun number =>
    if (heap.node number).isSome then some (heap.alter number fun node => some (change node))
    else none

/-- Release an allocated node. -/
def free (heap : NodeHeap Node) (pointer : Pointer) : Option (NodeHeap Node) :=
  pointer.bind fun number =>
    if (heap.node number).isSome then some (heap.alter number fun _ => none) else none

/-- The nodes met from a pointer on by following `link`, at most `fuel` of
them and none beyond a node that is not allocated. -/
def walk (heap : NodeHeap Node) (link : Node → Pointer) : Nat → Pointer → List (Nat × Node)
  | 0, _ | _, none => []
  | fuel + 1, some number =>
      match heap.node number with
      | none => []
      | some node => (number, node) :: walk heap link fuel (link node)

/-- Following `link` from a pointer one meets these nodes and then the null pointer. -/
def Follows (heap : NodeHeap Node) (link : Node → Pointer) : Pointer → List (Nat × Node) → Prop
  | pointer, [] => pointer = none
  | pointer, (number, node) :: rest =>
      pointer = some number ∧ heap.node number = some node ∧ Follows heap link (link node) rest

/-! ## What the operations do to a node -/

variable {heap heap' : NodeHeap Node} {number other : Nat} {node : Node}

/-- An allocated node is not the one the next allocation returns. -/
theorem lt_next (allocated : heap.node number = some node) : number < heap.next := by
  by_contra beyond
  rw [heap.fresh number (Nat.le_of_not_lt beyond)] at allocated
  cases allocated

theorem node_new_self (heap : NodeHeap Node) (node : Node) :
    (heap.new node).2.node heap.next = some node :=
  Function.update_self ..

theorem node_new_of_ne (node : Node) (different : other ≠ heap.next) :
    (heap.new node).2.node other = heap.node other :=
  Function.update_of_ne different ..

theorem node_alter_of_ne (change : Node → Option Node) (different : other ≠ number) :
    (heap.alter number change).node other = heap.node other :=
  Function.update_of_ne different ..

theorem node_alter_self (change : Node → Option Node) (allocated : heap.node number = some node) :
    (heap.alter number change).node number = change node := by
  apply (Function.update_self ..).trans
  rw [allocated, Option.bind_some]

theorem update_of_node (change : Node → Node) (allocated : heap.node number = some node) :
    heap.update (some number) change =
      some (heap.alter number fun node => some (change node)) := by
  have present : (heap.node number).isSome := by rw [allocated]; rfl
  unfold update
  rw [Option.bind_some, if_pos present]

theorem free_of_node (allocated : heap.node number = some node) :
    heap.free (some number) = some (heap.alter number fun _ => none) := by
  have present : (heap.node number).isSome := by rw [allocated]; rfl
  unfold free
  rw [Option.bind_some, if_pos present]

theorem walk_of_node (link : Node → Pointer) (fuel : Nat)
    (allocated : heap.node number = some node) :
    heap.walk link (fuel + 1) (some number) =
      (number, node) :: heap.walk link fuel (link node) := by
  rw [walk, allocated]

@[simp] theorem walk_none (link : Node → Pointer) (fuel : Nat) : heap.walk link fuel none = [] := by
  cases fuel <;> rfl

/-- A pointer to no node leads nowhere. -/
theorem walk_of_read {pointer : Pointer} (link : Node → Pointer) (fuel : Nat)
    (lost : heap.read pointer = none) : heap.walk link fuel pointer = [] := by
  cases fuel with
  | zero => rfl
  | succ fuel =>
      cases pointer with
      | none => rfl
      | some number =>
          have missing : heap.node number = none := lost
          rw [walk, missing]

/-- A walk that is long enough meets what there is to meet. -/
theorem Follows.walk {link : Node → Pointer} {pointer : Pointer} {entries : List (Nat × Node)}
    (follows : heap.Follows link pointer entries) {fuel : Nat} (enough : entries.length ≤ fuel) :
    heap.walk link fuel pointer = entries := by
  induction entries generalizing pointer fuel with
  | nil =>
      cases follows
      exact walk_none link fuel
  | cons here rest ih =>
      obtain ⟨rfl, allocated, onward⟩ := follows
      cases fuel with
      | zero => cases enough
      | succ fuel =>
          apply (walk_of_node link fuel allocated).trans
          rw [ih onward (Nat.le_of_succ_le_succ enough)]

/-! ## Chains -/

section Chain

variable (prev next : Node → Pointer)

/-- The number of the first node, or what follows when there is none. -/
def first (entries : List (Nat × Node)) (after : Pointer) : Pointer :=
  match entries with
  | [] => after
  | entry :: _ => some entry.1

/-- The number of the last node, or what comes before when there is none. -/
def last (before : Pointer) : List (Nat × Node) → Pointer
  | [] => before
  | entry :: rest => last (some entry.1) rest

/-- The entries are allocated nodes, each linked to the one before it and to the
one after it. -/
def Chain (heap : NodeHeap Node) (before : Pointer) (after : Pointer) :
    List (Nat × Node) → Prop
  | [] => True
  | (number, node) :: rest =>
      heap.node number = some node ∧ prev node = before ∧ next node = first rest after ∧
        Chain heap (some number) after rest

variable {prev next} {before after : Pointer} {entries others : List (Nat × Node)}

@[simp] theorem first_nil (after : Pointer) : first ([] : List (Nat × Node)) after = after := rfl

@[simp] theorem first_cons (entry : Nat × Node) (rest : List (Nat × Node)) (after : Pointer) :
    first (entry :: rest) after = some entry.1 := rfl

@[simp] theorem last_nil (before : Pointer) : last before ([] : List (Nat × Node)) = before := rfl

@[simp] theorem last_cons (before : Pointer) (entry : Nat × Node) (rest : List (Nat × Node)) :
    last before (entry :: rest) = last (some entry.1) rest := rfl

/-- A chain with a node has a last one. -/
theorem last_isSome (number : Nat) (rest : List (Nat × Node)) :
    (last (some number) rest).isSome := by
  induction rest generalizing number with
  | nil => rfl
  | cons entry rest ih => exact ih entry.1

theorem first_append (entries others : List (Nat × Node)) (after : Pointer) :
    first (entries ++ others) after = first entries (first others after) := by
  cases entries <;> rfl

theorem last_append (before : Pointer) (entries others : List (Nat × Node)) :
    last before (entries ++ others) = last (last before entries) others := by
  induction entries generalizing before with
  | nil => rfl
  | cons entry rest ih => exact ih (some entry.1)

/-- A chain can be cut and joined anywhere. -/
theorem chain_append :
    Chain prev next heap before after (entries ++ others) ↔
      Chain prev next heap before (first others after) entries ∧
        Chain prev next heap (last before entries) after others := by
  induction entries generalizing before with
  | nil => exact (and_iff_right trivial).symm
  | cons entry rest ih =>
      simp only [List.cons_append, Chain, last, first_append, ih, and_assoc]

/-- Every entry of a chain is allocated. -/
theorem Chain.allocated (chain : Chain prev next heap before after entries)
    {entry : Nat × Node} (member : entry ∈ entries) : heap.node entry.1 = some entry.2 := by
  induction entries generalizing before with
  | nil => cases member
  | cons here rest ih =>
      rcases List.mem_cons.mp member with rfl | later
      · exact chain.1
      · exact ih chain.2.2.2 later

/-- A chain lasts as long as its own nodes do. -/
theorem Chain.congr (chain : Chain prev next heap before after entries)
    (same : ∀ number ∈ entries.map Prod.fst, heap'.node number = heap.node number) :
    Chain prev next heap' before after entries := by
  induction entries generalizing before with
  | nil => trivial
  | cons here rest ih =>
      obtain ⟨allocated, backward, forward, onward⟩ := chain
      refine ⟨(same here.1 List.mem_cons_self).trans allocated, backward, forward, ?_⟩
      exact ih onward fun number member => same number (List.mem_cons_of_mem _ member)

/-- The first node may change what it is linked to before it. -/
theorem Chain.set_first {before' : Pointer} {node' : Node}
    (chain : Chain prev next heap before after ((number, node) :: entries))
    (changed : heap'.node number = some node') (backward : prev node' = before')
    (forward : next node' = next node)
    (same : ∀ other ∈ entries.map Prod.fst, heap'.node other = heap.node other) :
    Chain prev next heap' before' after ((number, node') :: entries) :=
  ⟨changed, backward, forward.trans chain.2.2.1, chain.2.2.2.congr same⟩

/-- The last node may change what it is linked to after it. -/
theorem Chain.set_last {after' : Pointer} {node' : Node}
    (chain : Chain prev next heap before after (entries ++ [(number, node)]))
    (changed : heap'.node number = some node') (backward : prev node' = prev node)
    (forward : next node' = after')
    (same : ∀ other ∈ entries.map Prod.fst, heap'.node other = heap.node other) :
    Chain prev next heap' before after' (entries ++ [(number, node')]) := by
  obtain ⟨front, _, adjoining, _⟩ := chain_append.mp chain
  exact chain_append.mpr
    ⟨front.congr same, changed, backward.trans adjoining, forward, trivial⟩

/-- Following the links forward gives the nodes in their order. -/
theorem Chain.follows_next (chain : Chain prev next heap before none entries) :
    heap.Follows next (first entries none) entries := by
  induction entries generalizing before with
  | nil => rfl
  | cons here rest ih =>
      obtain ⟨allocated, _, forward, onward⟩ := chain
      refine ⟨rfl, allocated, ?_⟩
      rw [forward]
      exact ih onward

/-- Following the links backward gives the nodes in the opposite order. -/
theorem Chain.follows_prev (chain : Chain prev next heap none after entries) :
    heap.Follows prev (last none entries) entries.reverse := by
  induction entries using List.reverseRecOn generalizing after with
  | nil => rfl
  | append_singleton init here ih =>
      obtain ⟨earlier, allocated, backward, _⟩ := chain_append.mp chain
      rw [last_append, List.reverse_append]
      refine ⟨rfl, allocated, ?_⟩
      rw [backward]
      exact ih earlier

/-- No chain is longer than the number of nodes ever allocated. -/
theorem Chain.length_le (chain : Chain prev next heap before after entries)
    (distinct : (entries.map Prod.fst).Nodup) : entries.length ≤ heap.next := by
  have inside : entries.map Prod.fst ⊆ List.range heap.next := by
    intro number member
    obtain ⟨entry, here, rfl⟩ := List.mem_map.mp member
    exact List.mem_range.mpr (lt_next (chain.allocated here))
  have short := (distinct.subperm inside).length_le
  rwa [List.length_map, List.length_range] at short

end Chain

end NodeHeap
