import MagicServer.Library.NodeHeap
import Mathlib.Data.List.Nodup

/-!
# The queue

`Queue` of `msrvcontainer.h` over a heap of its `ListItem` nodes. New items
enter at `mpFirstItem` and leave at `mpLastItem`. An operation has no result when
it would follow a pointer to a node that is not allocated. `mThreadLock` makes
each operation one step, so the links are looked at between operations only.
-/

namespace MSrv

/-- A node of the list. -/
structure ListItem (TYPE : Type*) where
  mpData : Option TYPE
  mpPrev : NodeHeap.Pointer
  mpNext : NodeHeap.Pointer

namespace ListItem

variable {TYPE : Type*}

/-- Creates a new list item and links it to the next. -/
def create (req : Option TYPE) (pNext : NodeHeap.Pointer) : ListItem TYPE where
  mpData := req
  mpPrev := none
  mpNext := pNext

/-- Sets the previous list item in the list. -/
def setPrev (item : ListItem TYPE) (prev : NodeHeap.Pointer) : ListItem TYPE :=
  { item with mpPrev := prev }

/-- Sets the next list item in the list. -/
def setNext (item : ListItem TYPE) (next : NodeHeap.Pointer) : ListItem TYPE :=
  { item with mpNext := next }

/-- Sets the data object contained in the list item. -/
def set (item : ListItem TYPE) (pItem : Option TYPE) : ListItem TYPE :=
  { item with mpData := pItem }

end ListItem

/-- `Queue<TYPE>` with the heap its items live in. `mThreadLock` counts how often
the calling thread holds the recursive lock. `deleted` is history: the data
objects that destroyed items have taken with them. -/
structure Queue (TYPE : Type*) where
  heap : NodeHeap (ListItem TYPE)
  mpFirstItem : NodeHeap.Pointer
  mpLastItem : NodeHeap.Pointer
  mThreadLock : Nat
  deleted : List TYPE

namespace Queue

variable {TYPE : Type*}

/-- Creates a new empty queue. -/
def empty : Queue TYPE where
  heap := .empty
  mpFirstItem := none
  mpLastItem := none
  mThreadLock := 0
  deleted := []

def lock (queue : Queue TYPE) : Queue TYPE :=
  { queue with mThreadLock := queue.mThreadLock + 1 }

def unlock (queue : Queue TYPE) : Queue TYPE :=
  { queue with mThreadLock := queue.mThreadLock - 1 }

/-- `delete` of a list item: destroys its data and, recursively, all items after
it, and frees it; the data that went with them and the heap that is left. `fuel`
bounds the depth of the recursion. -/
def deleteItem : Nat → NodeHeap (ListItem TYPE) → NodeHeap.Pointer →
    Option (List TYPE × NodeHeap (ListItem TYPE))
  | _, heap, none => some ([], heap)
  | 0, _, some _ => none
  | fuel + 1, heap, some number => do
      let item ← heap.read (some number)
      let (deleted, heap) ← deleteItem fuel heap item.mpNext
      let heap ← heap.free (some number)
      some (item.mpData.toList ++ deleted, heap)

/-- Pushes an item to the beginning of the queue. -/
def push (queue : Queue TYPE) (pItem : Option TYPE) : Option (Queue TYPE) := do
  let queue := queue.lock
  let pOldFirst := queue.mpFirstItem
  let (mpFirstItem, heap) := queue.heap.new (.create pItem pOldFirst)
  let heap ←
    if pOldFirst.isSome then heap.update pOldFirst fun item => item.setPrev mpFirstItem
    else some heap
  let mpLastItem := if queue.mpLastItem.isNone then mpFirstItem else queue.mpLastItem
  let queue := { queue with heap := heap, mpFirstItem := mpFirstItem, mpLastItem := mpLastItem }
  some queue.unlock

/-- Pulls an item from the end of the queue; no node has been allocated more
often than `heap.next` times, which bounds the recursion of `delete`. -/
def pull (queue : Queue TYPE) : Option (Option TYPE × Queue TYPE) :=
  let queue := queue.lock
  if queue.mpLastItem.isSome then do
    let pLastItem := queue.mpLastItem
    let last ← queue.heap.read pLastItem
    let pResult := last.mpData
    let queue ←
      if last.mpPrev.isSome then do
        let mpLastItem := last.mpPrev
        let heap ← queue.heap.update mpLastItem fun item => item.setNext none
        some { queue with heap := heap, mpLastItem := mpLastItem }
      else some { queue with mpLastItem := none, mpFirstItem := none }
    let heap ← queue.heap.update pLastItem fun item => item.set none
    let (deleted, heap) ← deleteItem heap.next heap pLastItem
    let queue := { queue with heap := heap, deleted := queue.deleted ++ deleted }
    some (pResult, queue.unlock)
  else some (none, queue.unlock)

/-- Destroys the queue and all the items it contains. -/
def destroy (queue : Queue TYPE) : Option (Queue TYPE) := do
  let queue := queue.lock
  let (deleted, heap) ← deleteItem queue.heap.next queue.heap queue.mpFirstItem
  let queue := { queue with heap := heap, deleted := queue.deleted ++ deleted }
  some queue.unlock

/-- The data met from `mpLastItem` on by following `mpPrev`, the oldest first. -/
def items (queue : Queue TYPE) : List (Option TYPE) :=
  (queue.heap.walk ListItem.mpPrev queue.heap.next queue.mpLastItem).map fun entry => entry.2.mpData

/-! ## The representation -/

/-- The nodes of the queue, the newest first: linked both ways, each there once,
with the queue's pointers at the ends, and no other node allocated. -/
structure Linked (queue : Queue TYPE) (entries : List (Nat × ListItem TYPE)) : Prop where
  chain : NodeHeap.Chain ListItem.mpPrev ListItem.mpNext queue.heap none none entries
  distinct : (entries.map Prod.fst).Nodup
  first : queue.mpFirstItem = NodeHeap.first entries none
  last : queue.mpLastItem = NodeHeap.last none entries
  complete : ∀ number, number ∉ entries.map Prod.fst → queue.heap.node number = none

/-- The queue holds these items, the oldest first. -/
def Holds (queue : Queue TYPE) (items : List (Option TYPE)) : Prop :=
  ∃ entries, queue.Linked entries ∧ (entries.map fun entry => entry.2.mpData).reverse = items

theorem holds_empty : (empty : Queue TYPE).Holds [] :=
  ⟨[], ⟨trivial, List.nodup_nil, rfl, rfl, fun _ _ => rfl⟩, rfl⟩

/-- From `mpFirstItem` along `mpNext` one meets the nodes in their order. -/
theorem Linked.forward {queue : Queue TYPE} {entries : List (Nat × ListItem TYPE)}
    (linked : queue.Linked entries) :
    queue.heap.walk ListItem.mpNext queue.heap.next queue.mpFirstItem = entries := by
  rw [linked.first]
  exact linked.chain.follows_next.walk (linked.chain.length_le linked.distinct)

/-- From `mpLastItem` along `mpPrev` one meets them in the opposite order. -/
theorem Linked.backward {queue : Queue TYPE} {entries : List (Nat × ListItem TYPE)}
    (linked : queue.Linked entries) :
    queue.heap.walk ListItem.mpPrev queue.heap.next queue.mpLastItem = entries.reverse := by
  rw [linked.last]
  apply linked.chain.follows_prev.walk
  rw [List.length_reverse]
  exact linked.chain.length_le linked.distinct

theorem Holds.items {queue : Queue TYPE} {items : List (Option TYPE)}
    (holds : queue.Holds items) : queue.items = items := by
  obtain ⟨entries, linked, rfl⟩ := holds
  unfold Queue.items
  rw [linked.backward, List.map_reverse]

/-! ## Deleting -/

/-- The data objects that the entries carry. -/
def data (entries : List (Nat × ListItem TYPE)) : List TYPE :=
  entries.flatMap fun entry => entry.2.mpData.toList

/-- `delete` of the first node of a chain frees every node of it and no other
one, and deletes their data. -/
theorem deleteItem_chain {heap : NodeHeap (ListItem TYPE)} {entries : List (Nat × ListItem TYPE)}
    {before : NodeHeap.Pointer} {fuel : Nat} (enough : entries.length ≤ fuel)
    (chain : NodeHeap.Chain ListItem.mpPrev ListItem.mpNext heap before none entries)
    (distinct : (entries.map Prod.fst).Nodup) :
    ∃ heap', deleteItem fuel heap (NodeHeap.first entries none) = some (data entries, heap') ∧
      (∀ number ∈ entries.map Prod.fst, heap'.node number = none) ∧
      ∀ number, number ∉ entries.map Prod.fst → heap'.node number = heap.node number := by
  induction entries generalizing before fuel with
  | nil => exact ⟨heap, by cases fuel <;> rfl, nofun, fun _ _ => rfl⟩
  | cons entry rest ih =>
      obtain ⟨number, item⟩ := entry
      obtain ⟨allocated, _, forward, onward⟩ := chain
      obtain ⟨absent, distinct⟩ := List.nodup_cons.mp distinct
      cases fuel with
      | zero => cases enough
      | succ fuel =>
          obtain ⟨heap', deleted, freed, kept⟩ :=
            ih (Nat.le_of_succ_le_succ enough) onward distinct
          have here : heap'.node number = some item := (kept number absent).trans allocated
          refine ⟨heap'.alter number fun _ => none, ?_, ?_, ?_⟩
          · have read : heap.read (some number) = some item := allocated
            simp only [NodeHeap.first_cons, deleteItem, read, Option.bind_eq_bind,
              Option.bind_some, forward, deleted, NodeHeap.free_of_node here, data,
              List.flatMap_cons]
          · intro other member
            rcases List.mem_cons.mp member with rfl | later
            · exact NodeHeap.node_alter_self _ here
            · have different : other ≠ number := fun same => absent (same ▸ later)
              rw [NodeHeap.node_alter_of_ne _ different]
              exact freed other later
          · intro other missing
            rw [List.map_cons, List.mem_cons, not_or] at missing
            rw [NodeHeap.node_alter_of_ne _ missing.1]
            exact kept other missing.2

/-- `~Queue` frees every node and deletes the data of each. -/
theorem Linked.destroy {queue : Queue TYPE} {entries : List (Nat × ListItem TYPE)}
    (linked : queue.Linked entries) :
    ∃ heap, queue.destroy =
        some { queue with heap := heap, deleted := queue.deleted ++ data entries } ∧
      ∀ number, heap.node number = none := by
  obtain ⟨heap, deleted, freed, kept⟩ := deleteItem_chain
    (linked.chain.length_le linked.distinct) linked.chain linked.distinct
  refine ⟨heap, ?_, fun number => ?_⟩
  · rw [← linked.first] at deleted
    simp only [Queue.destroy, lock, deleted, Option.bind_eq_bind, Option.bind_some, unlock,
      Nat.add_sub_cancel]
  · by_cases member : number ∈ entries.map Prod.fst
    · exact freed number member
    · exact (kept number member).trans (linked.complete number member)

/-- A queue with no last node has nothing to pull. -/
theorem pull_of_empty {queue : Queue TYPE} (last : queue.mpLastItem = none) :
    queue.pull = some (none, queue) := by
  obtain ⟨heap, mpFirstItem, mpLastItem, mThreadLock, deleted⟩ := queue
  cases last
  rfl

/-- A queue whose pointers lead to no node any more. -/
structure Gone (queue : Queue TYPE) : Prop where
  first : queue.heap.read queue.mpFirstItem = none
  last : queue.heap.read queue.mpLastItem = none

/-- The queue deletes the items it holds, each as often as it holds it, and is gone. -/
theorem Holds.destroy {queue : Queue TYPE} {items : List (Option TYPE)}
    (holds : queue.Holds items) :
    ∃ queue', queue.destroy = some queue' ∧ queue'.Gone ∧
      (queue'.deleted).Perm (queue.deleted ++ items.flatMap Option.toList) := by
  obtain ⟨entries, linked, rfl⟩ := holds
  obtain ⟨heap, destroyed, freed⟩ := linked.destroy
  have nothing : ∀ pointer, heap.read pointer = none := by
    intro pointer
    cases pointer with
    | none => rfl
    | some number => exact freed number
  refine ⟨_, destroyed, ⟨nothing _, nothing _⟩, ?_⟩
  apply List.Perm.append_left _
  have data_eq : data entries =
      (entries.map fun entry => entry.2.mpData).flatMap Option.toList := by
    rw [data, List.flatMap_map]
  rw [data_eq]
  exact (List.reverse_perm _).symm.flatMap_right _

/-- A pull from a queue that is gone takes nothing out, where it has a result. -/
theorem Gone.pull {queue queue' : Queue TYPE} {pResult : Option TYPE} (gone : queue.Gone)
    (pulled : queue.pull = some (pResult, queue')) : pResult = none ∧ queue' = queue := by
  cases last : queue.mpLastItem with
  | none =>
      rw [pull_of_empty last] at pulled
      cases pulled
      exact ⟨rfl, rfl⟩
  | some number =>
      have lost := gone.last
      rw [last] at lost
      simp only [Queue.pull, lock, last, lost, Option.isSome_some, ↓reduceIte, Option.bind_eq_bind,
        Option.bind_none, reduceCtorEq] at pulled

/-- Deleting a node that is not there has no result. -/
theorem deleteItem_of_read {heap : NodeHeap (ListItem TYPE)} {number : Nat} (fuel : Nat)
    (lost : heap.read (some number) = none) : deleteItem fuel heap (some number) = none := by
  cases fuel with
  | zero => rfl
  | succ fuel => rw [deleteItem, lost, Option.bind_eq_bind, Option.bind_none]

/-- A second destruction deletes nothing, where it has a result. -/
theorem Gone.destroy {queue queue' : Queue TYPE} (gone : queue.Gone)
    (destroyed : queue.destroy = some queue') : queue' = queue := by
  obtain ⟨heap, mpFirstItem, mpLastItem, mThreadLock, deleted⟩ := queue
  cases mpFirstItem with
  | none =>
      simp only [Queue.destroy, lock, unlock, deleteItem, Option.bind_eq_bind, Option.bind_some,
        List.append_nil, Nat.add_sub_cancel, Option.some_inj] at destroyed
      exact destroyed.symm
  | some number =>
      simp only [Queue.destroy, lock, deleteItem_of_read _ gone.first, Option.bind_eq_bind,
        Option.bind_none, reduceCtorEq] at destroyed

theorem Gone.items {queue : Queue TYPE} (gone : queue.Gone) : queue.items = [] := by
  unfold Queue.items
  rw [NodeHeap.walk_of_read _ _ gone.last, List.map_nil]

/-! ## Pushing and pulling -/

/-- The heap after a push on a queue with no node. -/
theorem push_of_empty {queue : Queue TYPE} (first : queue.mpFirstItem = none)
    (last : queue.mpLastItem = none) (pItem : Option TYPE) :
    queue.push pItem = some { queue with
      heap := (queue.heap.new (.create pItem none)).2
      mpFirstItem := some queue.heap.next
      mpLastItem := some queue.heap.next } := by
  simp only [Queue.push, lock, unlock, first, last, NodeHeap.new, Option.isSome_none,
    Option.isNone_none, Bool.false_eq_true, ↓reduceIte, Option.bind_eq_bind, Option.bind_some,
    Nat.add_sub_cancel]

/-- The heap after a push on a queue with a first node. -/
theorem push_of_first {queue : Queue TYPE} {number : Nat} {item : ListItem TYPE}
    (first : queue.mpFirstItem = some number) (allocated : queue.heap.node number = some item)
    (last : queue.mpLastItem.isSome) (pItem : Option TYPE) :
    queue.push pItem = some { queue with
      heap := (queue.heap.new (.create pItem (some number))).2.alter number fun item =>
        some (item.setPrev (some queue.heap.next))
      mpFirstItem := some queue.heap.next } := by
  have kept : (queue.heap.new (.create pItem (some number))).2.node number = some item :=
    (NodeHeap.node_new_of_ne _ (Nat.ne_of_lt (NodeHeap.lt_next allocated))).trans allocated
  have setPrev := NodeHeap.update_of_node
    (fun item => ListItem.setPrev item (some queue.heap.next)) kept
  have some_last : queue.mpLastItem.isNone = false := by
    rw [Option.isNone_eq_false_iff]
    exact last
  unfold NodeHeap.new at setPrev ⊢
  simp only [Queue.push, lock, unlock, first, NodeHeap.new, setPrev, some_last,
    Option.isSome_some, Bool.false_eq_true, ↓reduceIte, Option.bind_eq_bind, Option.bind_some,
    Nat.add_sub_cancel]

/-- A push links a new node before the first one. -/
theorem Linked.push {queue : Queue TYPE} {entries : List (Nat × ListItem TYPE)}
    (linked : queue.Linked entries) (pItem : Option TYPE) :
    ∃ queue' entries', queue.push pItem = some queue' ∧ queue'.Linked entries' ∧
      (entries'.map fun entry => entry.2.mpData) =
        pItem :: (entries.map fun entry => entry.2.mpData) ∧
      queue'.deleted = queue.deleted := by
  obtain ⟨chain, distinct, first, last, complete⟩ := linked
  have unused : queue.heap.next ∉ entries.map Prod.fst := by
    intro member
    obtain ⟨entry, here, same⟩ := List.mem_map.mp member
    exact absurd (NodeHeap.lt_next (chain.allocated here)) (by omega)
  cases entries with
  | nil =>
      refine ⟨_, [(queue.heap.next, .create pItem none)], push_of_empty first last pItem,
        ⟨⟨queue.heap.node_new_self _, rfl, rfl, trivial⟩, List.nodup_singleton _, rfl, rfl,
          fun other missing => ?_⟩, rfl, rfl⟩
      rw [NodeHeap.node_new_of_ne _ (List.ne_of_not_mem_cons missing)]
      exact complete other List.not_mem_nil
  | cons entry rest =>
      obtain ⟨number, item⟩ := entry
      have allocated : queue.heap.node number = some item := chain.1
      rw [List.map_cons, List.mem_cons, not_or] at unused
      have different : number ≠ queue.heap.next := unused.1 ∘ Eq.symm
      have absent : number ∉ rest.map Prod.fst := (List.nodup_cons.mp distinct).1
      refine ⟨_, (queue.heap.next, .create pItem (some number)) ::
          (number, item.setPrev (some queue.heap.next)) :: rest,
        push_of_first first allocated (last ▸ NodeHeap.last_isSome number rest) pItem,
        ⟨⟨?_, rfl, rfl, chain.set_first ?_ rfl rfl ?_⟩, ?_, rfl, last, fun other missing => ?_⟩,
        rfl, rfl⟩
      · rw [NodeHeap.node_alter_of_ne _ unused.1]
        exact queue.heap.node_new_self _
      · apply NodeHeap.node_alter_self
        rw [NodeHeap.node_new_of_ne _ different, allocated]
      · intro other member
        have apart : other ≠ number := fun same => absent (same ▸ member)
        have old : other ≠ queue.heap.next := fun same => unused.2 (same ▸ member)
        rw [NodeHeap.node_alter_of_ne _ apart, NodeHeap.node_new_of_ne _ old]
      · exact List.nodup_cons.mpr ⟨List.not_mem_cons_of_ne_of_not_mem unused.1 unused.2, distinct⟩
      · rw [List.map_cons, List.mem_cons, not_or] at missing
        rw [NodeHeap.node_alter_of_ne _ (List.ne_of_not_mem_cons missing.2),
          NodeHeap.node_new_of_ne _ missing.1]
        exact complete other missing.2

theorem Holds.push {queue : Queue TYPE} {items : List (Option TYPE)} (holds : queue.Holds items)
    (pItem : Option TYPE) :
    ∃ queue', queue.push pItem = some queue' ∧ queue'.Holds (items ++ [pItem]) ∧
      queue'.deleted = queue.deleted := by
  obtain ⟨entries, linked, rfl⟩ := holds
  obtain ⟨queue', entries', pushed, linked', data, deleted⟩ := linked.push pItem
  refine ⟨queue', pushed, ⟨entries', linked', ?_⟩, deleted⟩
  rw [data, List.reverse_cons]

/-- A node that leads nowhere is deleted alone, and without its data once they
have been taken out of it. -/
theorem delete_unlinked {heap : NodeHeap (ListItem TYPE)} {number : Nat} {item : ListItem TYPE}
    (allocated : heap.node number = some item) (alone : item.mpNext = none) :
    ∃ emptied heap', heap.update (some number) (fun item => item.set none) = some emptied ∧
      deleteItem emptied.next emptied (some number) = some ([], heap') ∧
      heap'.node number = none ∧ ∀ other, other ≠ number → heap'.node other = heap.node other := by
  have here : (heap.alter number fun item => some (item.set none)).node number =
      some (item.set none) := NodeHeap.node_alter_self _ allocated
  obtain ⟨heap', deleted, freed, kept⟩ := @deleteItem_chain _ _ [(number, item.set none)] _ _
    (Nat.succ_le_of_lt (Nat.zero_lt_of_lt (NodeHeap.lt_next here)))
    ⟨here, rfl, alone, trivial⟩ (List.nodup_singleton _)
  refine ⟨_, heap', NodeHeap.update_of_node _ allocated, deleted,
    freed number List.mem_cons_self, fun other different => ?_⟩
  rw [kept other (List.not_mem_cons_of_ne_of_not_mem different List.not_mem_nil),
    NodeHeap.node_alter_of_ne _ different]

/-- A pull takes out the last node, frees it and no other one, and leaves its
data alone. -/
theorem Linked.pull_numbers {queue : Queue TYPE} {earlier : List (Nat × ListItem TYPE)}
    {number : Nat} {item : ListItem TYPE} (linked : queue.Linked (earlier ++ [(number, item)])) :
    ∃ queue' entries, queue.pull = some (item.mpData, queue') ∧ queue'.Linked entries ∧
      entries.map Prod.fst = earlier.map Prod.fst ∧
      (entries.map fun entry => entry.2.mpData) = (earlier.map fun entry => entry.2.mpData) ∧
      queue'.deleted = queue.deleted := by
  obtain ⟨chain, distinct, first, last, complete⟩ := linked
  obtain ⟨before, allocated, backward, alone, _⟩ := NodeHeap.chain_append.mp chain
  rw [List.map_append, List.nodup_append] at distinct
  obtain ⟨distinct, _, apart⟩ := distinct
  rw [NodeHeap.last_append] at last
  have read : queue.heap.read (some number) = some item := allocated
  cases earlier using List.reverseRec with
  | nil =>
      obtain ⟨emptied, heap', update, deletion, freed, kept⟩ := delete_unlinked allocated alone
      refine ⟨{ queue with heap := heap', mpFirstItem := none, mpLastItem := none }, [], ?_,
        ⟨trivial, List.nodup_nil, rfl, rfl, fun other _ => ?_⟩, rfl, rfl, rfl⟩
      · simp only [NodeHeap.last_nil, NodeHeap.last_cons] at backward last
        simp only [Queue.pull, lock, unlock, last, read, backward, update, deletion,
          Option.isSome_some, Option.isSome_none, Bool.false_eq_true, ↓reduceIte,
          Option.bind_eq_bind, Option.bind_some, List.append_nil, Nat.add_sub_cancel]
      · by_cases same : other = number
        · rw [same, freed]
        · rw [kept other same]
          exact complete other (List.not_mem_cons_of_ne_of_not_mem same List.not_mem_nil)
  | append_singleton rest entry =>
      obtain ⟨left, neighbour⟩ := entry
      obtain ⟨_, adjoining, _⟩ := NodeHeap.chain_append.mp before
      have different : left ≠ number := by
        refine apart left ?_ number List.mem_cons_self
        rw [List.map_append]
        exact List.mem_append_right _ List.mem_cons_self
      -- The node before becomes the last one, with nothing after it.
      have setNext := NodeHeap.update_of_node (fun item => ListItem.setNext item none) adjoining
      have unmoved : (queue.heap.alter left fun item => some (item.setNext none)).node number = _ :=
        (NodeHeap.node_alter_of_ne _ different.symm).trans allocated
      obtain ⟨emptied, heap', update, deletion, freed, kept⟩ := delete_unlinked unmoved alone
      refine ⟨{ queue with heap := heap', mpLastItem := some left },
        rest ++ [(left, neighbour.setNext none)], ?_, ⟨?_, ?_, ?_, ?_, ?_⟩, ?_, ?_, rfl⟩
      · simp only [NodeHeap.last_append, NodeHeap.last_nil, NodeHeap.last_cons] at backward last
        simp only [Queue.pull, lock, unlock, last, read, backward, setNext, update, deletion,
          Option.isSome_some, ↓reduceIte, Option.bind_eq_bind, Option.bind_some, List.append_nil,
          Nat.add_sub_cancel]
      · refine before.set_last ?_ rfl rfl fun other member => ?_
        · rw [kept left different]
          exact NodeHeap.node_alter_self _ adjoining
        · rw [List.map_append] at distinct apart
          have inner : other ≠ left :=
            (List.nodup_append.mp distinct).2.2 other member left List.mem_cons_self
          have outer : other ≠ number :=
            apart other (List.mem_append_left _ member) number List.mem_cons_self
          rw [kept other outer, NodeHeap.node_alter_of_ne _ inner]
      · rw [List.map_append] at distinct ⊢
        exact distinct
      · rw [first, List.append_assoc]
        simp only [NodeHeap.first_append, NodeHeap.first_cons, List.singleton_append]
      · rw [NodeHeap.last_append]
        rfl
      · intro other missing
        by_cases same : other = number
        · rw [same, freed]
        · have apart_left : other ≠ left := by
            rintro rfl
            refine missing ?_
            rw [List.map_append]
            exact List.mem_append_right _ List.mem_cons_self
          rw [kept other same, NodeHeap.node_alter_of_ne _ apart_left]
          refine complete other fun member => ?_
          rw [List.map_append] at member
          rcases List.mem_append.mp member with before | here
          · rw [List.map_append] at before missing
            exact missing before
          · exact same (List.mem_singleton.mp here)
      · rw [List.map_append, List.map_append]
        rfl
      · simp only [List.map_append, List.map_cons, List.map_nil, ListItem.setNext]

/-- A pull takes out the last node and leaves its data alone. -/
theorem Linked.pull {queue : Queue TYPE} {earlier : List (Nat × ListItem TYPE)} {number : Nat}
    {item : ListItem TYPE} (linked : queue.Linked (earlier ++ [(number, item)])) :
    ∃ queue' entries, queue.pull = some (item.mpData, queue') ∧ queue'.Linked entries ∧
      (entries.map fun entry => entry.2.mpData) = (earlier.map fun entry => entry.2.mpData) ∧
      queue'.deleted = queue.deleted := by
  obtain ⟨queue', entries, pulled, linked', -, same, deleted⟩ := linked.pull_numbers
  exact ⟨queue', entries, pulled, linked', same, deleted⟩

theorem Holds.pull {queue : Queue TYPE} {pItem : Option TYPE} {items : List (Option TYPE)}
    (holds : queue.Holds (pItem :: items)) :
    ∃ queue', queue.pull = some (pItem, queue') ∧ queue'.Holds items ∧
      queue'.deleted = queue.deleted := by
  obtain ⟨entries, linked, data⟩ := holds
  rw [List.reverse_eq_iff, List.reverse_cons, List.map_eq_append_iff] at data
  obtain ⟨earlier, oldest, rfl, data, only⟩ := data
  obtain ⟨⟨number, item⟩, rfl, rfl⟩ := List.map_eq_singleton_iff.mp only
  obtain ⟨queue', entries, pulled, linked', same, deleted⟩ := linked.pull
  refine ⟨queue', pulled, ⟨entries, linked', ?_⟩, deleted⟩
  rw [same, data, List.reverse_reverse]

theorem Holds.pull_nil {queue : Queue TYPE} (holds : queue.Holds []) :
    queue.pull = some (none, queue) := by
  obtain ⟨entries, linked, data⟩ := holds
  rw [List.reverse_eq_nil_iff, List.map_eq_nil_iff] at data
  subst data
  exact pull_of_empty linked.last

end Queue

end MSrv
