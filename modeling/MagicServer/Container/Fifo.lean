import MagicServer.Container.Queue
import MagicServer.Library.Machine

/-!
# The queue as a list of pointers

What a `Queue` does over any sequence of `push` and `pull` and at its
destruction, against a list of the pointers in it: the list a client sees, the
nodes and their links, and which of them each call frees.
-/

namespace MSrv.Queue

variable {TYPE : Type*}

/-- A call on a queue. -/
inductive Call (TYPE : Type*) where
  | push (pItem : Option TYPE)
  | pull

/-- The result of a call, if it has one, and the queue after it. -/
def perform (queue : Queue TYPE) : Call TYPE → Option (Option TYPE × Queue TYPE)
  | .push pItem => (queue.push pItem).map fun queue => (none, queue)
  | .pull => queue.pull

/-- Any sequence of calls is a run. -/
def called : Machine (Queue TYPE) (Call TYPE) where
  step queue call := (queue.perform call).map Prod.snd

/-- What a call makes of a list of pointers, the oldest first. -/
def Call.onList (items : List (Option TYPE)) : Call TYPE → List (Option TYPE)
  | .push pItem => items ++ [pItem]
  | .pull => items.tail

/-- The pointers that have been pushed and not pulled yet. -/
def contents (calls : List (Call TYPE)) : List (Option TYPE) :=
  calls.foldl Call.onList []

/-- Every call has a result and does to the items what it does to a list. -/
theorem Holds.perform {queue : Queue TYPE} {items : List (Option TYPE)}
    (holds : queue.Holds items) (call : Call TYPE) :
    ∃ queue', called.step queue call = some queue' ∧ queue'.Holds (call.onList items) ∧
      queue'.deleted = queue.deleted := by
  cases call with
  | push pItem =>
      obtain ⟨queue', pushed, holds', deleted⟩ := holds.push pItem
      refine ⟨queue', ?_, holds', deleted⟩
      simp only [called, Queue.perform, pushed, Option.map_some]
  | pull =>
      cases items with
      | nil =>
          refine ⟨queue, ?_, holds, rfl⟩
          simp only [called, Queue.perform, holds.pull_nil, Option.map_some]
      | cons pItem rest =>
          obtain ⟨queue', pulled, holds', deleted⟩ := holds.pull
          refine ⟨queue', ?_, holds', deleted⟩
          simp only [called, Queue.perform, pulled, Option.map_some]

/-- So does every sequence of calls. -/
theorem Holds.run {queue : Queue TYPE} {items : List (Option TYPE)} (holds : queue.Holds items)
    (calls : List (Call TYPE)) :
    ∃ queue', called.run queue calls = some queue' ∧ queue'.Holds (calls.foldl Call.onList items) ∧
      queue'.deleted = queue.deleted := by
  induction calls generalizing queue items with
  | nil => exact ⟨queue, rfl, holds, rfl⟩
  | cons call rest induction =>
      obtain ⟨next, taken, holds', kept⟩ := holds.perform call
      obtain ⟨queue', ran, final, deleted⟩ := induction holds'
      exact ⟨queue', called.run_cons_eq_some.mpr ⟨next, taken, ran⟩, final, deleted.trans kept⟩

/-- The nodes of a queue with their links. -/
structure Links (queue : Queue TYPE) (entries : List (Nat × ListItem TYPE)) : Prop where
  /-- From `mpFirstItem` along `mpNext` one meets the nodes and then `NULL`. -/
  forward : queue.heap.Follows ListItem.mpNext queue.mpFirstItem entries
  /-- From `mpLastItem` along `mpPrev` one meets them in the opposite order and then `NULL`. -/
  backward : queue.heap.Follows ListItem.mpPrev queue.mpLastItem entries.reverse
  distinct : (entries.map Prod.fst).Nodup
  /-- No other node is allocated. -/
  complete : ∀ number, number ∉ entries.map Prod.fst → queue.heap.node number = none

theorem Linked.links {queue : Queue TYPE} {entries : List (Nat × ListItem TYPE)}
    (linked : queue.Linked entries) : queue.Links entries := by
  refine ⟨?_, ?_, linked.distinct, linked.complete⟩
  · rw [linked.first]
    exact linked.chain.follows_next
  · rw [linked.last]
    exact linked.chain.follows_prev

/-- The last node goes out of the queue, and no other one. -/
structure TakesOut (queue queue' : Queue TYPE) (number : Nat) : Prop where
  last : queue.mpLastItem = some number
  /-- The destructor of the node meets no other one. -/
  alone : ∃ item, queue.heap.Follows ListItem.mpNext (some number) [(number, item)]
  freed : queue'.heap.node number = none
  kept : ∀ other, other ≠ number →
    (queue'.heap.node other).isSome = (queue.heap.node other).isSome
  /-- No data object is deleted. -/
  undeleted : queue'.deleted = queue.deleted

/-- A chain of nodes is allocated. -/
theorem Linked.isSome_iff {queue : Queue TYPE} {entries : List (Nat × ListItem TYPE)}
    (linked : queue.Linked entries) (number : Nat) :
    (queue.heap.node number).isSome ↔ number ∈ entries.map Prod.fst := by
  constructor
  · intro allocated
    by_contra missing
    rw [linked.complete number missing] at allocated
    cases allocated
  · intro member
    obtain ⟨entry, here, rfl⟩ := List.mem_map.mp member
    rw [linked.chain.allocated here]
    rfl

/-- A pull takes out the last node. -/
theorem Linked.pull_takesOut {queue : Queue TYPE} {earlier : List (Nat × ListItem TYPE)}
    {number : Nat} {item : ListItem TYPE} (linked : queue.Linked (earlier ++ [(number, item)])) :
    ∃ queue', queue.pull = some (item.mpData, queue') ∧
      queue'.Holds (earlier.map fun entry => entry.2.mpData).reverse ∧
      TakesOut queue queue' number := by
  obtain ⟨queue', entries, pulled, linked', numbers, data, deleted⟩ := linked.pull_numbers
  have apart : number ∉ earlier.map Prod.fst := by
    have distinct := linked.distinct
    rw [List.map_append, List.nodup_append] at distinct
    intro member
    exact distinct.2.2 number member number List.mem_cons_self rfl
  refine ⟨queue', pulled, ⟨entries, linked', by rw [data]⟩, ?_, ⟨item, ?_⟩, ?_, ?_, deleted⟩
  · rw [linked.last, NodeHeap.last_append]
    rfl
  · obtain ⟨_, back⟩ := NodeHeap.chain_append.mp linked.chain
    exact back.follows_next
  · apply linked'.complete
    rw [numbers]
    exact apart
  · intro other different
    rw [Bool.eq_iff_iff, linked'.isSome_iff, linked.isSome_iff, numbers, List.map_append,
      List.mem_append]
    have last : other ∉ List.map Prod.fst [(number, item)] :=
      List.not_mem_cons_of_ne_of_not_mem different List.not_mem_nil
    rw [or_iff_left last]

/-- The queue is the list of these pointers, the oldest first. -/
structure IsFifo (queue : Queue TYPE) (items : List (Option TYPE)) : Prop where
  links : ∃ entries, queue.Links entries ∧
    (entries.reverse.map fun entry => entry.2.mpData) = items
  push : ∀ pItem, ∃ queue', queue.push pItem = some queue' ∧ queue'.items = items ++ [pItem] ∧
    queue'.deleted = queue.deleted
  pull_nil : items = [] → queue.pull = some (none, queue)
  pull_cons : ∀ pItem rest, items = pItem :: rest → ∃ queue' number,
    queue.pull = some (pItem, queue') ∧ queue'.items = rest ∧ TakesOut queue queue' number
  /-- When `NULL` is pulled. -/
  pull_null : (∃ queue', queue.pull = some (none, queue')) ↔ items = [] ∨ items.head? = some none
  /-- The destructor frees every node, which has no result for a node freed before,
  and deletes the data object of each. -/
  destroy : ∃ queue', queue.destroy = some queue' ∧ (∀ number, queue'.heap.node number = none) ∧
    queue'.deleted.Perm (queue.deleted ++ items.flatMap Option.toList)

theorem Holds.pull_cons {queue : Queue TYPE} {pItem : Option TYPE} {rest : List (Option TYPE)}
    (holds : queue.Holds (pItem :: rest)) : ∃ queue' number,
      queue.pull = some (pItem, queue') ∧ queue'.items = rest ∧ TakesOut queue queue' number := by
  obtain ⟨entries, linked, data⟩ := holds
  rw [List.reverse_eq_iff, List.reverse_cons, List.map_eq_append_iff] at data
  obtain ⟨earlier, oldest, rfl, data, only⟩ := data
  obtain ⟨⟨number, item⟩, rfl, rfl⟩ := List.map_eq_singleton_iff.mp only
  obtain ⟨queue', pulled, holds', takes⟩ := linked.pull_takesOut
  refine ⟨queue', number, pulled, ?_, takes⟩
  rw [holds'.items, data, List.reverse_reverse]

theorem Holds.isFifo {queue : Queue TYPE} {items : List (Option TYPE)}
    (holds : queue.Holds items) : queue.IsFifo items := by
  refine ⟨?_, fun pItem => ?_, ?_, ?_, ?_, ?_⟩
  · obtain ⟨entries, linked, rfl⟩ := holds
    exact ⟨entries, linked.links, List.map_reverse⟩
  · obtain ⟨queue', pushed, holds', deleted⟩ := holds.push pItem
    exact ⟨queue', pushed, holds'.items, deleted⟩
  · rintro rfl
    exact holds.pull_nil
  · rintro pItem rest rfl
    exact holds.pull_cons
  · cases items with
    | nil => exact iff_of_true ⟨queue, holds.pull_nil⟩ (Or.inl rfl)
    | cons pItem rest =>
        obtain ⟨queue', _, pulled, _⟩ := holds.pull_cons
        simp only [pulled, Option.some_inj, Prod.mk.injEq, exists_and_left, exists_eq', and_true,
          reduceCtorEq, false_or, List.head?_cons]
  · obtain ⟨entries, linked, data⟩ := holds
    obtain ⟨heap, destroyed, freed⟩ := linked.destroy
    refine ⟨_, destroyed, freed, List.Perm.append_left _ ?_⟩
    rw [← data, Queue.data, ← List.flatMap_map]
    exact (List.reverse_perm _).symm.flatMap_right _

/-- After any sequence of calls on an empty queue it is the list of the pointers
that have been pushed and not pulled, and no data object has been deleted. -/
theorem run_isFifo (calls : List (Call TYPE)) : ∃ queue : Queue TYPE,
    called.run empty calls = some queue ∧ queue.IsFifo (contents calls) ∧ queue.deleted = [] := by
  obtain ⟨queue, ran, holds, deleted⟩ := holds_empty.run calls
  exact ⟨queue, ran, holds.isFifo, deleted⟩

/-- A pushed `NULL` is pulled from a queue that is not empty, and a data object
that is there twice is deleted twice. -/
theorem null_pulled_and_deleted_twice :
    (∃ queue queue' : Queue Nat, called.run empty [.push none] = some queue ∧
      queue.items = [none] ∧ queue.pull = some (none, queue') ∧ queue'.items = []) ∧
      ∃ queue queue' : Queue Nat, called.run empty [.push (some 7), .push (some 7)] = some queue ∧
        queue.destroy = some queue' ∧ queue'.deleted = [7, 7] :=
  ⟨⟨_, _, rfl, rfl, rfl, rfl⟩, _, _, rfl, rfl, rfl⟩

end MSrv.Queue
