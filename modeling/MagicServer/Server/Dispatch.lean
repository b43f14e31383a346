import MagicServer.Library.IndexWalk
import MagicServer.Library.Machine
import MagicServer.Server.Listen

/-!
# One round of the dispatch loop

The loop of `Listener::listen()` that calls `descriptorEvent` for the entries in
the ready set, with a `descriptorEvent` that removes and appends entries as it
likes. The loop walks the table by index, so an entry that a removal moves up to
the index, or before it, is passed over.
-/

namespace MSrv

/-- A change that the handling of an event makes to the table. -/
inductive TableEdit where
  /-- `removeDescriptor(fd)`. -/
  | remove (fd : Int)
  | append (entry : Descriptor)
  deriving DecidableEq

namespace TableEdit

/-- The table after the change. -/
def apply (table : List Descriptor) : TableEdit → List Descriptor
  | .remove fd =>
      ({ Sockets.empty with
        mDescriptors := table }.removeDescriptor List.eraseIdx fd).2.mDescriptors
  | .append entry => table ++ [entry]

theorem apply_remove (table : List Descriptor) (fd : Int) :
    apply table (.remove fd) = Keyed.erase Descriptor.mFd table fd :=
  Sockets.removeDescriptor_eraseIdx

/-- The table after several changes. -/
def applyAll (table : List Descriptor) (edits : List TableEdit) : List Descriptor :=
  edits.foldl apply table

/-- No entry is appended whose descriptor is in the ready set. -/
def Allowed (ready : List Int) : TableEdit → Prop
  | .remove _ => True
  | .append entry => entry.mFd ∉ ready

instance (ready : List Int) : (edit : TableEdit) → Decidable (edit.Allowed ready)
  | .remove _ => instDecidableTrue
  | .append entry => inferInstanceAs (Decidable (entry.mFd ∉ ready))

end TableEdit

/-- The dispatch loop: the table, the index, and what has happened so far. -/
structure DispatchRound where
  table : List Descriptor
  i : Nat
  /-- The entries with which `descriptorEvent` has been called, in order. -/
  events : List Descriptor
  /-- Entries that removals have moved from behind the index to it or before it. -/
  moved : List Descriptor
  /-- Entries removed by their own event. -/
  removedOwn : List Descriptor
  /-- Entries removed by the event of another, without an event of their own. -/
  removedBefore : List Descriptor

namespace DispatchRound

/-- The loop begins. -/
def start (table : List Descriptor) : DispatchRound where
  table := table
  i := 0
  events := []
  moved := []
  removedOwn := []
  removedBefore := []

inductive Action where
  /-- The entry is not in the ready set. -/
  | skip
  /-- `descriptorEvent` is called with the entry and makes these changes. -/
  | event (edits : List TableEdit)
  deriving DecidableEq

/-- The turn of an entry that is in the ready set. -/
def dispatch (round : DispatchRound) (entry : Descriptor) (edits : List TableEdit) :
    DispatchRound :=
  let table := TableEdit.applyAll round.table edits
  { table := table
    i := round.i + 1
    events := round.events ++ [entry]
    moved := round.moved ++
      (table.take (round.i + 1)).filter fun other => other ∈ round.table.drop (round.i + 1)
    removedOwn := round.removedOwn ++ if entry ∈ table then [] else [entry]
    removedBefore := round.removedBefore ++
      round.table.filter fun other => other ∉ table ∧ other ≠ entry ∧ other ∉ round.events }

/-- One pass through the loop; there is none when the index has reached the length. -/
def step (ready : List Int) (round : DispatchRound) : Action → Option DispatchRound
  | .skip =>
      round.table[round.i]?.bind fun entry =>
        if entry.mFd ∈ ready then none else some { round with i := round.i + 1 }
  | .event edits =>
      round.table[round.i]?.bind fun entry =>
        if entry.mFd ∈ ready ∧ ∀ edit ∈ edits, edit.Allowed ready then
          some (round.dispatch entry edits)
        else none

/-- Every round is a run of this machine. -/
def machine (ready : List Int) : Machine DispatchRound Action where
  step := step ready

/-- The loop has ended. -/
def Over (round : DispatchRound) : Prop := round.table.length ≤ round.i

instance (round : DispatchRound) : Decidable round.Over := inferInstanceAs (Decidable (_ ≤ _))

/-- What a round is for. -/
structure Served (ready : List Int) (start : List Descriptor) (round : DispatchRound) : Prop where
  /-- An entry that is not removed before or during its turn. -/
  once : ∀ entry ∈ start, entry.mFd ∈ ready → entry ∉ round.removedBefore →
    entry ∉ round.removedOwn → round.events.count entry = 1
  own : ∀ entry ∈ round.removedOwn, round.events.count entry = 1
  twice : ∀ entry, round.events.count entry ≤ 1

/-- No entry of the ready set that is still in the table has been moved past the
index. -/
def NoneMoved (ready : List Int) (round : DispatchRound) : Prop :=
  ∀ entry ∈ round.moved, entry.mFd ∈ ready → entry ∉ round.table

instance (ready : List Int) (round : DispatchRound) : Decidable (round.NoneMoved ready) :=
  inferInstanceAs (Decidable (∀ entry ∈ round.moved, entry.mFd ∈ ready → entry ∉ round.table))

/-! ## What the changes do to the positions -/

/-- The test of the ready set for an entry. -/
def wanted (ready : List Int) (entry : Descriptor) : Bool := entry.mFd ∈ ready

variable {ready : List Int}

theorem shifts_apply {table : List Descriptor} (once : (table.filter (wanted ready)).Nodup)
    {edit : TableEdit} (allowed : edit.Allowed ready) :
    IndexWalk.Shifts (wanted ready) table (edit.apply table) := by
  cases edit with
  | remove fd =>
      rw [TableEdit.apply, Sockets.removeDescriptor]
      split
      · exact .eraseIdx once _
      · exact .refl table
  | append entry => exact .append (decide_eq_false allowed)

theorem shifts_applyAll {table : List Descriptor} (once : (table.filter (wanted ready)).Nodup)
    {edits : List TableEdit} (allowed : ∀ edit ∈ edits, edit.Allowed ready) :
    IndexWalk.Shifts (wanted ready) table (TableEdit.applyAll table edits) := by
  induction edits generalizing table with
  | nil => exact .refl table
  | cons edit rest ih =>
      rw [List.forall_mem_cons] at allowed
      have first := shifts_apply once allowed.1
      exact first.trans (ih (first.sublist.nodup once) allowed.2)

/-! ## One pass -/

/-- A pass is over an entry that is not in the ready set, or the turn of one that is. -/
theorem step_cases {round next : DispatchRound} {action : Action}
    (taken : (machine ready).step round action = some next) :
    (∃ entry, round.table[round.i]? = some entry ∧ entry.mFd ∉ ready ∧ action = .skip ∧
        next = { round with i := round.i + 1 }) ∨
      ∃ entry edits, round.table[round.i]? = some entry ∧ entry.mFd ∈ ready ∧
        action = .event edits ∧ (∀ edit ∈ edits, edit.Allowed ready) ∧
        next = round.dispatch entry edits := by
  change step ready round action = some next at taken
  cases action with
  | skip =>
      obtain ⟨entry, here, taken⟩ := Option.bind_eq_some_iff.mp taken
      rw [Option.ite_none_left_eq_some] at taken
      obtain ⟨unready, same⟩ := taken
      cases same
      exact Or.inl ⟨entry, here, unready, rfl, rfl⟩
  | event edits =>
      obtain ⟨entry, here, taken⟩ := Option.bind_eq_some_iff.mp taken
      rw [Option.ite_none_right_eq_some] at taken
      obtain ⟨⟨isReady, allowed⟩, same⟩ := taken
      cases same
      exact Or.inr ⟨entry, edits, here, isReady, rfl, allowed, rfl⟩

/-- Where the entries of the ready set are, and which of them have had their event. -/
structure Placed (ready : List Int) (start : List Descriptor) (round : DispatchRound) : Prop where
  table : (round.table.filter (wanted ready)).Sublist start
  events : round.events.Nodup
  passed : ∀ entry ∈ round.events, entry.mFd ∈ ready ∧
    (entry ∈ round.table → entry ∈ round.table.take round.i)
  moved : ∀ entry ∈ round.moved, entry.mFd ∈ ready → entry ∉ round.events ∧
    (entry ∈ round.table → entry ∈ round.table.take round.i)
  behind : ∀ entry ∈ round.table.take round.i, entry.mFd ∈ ready →
    entry ∈ round.events ∨ entry ∈ round.moved
  kept : ∀ entry ∈ start, entry.mFd ∈ ready →
    entry ∈ round.table ∨ entry ∈ round.events ∨ entry ∈ round.removedBefore
  own : ∀ entry ∈ round.removedOwn, entry ∈ round.events
  before : ∀ entry ∈ round.removedBefore, entry.mFd ∈ ready → entry ∉ round.table

theorem placed_start (ready : List Int) (table : List Descriptor) :
    Placed ready table (start table) where
  table := List.filter_sublist
  events := List.nodup_nil
  passed _ impossible := absurd impossible List.not_mem_nil
  moved _ impossible := absurd impossible List.not_mem_nil
  behind _ impossible := absurd impossible List.not_mem_nil
  kept _ listed _ := Or.inl listed
  own _ impossible := absurd impossible List.not_mem_nil
  before _ impossible := absurd impossible List.not_mem_nil

section Passes

variable {table : List Descriptor} {round next : DispatchRound} {action : Action}
  {entry : Descriptor}

theorem Placed.once (placed : Placed ready table round) (distinct : table.Nodup) :
    (round.table.filter (wanted ready)).Nodup :=
  placed.table.nodup distinct

/-- An entry that is not in the ready set is passed over. -/
theorem Placed.skip (placed : Placed ready table round) (here : round.table[round.i]? = some entry)
    (unready : entry.mFd ∉ ready) : Placed ready table { round with i := round.i + 1 } where
  table := placed.table
  events := placed.events
  passed other event := by
    obtain ⟨isReady, place⟩ := placed.passed other event
    exact ⟨isReady, fun left => (IndexWalk.mem_take_succ here).mpr (Or.inl (place left))⟩
  moved other moved isReady := by
    obtain ⟨uncalled, place⟩ := placed.moved other moved isReady
    exact ⟨uncalled, fun left => (IndexWalk.mem_take_succ here).mpr (Or.inl (place left))⟩
  behind other early isReady := by
    rcases (IndexWalk.mem_take_succ here).mp early with earlier | rfl
    · exact placed.behind other earlier isReady
    · exact absurd isReady unready
  kept := placed.kept
  own := placed.own
  before := placed.before

/-- The turn of an entry that is in the ready set. -/
theorem Placed.dispatch (placed : Placed ready table round) (distinct : table.Nodup)
    (here : round.table[round.i]? = some entry) (isReady : entry.mFd ∈ ready)
    {edits : List TableEdit} (allowed : ∀ edit ∈ edits, edit.Allowed ready) :
    Placed ready table (round.dispatch entry edits) := by
  have once := placed.once distinct
  have shifts := shifts_applyAll once allowed
  have picked : ∀ {other : Descriptor}, other.mFd ∈ ready → wanted ready other = true :=
    fun isReady => decide_eq_true isReady
  have notEarlier := IndexWalk.not_mem_take once (picked isReady) here
  have listed : entry ∈ round.table := List.mem_of_getElem? here
  -- What stood at the index or before it stands so after the edits.
  have forward : ∀ {other : Descriptor}, other.mFd ∈ ready →
      (other ∈ round.table → other ∈ round.table.take (round.i + 1)) →
      other ∈ TableEdit.applyAll round.table edits →
      other ∈ (TableEdit.applyAll round.table edits).take (round.i + 1) := by
    intro other ready' early left
    exact shifts.back other _ (picked ready') (early (shifts.mem (picked ready') left)) left
  have stands : ∀ {other : Descriptor}, other ∈ round.table.take (round.i + 1) ↔
      other ∈ round.table.take round.i ∨ other = entry := IndexWalk.mem_take_succ here
  have uncalled : entry ∉ round.events := fun event =>
    notEarlier ((placed.passed entry event).2 listed)
  refine ⟨shifts.sublist.trans placed.table, ?_, fun other event => ?_,
    fun other moved ready' => ?_, fun other early ready' => ?_, fun other listed' ready' => ?_,
    fun other removed => ?_, fun other removed ready' left => ?_⟩
  · change (round.events ++ [entry]).Nodup
    rw [List.nodup_append]
    refine ⟨placed.events, List.nodup_singleton _, fun other event last member same => ?_⟩
    rw [same, List.mem_singleton.mp member] at event
    exact uncalled event
  · rcases List.mem_append.mp event with earlier | last
    · obtain ⟨ready', place⟩ := placed.passed other earlier
      exact ⟨ready', forward ready' fun listed' => stands.mpr (Or.inl (place listed'))⟩
    · rw [List.mem_singleton.mp last]
      exact ⟨isReady, forward isReady fun _ => stands.mpr (Or.inr rfl)⟩
  · rcases List.mem_append.mp moved with earlier | now
    · obtain ⟨other_uncalled, place⟩ := placed.moved other earlier ready'
      refine ⟨fun event => ?_, forward ready' fun listed' => stands.mpr (Or.inl (place listed'))⟩
      rcases List.mem_append.mp event with event | last
      · exact other_uncalled event
      · rw [List.mem_singleton.mp last] at place
        exact notEarlier (place listed)
    · obtain ⟨early, late⟩ := List.mem_filter.mp now
      have behind : other ∈ round.table.drop (round.i + 1) := of_decide_eq_true late
      refine ⟨fun event => ?_, fun _ => early⟩
      rcases List.mem_append.mp event with event | last
      · have place := (placed.passed other event).2 (List.mem_of_mem_drop behind)
        exact IndexWalk.not_mem_drop once (picked ready') (stands.mpr (Or.inl place)) behind
      · rw [List.mem_singleton.mp last] at behind
        exact IndexWalk.not_mem_drop_succ once (picked isReady) here behind
  · have listed' := shifts.mem (picked ready') (List.mem_of_mem_take early)
    rcases (IndexWalk.mem_iff here).mp listed' with place | rfl | late
    · exact (placed.behind other place ready').imp (List.mem_append_left _)
        (List.mem_append_left _)
    · exact Or.inl (List.mem_append_right _ List.mem_cons_self)
    · exact Or.inr (List.mem_append_right _ (List.mem_filter.mpr ⟨early, decide_eq_true late⟩))
  · rcases placed.kept other listed' ready' with there | event | gone
    · by_cases left : other ∈ TableEdit.applyAll round.table edits
      · exact Or.inl left
      · by_cases mine : other = entry
        · exact Or.inr (Or.inl (List.mem_append_right _ (List.mem_singleton.mpr mine)))
        · by_cases event : other ∈ round.events
          · exact Or.inr (Or.inl (List.mem_append_left _ event))
          · exact Or.inr (Or.inr (List.mem_append_right _
              (List.mem_filter.mpr ⟨there, decide_eq_true ⟨left, mine, event⟩⟩)))
    · exact Or.inr (Or.inl (List.mem_append_left _ event))
    · exact Or.inr (Or.inr (List.mem_append_left _ gone))
  · rcases List.mem_append.mp removed with earlier | now
    · exact List.mem_append_left _ (placed.own other earlier)
    · apply List.mem_append_right
      split_ifs at now
      · exact absurd now List.not_mem_nil
      · exact now
  · rcases List.mem_append.mp removed with earlier | now
    · exact placed.before other earlier ready' (shifts.mem (picked ready') left)
    · exact (of_decide_eq_true (List.mem_filter.mp now).2).1 left

theorem Placed.step (placed : Placed ready table round) (distinct : table.Nodup)
    (taken : (machine ready).step round action = some next) : Placed ready table next := by
  rcases step_cases taken with ⟨entry, here, unready, _, rfl⟩ |
    ⟨entry, edits, here, isReady, _, allowed, rfl⟩
  · exact placed.skip here unready
  · exact placed.dispatch distinct here isReady allowed

theorem Placed.run (distinct : table.Nodup) {actions : List Action}
    (ran : (machine ready).run (start table) actions = some round) : Placed ready table round := by
  apply (machine ready).run_invariant (Placed ready table) _ (placed_start ready table)
    ((machine ready).steps_true _ _) ran
  intro round action next placed _
  exact placed.step distinct

/-- At the end of a round it has done what it is for exactly when it has moved no
entry of the ready set that is still there past the index. -/
theorem Placed.served_iff (placed : Placed ready table round) (ended : round.Over) :
    Served ready table round ↔ round.NoneMoved ready := by
  have whole : round.table.take round.i = round.table := List.take_of_length_le ended
  constructor
  · intro served entry moved isReady left
    obtain ⟨uncalled, _⟩ := placed.moved entry moved isReady
    have listed : entry ∈ table :=
      placed.table.subset (List.mem_filter.mpr ⟨left, decide_eq_true isReady⟩)
    have once := served.once entry listed isReady
      (fun gone => placed.before entry gone isReady left)
      (fun gone => uncalled (placed.own entry gone))
    rw [List.count_eq_zero.mpr uncalled] at once
    cases once
  · intro none_moved
    refine ⟨fun entry listed isReady stays _ => ?_, fun entry own => ?_, fun entry => ?_⟩
    · apply List.count_eq_one_of_mem placed.events
      rcases placed.kept entry listed isReady with left | event | gone
      · rcases placed.behind entry (whole.symm ▸ left) isReady with event | moved
        · exact event
        · exact absurd left (none_moved entry moved isReady)
      · exact event
      · exact absurd gone stays
    · exact List.count_eq_one_of_mem placed.events (placed.own entry own)
    · exact List.nodup_iff_count_le_one.mp placed.events entry

end Passes

/-! ## The end of a round -/

section Ending

variable {table : List Descriptor} {round : DispatchRound} {actions : List Action}

/-- The entries that a pass appends. -/
def appends : Action → Nat
  | .skip => 0
  | .event edits => edits.countP fun edit => match edit with
      | .append _ => true
      | .remove _ => false

theorem length_applyAll_le (table : List Descriptor) (edits : List TableEdit) :
    (TableEdit.applyAll table edits).length ≤ table.length + appends (.event edits) := by
  induction edits generalizing table with
  | nil => exact le_rfl
  | cons edit rest ih =>
      refine (ih (edit.apply table)).trans ?_
      cases edit with
      | remove fd =>
          have shorter : (TableEdit.apply table (.remove fd)).length ≤ table.length := by
            rw [TableEdit.apply_remove]
            exact Keyed.erase_sublist.length_le
          simp only [appends, List.countP_cons, Bool.false_eq_true, if_false]
          omega
      | append entry =>
          simp only [appends, TableEdit.apply, List.countP_cons, if_true, List.length_append,
            List.length_singleton]
          omega

/-- The loop goes on as long as it is not over, -/
theorem progress (more : ¬ round.Over) :
    ∃ action next, (machine ready).step round action = some next := by
  obtain ⟨entry, here⟩ : ∃ entry, round.table[round.i]? = some entry :=
    ⟨_, List.getElem?_eq_getElem (not_le.mp more)⟩
  by_cases isReady : entry.mFd ∈ ready
  · refine ⟨.event [], round.dispatch entry [], ?_⟩
    change round.table[round.i]?.bind _ = _
    rw [here, Option.bind_some, if_pos ⟨isReady, fun _ impossible =>
      absurd impossible List.not_mem_nil⟩]
  · refine ⟨.skip, { round with i := round.i + 1 }, ?_⟩
    change round.table[round.i]?.bind _ = _
    rw [here, Option.bind_some, if_neg isReady]

/-- and it makes one pass for each entry at most. -/
theorem length_le (ran : (machine ready).run (start table) actions = some round) :
    actions.length ≤ table.length + (actions.map appends).sum := by
  have counted : round.i = actions.length ∧
      round.table.length ≤ table.length + (actions.map appends).sum ∧
      actions.length ≤ table.length + (actions.map appends).sum := by
    apply (machine ready).run_history
      (fun actions round => round.i = actions.length ∧
        round.table.length ≤ table.length + (actions.map appends).sum ∧
        actions.length ≤ table.length + (actions.map appends).sum)
      _ ⟨rfl, le_rfl, Nat.zero_le _⟩ ((machine ready).steps_true _ _) ran
    rintro earlier round action next ⟨index, bounded, _⟩ _ taken
    rw [List.length_append, List.length_singleton, List.map_append, List.sum_append,
      List.map_singleton, List.sum_singleton]
    rcases step_cases taken with ⟨entry, here, _, rfl, rfl⟩ | ⟨entry, edits, here, _, rfl, _, rfl⟩
    · have inside := (List.getElem?_eq_some_iff.mp here).1
      refine ⟨congrArg Nat.succ index, ?_, ?_⟩ <;> simp only [appends] <;> omega
    · have inside := (List.getElem?_eq_some_iff.mp here).1
      have longer := length_applyAll_le round.table edits
      refine ⟨congrArg Nat.succ index, ?_, by omega⟩
      change (TableEdit.applyAll round.table edits).length ≤ _
      omega
  exact counted.2.2

/-- In every round, whatever the handling of its events removes and appends,
`descriptorEvent` is called as it should be exactly when no entry of the ready
set that is still there has been moved past the index. -/
theorem served_iff_noneMoved (distinct : table.Nodup)
    (ran : (machine ready).run (start table) actions = some round) (ended : round.Over) :
    Served ready table round ↔ round.NoneMoved ready :=
  (Placed.run distinct ran).served_iff ended

/-- Two clients, and an event of the first that removes nothing. -/
theorem served_iff_noneMoved_pair :
    ∃ round, (machine [4, 5]).run (start [⟨3, none⟩, ⟨4, some 0⟩, ⟨5, some 1⟩])
        [.skip, .event [], .event [.remove 5]] = some round ∧
      (Served [4, 5] [⟨3, none⟩, ⟨4, some 0⟩, ⟨5, some 1⟩] round ↔ round.NoneMoved [4, 5]) := by
  obtain ⟨round, ran, ended⟩ : ∃ round,
      (machine [4, 5]).run (start [⟨3, none⟩, ⟨4, some 0⟩, ⟨5, some 1⟩])
        [.skip, .event [], .event [.remove 5]] = some round ∧ round.Over := ⟨_, rfl, by decide⟩
  exact ⟨round, ran, served_iff_noneMoved (by decide) ran ended⟩

/-- The first client is removed in its own turn, as at the end of its stream, and
the second, which is ready as well, is passed over. -/
theorem ready_passed_over :
    ∃ round, (machine [4, 5]).run (start [⟨3, none⟩, ⟨4, some 0⟩, ⟨5, some 1⟩])
        [.skip, .event [.remove 4]] = some round ∧ round.Over ∧
      round.table = [⟨3, none⟩, ⟨5, some 1⟩] ∧ round.events = [⟨4, some 0⟩] ∧
      ¬ Served [4, 5] [⟨3, none⟩, ⟨4, some 0⟩, ⟨5, some 1⟩] round := by
  refine ⟨_, rfl, by decide, rfl, rfl, fun served => ?_⟩
  cases served.once ⟨5, some 1⟩ (by decide) (by decide) (by decide) (by decide)

end Ending

/-! ## The events of a ServerListener -/

/-- What is left of an event removes one entry or none. -/
theorem afterHandler_edits (listening : Listening) (result : MSrvResult) (resume : Resume) :
    ∃ edits, (listening.afterHandler List.eraseIdx result resume).server.sockets.mDescriptors =
      TableEdit.applyAll listening.server.sockets.mDescriptors edits := by
  obtain ⟨_, ⟨_, same⟩ | ⟨ready, i, fd, _, removed⟩⟩ :=
    listening.afterHandler_cases List.eraseIdx result resume
  · exact ⟨[], congrArg Sockets.mDescriptors same⟩
  · refine ⟨[.remove fd], ?_⟩
    rw [removed, Sockets.removeDescriptor_eraseIdx]
    exact (TableEdit.apply_remove _ fd).symm

/-- Every step of the listener changes the table by such edits. -/
theorem table_edits {listening next : Listening} {action : Listening.Action}
    (step : Listening.Step List.eraseIdx listening action next) :
    ∃ edits, next.server.sockets.mDescriptors =
      TableEdit.applyAll listening.server.sockets.mDescriptors edits := by
  cases step with
  | quiet _ _ sockets => exact ⟨[], congrArg Sockets.mDescriptors sockets⟩
  | startShutdown => exact ⟨[], rfl⟩
  | timeout | streamData | datagram | connectionLost => exact ⟨[], rfl⟩
  | @connected _ _ clientsocket =>
      exact ⟨[.append ⟨clientsocket, some listening.server.sockets.created⟩], rfl⟩
  | @newConnection _ _ _ clientsocket =>
      exact ⟨[.append ⟨clientsocket, some listening.server.sockets.created⟩], rfl⟩
  | @dropped ready i entry =>
      exact afterHandler_edits listening 0 (.dispatch ready i entry.mFd true)
  | @returned request resume result => exact afterHandler_edits listening result resume

end DispatchRound

end MSrv
