import MagicServer.Pooled.Server
import MagicServer.Server.Dispatch
import MagicServer.Server.Masks

/-!
# The set of watched descriptors

The `fd_set` that `listen()` builds from its table, an `Array` with the defect of
its `remove`. A number outside the set is no argument for `FD_SET`, which then
writes somewhere else.
-/

namespace MSrv

/-- How many descriptor numbers an `fd_set` has room for. -/
def FD_SETSIZE : Nat := 1024

/-- `fd_set`: one bit for each number. -/
abbrev FdSet := BitVec FD_SETSIZE

/-- The numbers for which `FD_SET` and `FD_ISSET` are defined. -/
def Settable (fd : Int) : Prop := 0 ≤ fd ∧ fd < FD_SETSIZE

instance : DecidablePred Settable := fun _ => instDecidableAnd

/-- Empties the set. -/
def FD_ZERO : FdSet := 0

def FD_SET (fd : Int) (fdset : FdSet) : Option FdSet :=
  if Settable fd then some (fdset ||| BitVec.twoPow FD_SETSIZE fd.toNat) else none

def FD_ISSET (fd : Int) (fdset : FdSet) : Option Bool :=
  if Settable fd then some (fdset.getLsbD fd.toNat) else none

theorem FD_ISSET_FD_ZERO (fd : Int) : FD_ISSET fd FD_ZERO ≠ some true := by
  unfold FD_ISSET FD_ZERO
  split_ifs
  · rw [BitVec.ofNat_eq_ofNat, BitVec.getLsbD_zero]
    nofun
  · nofun

/-- `FD_SET` puts one number into the set. -/
theorem FD_ISSET_FD_SET {fd other : Int} {before after : FdSet}
    (set : FD_SET fd before = some after) :
    FD_ISSET other after = some true ↔ FD_ISSET other before = some true ∨ other = fd := by
  obtain ⟨settable, rfl⟩ := Option.ite_some_none_eq_some.mp set
  unfold FD_ISSET
  by_cases inside : Settable other
  · have same : fd.toNat = other.toNat ↔ other = fd := by
      unfold Settable at settable inside
      omega
    have below : fd.toNat < FD_SETSIZE := by
      unfold Settable at settable
      omega
    simp only [if_pos inside, Option.some_inj, BitVec.getLsbD_or, BitVec.getLsbD_twoPow,
      Bool.or_eq_true, Bool.and_eq_true, decide_eq_true_eq, below, true_and, same]
  · have different : other ≠ fd := by
      rintro rfl
      exact inside settable
    simp only [if_neg inside, reduceCtorEq, different, or_self]

/-! ## The loop that builds the set -/

/-- One pass: puts the descriptor at position `i` into the set and tracks the
highest one. -/
def watchPass (mDescriptors : Array Descriptor) (built : FdSet × Int) (i : Nat) :
    Option (FdSet × Int) := do
  let (fdset, maxfd) := built
  let descriptor ← mDescriptors.get i
  let fdset ← FD_SET descriptor.mFd fdset
  some (fdset, if descriptor.mFd > maxfd then descriptor.mFd else maxfd)

/-- Puts all watched descriptors to the descriptor set: the set and `maxfd`. -/
def watchAll (mDescriptors : Array Descriptor) : Option (FdSet × Int) :=
  (List.range mDescriptors.length.toNat).foldlM (watchPass mDescriptors) (FD_ZERO, 0)

/-- A set that contains exactly the descriptors of these entries, and a number
that none of them exceeds. -/
structure Built (entries : List Descriptor) (built : FdSet × Int) : Prop where
  set : ∀ fd, FD_ISSET fd built.1 = some true ↔ ∃ entry ∈ entries, entry.mFd = fd
  highest : ∀ entry ∈ entries, entry.mFd ≤ built.2

theorem built_nil : Built [] (FD_ZERO, 0) where
  set fd := by
    refine iff_of_false (FD_ISSET_FD_ZERO fd) ?_
    rintro ⟨entry, member, _⟩
    exact absurd member List.not_mem_nil
  highest _ member := absurd member List.not_mem_nil

section Passes

variable {mDescriptors : Array Descriptor} {before after table : List Descriptor}
  {entry : Descriptor} {built : FdSet × Int}

/-- What a position of the array shows. -/
theorem Array.Shows.get_append (shows : mDescriptors.Shows (before ++ entry :: after)) :
    mDescriptors.get before.length = some entry := by
  rw [shows.2 before.length (by simp), List.getElem_append_right (le_refl _)]
  simp

/-- A pass over an entry. -/
theorem Built.pass (holds : Built before built)
    (here : mDescriptors.get before.length = some entry) (settable : Settable entry.mFd) :
    ∃ next, watchPass mDescriptors built before.length = some next ∧
      Built (before ++ [entry]) next := by
  obtain ⟨fdset, maxfd⟩ := built
  obtain ⟨set, put⟩ : ∃ set, FD_SET entry.mFd fdset = some set := ⟨_, if_pos settable⟩
  refine ⟨(set, if entry.mFd > maxfd then entry.mFd else maxfd), ?_, ?_, ?_⟩
  · simp only [watchPass, here, put, Option.bind_eq_bind, Option.bind_some]
  · intro fd
    rw [FD_ISSET_FD_SET put, holds.set fd]
    constructor
    · rintro (⟨other, member, same⟩ | rfl)
      · exact ⟨other, List.mem_append_left _ member, same⟩
      · exact ⟨entry, List.mem_append_right _ List.mem_cons_self, rfl⟩
    · rintro ⟨other, member, same⟩
      rcases List.mem_append.mp member with earlier | new
      · exact Or.inl ⟨other, earlier, same⟩
      · rw [List.mem_singleton.mp new] at same
        exact Or.inr same.symm
  · intro other member
    have highest := holds.highest
    dsimp only at highest ⊢
    rcases List.mem_append.mp member with earlier | new
    · have low := highest other earlier
      split <;> omega
    · rw [List.mem_singleton.mp new]
      split <;> omega

/-- The loop over the entries that are left. -/
theorem Built.passes (holds : Built before built) (shows : mDescriptors.Shows (before ++ after))
    (settable : ∀ entry ∈ after, Settable entry.mFd) :
    ∃ final, (List.range' before.length after.length).foldlM (watchPass mDescriptors) built =
        some final ∧ Built (before ++ after) final := by
  induction after generalizing before built with
  | nil =>
      rw [List.append_nil]
      exact ⟨built, rfl, holds⟩
  | cons entry after ih =>
      obtain ⟨here, later⟩ := List.forall_mem_cons.mp settable
      obtain ⟨next, passed, holds⟩ := holds.pass shows.get_append here
      rw [List.append_cons] at shows ⊢
      obtain ⟨final, rest, holds⟩ := ih holds shows later
      refine ⟨final, ?_, holds⟩
      rw [List.length_append, List.length_singleton] at rest
      rw [List.length_cons, List.range'_succ, List.foldlM_cons, passed, Option.bind_eq_bind,
        Option.bind_some]
      exact rest

end Passes

/-- The array shows the entries of the table, each of them may be put into the
set, and the set built from it contains exactly their descriptors, which are all
below the `nfds` that `select()` is given. -/
structure Watched (mDescriptors : Array Descriptor) (table : List Descriptor) : Prop where
  shows : mDescriptors.Shows table
  settable : ∀ entry ∈ table, Settable entry.mFd
  built : ∃ fdset maxfd, watchAll mDescriptors = some (fdset, maxfd) ∧
    (∀ fd, FD_ISSET fd fdset = some true ↔ ∃ entry ∈ table, entry.mFd = fd) ∧
    ∀ entry ∈ table, entry.mFd < maxfd + 1

/-- The loop builds such a set from every table whose descriptors may be put into one. -/
theorem watched_of_shows {mDescriptors : Array Descriptor} {table : List Descriptor}
    (shows : mDescriptors.Shows table) (settable : ∀ entry ∈ table, Settable entry.mFd) :
    Watched mDescriptors table where
  shows := shows
  settable := settable
  built := by
    obtain ⟨⟨fdset, maxfd⟩, built, holds⟩ := built_nil.passes shows settable
    refine ⟨fdset, maxfd, ?_, holds.set, fun entry member => ?_⟩
    · rw [watchAll, shows.1, Int.toNat_natCast, List.range_eq_range']
      exact built
    · exact Int.lt_add_one_of_le (holds.highest entry member)

/-! ## The table under the edits of a listener -/

namespace Array

/-- The search of `removeDescriptor` from the given positions on. It has no
result when it reads a slot in which nothing has been written. -/
def findDescriptor (mDescriptors : Array Descriptor) (fd : Int) : List Nat → Option (Option Nat)
  | [] => some none
  | i :: rest => do
      let descriptor ← mDescriptors.get i
      if descriptor.mFd = fd then some (some i) else mDescriptors.findDescriptor fd rest

/-- `Listener::removeDescriptor` on the array. -/
def removeDescriptor (mDescriptors : Array Descriptor) (fd : Int) :
    Option (MSrvResult × Array Descriptor) := do
  match ← mDescriptors.findDescriptor fd (List.range mDescriptors.length.toNat) with
  | some i => do
      let (_, mDescriptors) ← mDescriptors.remove i
      some (0, mDescriptors)
  | none => some (MSRVERR_DESCRIPTOR_NOT_FOUND, mDescriptors)

variable {mDescriptors : Array Descriptor} {before after table : List Descriptor} {fd : Int}

/-- The search finds the first entry with the number. -/
theorem Shows.findDescriptor (shows : mDescriptors.Shows (before ++ after)) (fd : Int) :
    mDescriptors.findDescriptor fd (List.range' before.length after.length) =
      some ((after.findIdx? fun descriptor => descriptor.mFd = fd).map (before.length + ·)) := by
  induction after generalizing before with
  | nil => rfl
  | cons entry after ih =>
      have here := shows.get_append
      rw [List.append_cons] at shows
      have rest := ih shows
      rw [List.length_append, List.length_singleton] at rest
      rw [List.length_cons, List.range'_succ, Array.findDescriptor, here, Option.bind_eq_bind,
        Option.bind_some, List.findIdx?_cons]
      by_cases found : entry.mFd = fd
      · simp only [found, if_true, decide_true, Option.map_some, Nat.add_zero]
      · simp only [found, if_false, decide_false, Bool.false_eq_true, rest, Option.map_map]
        congr 2
        funext i
        simp only [Function.comp_apply]
        omega

/-- `removeDescriptor` on an array that keeps the other entries is
`removeDescriptor` on the list. -/
theorem Holds.removeDescriptor {sockets : Sockets} (holds : mDescriptors.Holds sockets.mDescriptors)
    (keeps : sockets.KeepsOthers fd) :
    ∃ next, mDescriptors.removeDescriptor fd =
        some ((sockets.removeDescriptor List.eraseIdx fd).1, next) ∧
      next.Holds (sockets.removeDescriptor List.eraseIdx fd).2.mDescriptors := by
  have search := Shows.findDescriptor (show mDescriptors.Shows ([] ++ _) from holds.shows) fd
  rw [List.length_nil, ← List.range_eq_range', ← Int.toNat_natCast sockets.mDescriptors.length,
    ← holds.shows.1] at search
  unfold Array.removeDescriptor Sockets.removeDescriptor
  rw [search]
  cases found : sockets.mDescriptors.findIdx? fun descriptor => descriptor.mFd = fd with
  | none => exact ⟨mDescriptors, rfl, holds⟩
  | some i =>
      obtain ⟨inside, _⟩ := List.findIdx?_eq_some_iff_getElem.mp found
      obtain ⟨next, removed, holds⟩ := holds.remove inside (keeps i found)
      refine ⟨next, ?_, holds⟩
      simp only [Option.bind_eq_bind, Option.bind_some, Option.map_some, Nat.zero_add, removed]

end Array

namespace TableEdit

/-- The call of the array that makes the change. -/
def perform (mDescriptors : Array Descriptor) : TableEdit → Option (Array Descriptor)
  | .remove fd => (mDescriptors.removeDescriptor fd).map Prod.snd
  | .append entry => (mDescriptors.add entry).map Prod.snd

/-- A descriptor is appended whose number an `fd_set` has room for, while the
count stays in the range of `int`; a removal keeps the other entries. -/
def Fits (table : List Descriptor) : TableEdit → Prop
  | .remove fd => { Sockets.empty with mDescriptors := table }.KeepsOthers fd
  | .append entry => entry.mFd < FD_SETSIZE ∧ (table.length : Int) < INT_MAX

instance (table : List Descriptor) : (edit : TableEdit) → Decidable (edit.Fits table)
  | .remove fd => inferInstanceAs (Decidable (Sockets.KeepsOthers _ fd))
  | .append _ => inferInstanceAs (Decidable (_ ∧ _))

/-- A change that fits is made to the array as it is to the list. -/
theorem Fits.perform {mDescriptors : Array Descriptor} {table : List Descriptor}
    {edit : TableEdit} (fits : edit.Fits table) (holds : mDescriptors.Holds table) :
    ∃ next, edit.perform mDescriptors = some next ∧ next.Holds (edit.apply table) := by
  cases edit with
  | remove fd =>
      have watched : mDescriptors.Holds
        { Sockets.empty with mDescriptors := table }.mDescriptors := holds
      obtain ⟨next, removed, holds⟩ := watched.removeDescriptor fits
      exact ⟨next, by rw [TableEdit.perform, removed, Option.map_some], holds⟩
  | append entry =>
      obtain ⟨next, added, holds⟩ := holds.add fits.2 entry
      exact ⟨next, by rw [TableEdit.perform, added, Option.map_some], holds⟩

end TableEdit

namespace Listening

/-- The table of the listener. -/
def table (listening : Listening) : List Descriptor := listening.server.sockets.mDescriptors

/-- The change that a step of `listen()` makes to the table. -/
def edit? (listening : Listening) : Action → Option TableEdit
  | .event (.accepted clientsocket) =>
      if clientsocket < 0 then none
      else some (.append ⟨clientsocket, some listening.server.sockets.created⟩)
  | action => (listening.removes action).map .remove

variable {listening next : Listening} {action : Action}

/-- The end of an event in which a stream has been lost. -/
theorem afterEvent_table (listening : Listening) (ready : List Int) (i : Nat) (fd : Int) :
    (listening.afterEvent List.eraseIdx ready i fd true).table =
      TableEdit.apply listening.table (.remove fd) := by
  rw [TableEdit.apply_remove]
  exact Sockets.removeDescriptor_eraseIdx

theorem pass_timeout_table (listening : Listening) :
    (listening.pass List.eraseIdx .timeout listening.server.timeoutEvent).table =
      listening.table := by
  unfold ServerListener.timeoutEvent ServerListener.generate
  split
  · rfl
  · exact congrArg Sockets.mDescriptors (listening.afterTimeout_quiet 0).2.1

theorem edit?_accepted (listening : Listening) (clientsocket : Int) :
    listening.edit? (.event (.accepted clientsocket)) =
      if clientsocket < 0 then none
      else some (.append ⟨clientsocket, some listening.server.sockets.created⟩) := rfl

theorem edit?_reads (listening : Listening) (results : List ReadResult) :
    listening.edit? (.event (.reads results)) =
      (listening.removes (.event (.reads results))).map .remove := rfl

/-- The change at the return of the handler. -/
theorem edit?_returned (listening : Listening) (result : MSrvResult) :
    listening.edit? (.returned result) = listening.removal?.map .remove := rfl

/-- Reads that do not find the end of the stream change nothing. -/
theorem edit?_reads_of_ended {results : List ReadResult} {dynbuffer : List UInt8}
    {readcount : Int} (ended : ServerListener.readLoop [] results = some (dynbuffer, readcount))
    (unfinished : ¬ (dynbuffer = [] ∧ readcount = 0)) :
    listening.edit? (.event (.reads results)) = none := by
  rw [edit?_reads]
  cases removed : listening.removes (.event (.reads results)) with
  | none => rfl
  | some fd =>
      unfold removes at removed
      split at removed
      · next same => cases same
      · next same =>
          cases same
          cases ended
          exact absurd ⟨rfl, rfl⟩ unfinished
      · cases removed

/-- The change at the end of a stream, when no request is made for it. -/
theorem edit?_end {ready : List Int} {i : Nat} {entry : Descriptor}
    (here : listening.pc = .dispatching ready i)
    (listed : listening.server.sockets.mDescriptors[i]? = some entry) :
    listening.edit? (.event (.reads [.block []])) =
      if listening.server.generates .connectionLost then none else some (.remove entry.mFd) := by
  simp only [edit?_reads, removes, here, listed, Option.map_some]
  split <;> rfl

/-- An event adds the entry of an accepted client, or removes that of a lost
stream for which no request is made. -/
theorem event_table {ready : List Int} {i : Nat} {entry : Descriptor} {input : EventInput}
    {arrived : Option Request × ServerListener} {lost : Bool}
    (here : listening.pc = .dispatching ready i)
    (listed : listening.server.sockets.mDescriptors[i]? = some entry)
    (event : listening.server.descriptorEvent entry.mFd entry.mpData input = some (arrived, lost)) :
    (listening.pass List.eraseIdx (.dispatch ready i entry.mFd lost) arrived).table =
      (listening.edit? (.event input)).elim listening.table (TableEdit.apply listening.table) := by
  cases ServerListener.arrival_of_event event with
  | refused _ negative =>
      rw [edit?_accepted, if_pos negative]
      rfl
  | accepted _ nonneg =>
      rw [edit?_accepted, if_neg (not_lt.mpr nonneg)]
      unfold ServerListener.generate
      split <;> rfl
  | streamData _ _ ended some_data | datagram _ ended some_data =>
      rw [edit?_reads_of_ended ended fun none => some_data none.1]
      unfold ServerListener.generate
      split <;> rfl
  | failed _ ended unfinished =>
      rw [edit?_reads_of_ended ended fun none => unfinished none.2]
      rfl
  | connectionLost _ ended =>
      cases ServerListener.ended_at_once ended
      rw [edit?_end here listed]
      unfold ServerListener.generate
      split
      · rfl
      · exact afterEvent_table listening ready i entry.mFd

/-- What is left of the handling of a request. -/
theorem afterHandler_table {request : Request} {resume : Resume} (result : MSrvResult)
    (here : listening.pc = .handling request resume) :
    (listening.afterHandler List.eraseIdx result resume).table =
      (listening.edit? (.returned result)).elim listening.table
        (TableEdit.apply listening.table) := by
  rw [edit?_returned, removal?, here]
  cases resume with
  | timeout => exact congrArg Sockets.mDescriptors (listening.afterTimeout_quiet result).2.1
  | dispatch ready i fd lost =>
      cases lost with
      | false => rfl
      | true => exact afterEvent_table ..

/-- A step of `listen()` changes the table by its edit, if it has one. -/
theorem table_of_taken (taken : Taken List.eraseIdx listening action next) :
    next.table =
      (listening.edit? action).elim listening.table (TableEdit.apply listening.table) := by
  cases taken with
  | build | selectFailed | selectReady | skip | endDispatch | startShutdown => rfl
  | check =>
      simp only [table, go, shutDown]
      split_ifs <;> rfl
  | selectTimeout => exact pass_timeout_table ..
  | event here listed _ event => exact event_table here listed event
  | returned result here => exact afterHandler_table result here

/-- The number of a new entry is that of a client that has been accepted. -/
theorem nonneg_of_append {entry : Descriptor}
    (appends : listening.edit? action = some (.append entry)) : 0 ≤ entry.mFd := by
  have no_removal : ∀ fd : Option Int, fd.map TableEdit.remove ≠ some (.append entry) := by
    rintro (_ | fd) <;> nofun
  cases action with
  | event input =>
      cases input with
      | accepted clientsocket =>
          rw [edit?_accepted, Option.ite_none_left_eq_some] at appends
          obtain ⟨nonneg, new⟩ := appends
          cases new
          exact not_lt.mp nonneg
      | reads results =>
          rw [edit?_reads] at appends
          exact absurd appends (no_removal _)
  | returned result =>
      rw [edit?_returned] at appends
      exact absurd appends (no_removal _)
  | _ => cases appends

end Listening

/-! ## Whole runs -/

/-- A listener with the array that is its table. -/
structure Watching where
  /-- Its table lists the entries that have been added and not been removed. -/
  listening : Listening
  mDescriptors : Array Descriptor

namespace Watching

/-- `listen()` is called. -/
def start (server : ServerListener) (mDescriptors : Array Descriptor) : Watching where
  listening := .start server
  mDescriptors := mDescriptors

inductive Action where
  | listen (action : Listening.Action)
  /-- The handler, or another thread, calls `removeDescriptor()`. -/
  | removeDescriptor (fd : Int)
  /-- The handler, or another thread, changes the server in anything but its
  table, the server socket, the protocol and the mask. -/
  | others (server : ServerListener)

def table (watching : Watching) : List Descriptor := watching.listening.table

/-- The listener after a step. -/
def move (watching : Watching) : Action → Option Listening
  | .listen action => watching.listening.step List.eraseIdx action
  | .removeDescriptor fd =>
      let server := watching.listening.server
      some
        { watching.listening with
          server :=
            { server with sockets := (server.sockets.removeDescriptor List.eraseIdx fd).2 } }
  | .others server =>
      if server.sockets.mDescriptors = watching.table ∧
          server.config = watching.listening.server.config then
        some { watching.listening with server := server }
      else none

/-- The change that a step makes to the table. -/
def edit? (watching : Watching) : Action → Option TableEdit
  | .listen action => watching.listening.edit? action
  | .removeDescriptor fd => some (.remove fd)
  | .others _ => none

/-- One step. -/
def step (watching : Watching) (action : Action) : Option Watching :=
  (watching.move action).bind fun next =>
    ((watching.edit? action).elim (some watching.mDescriptors)
      (TableEdit.perform watching.mDescriptors)).map fun mDescriptors => ⟨next, mDescriptors⟩

/-- Every run of `listen()`, with removals by other threads and the handler. -/
def machine : Machine Watching Action where
  step := step

/-- The change that the step makes to the table, if it makes one, fits. -/
def Fits (watching : Watching) (action : Action) : Prop :=
  ∀ edit ∈ watching.edit? action, edit.Fits watching.table

instance (watching : Watching) (action : Action) : Decidable (watching.Fits action) :=
  inferInstanceAs (Decidable (∀ edit ∈ watching.edit? action, edit.Fits watching.table))

variable {watching next : Watching} {action : Action}

/-- The list is changed by the edit of a step, and by nothing else. -/
theorem table_of_move {listening : Listening} (moved : watching.move action = some listening) :
    listening.table =
      (watching.edit? action).elim watching.table (TableEdit.apply watching.table) := by
  cases action with
  | listen action => exact Listening.table_of_taken (Listening.taken_of_step moved)
  | removeDescriptor fd =>
      cases moved
      exact Sockets.removeDescriptor_eraseIdx.trans (TableEdit.apply_remove _ fd).symm
  | others server =>
      obtain ⟨⟨kept, _⟩, rfl⟩ := Option.ite_some_none_eq_some.mp moved
      exact kept

/-- The array holds the entries of the list, and a set has room for them. -/
structure Holds (watching : Watching) : Prop where
  array : watching.mDescriptors.Holds watching.table
  settable : ∀ entry ∈ watching.table, Settable entry.mFd

/-- An edit that fits appends no other number. -/
theorem Holds.settable_edit (holds : watching.Holds) (fits : watching.Fits action)
    {edit : TableEdit} (edits : watching.edit? action = some edit) :
    ∀ entry ∈ edit.apply watching.table, Settable entry.mFd := by
  have small := fits edit edits
  intro entry member
  cases edit with
  | remove fd =>
      rw [TableEdit.apply_remove] at member
      exact holds.settable entry (Keyed.erase_sublist.subset member)
  | append new =>
      rcases List.mem_append.mp member with earlier | last
      · exact holds.settable entry earlier
      · rw [List.mem_singleton.mp last]
        refine ⟨?_, small.1⟩
        cases action with
        | listen action => exact Listening.nonneg_of_append edits
        | removeDescriptor fd => cases edits
        | others server => cases edits

theorem Holds.step (holds : watching.Holds) (fits : watching.Fits action)
    (taken : machine.step watching action = some next) : next.Holds := by
  obtain ⟨listening, moved, rest⟩ := Option.bind_eq_some_iff.mp taken
  obtain ⟨mDescriptors, performed, rfl⟩ := Option.map_eq_some_iff.mp rest
  have table := table_of_move moved
  cases edits : watching.edit? action with
  | none =>
      rw [edits] at performed table
      cases performed
      constructor
      · change watching.mDescriptors.Holds listening.table
        rw [table]
        exact holds.array
      · change ∀ entry ∈ listening.table, _
        rw [table]
        exact holds.settable
  | some edit =>
      rw [edits] at performed table
      obtain ⟨array, performed', changed⟩ := (fits edit edits).perform holds.array
      cases performed.symm.trans performed'
      constructor
      · change mDescriptors.Holds listening.table
        rw [table]
        exact changed
      · change ∀ entry ∈ listening.table, _
        rw [table]
        exact holds.settable_edit fits edits

theorem Holds.start {mask flags : Nat} {calls : BindCalls} {server : ServerListener}
    {mDescriptors : Array Descriptor}
    (bound : (ServerListener.construct.setRequestMask mask).bind .TCP flags calls = (0, server))
    (small : calls.socket < FD_SETSIZE)
    (added : Array.empty.add ⟨server.mSocket, none⟩ = some (0, mDescriptors)) :
    (start server mDescriptors).Holds := by
  obtain ⟨positive, rfl⟩ := ServerListener.bind_eq_zero bound
  have empty : (Array.empty : Array Descriptor).Holds [] := Array.holds_empty
  obtain ⟨array, added', holds⟩ := empty.add (by decide) ⟨calls.socket, none⟩
  cases added.symm.trans added'
  refine ⟨holds, fun entry member => ?_⟩
  rw [List.mem_singleton.mp member]
  exact ⟨positive.le, small⟩

/-- As long as the numbers of the server socket and of all clients are below
`FD_SETSIZE` and every removal from the table keeps the other entries, the
listener can put all watched descriptors into its set. -/
theorem watched_of_fits {mask flags : Nat} {calls : BindCalls} {server : ServerListener}
    {mDescriptors : Array Descriptor} {actions : List Action}
    (bound : (ServerListener.construct.setRequestMask mask).bind .TCP flags calls = (0, server))
    (small : calls.socket < FD_SETSIZE)
    (added : Array.empty.add ⟨server.mSocket, none⟩ = some (0, mDescriptors))
    (fits : machine.Steps Fits (start server mDescriptors) actions)
    (ran : machine.run (start server mDescriptors) actions = some watching) :
    Watched watching.mDescriptors watching.table := by
  have holds : watching.Holds := machine.run_invariant Holds
    (fun _ _ _ holds fits => holds.step fits) (.start bound small added) fits ran
  exact watched_of_shows holds.array.shows holds.settable

/-- The table of a listener that has been bound to descriptor 3. -/
def boundTable : Array Descriptor := ((Array.empty.add ⟨3, none⟩).getD (0, .empty)).2

/-- A client is accepted as `clientsocket`, up to the next iteration. -/
def acceptRun (clientsocket : Int) : List Action :=
  [.listen .build, .listen (.selectReady [3]), .listen (.event (.accepted clientsocket)),
    .listen (.returned 0), .listen .skip, .listen .endDispatch, .listen .check]

theorem watched_of_fits_four : ∃ watching,
    machine.run (start .sample boundTable) (acceptRun 4) = some watching ∧
      Watched watching.mDescriptors watching.table := by
  obtain ⟨watching, ran⟩ : ∃ watching,
      machine.run (start .sample boundTable) (acceptRun 4) = some watching := ⟨_, rfl⟩
  have bound : (ServerListener.construct.setRequestMask ServerListener.defaultMask).bind .TCP 0
      ⟨3, 0, 0, 0⟩ = (0, .sample) := rfl
  exact ⟨watching, ran, watched_of_fits bound (by decide) rfl (by decide) ran⟩

/-- The kernel gives the first number that an `fd_set` has no room for: the
listener watches it, and its next loop puts it outside the set. -/
theorem unwatched : ∃ watching,
    machine.run (start .sample boundTable) (acceptRun FD_SETSIZE) = some watching ∧
      watching.listening.pc = .building ∧
      watching.mDescriptors.get 1 = some ⟨FD_SETSIZE, some 0⟩ ∧ ¬ Settable FD_SETSIZE ∧
      watchAll watching.mDescriptors = none ∧
      ¬ Watched watching.mDescriptors watching.table := by
  refine ⟨_, rfl, rfl, rfl, by decide, rfl, fun watched => ?_⟩
  exact absurd (watched.settable ⟨FD_SETSIZE, some 0⟩ (by decide)) (by decide)

end Watching

end MSrv
