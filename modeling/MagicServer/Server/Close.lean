import MagicServer.Container.Array
import MagicServer.Library.Threads
import MagicServer.Server.Sockets
import Mathlib.Data.List.Count

/-!
# Threads that close Connections

Any number of threads call `Connection::close()` while the listener accepts
clients and removes entries. One action is one `removeDescriptor`, one
`::close`, or one read or write of `mSocket`. Two calls on one Connection that
are both past the test at the beginning close a number twice, and the second
may by then belong to another Connection; calls that do not overlap there keep
an invariant that ties the open descriptors, the table and the Connections
together.
-/

namespace MSrv

/-- The entry with the number, if there is one, is at a position whose removal
from the array leaves all other entries. -/
def Sockets.KeepsOthers (sockets : Sockets) (fd : Int) : Prop :=
  ∀ i, sockets.mDescriptors.findIdx? (fun descriptor => descriptor.mFd = fd) = some i →
    i < sockets.mDescriptors.length - i ∨ i = sockets.mDescriptors.length - 1

instance (sockets : Sockets) (fd : Int) : Decidable (sockets.KeepsOthers fd) :=
  inferInstanceAs (Decidable (∀ i ∈ sockets.mDescriptors.findIdx? fun descriptor =>
    descriptor.mFd = fd, i < sockets.mDescriptors.length - i ∨ i = sockets.mDescriptors.length - 1))

/-- The removal as a reader of the array meets it: in a slot in which nothing has been
written it finds whatever stands there in the memory. -/
def Removal.inMemory (memory : List Descriptor → Nat → Nat → Descriptor) : Removal :=
  fun table i => (Array.leftover table i).mapIdx fun k slot => slot.getD (memory table i k)

/-- Where nothing is lost, the memory does not matter. -/
theorem Removal.inMemory_of_keeps (memory : List Descriptor → Nat → Nat → Descriptor)
    {table : List Descriptor} {i : Nat} (inside : i < table.length)
    (keeps : i < table.length - i ∨ i = table.length - 1) :
    inMemory memory table i = Array.written table i := by
  rw [inMemory, Array.leftover_of_keeps inside keeps, Array.written_eq_eraseIdx keeps]
  apply List.ext_getElem?
  intro k
  rw [List.getElem?_mapIdx, List.getElem?_map]
  cases (table.eraseIdx i)[k]? <;> rfl

/-- The sockets of a listener and the threads that close Connections. `closed`
is history: the calls of `::close` made so far, each with the Connection it was
made for. -/
structure Closers (Thread : Type*) where
  sockets : Sockets
  /-- Where a thread is in `close()`; `none` outside. -/
  pc : Thread → Option ClosePc
  closed : List (ConnectionId × Int)

namespace Closers

variable {Thread : Type*} [DecidableEq Thread]

/-- A server socket is being listened on, and no client has come. -/
def bound (mSocket : Int) : Closers Thread where
  sockets := Sockets.empty.addServer mSocket
  pc _ := none
  closed := []

inductive Action (Thread : Type*) where
  /-- The listener accepts a client. -/
  | accept (clientsocket : Int)
  /-- The listener removes the entry of a client whose stream has ended. -/
  | remove (fd : Int)
  /-- A thread calls `close()` on a Connection. -/
  | call (thread : Thread) (c : ConnectionId)
  /-- A thread goes on inside `close()`. -/
  | step (thread : Thread) (pc : ClosePc)

/-- A client gets any descriptor number that is not open. -/
def Enabled (closers : Closers Thread) : Action Thread → Prop
  | .accept clientsocket => 0 ≤ clientsocket ∧ closers.sockets.fds clientsocket = none
  | .remove _ => True
  | .call thread c => closers.pc thread = none ∧ c < closers.sockets.created
  | .step thread pc => closers.pc thread = some pc

instance (closers : Closers Thread) : DecidablePred closers.Enabled
  | .accept _ => inferInstanceAs (Decidable (_ ∧ _ = _))
  | .remove _ => inferInstanceAs (Decidable True)
  | .call _ _ => inferInstanceAs (Decidable (_ = _ ∧ _ < _))
  | .step _ _ => inferInstanceAs (Decidable (_ = _))

/-- The thread goes on at `pc`. -/
def go (closers : Closers Thread) (thread : Thread) (pc : Option ClosePc) : Closers Thread :=
  { closers with pc := Function.update closers.pc thread pc }

/-- What an action does; the table is the array of the source. -/
def effect (closers : Closers Thread) : Action Thread → Closers Thread
  | .accept clientsocket => { closers with sockets := closers.sockets.addClient clientsocket }
  | .remove fd =>
      { closers with sockets := (closers.sockets.removeDescriptor Array.written fd).2 }
  | .call thread c => closers.go thread (some (.testing c))
  | .step thread pc =>
      { sockets := (closers.sockets.closeStep Array.written pc).1
        pc := Function.update closers.pc thread (closers.sockets.closeStep Array.written pc).2
        closed := match pc with
          | .closing c fd => closers.closed ++ [(c, fd)]
          | _ => closers.closed }

/-- Every interleaving of the threads and the listener is a run. -/
def machine (Thread : Type*) [DecidableEq Thread] : Machine (Closers Thread) (Action Thread) :=
  Machine.guarded Enabled effect

theorem machine_step {closers next : Closers Thread} {action : Action Thread} :
    (machine Thread).step closers action = some next ↔
      closers.Enabled action ∧ closers.effect action = next :=
  Machine.guarded_step

/-- A removal by `close()` takes away no entry but that of its Connection, and a
`::close` by `close()` does not close the socket of another Connection. -/
def Harmless (closers : Closers Thread) : Action Thread → Prop
  | .step _ (.removing c fd) => ∀ entry ∈ closers.sockets.mDescriptors,
      entry ∉ (closers.sockets.removeDescriptor Array.written fd).2.mDescriptors →
        entry.mpData = some c
  | .step _ (.closing c fd) => ∀ owner, closers.sockets.fds fd = some (.client owner) → owner = c
  | _ => True

/-- No thread passes the test of `close()` while another one is past it in a
call on the same Connection, and no removal, by `close()` or by the listener, hits
a position from which on the array loses its entries. -/
def Separate (closers : Closers Thread) : Action Thread → Prop
  | .step thread (.testing c) => closers.sockets.socket c ≠ 0 →
      ∀ other pc, other ≠ thread → closers.pc other = some pc → pc.InBody → pc.connection ≠ c
  | .step _ (.removing _ fd) | .remove fd => closers.sockets.KeepsOthers fd
  | _ => True

end Closers

/-- The Connection has no entry in the table. -/
def Sockets.Unlisted (sockets : Sockets) (c : ConnectionId) : Prop :=
  ∀ entry ∈ sockets.mDescriptors, entry.mpData ≠ some c

/-- The Connection still has the number with which it was accepted. -/
def Sockets.Unclosed (sockets : Sockets) (c : ConnectionId) : Prop :=
  sockets.socket c = sockets.acceptedAs c ∧ sockets.acceptedAs c ≠ 0

/-- What holds where a thread is in `close()`, when the calls do not overlap. -/
def ClosePc.Holds (sockets : Sockets) : ClosePc → Prop
  | .testing c => c < sockets.created
  | .readingRemove c => c < sockets.created ∧ sockets.Unclosed c
  | .removing c fd => c < sockets.created ∧ sockets.Unclosed c ∧ fd = sockets.acceptedAs c
  | .readingClose c => c < sockets.created ∧ sockets.Unclosed c ∧ sockets.Unlisted c
  | .closing c fd =>
      c < sockets.created ∧ sockets.Unclosed c ∧ sockets.Unlisted c ∧ fd = sockets.acceptedAs c
  | .clearing c => c < sockets.created ∧ sockets.acceptedAs c ≠ 0 ∧ sockets.Unlisted c

theorem ClosePc.Holds.created {sockets : Sockets} {pc : ClosePc} (holds : pc.Holds sockets) :
    pc.connection < sockets.created := by
  cases pc with
  | testing => exact holds
  | _ => exact holds.1

namespace Closers

variable {Thread : Type*}

/-- The invariant of runs in which the calls do not overlap. -/
structure Orderly (closers : Closers Thread) : Prop where
  sound : closers.sockets.Sound
  threads : ∀ thread pc, closers.pc thread = some pc → pc.Holds closers.sockets
  alone : ∀ thread other pc pc', closers.pc thread = some pc → closers.pc other = some pc' →
    pc.InBody → pc'.InBody → pc.connection = pc'.connection → thread = other
  /-- Until its closer is about to clear `mSocket`, the number of a Connection is
  open and has not been passed to `::close` for it. -/
  unclosed : ∀ c < closers.sockets.created,
    closers.sockets.socket c = closers.sockets.acceptedAs c →
    (∀ thread, closers.pc thread ≠ some (.clearing c)) →
      closers.sockets.fds (closers.sockets.acceptedAs c) = some (.client c) ∧
        ∀ fd, (c, fd) ∉ closers.closed
  once : ∀ c, closers.closed.count (c, closers.sockets.acceptedAs c) ≤ 1
  closed_created : ∀ call ∈ closers.closed, call.1 < closers.sockets.created

theorem orderly_bound (mSocket : Int) : (bound mSocket : Closers Thread).Orderly where
  sound := Sockets.sound_addServer mSocket
  threads _ _ inside := nomatch inside
  alone _ _ _ _ inside := nomatch inside
  unclosed _ impossible := absurd impossible (Nat.not_lt_zero _)
  once _ := Nat.zero_le 1
  closed_created _ member := nomatch member

variable {closers : Closers Thread}

/-- A thread past the test and not yet about to clear has its Connection's number open. -/
theorem Orderly.open_number (orderly : closers.Orderly) {thread : Thread} {pc : ClosePc}
    (here : closers.pc thread = some pc) (inBody : pc.InBody)
    (number : closers.sockets.socket pc.connection = closers.sockets.acceptedAs pc.connection)
    (before : ∀ c, pc ≠ .clearing c) :
    closers.sockets.fds (closers.sockets.acceptedAs pc.connection) =
        some (.client pc.connection) ∧ ∀ fd, (pc.connection, fd) ∉ closers.closed := by
  refine orderly.unclosed _ (orderly.threads thread pc here).created number
    fun other clearing => ?_
  obtain rfl : thread = other :=
    orderly.alone thread other pc _ here clearing inBody trivial rfl
  exact before pc.connection (Option.some_inj.mp (here.symm.trans clearing))

/-- The table loses entries, and nothing else changes. -/
theorem Orderly.unlist (orderly : closers.Orderly) {table : List Descriptor}
    (fewer : table.Sublist closers.sockets.mDescriptors) :
    Orderly { closers with sockets := { closers.sockets with mDescriptors := table } } where
  sound := orderly.sound.unlist fewer
  threads thread pc inside := by
    have holds := orderly.threads thread pc inside
    have unlisted : ∀ {c}, closers.sockets.Unlisted c →
        Sockets.Unlisted { closers.sockets with mDescriptors := table } c :=
      fun unlisted entry member => unlisted entry (fewer.subset member)
    cases pc with
    | testing | readingRemove | removing => exact holds
    | readingClose => exact ⟨holds.1, holds.2.1, unlisted holds.2.2⟩
    | closing => exact ⟨holds.1, holds.2.1, unlisted holds.2.2.1, holds.2.2.2⟩
    | clearing => exact ⟨holds.1, holds.2.1, unlisted holds.2.2⟩
  alone := orderly.alone
  unclosed := orderly.unclosed
  once := orderly.once
  closed_created := orderly.closed_created

/-- Whatever the position, no more is left than when the entry is erased. -/
theorem removeDescriptor_sublist_erase (sockets : Sockets) (fd : Int) :
    (sockets.removeDescriptor Array.written fd).2.mDescriptors.Sublist
      (Keyed.erase Descriptor.mFd sockets.mDescriptors fd) := by
  rw [← Sockets.removeDescriptor_eraseIdx]
  unfold Sockets.removeDescriptor
  split
  · exact Array.written_sublist ..
  · exact List.Sublist.refl _

/-- What is left was there before. -/
theorem removeDescriptor_sublist (sockets : Sockets) (fd : Int) :
    (sockets.removeDescriptor Array.written fd).2.mDescriptors.Sublist sockets.mDescriptors :=
  (removeDescriptor_sublist_erase sockets fd).trans Keyed.erase_sublist

/-- A removal that keeps the other entries erases one. -/
theorem removeDescriptor_of_keepsOthers {sockets : Sockets} {fd : Int}
    (keeps : sockets.KeepsOthers fd) :
    sockets.removeDescriptor Array.written fd = sockets.removeDescriptor List.eraseIdx fd := by
  unfold Sockets.removeDescriptor
  split
  · next i found => rw [Array.written_eq_eraseIdx (keeps i found)]
  · rfl

/-- It does so whatever stands in the memory. -/
theorem removeDescriptor_inMemory (memory : List Descriptor → Nat → Nat → Descriptor)
    {sockets : Sockets} {fd : Int} (keeps : sockets.KeepsOthers fd) :
    sockets.removeDescriptor (.inMemory memory) fd =
      sockets.removeDescriptor Array.written fd := by
  unfold Sockets.removeDescriptor
  split
  · next i found =>
      obtain ⟨inside, _⟩ := List.findIdx?_eq_some_iff_getElem.mp found
      rw [Removal.inMemory_of_keeps memory inside (keeps i found)]
  · rfl

/-- Any other removal takes away an entry that has neither the number nor stands first. -/
theorem lost_of_not_keepsOthers {sockets : Sockets} (sound : sockets.Sound) {fd : Int}
    {first : Descriptor} (head : sockets.mDescriptors.head? = some first)
    (drops : ¬ sockets.KeepsOthers fd) :
    ∃ entry ∈ sockets.mDescriptors, entry.mFd ≠ fd ∧ entry.mFd ≠ first.mFd ∧
      ∀ other ∈ (sockets.removeDescriptor Array.written fd).2.mDescriptors,
        other.mFd ≠ entry.mFd := by
  unfold Sockets.KeepsOthers at drops
  push Not at drops
  obtain ⟨i, found, upper, inner⟩ := drops
  obtain ⟨inside, number, _⟩ := List.findIdx?_eq_some_iff_getElem.mp found
  have number : sockets.mDescriptors[i].mFd = fd := of_decide_eq_true number
  have last : sockets.mDescriptors.length - 1 < sockets.mDescriptors.length := by omega
  have positive : 0 < i := by omega
  have apart := List.pairwise_iff_getElem.mp (List.pairwise_map.mp sound.distinct)
  have ne_last : ∀ {k : Nat} (below : k < sockets.mDescriptors.length - 1),
      sockets.mDescriptors[sockets.mDescriptors.length - 1].mFd ≠ sockets.mDescriptors[k].mFd :=
    fun below => (apart _ _ (by omega) last below).symm
  refine ⟨sockets.mDescriptors[sockets.mDescriptors.length - 1], List.getElem_mem last, ?_, ?_, ?_⟩
  · rw [← number]
    exact ne_last (by omega)
  · rw [List.head?_eq_getElem?, List.getElem?_eq_getElem (by omega), Option.some_inj] at head
    rw [← head]
    exact ne_last (by omega)
  · have left : (sockets.removeDescriptor Array.written fd).2.mDescriptors =
        sockets.mDescriptors.take i := by
      simp only [Sockets.removeDescriptor, found, Array.written, if_neg (not_lt.mpr upper)]
    rw [left]
    intro other member
    obtain ⟨k, below, rfl⟩ := List.getElem_of_mem member
    rw [List.length_take] at below
    rw [List.getElem_take]
    exact (ne_last (by omega)).symm

/-- With distinct numbers, no entry that is left has the number. -/
theorem ne_of_mem_removeDescriptor {sockets : Sockets} (sound : sockets.Sound) {fd : Int}
    {entry : Descriptor}
    (left : entry ∈ (sockets.removeDescriptor Array.written fd).2.mDescriptors) :
    entry.mFd ≠ fd :=
  ((Keyed.mem_erase sound.distinct).mp
    ((removeDescriptor_sublist_erase sockets fd).subset left)).2

theorem sound_removeDescriptor {sockets : Sockets} (sound : sockets.Sound) (fd : Int) :
    (sockets.removeDescriptor Array.written fd).2.Sound := by
  rw [Sockets.removeDescriptor_snd]
  exact sound.unlist (removeDescriptor_sublist sockets fd)

theorem sound_close {sockets : Sockets} (sound : sockets.Sound) (c : ConnectionId) :
    (sockets.close Array.written c).2.Sound := by
  by_cases closed : sockets.socket c = 0
  · rwa [Sockets.close_of_closed _ closed]
  · rw [Sockets.close_of_ne_zero closed]
    refine ((sound.unlist (removeDescriptor_sublist sockets _)).closeFd
      fun entry member => ?_).clearSocket c
    exact ne_of_mem_removeDescriptor sound member

/-- `close` adds no entry. -/
theorem close_sublist (sockets : Sockets) (c : ConnectionId) :
    (sockets.close Array.written c).2.mDescriptors.Sublist sockets.mDescriptors := by
  by_cases closed : sockets.socket c = 0
  · rw [Sockets.close_of_closed _ closed]
  · rw [Sockets.close_of_ne_zero closed]
    exact removeDescriptor_sublist ..

/-- After `close` there is no entry that a second removal could hit. -/
theorem keepsOthers_close {sockets : Sockets} (sound : sockets.Sound) {c : ConnectionId}
    (opened : sockets.socket c ≠ 0) :
    (sockets.close Array.written c).2.KeepsOthers (sockets.socket c) := by
  rw [Sockets.close_of_ne_zero opened]
  intro i found
  obtain ⟨inside, number, _⟩ := List.findIdx?_eq_some_iff_getElem.mp found
  exact absurd (of_decide_eq_true number)
    (ne_of_mem_removeDescriptor sound (List.getElem_mem inside))

theorem Orderly.removeDescriptor (orderly : closers.Orderly) (fd : Int) :
    Orderly
      { closers with sockets := (closers.sockets.removeDescriptor Array.written fd).2 } := by
  rw [Sockets.removeDescriptor_snd]
  exact orderly.unlist (removeDescriptor_sublist closers.sockets fd)

/-- Where the array keeps its upper part, exactly the entry with the number goes. -/
theorem Orderly.mem_removeDescriptor (orderly : closers.Orderly) {fd : Int}
    (keeps : closers.sockets.KeepsOthers fd)
    {entry : Descriptor} :
    entry ∈ (closers.sockets.removeDescriptor Array.written fd).2.mDescriptors ↔
      entry ∈ closers.sockets.mDescriptors ∧ entry.mFd ≠ fd := by
  rw [removeDescriptor_of_keepsOthers keeps, Sockets.removeDescriptor_eraseIdx]
  exact Keyed.mem_erase orderly.sound.distinct

/-- The closer of a Connection, about to clear `mSocket`, has just closed its number. -/
theorem Orderly.closeFd (orderly : closers.Orderly) {thread : Thread} {c : ConnectionId} {fd : Int}
    (here : closers.pc thread = some (.clearing c))
    (file : closers.sockets.fds fd = some (.client c)) (unclosed : ∀ n, (c, n) ∉ closers.closed) :
    Orderly
      { closers with
        sockets := closers.sockets.closeFd fd
        closed := closers.closed ++ [(c, fd)] } := by
  obtain ⟨created, _, unlisted⟩ := orderly.threads thread _ here
  refine ⟨orderly.sound.closeFd fun entry member same => ?_, orderly.threads, orderly.alone,
    fun c' created' number' none_clearing => ?_, fun c' => ?_, fun call member => ?_⟩
  · exact unlisted entry member (orderly.sound.owner member (same ▸ file))
  · obtain ⟨file', unclosed'⟩ := orderly.unclosed c' created' number' none_clearing
    have different : c' ≠ c := fun same => none_clearing thread (same ▸ here)
    have apart : closers.sockets.acceptedAs c' ≠ fd := fun same => by
      rw [same, file] at file'
      cases file'
      exact different rfl
    refine ⟨(Sockets.closeFd_fds_of_ne apart).trans file', fun n member => ?_⟩
    rcases List.mem_append.mp member with earlier | now
    · exact unclosed' n earlier
    · exact different (congrArg Prod.fst (List.mem_singleton.mp now))
  · change (closers.closed ++ [(c, fd)]).count (c', closers.sockets.acceptedAs c') ≤ 1
    rw [List.count_append]
    by_cases same : c' = c
    · rw [same, List.count_eq_zero_of_not_mem (unclosed _), zero_add]
      exact List.count_le_length
    · have apart : (c', closers.sockets.acceptedAs c') ∉ [(c, fd)] := fun member =>
        same (congrArg Prod.fst (List.mem_singleton.mp member))
      rw [List.count_eq_zero_of_not_mem apart]
      exact orderly.once c'
  · rcases List.mem_append.mp member with earlier | now
    · exact orderly.closed_created call earlier
    · rw [List.mem_singleton.mp now]
      exact created

/-- A new client gets a number of its own. -/
theorem Orderly.addClient (orderly : closers.Orderly) {clientsocket : Int}
    (free : closers.sockets.fds clientsocket = none) :
    Orderly { closers with sockets := closers.sockets.addClient clientsocket } := by
  have holds : ∀ pc : ClosePc, pc.Holds closers.sockets →
      pc.Holds (closers.sockets.addClient clientsocket) := by
    intro pc holds
    have created := holds.created
    have grown := created.trans (Nat.lt_succ_self _)
    have accepted : (closers.sockets.addClient clientsocket).acceptedAs pc.connection =
        closers.sockets.acceptedAs pc.connection := Sockets.addClient_acceptedAs_of_lt created
    have numbered : closers.sockets.Unclosed pc.connection →
        (closers.sockets.addClient clientsocket).Unclosed pc.connection := by
      unfold Sockets.Unclosed
      rw [accepted, Sockets.addClient_socket_of_lt created]
      exact id
    have unlisted : closers.sockets.Unlisted pc.connection →
        (closers.sockets.addClient clientsocket).Unlisted pc.connection := by
      intro unlisted entry member
      rcases Sockets.mem_addClient.mp member with earlier | rfl
      · exact unlisted entry earlier
      · exact fun same => created.ne (Option.some_inj.mp same).symm
    cases pc with
    | testing => exact grown
    | readingRemove => exact ⟨grown, numbered holds.2⟩
    | removing => exact ⟨grown, numbered holds.2.1, holds.2.2.trans accepted.symm⟩
    | readingClose => exact ⟨grown, numbered holds.2.1, unlisted holds.2.2⟩
    | closing =>
        exact ⟨grown, numbered holds.2.1, unlisted holds.2.2.1, holds.2.2.2.trans accepted.symm⟩
    | clearing => exact ⟨grown, accepted.trans_ne holds.2.1, unlisted holds.2.2⟩
  refine ⟨orderly.sound.addClient free,
    fun thread pc inside => holds pc (orderly.threads thread pc inside), orderly.alone,
    fun c created number none_clearing => ?_, fun c => ?_,
    fun call member => (orderly.closed_created call member).trans (Nat.lt_succ_self _)⟩
  · rcases Nat.lt_succ_iff_lt_or_eq.mp created with earlier | rfl
    · rw [Sockets.addClient_socket_of_lt earlier,
        Sockets.addClient_acceptedAs_of_lt earlier] at number
      rw [Sockets.addClient_acceptedAs_of_lt earlier]
      obtain ⟨opened, unclosed⟩ := orderly.unclosed c earlier number none_clearing
      exact ⟨(Sockets.addClient_fds_of_ne (Sockets.ne_of_free free opened)).trans opened, unclosed⟩
    · rw [Sockets.addClient_acceptedAs_created]
      exact ⟨Sockets.addClient_fds_self,
        fun n member => absurd (orderly.closed_created _ member) (lt_irrefl _)⟩
  · change closers.closed.count (c, (closers.sockets.addClient clientsocket).acceptedAs c) ≤ 1
    by_cases created : c < closers.sockets.created
    · rw [Sockets.addClient_acceptedAs_of_lt created]
      exact orderly.once c
    · rw [List.count_eq_zero_of_not_mem fun member =>
        created (orderly.closed_created _ member)]
      exact Nat.zero_le 1

/-- `mSocket` is set to 0, with its closer still inside `close()`. -/
theorem Orderly.clearSocket (orderly : closers.Orderly) {thread : Thread} {c : ConnectionId}
    (here : closers.pc thread = some (.clearing c)) :
    Orderly { closers with sockets := closers.sockets.clearSocket c } := by
  have others : ∀ {other}, other ≠ c →
      (closers.sockets.clearSocket c).socket other = closers.sockets.socket other :=
    Sockets.clearSocket_socket_of_ne
  refine ⟨orderly.sound.clearSocket c, fun other pc inside => ?_, orderly.alone,
    fun other created number none_clearing => ?_, orderly.once, orderly.closed_created⟩
  · have holds := orderly.threads other pc inside
    -- Whoever else is past the test is in a call on another Connection.
    have apart : pc.InBody → (∀ c', pc ≠ .clearing c') → pc.connection ≠ c := by
      intro inBody before same
      obtain rfl := orderly.alone other thread pc _ inside here inBody trivial same
      exact before c (Option.some_inj.mp (inside.symm.trans here))
    have numbered : ∀ {c'}, c' ≠ c → closers.sockets.Unclosed c' →
        (closers.sockets.clearSocket c).Unclosed c' :=
      fun different unclosed => ⟨(others different).trans unclosed.1, unclosed.2⟩
    cases pc with
    | testing | clearing => exact holds
    | readingRemove => exact ⟨holds.1, numbered (apart trivial nofun) holds.2⟩
    | removing | readingClose | closing =>
        exact ⟨holds.1, numbered (apart trivial nofun) holds.2.1, holds.2.2⟩
  · have different : other ≠ c := fun same => none_clearing thread (same ▸ here)
    exact orderly.unclosed other created ((others different).symm.trans number) none_clearing

variable [DecidableEq Thread]

/-- One thread goes on, and nothing else changes. -/
theorem Orderly.go (orderly : closers.Orderly) (thread : Thread) {after : Option ClosePc}
    (holds : ∀ pc, after = some pc → pc.Holds closers.sockets)
    (alone : ∀ pc, after = some pc → pc.InBody → ∀ other pc', other ≠ thread →
      closers.pc other = some pc' → pc'.InBody → pc'.connection ≠ pc.connection)
    (cleared : ∀ c, closers.pc thread = some (.clearing c) →
      closers.sockets.socket c ≠ closers.sockets.acceptedAs c) :
    (closers.go thread after).Orderly where
  sound := orderly.sound
  threads other pc inside := by
    rcases Threads.of_update (p := fun _ at_pc => at_pc = some pc) inside with
      ⟨_, moved⟩ | ⟨_, stayed⟩
    · exact holds pc moved
    · exact orderly.threads other pc stayed
  alone first second pc pc' here there inBody inBody' same := by
    rcases Threads.of_update (p := fun _ at_pc => at_pc = some pc) here with
      ⟨rfl, moved⟩ | ⟨apart, stayed⟩
    · rcases Threads.of_update (p := fun _ at_pc => at_pc = some pc') there with
        ⟨rfl, _⟩ | ⟨apart', stayed'⟩
      · rfl
      · exact absurd same.symm (alone pc moved inBody second pc' apart' stayed' inBody')
    · rcases Threads.of_update (p := fun _ at_pc => at_pc = some pc') there with
        ⟨rfl, moved'⟩ | ⟨_, stayed'⟩
      · exact absurd same (alone pc' moved' inBody' first pc apart stayed inBody)
      · exact orderly.alone first second pc pc' stayed stayed' inBody inBody' same
  unclosed c created number none_clearing := by
    refine orderly.unclosed c created number fun other clearing => ?_
    by_cases same : other = thread
    · subst same
      exact cleared c clearing number
    · exact none_clearing other ((Function.update_of_ne same ..).trans clearing)
  once := orderly.once
  closed_created := orderly.closed_created

/-- A thread that goes on inside the body keeps its Connection to itself. -/
theorem Orderly.goOn (orderly : closers.Orderly) {thread : Thread} {before after : ClosePc}
    (here : closers.pc thread = some before) (inBody : before.InBody)
    (open_before : ∀ c, before ≠ .clearing c) (same : after.connection = before.connection)
    (holds : after.Holds closers.sockets) : (closers.go thread (some after)).Orderly := by
  refine orderly.go thread (fun pc moved => ?_) (fun pc moved _ other pc' apart there inBody' => ?_)
    fun c clearing => absurd (Option.some_inj.mp (here.symm.trans clearing)) (open_before c)
  · rw [← Option.some_inj.mp moved]
    exact holds
  · rw [← Option.some_inj.mp moved, same]
    exact fun met => apart (orderly.alone other thread pc' before there here inBody' inBody met)

/-- The test at the beginning of `close()`. -/
theorem effect_testing (closers : Closers Thread) (thread : Thread) (c : ConnectionId) :
    closers.effect (.step thread (.testing c)) =
      closers.go thread
        (if closers.sockets.socket c = 0 then none else some (.readingRemove c)) := by
  by_cases closed : closers.sockets.socket c = 0 <;>
    simp only [effect, Closers.go, Sockets.closeStep, closed, ↓reduceIte]

/-- Every step that keeps the calls separate keeps the invariant. -/
theorem Orderly.step (orderly : closers.Orderly) (separate : closers.Separate action)
    (taken : (machine Thread).step closers action = some next) : next.Orderly := by
  obtain ⟨enabled, rfl⟩ := machine_step.mp taken
  cases action with
  | accept clientsocket => exact orderly.addClient enabled.2
  | remove fd => exact orderly.removeDescriptor fd
  | call thread c =>
      refine orderly.go thread (fun pc moved => ?_) (fun pc moved inBody => ?_)
        fun c' clearing => absurd (enabled.1.symm.trans clearing) nofun
      · rw [← Option.some_inj.mp moved]
        exact enabled.2
      · rw [← Option.some_inj.mp moved] at inBody
        exact inBody.elim
  | step thread pc =>
      have here : closers.pc thread = some pc := enabled
      have holds := orderly.threads thread pc here
      cases pc with
      | testing c =>
          by_cases closed : closers.sockets.socket c = 0
          · rw [effect_testing, if_pos closed]
            exact orderly.go thread nofun nofun fun c' clearing =>
              absurd (here.symm.trans clearing) nofun
          · have number := (orderly.sound.socket c holds).resolve_right closed
            rw [effect_testing, if_neg closed]
            refine orderly.go thread (fun pc moved => ?_)
              (fun pc moved _ other pc' apart there inBody' => ?_)
              fun c' clearing => absurd (here.symm.trans clearing) nofun
            · rw [← Option.some_inj.mp moved]
              exact ⟨holds, number, number.symm.trans_ne closed⟩
            · rw [← Option.some_inj.mp moved]
              exact separate closed other pc' apart there inBody'
      | readingRemove c =>
          exact orderly.goOn here trivial nofun rfl ⟨holds.1, holds.2, holds.2.1⟩
      | removing c fd =>
          obtain ⟨created, unclosed, number⟩ := holds
          have removed := orderly.removeDescriptor fd
          refine removed.goOn here trivial nofun rfl ?_
          rw [Sockets.removeDescriptor_snd]
          refine ⟨created, unclosed, fun entry member data => ?_⟩
          obtain ⟨listed, different⟩ := (orderly.mem_removeDescriptor separate).mp member
          exact different ((orderly.sound.number listed data).2.trans number.symm)
      | readingClose c =>
          exact orderly.goOn here trivial nofun rfl ⟨holds.1, holds.2.1, holds.2.2, holds.2.1.1⟩
      | closing c fd =>
          obtain ⟨created, unclosed, unlisted, rfl⟩ := holds
          obtain ⟨file, fresh⟩ := orderly.open_number here trivial unclosed.1 nofun
          have moved : (closers.go thread (some (.clearing c))).Orderly :=
            orderly.goOn here trivial nofun rfl ⟨created, unclosed.2, unlisted⟩
          have cleared : (closers.go thread (some (.clearing c))).pc thread = some (.clearing c) :=
            Function.update_self ..
          exact moved.closeFd cleared file fresh
      | clearing c =>
          refine (orderly.clearSocket here).go thread nofun nofun fun c' clearing => ?_
          cases here.symm.trans clearing
          exact Sockets.clearSocket_socket_self.trans_ne holds.2.1.symm

/-- A step that keeps the calls separate is harmless. -/
theorem Orderly.harmless (orderly : closers.Orderly) (separate : closers.Separate action)
    (taken : (machine Thread).step closers action = some next) : closers.Harmless action := by
  obtain ⟨enabled, _⟩ := machine_step.mp taken
  cases action with
  | accept | remove | call => trivial
  | step thread pc =>
      have here : closers.pc thread = some pc := enabled
      have holds := orderly.threads thread pc here
      cases pc with
      | testing | readingRemove | readingClose | clearing => trivial
      | removing c fd =>
          intro entry listed gone
          have same : entry.mFd = fd := by
            by_contra different
            exact gone ((orderly.mem_removeDescriptor separate).mpr ⟨listed, different⟩)
          obtain ⟨file, _⟩ := orderly.open_number here trivial holds.2.1.1 nofun
          apply orderly.sound.owner listed
          rw [same, holds.2.2]
          exact file
      | closing c fd =>
          intro owner file
          obtain ⟨file', _⟩ := orderly.open_number here trivial holds.2.1.1 nofun
          rw [holds.2.2.2] at file
          cases file'.symm.trans file
          rfl

/-- In every run in which the calls of `close()` on one Connection do not overlap
past its test, and no removal hits a position from which on the array loses
entries, no number is passed to `::close` twice for its Connection and no call
touches the descriptor of another one. -/
theorem closed_once_of_separate (mSocket : Int) (actions : List (Action Thread))
    {final : Closers Thread}
    (ran : (machine Thread).run (bound mSocket) actions = some final)
    (separate : (machine Thread).Steps Separate (bound mSocket) actions) :
    (∀ c, final.closed.count (c, final.sockets.acceptedAs c) ≤ 1) ∧
      (machine Thread).Steps Harmless (bound mSocket) actions := by
  have preserved : ∀ (closers : Closers Thread) (action : Action Thread) (next : Closers Thread),
      closers.Orderly → closers.Separate action →
        (machine Thread).step closers action = some next → next.Orderly :=
    fun _ _ _ orderly separate taken => orderly.step separate taken
  constructor
  · have orderly :=
      (machine Thread).run_invariant Orderly preserved (orderly_bound mSocket) separate ran
    exact orderly.once
  · exact (machine Thread).steps_mono preserved
      (fun _ _ _ orderly separate taken => orderly.harmless separate taken)
      (orderly_bound mSocket) separate

/-- Two threads that close a Connection one after the other are separate: the
second one returns at its test. -/
theorem closed_once_of_separate_run :
    ∃ final, (machine (Fin 2)).run (bound 3)
        [.accept 5, .call 0 0, .step 0 (.testing 0), .step 0 (.readingRemove 0),
          .step 0 (.removing 0 5), .step 0 (.readingClose 0), .step 0 (.closing 0 5),
          .accept 5, .step 0 (.clearing 0), .call 1 0, .step 1 (.testing 0)] = some final ∧
      final.closed = [(0, 5)] ∧ final.sockets.mDescriptors = [⟨3, none⟩, ⟨5, some 1⟩] ∧
      ∀ c, final.closed.count (c, final.sockets.acceptedAs c) ≤ 1 := by
  refine ⟨_, rfl, rfl, rfl, (closed_once_of_separate 3
    [.accept 5, .call 0 0, .step 0 (.testing 0), .step 0 (.readingRemove 0),
      .step 0 (.removing 0 5), .step 0 (.readingClose 0), .step 0 (.closing 0 5),
      .accept 5, .step 0 (.clearing 0), .call 1 0, .step 1 (.testing 0)] rfl ?_).1⟩
  repeat rw [Machine.steps_cons _ rfl]
  refine ⟨trivial, trivial, ?_, trivial, ?_, trivial, trivial, trivial, trivial, trivial, ?_,
    trivial⟩
  · rintro _ other pc different inside
    obtain rfl : other = 1 := by omega
    cases inside
  · intro i found
    cases found
    exact Or.inr rfl
  · exact fun impossible => absurd rfl impossible

/-- Two threads pass the test for Connection 0 before either has cleared
`mSocket`. The number 5 goes to Connection 1 in between: the second thread
removes the entry of Connection 1 and closes its socket, and 5 has been passed to
`::close` twice for Connection 0. -/
theorem closed_twice_run :
    ∃ middle final, (machine (Fin 2)).run (bound 3)
        [.accept 5, .call 0 0, .call 1 0, .step 0 (.testing 0), .step 1 (.testing 0),
          .step 1 (.readingRemove 0), .step 0 (.readingRemove 0), .step 0 (.removing 0 5),
          .step 0 (.readingClose 0), .step 0 (.closing 0 5), .accept 5] = some middle ∧
      middle.sockets.fds 5 = some (.client 1) ∧
      ¬ middle.Harmless (.step 1 (.removing 0 5)) ∧
      (machine (Fin 2)).run middle [.step 1 (.removing 0 5), .step 1 (.readingClose 0),
        .step 1 (.closing 0 5)] = some final ∧
      final.closed.count (0, final.sockets.acceptedAs 0) = 2 := by
  refine ⟨_, _, rfl, rfl, fun harmless => ?_, rfl, rfl⟩
  cases harmless ⟨5, some 1⟩ (List.mem_cons_of_mem _ (List.mem_singleton_self _)) (by decide)

end Closers

end MSrv
