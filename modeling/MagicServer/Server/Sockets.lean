import MagicServer.Library.Keyed
import MagicServer.Server.Request
import Mathlib.Logic.Function.Basic

/-!
# Descriptors, their table and the Connections

What `Listener::removeDescriptor`, `Connection::close` and an accepted client
change: the open descriptors of the process, the table of the listener and the
`mSocket` of every `Connection`. The operations take the array's removal of one
position as a parameter.
-/

namespace MSrv

/-- What an open descriptor of the process refers to. -/
inductive OpenFile where
  /-- A socket made by `ServerListener::bind`. -/
  | server
  /-- The socket of a client, accepted for one `Connection`. -/
  | client (owner : ConnectionId)
  deriving DecidableEq

/-- An entry of the listener's table. -/
structure Descriptor where
  mFd : Int
  mpData : Option ConnectionId
  deriving DecidableEq

/-- Descriptors, table and Connections. -/
structure Sockets where
  /-- The entries of the table, in the order of the array. -/
  mDescriptors : List Descriptor
  /-- The open descriptors of the process. -/
  fds : Int → Option OpenFile
  /-- How many `Connection` objects have been created. -/
  created : Nat
  /-- `mSocket` of each `Connection`. -/
  socket : ConnectionId → Int
  /-- The number with which each `Connection` was created. -/
  acceptedAs : ConnectionId → Int

/-- The removal of one position from the table. -/
abbrev Removal := List Descriptor → Nat → List Descriptor

namespace Sockets

/-- No descriptor is open and nothing is watched. -/
def empty : Sockets where
  mDescriptors := []
  fds _ := none
  created := 0
  socket _ := 0
  acceptedAs _ := 0

/-- `::close`. -/
def closeFd (sockets : Sockets) (fd : Int) : Sockets :=
  { sockets with fds := Function.update sockets.fds fd none }

/-- `mSocket = 0` in a `Connection`. -/
def clearSocket (sockets : Sockets) (c : ConnectionId) : Sockets :=
  { sockets with socket := Function.update sockets.socket c 0 }

/-- A new server socket and its entry, as `ServerListener::bind` stores them. -/
def addServer (sockets : Sockets) (sockfd : Int) : Sockets :=
  { sockets with
    mDescriptors := sockets.mDescriptors ++ [⟨sockfd, none⟩]
    fds := Function.update sockets.fds sockfd (some .server) }

/-- A new client socket, its `Connection` object and its entry, as
`ServerListener::accept` stores them. -/
def addClient (sockets : Sockets) (clientsocket : Int) : Sockets where
  mDescriptors := sockets.mDescriptors ++ [⟨clientsocket, some sockets.created⟩]
  fds := Function.update sockets.fds clientsocket (some (.client sockets.created))
  created := sockets.created + 1
  socket := Function.update sockets.socket sockets.created clientsocket
  acceptedAs := Function.update sockets.acceptedAs sockets.created clientsocket

/-- Removes a descriptor (a socket) from the listener. -/
def removeDescriptor (remove : Removal) (sockets : Sockets) (fd : Int) : MSrvResult × Sockets :=
  match sockets.mDescriptors.findIdx? fun descriptor => descriptor.mFd = fd with
  | some i => (0, { sockets with mDescriptors := remove sockets.mDescriptors i })
  | none => (MSRVERR_DESCRIPTOR_NOT_FOUND, sockets)

/-- Closes the connection, without another thread in between. -/
def close (remove : Removal) (sockets : Sockets) (c : ConnectionId) : MSrvResult × Sockets :=
  if sockets.socket c = 0 then (MSRVERR_CONNECTION_NO_SOCKET, sockets)
  else
    let (result, sockets) := sockets.removeDescriptor remove (sockets.socket c)
    let sockets := sockets.closeFd (sockets.socket c)
    (result, sockets.clearSocket c)

end Sockets

/-- Where a thread is in `Connection::close()`. -/
inductive ClosePc where
  /-- About to read `mSocket` in the test at the beginning. -/
  | testing (c : ConnectionId)
  /-- About to read `mSocket` for `removeDescriptor()`. -/
  | readingRemove (c : ConnectionId)
  | removing (c : ConnectionId) (fd : Int)
  /-- About to read `mSocket` for `::close()`. -/
  | readingClose (c : ConnectionId)
  | closing (c : ConnectionId) (fd : Int)
  /-- About to set `mSocket` to 0. -/
  | clearing (c : ConnectionId)
  deriving DecidableEq

/-- The connection that is being closed. -/
def ClosePc.connection : ClosePc → ConnectionId
  | .testing c | .readingRemove c | .removing c _ => c
  | .readingClose c | .closing c _ | .clearing c => c

/-- Past the test at the beginning. -/
def ClosePc.InBody : ClosePc → Prop
  | .testing _ => False
  | .readingRemove _ | .removing _ _ | .readingClose _ | .closing _ _ | .clearing _ => True

/-- One step of `Connection::close()`; `none` is its return. -/
def Sockets.closeStep (remove : Removal) (sockets : Sockets) : ClosePc → Sockets × Option ClosePc
  | .testing c => (sockets, if sockets.socket c = 0 then none else some (.readingRemove c))
  | .readingRemove c => (sockets, some (.removing c (sockets.socket c)))
  | .removing c fd => ((sockets.removeDescriptor remove fd).2, some (.readingClose c))
  | .readingClose c => (sockets, some (.closing c (sockets.socket c)))
  | .closing c fd => (sockets.closeFd fd, some (.clearing c))
  | .clearing c => (sockets.clearSocket c, none)

namespace Sockets

variable {remove : Removal} {sockets : Sockets} {fd : Int} {c : ConnectionId}

@[simp] theorem closeFd_fds_self : (sockets.closeFd fd).fds fd = none := Function.update_self ..

theorem closeFd_fds_of_ne {other : Int} (different : other ≠ fd) :
    (sockets.closeFd fd).fds other = sockets.fds other := Function.update_of_ne different ..

@[simp] theorem clearSocket_socket_self : (sockets.clearSocket c).socket c = 0 :=
  Function.update_self ..

theorem clearSocket_socket_of_ne {other : ConnectionId} (different : other ≠ c) :
    (sockets.clearSocket c).socket other = sockets.socket other :=
  Function.update_of_ne different ..

theorem mem_addClient {entry : Descriptor} : entry ∈ (sockets.addClient fd).mDescriptors ↔
    entry ∈ sockets.mDescriptors ∨ entry = ⟨fd, some sockets.created⟩ :=
  List.mem_append.trans (or_congr_right List.mem_singleton)

/-- A new client does not stand first. -/
theorem head?_addClient {first : Descriptor} (head : sockets.mDescriptors.head? = some first) :
    (sockets.addClient fd).mDescriptors.head? = some first := by
  change (sockets.mDescriptors ++ [_]).head? = some first
  rw [List.head?_append, head]
  rfl

@[simp] theorem addClient_fds_self :
    (sockets.addClient fd).fds fd = some (.client sockets.created) := Function.update_self ..

theorem addClient_fds_of_ne {other : Int} (different : other ≠ fd) :
    (sockets.addClient fd).fds other = sockets.fds other := Function.update_of_ne different ..

@[simp] theorem addClient_socket_created : (sockets.addClient fd).socket sockets.created = fd :=
  Function.update_self ..

@[simp] theorem addClient_acceptedAs_created :
    (sockets.addClient fd).acceptedAs sockets.created = fd := Function.update_self ..

theorem addClient_socket_of_lt (created : c < sockets.created) :
    (sockets.addClient fd).socket c = sockets.socket c := Function.update_of_ne created.ne ..

theorem addClient_acceptedAs_of_lt (created : c < sockets.created) :
    (sockets.addClient fd).acceptedAs c = sockets.acceptedAs c :=
  Function.update_of_ne created.ne ..

/-- `removeDescriptor` changes the table only. -/
theorem removeDescriptor_snd : (sockets.removeDescriptor remove fd).2 =
    { sockets with mDescriptors := (sockets.removeDescriptor remove fd).2.mDescriptors } := by
  unfold removeDescriptor
  split <;> rfl

@[simp] theorem removeDescriptor_socket :
    (sockets.removeDescriptor remove fd).2.socket = sockets.socket := by rw [removeDescriptor_snd]

@[simp] theorem removeDescriptor_fds :
    (sockets.removeDescriptor remove fd).2.fds = sockets.fds := by rw [removeDescriptor_snd]

@[simp] theorem removeDescriptor_created :
    (sockets.removeDescriptor remove fd).2.created = sockets.created := by
  rw [removeDescriptor_snd]

/-- `close` on a Connection that has been closed changes nothing. -/
theorem close_of_closed (remove : Removal) (closed : sockets.socket c = 0) :
    (sockets.close remove c).2 = sockets := by
  unfold close
  rw [if_pos closed]

/-- `close` on an open Connection removes its entry, closes its number and clears `mSocket`. -/
theorem close_of_ne_zero (opened : sockets.socket c ≠ 0) : (sockets.close remove c).2 =
    { sockets with
      mDescriptors := (sockets.removeDescriptor remove (sockets.socket c)).2.mDescriptors
      fds := Function.update sockets.fds (sockets.socket c) none
      socket := Function.update sockets.socket c 0 } := by
  unfold close
  rw [if_neg opened]
  change ((sockets.removeDescriptor remove (sockets.socket c)).2.closeFd
    ((sockets.removeDescriptor remove (sockets.socket c)).2.socket c)).clearSocket c = _
  rw [removeDescriptor_snd]
  rfl

/-- `close` creates no Connection and gives none another number. -/
theorem close_numbers (remove : Removal) (sockets : Sockets) (c : ConnectionId) :
    (sockets.close remove c).2.created = sockets.created ∧
      (sockets.close remove c).2.acceptedAs = sockets.acceptedAs := by
  by_cases closed : sockets.socket c = 0
  · rw [close_of_closed _ closed]
    exact ⟨rfl, rfl⟩
  · rw [close_of_ne_zero closed]
    exact ⟨rfl, rfl⟩

/-- With a table that is a list, `removeDescriptor` erases the first entry with the number. -/
theorem removeDescriptor_eraseIdx : (sockets.removeDescriptor List.eraseIdx fd).2.mDescriptors =
    Keyed.erase Descriptor.mFd sockets.mDescriptors fd := by
  unfold removeDescriptor Keyed.erase
  rw [List.eraseP_eq_eraseIdx]
  split <;> simp only [*]

end Sockets

/-! ## What ties the sockets together -/

/-- What the descriptor of an entry refers to. -/
def Descriptor.file (descriptor : Descriptor) : OpenFile :=
  match descriptor.mpData with
  | none => .server
  | some c => .client c

theorem Descriptor.file_eq_client {descriptor : Descriptor} {c : ConnectionId} :
    descriptor.file = .client c ↔ descriptor.mpData = some c := by
  unfold Descriptor.file
  cases descriptor.mpData with
  | none => exact iff_of_false nofun nofun
  | some owner => exact ⟨fun same => by cases same; rfl, fun same => by cases same; rfl⟩

/-- The entries have distinct open descriptors and refer to what these are, the
socket of a client has the number with which its Connection was created, and a
Connection keeps that number until `mSocket` is cleared. -/
structure Sockets.Sound (sockets : Sockets) : Prop where
  distinct : (sockets.mDescriptors.map Descriptor.mFd).Nodup
  entries : ∀ entry ∈ sockets.mDescriptors, sockets.fds entry.mFd = some entry.file
  clients : ∀ fd c, sockets.fds fd = some (.client c) →
    c < sockets.created ∧ fd = sockets.acceptedAs c
  socket : ∀ c < sockets.created, sockets.socket c = sockets.acceptedAs c ∨ sockets.socket c = 0

namespace Sockets

variable {sockets : Sockets} {fd : Int} {c : ConnectionId}

theorem sound_addServer (mSocket : Int) : (empty.addServer mSocket).Sound where
  distinct := List.nodup_singleton _
  entries entry member := by
    rw [List.mem_singleton.mp member]
    exact Function.update_self ..
  clients fd c client := by
    simp only [addServer, empty, Function.update_apply] at client
    split at client <;> cases client
  socket _ impossible := absurd impossible (Nat.not_lt_zero _)

/-- The entry of a Connection has the number with which it was created. -/
theorem Sound.number (sound : sockets.Sound) {entry : Descriptor}
    (listed : entry ∈ sockets.mDescriptors) (data : entry.mpData = some c) :
    c < sockets.created ∧ entry.mFd = sockets.acceptedAs c := by
  apply sound.clients entry.mFd c
  rw [sound.entries entry listed, Descriptor.file_eq_client.mpr data]

/-- An entry whose descriptor is the socket of a client belongs to that client. -/
theorem Sound.owner (sound : sockets.Sound) {entry : Descriptor}
    (listed : entry ∈ sockets.mDescriptors) (file : sockets.fds entry.mFd = some (.client c)) :
    entry.mpData = some c := by
  rw [sound.entries entry listed] at file
  exact Descriptor.file_eq_client.mp (Option.some_inj.mp file)

/-- The table may lose entries. -/
theorem Sound.unlist (sound : sockets.Sound) {table : List Descriptor}
    (fewer : table.Sublist sockets.mDescriptors) :
    Sound { sockets with mDescriptors := table } where
  distinct := (fewer.map _).nodup sound.distinct
  entries entry member := sound.entries entry (fewer.subset member)
  clients := sound.clients
  socket := sound.socket

/-- A descriptor without an entry may be closed. -/
theorem Sound.closeFd (sound : sockets.Sound)
    (unlisted : ∀ entry ∈ sockets.mDescriptors, entry.mFd ≠ fd) : (sockets.closeFd fd).Sound where
  distinct := sound.distinct
  entries entry member :=
    (closeFd_fds_of_ne (unlisted entry member)).trans (sound.entries entry member)
  clients fd' c client := by
    by_cases same : fd' = fd
    · rw [same, closeFd_fds_self] at client
      cases client
    · rw [closeFd_fds_of_ne same] at client
      exact sound.clients fd' c client
  socket := sound.socket

theorem Sound.clearSocket (sound : sockets.Sound) (c : ConnectionId) :
    (sockets.clearSocket c).Sound where
  distinct := sound.distinct
  entries := sound.entries
  clients := sound.clients
  socket other created := by
    by_cases same : other = c
    · rw [same]
      exact Or.inr clearSocket_socket_self
    · rw [clearSocket_socket_of_ne same]
      exact sound.socket other created

/-- An open descriptor is not the number of a new client. -/
theorem ne_of_free {file : OpenFile} {other : Int} (free : sockets.fds fd = none)
    (opened : sockets.fds other = some file) : other ≠ fd := by
  rintro rfl
  cases free.symm.trans opened

/-- A client may be accepted with a number that is not open. -/
theorem Sound.addClient (sound : sockets.Sound) (free : sockets.fds fd = none) :
    (sockets.addClient fd).Sound where
  distinct := by
    change ((sockets.mDescriptors ++ [_]).map Descriptor.mFd).Nodup
    rw [List.map_append, List.nodup_append]
    refine ⟨sound.distinct, List.nodup_singleton _, fun number listed other new => ?_⟩
    obtain ⟨entry, member, rfl⟩ := List.mem_map.mp listed
    rw [List.mem_singleton.mp new]
    exact ne_of_free free (sound.entries entry member)
  entries entry member := by
    rcases mem_addClient.mp member with earlier | rfl
    · have opened := sound.entries entry earlier
      exact (addClient_fds_of_ne (ne_of_free free opened)).trans opened
    · exact addClient_fds_self
  clients number c client := by
    by_cases same : number = fd
    · subst same
      rw [addClient_fds_self] at client
      cases client
      exact ⟨Nat.lt_succ_self _, addClient_acceptedAs_created.symm⟩
    · rw [addClient_fds_of_ne same] at client
      obtain ⟨created, accepted⟩ := sound.clients number c client
      rw [addClient_acceptedAs_of_lt created]
      exact ⟨created.trans (Nat.lt_succ_self _), accepted⟩
  socket c created := by
    rcases Nat.lt_succ_iff_lt_or_eq.mp created with earlier | rfl
    · rw [addClient_socket_of_lt earlier, addClient_acceptedAs_of_lt earlier]
      exact sound.socket c earlier
    · left
      rw [addClient_socket_created, addClient_acceptedAs_created]

end Sockets

end MSrv
