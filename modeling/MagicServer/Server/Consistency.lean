import MagicServer.Server.ConnIter
import MagicServer.Server.Serving
import Mathlib.Tactic.ByContra

/-!
# Table, descriptors and Connections agree

With a handler in the listener thread the table, the open descriptors and the
Connections stay in step: an invariant of every run from `bind` on links the
three, also while a handler closes the Connection whose loss it is told of.
-/

namespace MSrv

namespace Sockets

variable {sockets : Sockets} {c : ConnectionId}

/-- `close` on an open Connection unregisters its number, closes it and clears `mSocket`. -/
theorem close_of_open (opened : sockets.socket c ≠ 0) : (sockets.close List.eraseIdx c).2 =
    { sockets with
      mDescriptors := Keyed.erase Descriptor.mFd sockets.mDescriptors (sockets.socket c)
      fds := Function.update sockets.fds (sockets.socket c) none
      socket := Function.update sockets.socket c 0 } := by
  rw [close_of_ne_zero opened, removeDescriptor_eraseIdx]

/-- `close` leaves the sockets sound. -/
theorem Sound.close (sound : sockets.Sound) (c : ConnectionId) :
    (sockets.close List.eraseIdx c).2.Sound := by
  by_cases closed : sockets.socket c = 0
  · rwa [close_of_closed _ closed]
  · rw [close_of_open closed]
    refine ((sound.unlist Keyed.erase_sublist).closeFd fun entry member => ?_).clearSocket c
    exact ((Keyed.mem_erase sound.distinct).mp member).2

end Sockets

/-- With a table that is a list, a lost descriptor is erased after its event. -/
theorem Listening.afterEvent_lost (listening : Listening) (ready : List Int) (i : Nat) (fd : Int) :
    listening.afterEvent List.eraseIdx ready i fd true =
      { listening with
        server :=
          { listening.server with
            sockets :=
              { listening.server.sockets with
                mDescriptors :=
                  Keyed.erase Descriptor.mFd listening.server.sockets.mDescriptors fd } }
        pc := .dispatching ready (i + 1) } := by
  unfold afterEvent ServerListener.descriptorEventEnd
  rw [if_pos rfl, Sockets.removeDescriptor_snd, Sockets.removeDescriptor_eraseIdx]

namespace Serving

/-- The entries of the table. -/
def table (serving : Serving) : List Descriptor := serving.sockets.mDescriptors

/-- While a handler is told of a lost connection, its Connection exists and its
number belongs to no other entry; and only then is a descriptor removed after
the handler. -/
def Pending (serving : Serving) : Prop :=
  ∀ request resume, serving.listening.pc = .handling request resume →
    (∃ c ready i, request.content = .connectionLost (some c) ∧ serving.Live c ∧
      resume = .dispatch ready i (serving.sockets.acceptedAs c) true ∧
        ∀ entry ∈ serving.table, entry.mFd = serving.sockets.acceptedAs c →
          entry.mpData = some c) ∨
    ((∀ data, request.content ≠ .connectionLost data) ∧
      ∀ ready i fd, resume ≠ .dispatch ready i fd true)

/-- The invariant of the listener thread. -/
structure Consistent (serving : Serving) : Prop where
  protocol : serving.listening.server.mProtocol = .TCP
  lost : serving.listening.server.generates .connectionLost = true
  sound : serving.sockets.Sound
  server : ⟨serving.listening.server.mSocket, none⟩ ∈ serving.table
  nulls : ∀ entry ∈ serving.table, entry.mpData = none →
    entry.mFd = serving.listening.server.mSocket
  live : ∀ entry ∈ serving.table, ∀ c, entry.mpData = some c →
    serving.destroyed c = false ∧ serving.sockets.socket c = entry.mFd
  listed : ∀ c, serving.Live c → serving.sockets.socket c ≠ 0 →
    ⟨serving.sockets.socket c, some c⟩ ∈ serving.table
  fresh : ∀ c, serving.sockets.created ≤ c → serving.destroyed c = false
  pending : serving.Pending

variable {serving next : Serving} {action : Action} {c : ConnectionId}

/-- Two entries of the table with one number are the same. -/
theorem Consistent.entry_eq (consistent : serving.Consistent) {first second : Descriptor}
    (here : first ∈ serving.table) (there : second ∈ serving.table)
    (same : first.mFd = second.mFd) : first = second :=
  List.inj_on_of_nodup_map consistent.sound.distinct here there same

/-- The entries of a Connection that is not closed are the entries with its number. -/
theorem Consistent.owner_iff (consistent : serving.Consistent) (live : serving.Live c)
    (opened : serving.sockets.socket c ≠ 0) {entry : Descriptor} (listed : entry ∈ serving.table) :
    entry.mpData = some c ↔ entry.mFd = serving.sockets.socket c := by
  constructor
  · exact fun data => (consistent.live entry listed c data).2.symm
  · intro number
    rw [consistent.entry_eq listed (consistent.listed c live opened) number]

/-- A handler may close a Connection that exists. -/
theorem Consistent.close (consistent : serving.Consistent) (live : serving.Live c) :
    (serving.withSockets (serving.sockets.close List.eraseIdx c).2).Consistent := by
  by_cases closed : serving.sockets.socket c = 0
  · rw [Sockets.close_of_closed _ closed]
    exact consistent
  have sound := consistent.sound.close c
  rw [Sockets.close_of_open closed] at sound ⊢
  have left : ∀ {entry}, entry ∈ Keyed.erase Descriptor.mFd serving.table
      (serving.sockets.socket c) ↔
        entry ∈ serving.table ∧ entry.mFd ≠ serving.sockets.socket c :=
    Keyed.mem_erase consistent.sound.distinct
  have others : ∀ {other}, other ≠ c →
      Function.update serving.sockets.socket c 0 other = serving.sockets.socket other :=
    fun different => Function.update_of_ne different ..
  refine ⟨consistent.protocol, consistent.lost, sound, ?_, fun entry member => ?_,
    fun entry member owner data => ?_, fun other live' opened => ?_, consistent.fresh,
    fun request resume handling => ?_⟩
  · refine left.mpr ⟨consistent.server, fun same => ?_⟩
    have same_entry :=
      consistent.entry_eq consistent.server (consistent.listed c live closed) same
    exact absurd (congrArg Descriptor.mpData same_entry) nofun
  · exact consistent.nulls entry (left.mp member).1
  · obtain ⟨listed, different⟩ := left.mp member
    have apart : owner ≠ c := fun same => different
      ((consistent.owner_iff live closed listed).mp (same ▸ data))
    exact ⟨(consistent.live entry listed owner data).1,
      (others apart).trans (consistent.live entry listed owner data).2⟩
  · have apart : other ≠ c := by
      rintro rfl
      exact opened (Function.update_self ..)
    change Function.update serving.sockets.socket c 0 other ≠ 0 at opened
    rw [others apart] at opened
    have listed := consistent.listed other live' opened
    apply left.mpr
    rw [show Sockets.socket _ other = serving.sockets.socket other from others apart]
    refine ⟨listed, fun same => ?_⟩
    exact apart (Option.some_inj.mp ((consistent.owner_iff live closed listed).mpr same))
  · rcases consistent.pending request resume handling with
      ⟨c', ready, i, content, live', rfl, owner⟩ | other
    · exact Or.inl ⟨c', ready, i, content, live', rfl,
        fun entry member => owner entry (left.mp member).1⟩
    · exact Or.inr other

/-- When the handler of a lost connection returns, the Connection is destroyed and its
descriptor removed. -/
theorem Consistent.destroy (consistent : serving.Consistent) {ready : List Int} {i : Nat}
    (live : serving.Live c)
    (owner : ∀ entry ∈ serving.table, entry.mFd = serving.sockets.acceptedAs c →
      entry.mpData = some c) :
    Consistent
      { serving with
        listening := serving.listening.afterEvent List.eraseIdx ready i
          (serving.sockets.acceptedAs c) true
        destroyed := Function.update serving.destroyed c true } := by
  have left : ∀ {entry}, entry ∈ Keyed.erase Descriptor.mFd serving.table
      (serving.sockets.acceptedAs c) ↔
        entry ∈ serving.table ∧ entry.mFd ≠ serving.sockets.acceptedAs c :=
    Keyed.mem_erase consistent.sound.distinct
  have others : ∀ {other}, Function.update serving.destroyed c true other = false →
      other ≠ c ∧ serving.destroyed other = false := by
    intro other alive
    have apart : other ≠ c := by
      rintro rfl
      rw [Function.update_self] at alive
      cases alive
    rw [Function.update_of_ne apart] at alive
    exact ⟨apart, alive⟩
  have kept : ∀ {other}, other ≠ c → serving.destroyed other = false →
      Function.update serving.destroyed c true other = false :=
    fun apart alive => (Function.update_of_ne apart ..).trans alive
  rw [Listening.afterEvent_lost]
  constructor
  case protocol => exact consistent.protocol
  case lost => exact consistent.lost
  case pending => exact fun request resume handling => nomatch handling
  case sound => exact consistent.sound.unlist Keyed.erase_sublist
  case server =>
      refine left.mpr ⟨consistent.server, fun same => ?_⟩
      cases owner _ consistent.server same
  case nulls => exact fun entry member => consistent.nulls entry (left.mp member).1
  case live =>
      intro entry member other data
      obtain ⟨listed, different⟩ := left.mp member
      obtain ⟨alive, number⟩ := consistent.live entry listed other data
      refine ⟨kept ?_ alive, number⟩
      rintro rfl
      exact different (consistent.sound.number listed data).2
  case listed =>
      rintro other ⟨created, alive⟩ opened
      obtain ⟨apart, alive⟩ := others alive
      have listed := consistent.listed other ⟨created, alive⟩ opened
      exact left.mpr ⟨listed, fun same => apart (Option.some_inj.mp (owner _ listed same))⟩
  case fresh =>
      intro other uncreated
      exact kept (live.1.trans_le uncreated).ne' (consistent.fresh other uncreated)

/-- The agreement is about the sockets, the destroyed Connections and what the
listener never changes. -/
theorem Consistent.frame (consistent : serving.Consistent)
    (config : next.listening.server.config = serving.listening.server.config)
    (sockets : next.sockets = serving.sockets) (destroyed : next.destroyed = serving.destroyed)
    (pending : next.Pending) : next.Consistent := by
  simp only [ServerListener.config, Prod.mk.injEq] at config
  obtain ⟨mSocket, protocol, mask⟩ := config
  have table : next.table = serving.table := congrArg Sockets.mDescriptors sockets
  have live : ∀ c, next.Live c ↔ serving.Live c := by
    intro c
    unfold Live
    rw [sockets, destroyed]
  refine ⟨protocol.trans consistent.protocol, ?_, ?_, ?_, ?_, ?_, ?_, ?_, pending⟩
  · have lost := consistent.lost
    unfold ServerListener.generates at lost ⊢
    rwa [mask]
  · rw [sockets]
    exact consistent.sound
  · rw [mSocket, table]
    exact consistent.server
  · rw [mSocket, table]
    exact consistent.nulls
  · rw [table, destroyed, sockets]
    exact consistent.live
  · intro c alive
    rw [sockets, table]
    exact consistent.listed c ((live c).mp alive)
  · rw [sockets, destroyed]
    exact consistent.fresh

/-- A new client is registered. -/
theorem Consistent.addClient (consistent : serving.Consistent) {clientsocket : Int}
    (free : serving.sockets.fds clientsocket = none)
    (config : next.listening.server.config = serving.listening.server.config)
    (sockets : next.sockets = serving.sockets.addClient clientsocket)
    (destroyed : next.destroyed = serving.destroyed) (pending : next.Pending) :
    next.Consistent := by
  simp only [ServerListener.config, Prod.mk.injEq] at config
  obtain ⟨mSocket, protocol, mask⟩ := config
  have table : ∀ {entry}, entry ∈ next.table ↔
      entry ∈ serving.table ∨ entry = ⟨clientsocket, some serving.sockets.created⟩ := by
    intro entry
    unfold Serving.table
    rw [sockets]
    exact Sockets.mem_addClient
  refine ⟨protocol.trans consistent.protocol, ?_, ?_, ?_, fun entry member null => ?_,
    fun entry member c data => ?_, fun c live opened => ?_, fun c uncreated => ?_, pending⟩
  · have lost := consistent.lost
    unfold ServerListener.generates at lost ⊢
    rwa [mask]
  · rw [sockets]
    exact consistent.sound.addClient free
  · rw [mSocket]
    exact table.mpr (Or.inl consistent.server)
  · rw [mSocket]
    rcases table.mp member with earlier | rfl
    · exact consistent.nulls entry earlier null
    · cases null
  · rw [sockets, destroyed]
    rcases table.mp member with earlier | rfl
    · have created := (consistent.sound.number earlier data).1
      rw [Sockets.addClient_socket_of_lt created]
      exact consistent.live entry earlier c data
    · cases data
      exact ⟨consistent.fresh _ le_rfl, Sockets.addClient_socket_created⟩
  · unfold Live at live
    rw [sockets, destroyed] at live
    rw [sockets] at opened ⊢
    rcases Nat.lt_succ_iff_lt_or_eq.mp live.1 with created | rfl
    · rw [Sockets.addClient_socket_of_lt created] at opened ⊢
      exact table.mpr (Or.inl (consistent.listed c ⟨created, live.2⟩ opened))
    · rw [Sockets.addClient_socket_created]
      exact table.mpr (Or.inr rfl)
  · rw [sockets] at uncreated
    rw [destroyed]
    exact consistent.fresh c ((Nat.le_succ _).trans uncreated)

/-- The steps outside the handler keep the agreement. -/
theorem Consistent.listen (consistent : serving.Consistent) {inner : Listening.Action}
    {after : Listening} {trace : List Happening}
    (step : Listening.Step List.eraseIdx serving.listening inner after)
    (outside : ∀ result, inner ≠ .returned result) :
    Consistent { serving with listening := after, trace := trace } := by
  have config := step.config
  cases step with
  | quiet _ away sockets =>
      refine consistent.frame config sockets rfl fun request resume handling => ?_
      rw [show after.pc = _ from handling] at away
      cases away
  | startShutdown => exact consistent.frame config rfl rfl consistent.pending
  | timeout | datagram | streamData =>
      refine consistent.frame config rfl rfl fun request resume handling => ?_
      cases handling
      exact Or.inr ⟨nofun, fun _ _ _ same => by cases same⟩
  | connected _ _ free =>
      exact consistent.addClient free config rfl rfl fun request resume handling => nomatch handling
  | newConnection _ _ free =>
      refine consistent.addClient free config rfl rfl fun request resume handling => ?_
      cases handling
      exact Or.inr ⟨nofun, fun _ _ _ same => by cases same⟩
  | @connectionLost ready i entry _ _ listed _ client =>
      refine consistent.frame config rfl rfl fun request resume handling => ?_
      have member : entry ∈ serving.table := List.mem_of_getElem? listed
      cases data : entry.mpData with
      | none => exact absurd ⟨consistent.nulls entry member data, consistent.protocol⟩ client
      | some c =>
          obtain ⟨created, number⟩ := consistent.sound.number member data
          rw [data] at handling
          cases handling
          refine Or.inl ⟨c, ready, i, rfl, ⟨created, (consistent.live entry member c data).1⟩,
            by rw [number]; rfl, fun other listed same => ?_⟩
          rw [consistent.entry_eq listed member (same.trans number.symm), data]
  | dropped _ _ _ ignored =>
      rw [consistent.lost] at ignored
      cases ignored
  | returned result => exact absurd rfl (outside result)

/-- The return of the handler keeps the agreement: it removes a lost descriptor
together with its Connection. -/
theorem Consistent.returned (consistent : serving.Consistent) {request : Request} {resume : Resume}
    (result : MSrvResult) (handling : serving.listening.pc = .handling request resume) :
    Consistent
      { serving.deleteRequest List.eraseIdx request with
        listening := (serving.deleteRequest List.eraseIdx request).listening.afterHandler
          List.eraseIdx result resume } := by
  rcases consistent.pending request resume handling with
    ⟨c, ready, i, content, live, rfl, _⟩ | ⟨other, stays⟩
  · have closed := consistent.close live
    rcases closed.pending request _ handling with
      ⟨c', ready', i', content', live', resumed, owner⟩ | ⟨other, _⟩
    · cases content.symm.trans content'
      rw [deleteRequest_of_lost content, resumed]
      exact closed.destroy live' owner
    · exact absurd content (other _)
  · rw [deleteRequest_of_ne_lost other]
    have config := Listening.afterHandler_config List.eraseIdx serving.listening result resume
    obtain ⟨away, ⟨_, sockets⟩ | ⟨ready, i, fd, removing, _⟩⟩ :=
      Listening.afterHandler_cases List.eraseIdx serving.listening result resume
    · refine consistent.frame config sockets rfl fun request resume handling => ?_
      cases (congrArg ListenPc.request? handling).symm.trans away
    · exact absurd removing (stays ready i fd)

/-- Every step of the listener thread keeps table, descriptors and Connections in
agreement. -/
theorem Consistent.step (consistent : serving.Consistent)
    (taken : (machine List.eraseIdx).step serving action = some next) : next.Consistent := by
  cases step_cases taken with
  | close handling live =>
      have closed := consistent.close live
      exact closed.frame rfl rfl rfl closed.pending
  | returned result handling => exact consistent.returned result handling
  | listen step outside => exact consistent.listen step outside

/-! ## From `bind` on -/

/-- The agreement holds when `listen()` is called on a TCP listener bound once. -/
theorem consistent_start {mask flags : Nat} {calls : BindCalls} {server : ServerListener}
    (bound : (ServerListener.construct.setRequestMask mask).bind .TCP flags calls = (0, server))
    (lost : server.generates .connectionLost = true) : (start server).Consistent := by
  obtain ⟨_, rfl⟩ := ServerListener.bind_eq_zero bound
  refine ⟨rfl, lost, Sockets.sound_addServer _, List.mem_singleton_self _, fun entry member _ => ?_,
    fun entry member c data => ?_, fun c live => absurd live.1 (Nat.not_lt_zero _), fun _ _ => rfl,
    fun _ _ handling => nomatch handling⟩
  · rw [List.mem_singleton.mp member]
    rfl
  · rw [List.mem_singleton.mp member] at data
    cases data

/-- `::accept` returns no number 0. -/
def AcceptsNonzero (_ : Serving) : Action → Prop
  | .listen (.event (.accepted clientsocket)) => clientsocket ≠ 0
  | _ => True

/-- No Connection was created with number 0. -/
def Numbered (serving : Serving) : Prop :=
  ∀ c < serving.sockets.created, serving.sockets.acceptedAs c ≠ 0

/-- `close` adds no entry. -/
theorem close_sublist (sockets : Sockets) (c : ConnectionId) :
    (sockets.close List.eraseIdx c).2.mDescriptors.Sublist sockets.mDescriptors := by
  by_cases closed : sockets.socket c = 0
  · rw [Sockets.close_of_closed _ closed]
  · rw [Sockets.close_of_open closed]
    exact Keyed.erase_sublist

variable {serving next : Serving} {action : Action}

/-- The Connections and their numbers after a step: what they were, or one more. -/
theorem numbers_step (taken : (machine List.eraseIdx).step serving action = some next) :
    (next.sockets.created = serving.sockets.created ∧
      next.sockets.acceptedAs = serving.sockets.acceptedAs) ∨
    ∃ clientsocket, action = .listen (.event (.accepted clientsocket)) ∧
      next.sockets = serving.sockets.addClient clientsocket := by
  have ended : ∀ (serving : Serving) (result : MSrvResult) (resume : Resume),
      (serving.listening.afterHandler List.eraseIdx result resume).server.sockets.created =
          serving.sockets.created ∧
        (serving.listening.afterHandler List.eraseIdx result resume).server.sockets.acceptedAs =
          serving.sockets.acceptedAs := by
    intro serving result resume
    obtain ⟨_, ⟨_, same⟩ | ⟨_, _, _, _, removed⟩⟩ :=
      Listening.afterHandler_cases List.eraseIdx serving.listening result resume
    · exact ⟨congrArg Sockets.created same, congrArg Sockets.acceptedAs same⟩
    · rw [removed, Sockets.removeDescriptor_snd]
      exact ⟨rfl, rfl⟩
  cases step_cases taken with
  | close => exact Or.inl (Sockets.close_numbers List.eraseIdx _ _)
  | @returned request resume result handling =>
      left
      have deleted : (serving.deleteRequest List.eraseIdx request).sockets.created =
          serving.sockets.created ∧
            (serving.deleteRequest List.eraseIdx request).sockets.acceptedAs =
              serving.sockets.acceptedAs := by
        unfold deleteRequest
        split
        · exact Sockets.close_numbers List.eraseIdx _ _
        · exact ⟨rfl, rfl⟩
      have after := ended (serving.deleteRequest List.eraseIdx request) result resume
      exact ⟨after.1.trans deleted.1, after.2.trans deleted.2⟩
  | listen step outside =>
      cases step with
      | quiet _ _ sockets =>
          exact Or.inl ⟨congrArg Sockets.created sockets, congrArg Sockets.acceptedAs sockets⟩
      | connected | newConnection => exact Or.inr ⟨_, rfl, rfl⟩
      | dropped =>
          left
          simp only [sockets, Listening.afterEvent_lost, and_self]
      | returned result => exact absurd rfl (outside result)
      | _ => exact Or.inl ⟨rfl, rfl⟩

theorem Numbered.step (numbered : serving.Numbered) (nonzero : serving.AcceptsNonzero action)
    (taken : (machine List.eraseIdx).step serving action = some next) : next.Numbered := by
  intro c created
  rcases numbers_step taken with ⟨same, numbers⟩ | ⟨clientsocket, rfl, added⟩
  · rw [numbers]
    exact numbered c (same ▸ created)
  · rw [added] at created ⊢
    rcases Nat.lt_succ_iff_lt_or_eq.mp created with earlier | rfl
    · rw [Sockets.addClient_acceptedAs_of_lt earlier]
      exact numbered c earlier
    · rw [Sockets.addClient_acceptedAs_created]
      exact nonzero

/-- The table is in order: distinct open descriptors, one entry for the server
socket, one for every Connection that has a socket, and nothing else; and an
iterator visits the Connections that have a socket, each once, in the order of
the table. -/
structure InOrder (serving : Serving) : Prop where
  distinct : (serving.table.map Descriptor.mFd).Nodup
  opened : ∀ entry ∈ serving.table, serving.sockets.fds entry.mFd ≠ none
  server : (serving.table.filter fun entry => entry.mFd = serving.listening.server.mSocket) =
    [⟨serving.listening.server.mSocket, none⟩]
  clients : ∀ entry ∈ serving.table, entry.mFd ≠ serving.listening.server.mSocket →
    ∃ c, entry.mpData = some c ∧ serving.Live c ∧ serving.sockets.socket c = entry.mFd
  listed : ∀ c, serving.Live c → serving.sockets.socket c ≠ 0 →
    (serving.table.filter fun entry => entry.mpData = some c) =
      [⟨serving.sockets.socket c, some c⟩]
  iterated : ∃ visited : List ConnectionId,
    ConnIter.visits serving.table.length (.create serving.listening.server) =
        visited.map some ∧
      visited.map some = (serving.table.filter fun entry =>
        entry.mFd ≠ serving.listening.server.mSocket).map Descriptor.mpData ∧
      visited.Nodup ∧ ∀ c, c ∈ visited ↔ serving.Live c ∧ serving.sockets.socket c ≠ 0

/-- Every entry but that of the server socket belongs to a Connection that exists. -/
theorem Consistent.client (consistent : serving.Consistent) {entry : Descriptor}
    (listed : entry ∈ serving.table) (different : entry.mFd ≠ serving.listening.server.mSocket) :
    ∃ c, entry.mpData = some c ∧ serving.Live c ∧ serving.sockets.socket c = entry.mFd := by
  cases data : entry.mpData with
  | none => exact absurd (consistent.nulls entry listed data) different
  | some c =>
      obtain ⟨alive, number⟩ := consistent.live entry listed c data
      exact ⟨c, rfl, ⟨(consistent.sound.number listed data).1, alive⟩, number⟩

/-- The data of entries that all belong to Connections. -/
theorem map_some_filterMap {entries : List Descriptor}
    (clients : ∀ entry ∈ entries, ∃ c, entry.mpData = some c) :
    (entries.filterMap Descriptor.mpData).map some = entries.map Descriptor.mpData := by
  induction entries with
  | nil => rfl
  | cons entry rest ih =>
      obtain ⟨c, data⟩ := clients entry List.mem_cons_self
      rw [List.filterMap_cons_some data, List.map_cons, List.map_cons, data,
        ih fun other member => clients other (List.mem_cons_of_mem _ member)]

/-- Table, descriptors and Connections in agreement, and no number 0: the table
is in order. -/
theorem Consistent.inOrder (consistent : serving.Consistent) (numbered : serving.Numbered) :
    serving.InOrder where
  distinct := consistent.sound.distinct
  opened entry member := by
    rw [consistent.sound.entries entry member]
    exact Option.some_ne_none _
  server := Keyed.filter_key consistent.sound.distinct consistent.server
  clients entry member different := consistent.client member different
  listed c live opened := by
    rw [List.filter_congr fun entry member =>
      decide_eq_decide.mpr (consistent.owner_iff live opened member)]
    exact Keyed.filter_key consistent.sound.distinct (consistent.listed c live opened)
  iterated := by
    have clients : ∀ entry ∈ serving.table.filter fun entry =>
        entry.mFd ≠ serving.listening.server.mSocket,
        entry ∈ serving.table ∧
          ∃ c, entry.mpData = some c ∧ serving.Live c ∧ serving.sockets.socket c = entry.mFd := by
      intro entry member
      obtain ⟨listed, different⟩ := List.mem_filter.mp member
      exact ⟨listed, consistent.client listed (of_decide_eq_true different)⟩
    have visited := map_some_filterMap fun entry member =>
      (clients entry member).2.imp fun _ => And.left
    refine ⟨_, (ConnIter.visits_create _).trans visited.symm, visited, ?_, fun c => ?_⟩
    · refine List.Nodup.of_map some (visited ▸ List.Nodup.map_on ?_
        ((List.Nodup.of_map _ consistent.sound.distinct).filter _))
      intro first here second there same
      obtain ⟨listed, c, data, _, number⟩ := clients first here
      obtain ⟨listed', c', data', _, number'⟩ := clients second there
      rw [data, data'] at same
      cases same
      exact consistent.entry_eq listed listed' (number.symm.trans number')
    · rw [List.mem_filterMap]
      constructor
      · rintro ⟨entry, member, data⟩
        obtain ⟨listed, c', data', live, number⟩ := clients entry member
        cases data.symm.trans data'
        refine ⟨live, ?_⟩
        rw [number, (consistent.sound.number listed data).2]
        exact numbered c live.1
      · rintro ⟨live, opened⟩
        have listed := consistent.listed c live opened
        refine ⟨_, List.mem_filter.mpr ⟨listed, decide_eq_true fun same => ?_⟩, rfl⟩
        have same_entry := consistent.entry_eq listed consistent.server same
        exact absurd (congrArg Descriptor.mpData same_entry) nofun

/-- In every state that the listener thread reaches from a TCP listener bound
once, with `ConnectionLost` requests enabled, the table is in order. -/
theorem inOrder_of_run (mask flags : Nat) (calls : BindCalls) {server : ServerListener}
    (bound : (ServerListener.construct.setRequestMask mask).bind .TCP flags calls = (0, server))
    (lost : server.generates .connectionLost = true) (actions : List Action)
    (nonzero : (machine List.eraseIdx).Steps AcceptsNonzero (start server) actions)
    (ran : (machine List.eraseIdx).run (start server) actions = some serving) :
    serving.InOrder := by
  have both : serving.Consistent ∧ serving.Numbered := by
    refine (machine List.eraseIdx).run_invariant
      (fun serving => serving.Consistent ∧ serving.Numbered)
      (fun _ _ _ ⟨consistent, numbered⟩ nonzero taken =>
        ⟨consistent.step taken, numbered.step nonzero taken⟩) ?_ nonzero ran
    refine ⟨consistent_start bound lost, fun c created => ?_⟩
    obtain ⟨_, rfl⟩ := ServerListener.bind_eq_zero bound
    exact absurd created (Nat.not_lt_zero _)
  exact both.1.inOrder both.2

/-- A client comes, and its handler closes the Connection it is told of. -/
theorem inOrder_of_run_accepted :
    ∃ serving, (machine List.eraseIdx).run (start ServerListener.sample)
        [.listen .build, .listen (.selectReady [3]), .listen (.event (.accepted 5)), .close 0,
          .returned 0] = some serving ∧
      serving.table = [⟨3, none⟩] ∧ serving.InOrder := by
  refine ⟨_, rfl, rfl, inOrder_of_run ServerListener.defaultMask 0 ⟨3, 0, 0, 0⟩
    (show _ = (0, ServerListener.sample) from rfl) rfl
    [.listen .build, .listen (.selectReady [3]), .listen (.event (.accepted 5)), .close 0,
      .returned 0] ?_ rfl⟩
  repeat rw [Machine.steps_cons _ rfl]
  exact ⟨trivial, trivial, show (5 : Int) ≠ 0 by decide, trivial, trivial, trivial⟩

end Serving

end MSrv
