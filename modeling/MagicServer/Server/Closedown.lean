import MagicServer.Library.RecursiveLock
import MagicServer.Server.Shutdown

/-!
# What `shutdown()` leaves

A call of `ServerListener::shutdown()` by one thread, over a table that is a
list. Every number is either still that of its Connection or has been passed to
`::close` once; the lock of the listener stays with the thread twice for every
call of `ServerListener::close`.
-/

namespace MSrv

/-- A bound TCP listener between two calls. A Connection with a socket has it
open, whether or not it still has an entry in the table. -/
structure ServerListener.Bound (server : ServerListener) : Prop where
  protocol : server.mProtocol = .TCP
  sound : server.sockets.Sound
  opened : server.sockets.fds server.mSocket = some .server
  nulls : ∀ entry ∈ server.sockets.mDescriptors, entry.mpData = none →
    entry.mFd = server.mSocket
  clients : ∀ fd c, server.sockets.fds fd = some (.client c) → server.sockets.socket c = fd
  owns : ∀ c, server.sockets.socket c ≠ 0 →
    server.sockets.fds (server.sockets.socket c) = some (.client c)

/-- A call that closes a Connection. -/
inductive CloseCall where
  /-- `Connection::close`. -/
  | connection (c : ConnectionId)
  /-- `ServerListener::close`. -/
  | listener (pConn : Option ConnectionId)
  deriving DecidableEq

namespace CloseCall

/-- The Connection that the call closes. -/
def target : CloseCall → Option ConnectionId
  | .connection c => some c
  | .listener pConn => pConn

/-- How often the thread holds `mThreadLock` more often after the call. -/
def holds : CloseCall → Nat
  | .listener (some _) => 2
  | .listener none | .connection _ => 0

end CloseCall

/-- The listener, its lock, and the numbers passed to `::close` so far. -/
structure Closedown (Thread : Type*) where
  server : ServerListener
  mThreadLock : RecursiveLock Thread
  passed : List Int

namespace Closedown

variable {Thread : Type*}

def sockets (state : Closedown Thread) : Sockets := state.server.sockets

def withSockets (state : Closedown Thread) (sockets : Sockets) : Closedown Thread :=
  { state with server := { state.server with sockets := sockets } }

/-- `::close`. -/
def closeFd (state : Closedown Thread) (fd : Int) : Closedown Thread :=
  { state.withSockets (state.sockets.closeFd fd) with passed := state.passed ++ [fd] }

/-- What closing a Connection does, but for the lock. -/
def closed (state : Closedown Thread) (c : ConnectionId) : Closedown Thread :=
  if state.sockets.socket c = 0 then state
  else
    { state.withSockets (state.sockets.close List.eraseIdx c).2 with
      passed := state.passed ++ [state.sockets.socket c] }

/-- The calls that the loop of `shutdown()` makes over its iterator. -/
def loop (state : Closedown Thread) : List CloseCall :=
  ((ConnIter.create state.server).visits state.sockets.mDescriptors.length).map .listener

section Calls

variable [DecidableEq Thread] (thread : Thread)

/-- `Listener::removeDescriptor`; there is no result while another thread holds
the lock. -/
def removeDescriptor (state : Closedown Thread) (fd : Int) :
    Option (MSrvResult × Closedown Thread) :=
  (state.mThreadLock.take thread).map fun lock =>
    let (result, sockets) := state.sockets.removeDescriptor List.eraseIdx fd
    (result, { state.withSockets sockets with mThreadLock := lock.release thread })

/-- `Connection::close`. -/
def connectionClose (state : Closedown Thread) (c : ConnectionId) :
    Option (MSrvResult × Closedown Thread) :=
  if state.sockets.socket c = 0 then some (MSRVERR_CONNECTION_NO_SOCKET, state)
  else
    (state.removeDescriptor thread (state.sockets.socket c)).map fun (result, state) =>
      let state := state.closeFd (state.sockets.socket c)
      (result, state.withSockets (state.sockets.clearSocket c))

/-- `ServerListener::close`: `lock ()`, `close ()`, and `lock ()` again. -/
def listenerClose (state : Closedown Thread) :
    Option ConnectionId → Option (MSrvResult × Closedown Thread)
  | none => some (MSRVERR_NULL_ARGUMENT, state)
  | some pConn =>
      (state.mThreadLock.take thread).bind fun lock =>
        (connectionClose thread { state with mThreadLock := lock } pConn).bind fun (_, state) =>
          (state.mThreadLock.take thread).map fun lock => (0, { state with mThreadLock := lock })

/-- One of the two, without its result. -/
def call (state : Closedown Thread) : CloseCall → Option (Closedown Thread)
  | .connection c => (state.connectionClose thread c).map Prod.snd
  | .listener pConn => (state.listenerClose thread pConn).map Prod.snd

/-- Several of them. -/
def calls (state : Closedown Thread) : List CloseCall → Option (Closedown Thread)
  | [] => some state
  | first :: rest => (state.call thread first).bind fun state => state.calls rest

/-- What `shutdown()` does when the handler has been told. -/
def closeDown (state : Closedown Thread) : Option (Closedown Thread) :=
  (state.calls thread state.loop).bind fun state =>
    let state := state.closeFd state.server.mSocket
    (state.removeDescriptor thread state.server.mSocket).map Prod.snd

/-- Performs shutdown of the ServerListener. `process` is what the handler
returns, and the calls it makes when it gets the request. -/
def shutdown (server : ServerListener) (mThreadLock : RecursiveLock Thread)
    (process : MSrvResult × List CloseCall) : Option (MSrvResult × Closedown Thread) :=
  match server.generate .shutdown (-1) .shutdown with
  | (some _, server) =>
      (calls thread ⟨server, mThreadLock, []⟩ process.2).bind fun state =>
        (state.closeDown thread).map fun state => (process.1, state)
  | (none, server) => (closeDown thread ⟨server, mThreadLock, []⟩).map fun state => (0, state)

/-- The calls that the handler makes, if it gets a request. -/
def told (server : ServerListener) (process : MSrvResult × List CloseCall) : List CloseCall :=
  if server.generates .shutdown then process.2 else []

end Calls

/-! ## What one call does -/

variable {state after : Closedown Thread} {c : ConnectionId}

theorem closed_of_closed (shut : state.sockets.socket c = 0) : state.closed c = state := if_pos shut

theorem closed_of_open (opened : state.sockets.socket c ≠ 0) : state.closed c =
    { state.withSockets (state.sockets.close List.eraseIdx c).2 with
      passed := state.passed ++ [state.sockets.socket c] } := if_neg opened

@[simp] theorem closed_mThreadLock : (state.closed c).mThreadLock = state.mThreadLock := by
  unfold closed
  split <;> rfl

theorem closed_withLock (lock : RecursiveLock Thread) :
    closed { state with mThreadLock := lock } c = { state.closed c with mThreadLock := lock } := by
  by_cases shut : state.sockets.socket c = 0
  · rw [closed_of_closed shut, @closed_of_closed _ { state with mThreadLock := lock } c shut]
  · rw [closed_of_open shut, @closed_of_open _ { state with mThreadLock := lock } c shut]
    rfl

theorem closed_server (c : ConnectionId) : (state.closed c).server =
    { state.server with sockets := (state.sockets.close List.eraseIdx c).2 } := by
  unfold closed
  split_ifs with shut
  · rw [Sockets.close_of_closed _ shut]
    rfl
  · rfl

section Effects

variable [DecidableEq Thread] {thread : Thread}

theorem removeDescriptor_eq (state : Closedown Thread)
    (available : state.mThreadLock.Available thread) (fd : Int) :
    state.removeDescriptor thread fd =
      some ((state.sockets.removeDescriptor List.eraseIdx fd).1,
        state.withSockets (state.sockets.removeDescriptor List.eraseIdx fd).2) := by
  obtain ⟨lock, taken, _, _, released⟩ := available.take
  unfold removeDescriptor
  rw [taken, Option.map_some, released]
  rfl

/-- `Connection::close` lets the lock go that it has taken. -/
theorem connectionClose_eq (state : Closedown Thread)
    (available : state.mThreadLock.Available thread) (c : ConnectionId) :
    (state.connectionClose thread c).map Prod.snd = some (state.closed c) := by
  unfold connectionClose
  split_ifs with shut
  · rw [closed_of_closed shut]
    rfl
  · rw [removeDescriptor_eq state available, closed_of_open shut, Sockets.close_of_ne_zero shut,
      Sockets.removeDescriptor_snd]
    rfl

/-- `ServerListener::close` has taken the lock twice when it returns. -/
theorem listenerClose_eq (available : state.mThreadLock.Available thread) (c : ConnectionId) :
    ∃ lock, (state.listenerClose thread (some c)).map Prod.snd =
        some { state.closed c with mThreadLock := lock } ∧
      lock.Available thread ∧ lock.count thread = state.mThreadLock.count thread + 2 := by
  obtain ⟨once, taken, held, count, _⟩ := available.take
  obtain ⟨twice, taken', held', count', _⟩ := held.take
  refine ⟨twice, ?_, held', by rw [count', count]⟩
  obtain ⟨⟨result, after⟩, shut, same⟩ := Option.map_eq_some_iff.mp
    (connectionClose_eq { state with mThreadLock := once } held c)
  rw [closed_withLock] at same
  subst same
  simp only [listenerClose, taken, Option.bind_some, shut, taken', Option.map_some]

/-- A call closes its Connection, and holds the lock more often as `holds` says. -/
theorem call_eq (available : state.mThreadLock.Available thread) (call : CloseCall) :
    ∃ lock, state.call thread call =
        some { call.target.elim state state.closed with mThreadLock := lock } ∧
      lock.Available thread ∧
      lock.count thread = state.mThreadLock.count thread + call.holds := by
  cases call with
  | connection c =>
      refine ⟨(state.closed c).mThreadLock, connectionClose_eq state available c, ?_, ?_⟩
      · rwa [closed_mThreadLock]
      · rw [closed_mThreadLock]
        rfl
  | listener pConn =>
      cases pConn with
      | none => exact ⟨state.mThreadLock, rfl, available, rfl⟩
      | some c => exact listenerClose_eq available c

end Effects

/-! ## Numbers that are still open or have been passed -/

end Closedown

namespace ServerListener.Bound

variable {server : ServerListener}

/-- Two Connections with a socket have different numbers. -/
theorem eq_of_socket_eq (bound : server.Bound) {c c' : ConnectionId}
    (opened : server.sockets.socket c ≠ 0)
    (same : server.sockets.socket c = server.sockets.socket c') : c = c' := by
  have here := bound.owns c opened
  have there := bound.owns c' (same ▸ opened)
  rw [same, there] at here
  cases here
  rfl

/-- The number of a Connection is not that of the server socket. -/
theorem socket_ne (bound : server.Bound) {c : ConnectionId}
    (opened : server.sockets.socket c ≠ 0) : server.sockets.socket c ≠ server.mSocket := by
  intro same
  have here := bound.owns c opened
  rw [same, bound.opened] at here
  cases here

/-- The entry of a Connection has the number that the Connection has. -/
theorem live (bound : server.Bound) {entry : Descriptor}
    (listed : entry ∈ server.sockets.mDescriptors) {c : ConnectionId}
    (data : entry.mpData = some c) : server.sockets.socket c = entry.mFd := by
  apply bound.clients
  rw [bound.sound.entries entry listed, Descriptor.file_eq_client.mpr data]

/-- It is not that of the server socket. -/
theorem ne_of_data (bound : server.Bound) {entry : Descriptor}
    (listed : entry ∈ server.sockets.mDescriptors) {c : ConnectionId}
    (data : entry.mpData = some c) : entry.mFd ≠ server.mSocket := by
  intro same
  have file := bound.sound.entries entry listed
  rw [same, bound.opened, Descriptor.file_eq_client.mpr data] at file
  cases file

/-- A Connection may be closed. -/
theorem close (bound : server.Bound) (c : ConnectionId) :
    Bound { server with sockets := (server.sockets.close List.eraseIdx c).2 } := by
  by_cases shut : server.sockets.socket c = 0
  · rwa [Sockets.close_of_closed _ shut]
  have sound := bound.sound.close c
  rw [Sockets.close_of_open shut] at sound ⊢
  have left : ∀ {entry}, entry ∈ Keyed.erase Descriptor.mFd server.sockets.mDescriptors
      (server.sockets.socket c) ↔
        entry ∈ server.sockets.mDescriptors ∧ entry.mFd ≠ server.sockets.socket c :=
    Keyed.mem_erase bound.sound.distinct
  have others : ∀ {other}, other ≠ c →
      Function.update server.sockets.socket c 0 other = server.sockets.socket other :=
    fun different => Function.update_of_ne different ..
  refine ⟨bound.protocol, sound, ?_, fun entry member => ?_, fun fd owner client => ?_,
    fun other opened => ?_⟩
  · exact (Function.update_of_ne (bound.socket_ne shut).symm ..).trans bound.opened
  · exact bound.nulls entry (left.mp member).1
  · have apart : fd ≠ server.sockets.socket c := by
      rintro rfl
      change Function.update _ _ _ _ = _ at client
      rw [Function.update_self] at client
      cases client
    have number := bound.clients fd owner ((Function.update_of_ne apart ..).symm.trans client)
    refine (others ?_).trans number
    rintro rfl
    exact apart number.symm
  · have apart : other ≠ c := by
      rintro rfl
      exact opened (Function.update_self ..)
    change Function.update server.sockets.socket c 0 other ≠ 0 at opened
    rw [others apart] at opened
    change Function.update server.sockets.fds _ none
      (Function.update server.sockets.socket c 0 other) = _
    rw [others apart, Function.update_of_ne]
    · exact bound.owns other opened
    · exact fun same => apart (bound.eq_of_socket_eq opened same)

/-- A listener is bound after `bind`. -/
theorem of_bind {calls : BindCalls} {flags : Nat}
    (result : ServerListener.construct.bind .TCP flags calls = (0, server)) : server.Bound := by
  obtain ⟨_, rfl⟩ := bind_eq_zero result
  refine ⟨rfl, Sockets.sound_addServer _, Function.update_self .., fun entry member _ => ?_,
    fun fd c client => ?_, fun c opened => absurd rfl opened⟩
  · exact congrArg Descriptor.mFd (List.mem_singleton.mp member)
  · change Function.update _ _ _ fd = _ at client
    rw [Function.update_apply] at client
    split at client <;> cases client

/-- A client may be accepted. -/
theorem accept (bound : server.Bound) {clientsocket : Int}
    (unopened : server.sockets.fds clientsocket = none) :
    Bound { server with sockets := server.sockets.addClient clientsocket } where
  protocol := bound.protocol
  sound := bound.sound.addClient unopened
  opened := (Sockets.addClient_fds_of_ne (Sockets.ne_of_free unopened bound.opened)).trans
    bound.opened
  nulls entry member data := by
    rcases Sockets.mem_addClient.mp member with earlier | rfl
    · exact bound.nulls entry earlier data
    · cases data
  clients fd c client := by
    by_cases new : fd = clientsocket
    · subst new
      rw [Sockets.addClient_fds_self] at client
      cases client
      exact Sockets.addClient_socket_created
    · rw [Sockets.addClient_fds_of_ne new] at client
      have created := (bound.sound.clients fd c client).1
      exact (Sockets.addClient_socket_of_lt created).trans (bound.clients fd c client)
  owns c opened := by
    change (server.sockets.addClient clientsocket).socket c ≠ 0 at opened
    change (server.sockets.addClient clientsocket).fds
      ((server.sockets.addClient clientsocket).socket c) = _
    by_cases new : c = server.sockets.created
    · rw [new, Sockets.addClient_socket_created, Sockets.addClient_fds_self]
    · have same : (server.sockets.addClient clientsocket).socket c = server.sockets.socket c :=
        Function.update_of_ne new ..
      rw [same] at opened ⊢
      have owned := bound.owns c opened
      rw [Sockets.addClient_fds_of_ne (Sockets.ne_of_free unopened owned), owned]

/-- The entry of a client whose stream has ended may be removed without closing
its Connection. -/
theorem unlist (bound : server.Bound) (fd : Int) :
    Bound { server with sockets := (server.sockets.removeDescriptor List.eraseIdx fd).2 } := by
  have fewer : (server.sockets.removeDescriptor List.eraseIdx fd).2.mDescriptors.Sublist
      server.sockets.mDescriptors := by
    rw [Sockets.removeDescriptor_eraseIdx]
    exact Keyed.erase_sublist
  rw [Sockets.removeDescriptor_snd]
  exact ⟨bound.protocol, bound.sound.unlist fewer, bound.opened,
    fun entry member => bound.nulls entry (fewer.subset member), bound.clients, bound.owns⟩

end ServerListener.Bound

namespace Closedown

variable {Thread : Type*} {start : ServerListener} {state : Closedown Thread} {c : ConnectionId}

/-- How far the Connections that had a socket at the start are closed. -/
structure Progress (start : ServerListener) (state : Closedown Thread) : Prop where
  bound : state.server.Bound
  mSocket : state.server.mSocket = start.mSocket
  unpassed : start.mSocket ∉ state.passed
  zero : 0 ∉ state.passed
  clients : ∀ c, start.sockets.socket c ≠ 0 →
    (state.sockets.socket c = start.sockets.socket c ∧
        start.sockets.socket c ∉ state.passed) ∨
      (state.sockets.socket c = 0 ∧ state.passed.count (start.sockets.socket c) = 1)
  shut : ∀ c, start.sockets.socket c = 0 → state.sockets.socket c = 0
  fewer : state.sockets.mDescriptors.Sublist start.sockets.mDescriptors
  kept : ∀ entry ∈ start.sockets.mDescriptors, ∀ c, entry.mpData = some c →
    state.sockets.socket c = start.sockets.socket c → entry ∈ state.sockets.mDescriptors

/-- The handler is told with a request that changes no socket. -/
theorem Progress.refl (bound : start.Bound) (mThreadLock : RecursiveLock Thread) (requests : Nat) :
    Progress start ⟨{ start with requests := requests }, mThreadLock, []⟩ where
  bound := ⟨bound.protocol, bound.sound, bound.opened, bound.nulls, bound.clients, bound.owns⟩
  mSocket := rfl
  unpassed := List.not_mem_nil
  zero := List.not_mem_nil
  clients _ _ := Or.inl ⟨rfl, List.not_mem_nil⟩
  shut _ shut := shut
  fewer := .refl _
  kept _ listed _ _ _ := listed

/-- Progress does not depend on the lock. -/
theorem Progress.withLock (progress : Progress start state) (lock : RecursiveLock Thread) :
    Progress start { state with mThreadLock := lock } :=
  ⟨progress.bound, progress.mSocket, progress.unpassed, progress.zero, progress.clients,
    progress.shut, progress.fewer, progress.kept⟩

/-- A Connection with a socket has had it from the start, and it has not been passed. -/
theorem Progress.number (progress : Progress start state) (opened : state.sockets.socket c ≠ 0) :
    state.sockets.socket c = start.sockets.socket c ∧ start.sockets.socket c ≠ 0 ∧
      start.sockets.socket c ∉ state.passed := by
  have opened' : start.sockets.socket c ≠ 0 := fun shut => opened (progress.shut c shut)
  rcases progress.clients c opened' with ⟨same, unpassed⟩ | ⟨shut, _⟩
  · exact ⟨same, opened', unpassed⟩
  · exact absurd shut opened

theorem closed_sockets (c : ConnectionId) :
    (state.closed c).sockets = (state.sockets.close List.eraseIdx c).2 :=
  congrArg ServerListener.sockets (closed_server c)

theorem closed_socket_self (c : ConnectionId) : (state.closed c).sockets.socket c = 0 := by
  rw [closed_sockets]
  by_cases shut : state.sockets.socket c = 0
  · rwa [Sockets.close_of_closed _ shut]
  · rw [Sockets.close_of_open shut]
    exact Function.update_self ..

theorem closed_socket_of_ne {other : ConnectionId} (different : other ≠ c) :
    (state.closed c).sockets.socket other = state.sockets.socket other := by
  rw [closed_sockets]
  by_cases shut : state.sockets.socket c = 0
  · rw [Sockets.close_of_closed _ shut]
  · rw [Sockets.close_of_open shut]
    exact Function.update_of_ne different ..

/-- Closing one more Connection. -/
theorem Progress.closed (progress : Progress start state) (bound : start.Bound)
    (c : ConnectionId) : Progress start (state.closed c) := by
  by_cases shut : state.sockets.socket c = 0
  · rwa [closed_of_closed shut]
  obtain ⟨same, opened, unpassed⟩ := progress.number shut
  have passed : (state.closed c).passed = state.passed ++ [start.sockets.socket c] := by
    rw [closed_of_open shut, same]
  refine ⟨?_, ?_, ?_, ?_, fun other opened' => ?_, fun other shut' => ?_, ?_,
    fun entry listed owner data kept => ?_⟩
  · rw [closed_server]
    exact progress.bound.close c
  · rw [closed_server]
    exact progress.mSocket
  · rw [passed, List.mem_append, List.mem_singleton, not_or]
    exact ⟨progress.unpassed, (bound.socket_ne opened).symm⟩
  · rw [passed, List.mem_append, List.mem_singleton, not_or]
    exact ⟨progress.zero, opened.symm⟩
  · rw [passed, List.mem_append, List.mem_singleton, List.count_append]
    by_cases mine : other = c
    · subst mine
      right
      rw [List.count_eq_zero.mpr unpassed, List.count_singleton_self]
      exact ⟨closed_socket_self other, rfl⟩
    · have apart : start.sockets.socket other ≠ start.sockets.socket c :=
        fun number => mine (bound.eq_of_socket_eq opened' number)
      rw [closed_socket_of_ne mine, List.count_singleton, if_neg (by simpa using apart.symm)]
      exact (progress.clients other opened').imp_left
        fun ⟨still, absent⟩ => ⟨still, not_or.mpr ⟨absent, apart⟩⟩
  · by_cases mine : other = c
    · rw [mine, closed_socket_self]
    · rw [closed_socket_of_ne mine]
      exact progress.shut other shut'
  · rw [closed_sockets, Sockets.close_of_open shut]
    exact Keyed.erase_sublist.trans progress.fewer
  · have mine : owner ≠ c := by
      rintro rfl
      rw [closed_socket_self] at kept
      exact opened kept.symm
    rw [closed_socket_of_ne mine] at kept
    rw [closed_sockets, Sockets.close_of_open shut]
    refine (Keyed.mem_erase progress.bound.sound.distinct).mpr
      ⟨progress.kept entry listed owner data kept, fun number => mine ?_⟩
    have live := bound.live listed data
    rw [number, same] at live
    exact (bound.eq_of_socket_eq opened live.symm).symm

/-! ## Several calls -/

section Calls

variable [DecidableEq Thread] {thread : Thread}

/-- What several calls do. -/
structure Effect (thread : Thread) (start : ServerListener) (made : List CloseCall)
    (state after : Closedown Thread) : Prop where
  progress : Progress start after
  available : after.mThreadLock.Available thread
  count : after.mThreadLock.count thread =
    state.mThreadLock.count thread + (made.map CloseCall.holds).sum
  hit : ∀ call ∈ made, ∀ c, call.target = some c → after.sockets.socket c = 0
  missed : ∀ c, (∀ call ∈ made, call.target ≠ some c) →
    after.sockets.socket c = state.sockets.socket c

/-- One call. -/
theorem call_effect (bound : start.Bound) (progress : Progress start state)
    (available : state.mThreadLock.Available thread) (call : CloseCall) :
    ∃ after, state.call thread call = some after ∧ Effect thread start [call] state after := by
  obtain ⟨lock, called, available', count⟩ := call_eq available call
  refine ⟨_, called, ?_, available', ?_, fun other member c target => ?_, fun c missed => ?_⟩
  · apply Progress.withLock
    cases call.target with
    | none => exact progress
    | some c => exact progress.closed bound c
  · rw [List.map_singleton, List.sum_singleton]
    exact count
  · rw [List.mem_singleton.mp member] at target
    rw [target]
    exact closed_socket_self c
  · have other := missed call List.mem_cons_self
    cases target : call.target with
    | none => rfl
    | some hit =>
        rw [target] at other
        exact closed_socket_of_ne fun same => other (congrArg some same.symm)

/-- Several calls, one after the other. -/
theorem calls_effect (bound : start.Bound) (made : List CloseCall)
    (progress : Progress start state) (available : state.mThreadLock.Available thread) :
    ∃ after, state.calls thread made = some after ∧ Effect thread start made state after := by
  induction made generalizing state with
  | nil =>
      refine ⟨state, rfl, progress, available, rfl, fun call member => ?_, fun _ _ => rfl⟩
      exact absurd member List.not_mem_nil
  | cons call rest ih =>
      obtain ⟨middle, called, first⟩ := call_effect bound progress available call
      obtain ⟨after, later, second⟩ := ih first.progress first.available
      refine ⟨after, ?_, second.progress, second.available, ?_, fun other member c target => ?_,
        fun c missed => ?_⟩
      · rw [calls, called]
        exact later
      · rw [second.count, first.count, List.map_singleton, List.sum_singleton, List.map_cons,
          List.sum_cons, Nat.add_assoc]
      · by_cases again : ∃ call ∈ rest, call.target = some c
        · obtain ⟨call', member', target'⟩ := again
          exact second.hit call' member' c target'
        · rw [second.missed c fun call' member' target' => again ⟨call', member', target'⟩]
          rcases List.mem_cons.mp member with rfl | member'
          · exact first.hit other List.mem_cons_self c target
          · exact absurd ⟨other, member', target⟩ again
      · rw [second.missed c fun call' member' => missed call' (List.mem_cons_of_mem _ member')]
        apply first.missed
        intro call' member'
        rw [List.mem_singleton.mp member']
        exact missed call List.mem_cons_self

end Calls

/-! ## The loop over the clients -/

/-- The entries of clients, which the iterator visits. -/
def visited (server : ServerListener) : List Descriptor :=
  server.sockets.mDescriptors.filter fun entry => entry.mFd ≠ server.mSocket

theorem loop_eq (state : Closedown Thread) :
    state.loop = (visited state.server).map fun entry => .listener entry.mpData := by
  unfold loop
  rw [sockets, ConnIter.visits_create, List.map_map]
  rfl

theorem mem_visited (bound : start.Bound) {entry : Descriptor} : entry ∈ visited start ↔
    entry ∈ start.sockets.mDescriptors ∧ ∃ c, entry.mpData = some c := by
  rw [visited, List.mem_filter, decide_eq_true_iff]
  apply and_congr_right
  intro listed
  constructor
  · intro client
    exact Option.ne_none_iff_exists'.mp fun null => client (bound.nulls entry listed null)
  · rintro ⟨c, data⟩
    exact bound.ne_of_data listed data

/-- The loop takes the lock twice for every client, and does not let it go. -/
theorem loop_holds (bound : state.server.Bound) :
    (state.loop.map CloseCall.holds).sum = 2 * (visited state.server).length := by
  have two : ∀ entry ∈ visited state.server,
      (CloseCall.holds ∘ fun entry => .listener entry.mpData) entry = 2 := by
    intro entry member
    obtain ⟨_, c, data⟩ := (mem_visited bound).mp member
    rw [Function.comp_apply, data]
    rfl
  rw [loop_eq, List.map_map, List.map_congr_left two, List.map_const',
    List.sum_replicate_nat, Nat.mul_comm]

/-! ## The whole call -/

/-- The server socket is closed, and its entry removed. -/
def withoutServer (state : Closedown Thread) : Closedown Thread :=
  (state.closeFd state.server.mSocket).withSockets
    ((state.sockets.closeFd state.server.mSocket).removeDescriptor List.eraseIdx
      state.server.mSocket).2

/-- What `shutdown()` has done then. -/
structure Ended (start : ServerListener) (middle after : Closedown Thread) : Prop where
  table : after.sockets.mDescriptors =
    Keyed.erase Descriptor.mFd middle.sockets.mDescriptors start.mSocket
  socket : after.sockets.socket = middle.sockets.socket
  passed : after.passed = middle.passed ++ [start.mSocket]
  lock : after.mThreadLock = middle.mThreadLock

/-- Nothing is watched or open any more, and every client socket and the server
socket have been passed to `::close` once. -/
structure Emptied (start : ServerListener) (final : Closedown Thread) : Prop where
  table : final.sockets.mDescriptors = []
  clients : ∀ fd c, start.sockets.fds fd = some (.client c) → final.passed.count fd = 1
  server : final.passed.count start.mSocket = 1
  sockets : ∀ c, final.sockets.socket c = 0

/-- The handler closes every open Connection with `Connection::close` and none
with `ServerListener::close`, and no client has descriptor 0. -/
structure ClosedByHandler (start : ServerListener) (made : List CloseCall) : Prop where
  alone : ∀ c, .listener (some c) ∉ made
  every : ∀ c, start.sockets.socket c ≠ 0 → .connection c ∈ made
  zero : ∀ c, start.sockets.fds 0 ≠ some (.client c)

section Shutdown

variable [DecidableEq Thread] {thread : Thread}

theorem closeDown_effect (bound : start.Bound) (progress : Progress start state)
    (available : state.mThreadLock.Available thread) :
    ∃ middle after, state.closeDown thread = some after ∧
      Effect thread start state.loop state middle ∧ Ended start middle after := by
  obtain ⟨middle, called, effect⟩ := calls_effect bound state.loop progress available
  have removed := removeDescriptor_eq (middle.closeFd middle.server.mSocket) effect.available
    middle.server.mSocket
  refine ⟨middle, middle.withoutServer, ?_, effect, ?_⟩
  · rw [closeDown, called, Option.bind_some]
    exact congrArg (Option.map Prod.snd) removed
  · constructor
    · rw [← effect.progress.mSocket]
      exact Sockets.removeDescriptor_eraseIdx
    · exact Sockets.removeDescriptor_socket
    · rw [← effect.progress.mSocket]
      rfl
    · rfl

/-- A call of `shutdown()` is the calls of the handler, those of the loop, and
the end of the server socket. -/
theorem shutdown_effect (bound : start.Bound) {mThreadLock : RecursiveLock Thread}
    (available : mThreadLock.Available thread) (process : MSrvResult × List CloseCall) :
    ∃ result told middle final,
      shutdown thread start mThreadLock process = some (result, final) ∧
        ∃ requests, calls thread ⟨{ start with requests := requests }, mThreadLock, []⟩
            (Closedown.told start process) = some told ∧
          Effect thread start (Closedown.told start process)
            ⟨{ start with requests := requests }, mThreadLock, []⟩ told ∧
          Effect thread start told.loop told middle ∧ Ended start middle final := by
  unfold shutdown Closedown.told ServerListener.generate
  by_cases asked : start.generates .shutdown = true
  · rw [if_pos asked, if_pos asked]
    obtain ⟨told, called, effect⟩ := calls_effect bound process.2
      (.refl bound mThreadLock (start.requests + 1)) available
    obtain ⟨middle, final, closed, rest⟩ :=
      closeDown_effect bound effect.progress effect.available
    refine ⟨process.1, told, middle, final, ?_, start.requests + 1, called, effect, rest⟩
    change (calls thread ⟨{ start with requests := start.requests + 1 }, mThreadLock, []⟩
      process.2).bind _ = _
    rw [called, Option.bind_some, closed]
    rfl
  · rw [if_neg asked, if_neg asked]
    obtain ⟨told, called, effect⟩ := calls_effect bound [] (.refl bound mThreadLock start.requests)
      available
    cases called
    obtain ⟨middle, final, closed, rest⟩ :=
      closeDown_effect bound effect.progress effect.available
    refine ⟨0, _, middle, final, ?_, start.requests, rfl, effect, rest⟩
    exact congrArg (Option.map fun state => (0, state)) closed

/-- All that `shutdown()` is for: it also lets the lock go as often as it has
taken it, so that `removeDescriptor()` does not wait for it in any thread. -/
structure ClosedDown (thread : Thread) (start : ServerListener)
    (mThreadLock : RecursiveLock Thread) (final : Closedown Thread) : Prop
    extends Emptied start final where
  lock : final.mThreadLock.count thread = mThreadLock.count thread
  others : mThreadLock.count thread = 0 →
    ∀ other fd, (final.removeDescriptor other fd).isSome = true

/-- All but the lock is in order after `shutdown()` when every Connection with a
socket has an entry or is closed by the handler. -/
theorem emptied (bound : start.Bound) (unused : ∀ c, start.sockets.fds 0 ≠ some (.client c))
    {made : List CloseCall} {first told middle final : Closedown Thread}
    (handled : Effect thread start made first told)
    (looped : Effect thread start told.loop told middle) (ended : Ended start middle final)
    (every : ∀ c, start.sockets.socket c ≠ 0 →
      (∃ entry ∈ start.sockets.mDescriptors, entry.mpData = some c) ∨
        ∃ call ∈ made, call.target = some c) : Emptied start final := by
  have shut : ∀ c, middle.sockets.socket c = 0 := by
    intro c
    by_contra opened
    obtain ⟨same, opened', _⟩ := looped.progress.number opened
    by_cases visit : ∃ entry ∈ told.sockets.mDescriptors, entry.mpData = some c
    · obtain ⟨entry, listed, data⟩ := visit
      refine opened (looped.hit (.listener entry.mpData) ?_ c data)
      rw [loop_eq]
      exact List.mem_map_of_mem ((mem_visited handled.progress.bound).mpr ⟨listed, c, data⟩)
    · have still : told.sockets.socket c = start.sockets.socket c := by
        rcases handled.progress.clients c opened' with ⟨still, _⟩ | ⟨shut, _⟩
        · exact still
        · refine absurd ((looped.missed c fun call member target => visit ?_).trans shut) opened
          rw [loop_eq] at member
          obtain ⟨entry, listed, rfl⟩ := List.mem_map.mp member
          exact ⟨entry, ((mem_visited handled.progress.bound).mp listed).1, target⟩
      rcases every c opened' with ⟨entry, listed, data⟩ | ⟨call, member, target⟩
      · exact visit ⟨entry, handled.progress.kept entry listed c data still, data⟩
      · exact opened' (still.symm.trans (handled.hit call member c target))
  have others : ∀ entry ∈ middle.sockets.mDescriptors, entry.mFd = start.mSocket := by
    intro entry listed
    cases data : entry.mpData with
    | none => exact (looped.progress.bound.nulls entry listed data).trans looped.progress.mSocket
    | some c =>
        have number := looped.progress.bound.live listed data
        have file := bound.sound.entries entry (looped.progress.fewer.subset listed)
        rw [← number, Descriptor.file_eq_client.mpr data] at file
        rw [show middle.server.sockets.socket c = 0 from shut c] at file
        exact absurd file (unused c)
  constructor
  · rw [ended.table]
    apply List.eq_nil_iff_forall_not_mem.mpr
    intro entry left
    obtain ⟨listed, apart⟩ := (Keyed.mem_erase looped.progress.bound.sound.distinct).mp left
    exact apart (others entry listed)
  · intro fd c client
    have number := bound.clients fd c client
    have opened : start.sockets.socket c ≠ 0 := by
      intro zero
      rw [← number, zero] at client
      exact unused c client
    rcases looped.progress.clients c opened with ⟨still, _⟩ | ⟨_, once⟩
    · exact absurd (still.symm.trans (shut c)) opened
    · rw [ended.passed, List.count_append, ← number, once, List.count_singleton,
        if_neg (by simpa using (bound.socket_ne opened).symm)]
  · rw [ended.passed, List.count_append, List.count_eq_zero.mpr looped.progress.unpassed,
      List.count_singleton_self]
  · intro c
    rw [ended.socket]
    exact shut c

/-- The thread holds the lock twice for every call of `ServerListener::close`. -/
theorem shutdown_count {made : List CloseCall} {first told middle final : Closedown Thread}
    (handled : Effect thread start made first told)
    (looped : Effect thread start told.loop told middle) (ended : Ended start middle final) :
    final.mThreadLock.count thread = first.mThreadLock.count thread +
      (made.map CloseCall.holds).sum + 2 * (visited told.server).length := by
  rw [ended.lock, looped.count, handled.count, loop_holds handled.progress.bound]

/-- A handler that does not call `ServerListener::close` leaves the lock alone. -/
theorem holds_eq_zero {made : List CloseCall} :
    (made.map CloseCall.holds).sum = 0 ↔ ∀ c, .listener (some c) ∉ made := by
  induction made with
  | nil => exact iff_of_true rfl fun _ => List.not_mem_nil
  | cons call rest ih =>
      rw [List.map_cons, List.sum_cons, Nat.add_eq_zero_iff, ih]
      cases call with
      | connection c' => simp [CloseCall.holds]
      | listener pConn =>
          cases pConn with
          | none => simp [CloseCall.holds]
          | some c' =>
              apply iff_of_false
              · rintro ⟨held, _⟩
                cases held
              · intro alone
                exact alone c' List.mem_cons_self

/-- When the lock is as it was, the loop has had no client, so that the handler
has closed them all. -/
theorem ClosedDown.closedByHandler (bound : start.Bound) {made : List CloseCall}
    {first told middle final : Closedown Thread} (handled : Effect thread start made first told)
    (looped : Effect thread start told.loop told middle) (ended : Ended start middle final)
    (unclosed : first.sockets.socket = start.sockets.socket)
    (down : ClosedDown thread start first.mThreadLock final) : ClosedByHandler start made := by
  have count := shutdown_count handled looped ended
  have kept := down.lock
  have alone : ∀ c, .listener (some c) ∉ made := holds_eq_zero.mp (by omega)
  have none_left : visited told.server = [] := List.eq_nil_of_length_eq_zero (by omega)
  have idle : ∀ call ∈ told.loop, False := by
    rw [loop_eq, none_left]
    exact fun _ => List.not_mem_nil
  refine ⟨alone, fun c opened => ?_, fun c client => ?_⟩
  · have shut : told.sockets.socket c = 0 := by
      have final_shut := down.sockets c
      rw [ended.socket, looped.missed c fun call member => (idle call member).elim] at final_shut
      exact final_shut
    by_contra absent
    have missed : told.sockets.socket c = first.sockets.socket c := by
      apply handled.missed
      intro call member target
      cases call with
      | connection c' =>
          cases target
          exact absent member
      | listener pConn =>
          cases target
          exact alone c member
    rw [shut, unclosed] at missed
    exact opened missed.symm
  · have once := down.clients 0 c client
    have different : start.mSocket ≠ 0 := by
      intro same
      have opened := bound.opened
      rw [same, client] at opened
      cases opened
    rw [ended.passed, List.count_append, List.count_eq_zero.mpr looped.progress.zero,
      List.count_singleton, if_neg (by simpa using different)] at once
    cases once

/-- A handler that closes all clients leaves the loop none. -/
theorem ClosedByHandler.visited_eq_nil (bound : start.Bound) {made : List CloseCall}
    {first told : Closedown Thread} (handled : Effect thread start made first told)
    (byHandler : ClosedByHandler start made) : visited told.server = [] := by
  apply List.eq_nil_iff_forall_not_mem.mpr
  intro entry member
  obtain ⟨listed, c, data⟩ := (mem_visited handled.progress.bound).mp member
  have number := handled.progress.bound.live listed data
  have file := bound.sound.entries entry (handled.progress.fewer.subset listed)
  rw [Descriptor.file_eq_client.mpr data, ← number] at file
  have shut : told.server.sockets.socket c = 0 := by
    by_cases opened : start.sockets.socket c = 0
    · exact handled.progress.shut c opened
    · exact handled.hit _ (byHandler.every c opened) c rfl
  rw [shut] at file
  exact byHandler.zero c file

/-- Then the lock is as it was. -/
theorem ClosedByHandler.closedDown (bound : start.Bound) {made : List CloseCall}
    {first told middle final : Closedown Thread} (handled : Effect thread start made first told)
    (looped : Effect thread start told.loop told middle) (ended : Ended start middle final)
    (byHandler : ClosedByHandler start made) :
    ClosedDown thread start first.mThreadLock final := by
  have count := shutdown_count handled looped ended
  rw [holds_eq_zero.mpr byHandler.alone, byHandler.visited_eq_nil bound handled] at count
  refine ⟨emptied bound byHandler.zero handled looped ended fun c opened =>
    Or.inr ⟨_, byHandler.every c opened, rfl⟩, count, fun unheld other fd => ?_⟩
  have still : final.mThreadLock.Available thread := by
    rw [ended.lock]
    exact looped.available
  have nobody := still.count_eq_zero.mp (count.trans unheld)
  rw [removeDescriptor_eq final (by rw [nobody]; exact RecursiveLock.available_free other)]
  rfl

/-- `shutdown()` returns, and it does what it is for exactly when the handler
has left it no client to close. -/
theorem shutdown_closedDown_iff (bound : start.Bound) {mThreadLock : RecursiveLock Thread}
    (available : mThreadLock.Available thread) (process : MSrvResult × List CloseCall) :
    ∃ result final, shutdown thread start mThreadLock process = some (result, final) ∧
      (ClosedDown thread start mThreadLock final ↔
        ClosedByHandler start (Closedown.told start process)) := by
  obtain ⟨result, told, middle, final, ran, requests, _, handled, looped, ended⟩ :=
    shutdown_effect bound available process
  refine ⟨result, final, ran, ?_, ?_⟩
  · intro down
    exact down.closedByHandler bound handled looped ended rfl
  · intro byHandler
    exact byHandler.closedDown bound handled looped ended

/-- When nothing but the loop closes Connections, all but the lock is in order,
and the thread holds the lock twice more for every client. -/
theorem shutdown_emptied (bound : start.Bound) {mThreadLock : RecursiveLock Thread}
    (available : mThreadLock.Available thread) (result : MSrvResult)
    (unused : ∀ c, start.sockets.fds 0 ≠ some (.client c))
    (every : ∀ c, start.sockets.socket c ≠ 0 →
      ∃ entry ∈ start.sockets.mDescriptors, entry.mpData = some c) :
    ∃ result' final, shutdown thread start mThreadLock (result, []) = some (result', final) ∧
      Emptied start final ∧ final.mThreadLock.count thread =
        mThreadLock.count thread + 2 * (visited start).length := by
  obtain ⟨result', told, middle, final, ran, requests, called, handled, looped, ended⟩ :=
    shutdown_effect bound available (result, [])
  have count := shutdown_count handled looped ended
  have made : Closedown.told start (result, []) = [] := ite_self []
  rw [made] at called count
  cases called
  exact ⟨result', final, ran, emptied bound unused handled looped ended fun c opened =>
    Or.inl (every c opened), count⟩

end Shutdown

/-- A listener with two clients, 5 and 6. -/
def twoClients : ServerListener :=
  { ServerListener.sample with
    sockets := (ServerListener.sample.sockets.addClient 5).addClient 6 }

theorem twoClients_bound : twoClients.Bound := by
  have bound : ServerListener.sample.Bound :=
    .of_bind (show ServerListener.construct.bind .TCP 0 ⟨3, 0, 0, 0⟩ = (0, .sample) from rfl)
  have first := bound.accept (show ServerListener.sample.sockets.fds 5 = none from rfl)
  exact first.accept (show (ServerListener.sample.sockets.addClient 5).fds 6 = none from rfl)

/-- The handler closes both clients. -/
theorem shutdown_closedDown_iff_handled : ∃ result final,
    shutdown 0 twoClients .free (0, [.connection 1, .connection 0]) = some (result, final) ∧
      (ClosedDown 0 twoClients .free final ↔ ClosedByHandler twoClients
        (told twoClients (0, [.connection 1, .connection 0]))) :=
  shutdown_closedDown_iff twoClients_bound (RecursiveLock.available_free 0) _

/-- The handler leaves both clients to the loop: all is closed, but the thread
still holds the lock, four times, and no other thread can remove a descriptor. -/
theorem shutdown_keeps_lock : ∃ result final,
    shutdown 0 twoClients .free (0, []) = some (result, final) ∧ Emptied twoClients final ∧
      final.mThreadLock.count 0 = 4 ∧ final.removeDescriptor 1 5 = none ∧
      ¬ ClosedDown 0 twoClients .free final := by
  have unused : ∀ c, twoClients.sockets.fds 0 ≠ some (.client c) := by
    intro c client
    cases client
  have every : ∀ c, twoClients.sockets.socket c ≠ 0 →
      ∃ entry ∈ twoClients.sockets.mDescriptors, entry.mpData = some c := by
    intro c opened
    rcases c with _ | _ | c
    · exact ⟨⟨5, some 0⟩, by decide, rfl⟩
    · exact ⟨⟨6, some 1⟩, by decide, rfl⟩
    · exact absurd rfl opened
  obtain ⟨result, final, ran, emptied, count⟩ :=
    shutdown_emptied twoClients_bound (RecursiveLock.available_free 0) 0 unused every
  have held : final.mThreadLock.count 0 = 4 := count
  refine ⟨result, final, ran, emptied, held, ?_, fun down => ?_⟩
  · unfold removeDescriptor
    rw [RecursiveLock.take_eq_none (by rw [held]; decide) (by decide : (1 : Nat) ≠ 0)]
    rfl
  · cases held.symm.trans down.lock

end Closedown

end MSrv
