import MagicServer.Container.Array
import MagicServer.Server.Listener

/-!
# The system calls of bind

`ServerListener::bind` with each system call that it makes, in order and with its
result. A call that fails is cleaned up after by closing the socket again. Only
the test after `socket()` takes descriptor 0 for a failure, and leaves it open.
-/

namespace MSrv

/-- The type of a socket. -/
inductive SocketType where
  | SOCK_STREAM
  | SOCK_DGRAM
  deriving DecidableEq

/-- Translates the protocol type. -/
def Protocol.socktype : Protocol → SocketType
  | .TCP => .SOCK_STREAM
  | .UDP => .SOCK_DGRAM

/-- A system call of `bind`. -/
inductive SystemCall where
  | socket (socktype : SocketType)
  /-- With `SO_REUSEADDR`. -/
  | setsockopt (sockfd : Int)
  /-- To this port of any address of the host. -/
  | bind (sockfd sin_port : Int)
  | listen (sockfd backlog : Int)
  | close (sockfd : Int)
  deriving DecidableEq

/-- The low 16 bits of a port number, which `htons` puts in the order of the network. -/
def htons (portno : Int) : Int := portno % 2 ^ 16

namespace SystemCall

/-- What the kernel returns. -/
def result (calls : BindCalls) : SystemCall → Int
  | .socket _ => calls.socket
  | .setsockopt _ => calls.setsockopt
  | .bind _ _ => calls.bind
  | .listen _ _ => calls.listen
  | .close _ => 0

/-- What a call does to the descriptors of the process. -/
def effect (calls : BindCalls) (sockets : Sockets) : SystemCall → Sockets
  | .socket _ =>
      if calls.socket < 0 then sockets
      else { sockets with fds := Function.update sockets.fds calls.socket (some .server) }
  | .close sockfd => sockets.closeFd sockfd
  | .setsockopt _ | .bind _ _ | .listen _ _ => sockets

end SystemCall

/-- A listener in `bind`. -/
structure Binding where
  server : ServerListener
  /-- The system calls made so far, each with its result. -/
  made : List (SystemCall × Int)

namespace Binding

/-- Makes a system call. -/
def perform (binding : Binding) (calls : BindCalls) (call : SystemCall) : Int × Binding :=
  (call.result calls,
    { server := { binding.server with sockets := call.effect calls binding.server.sockets }
      made := binding.made ++ [(call, call.result calls)] })

/-- Makes a system call in the case `p`, and none with the result 0 otherwise. -/
def performIf (p : Prop) [Decidable p] (binding : Binding) (calls : BindCalls)
    (call : SystemCall) : Int × Binding :=
  if p then binding.perform calls call else (0, binding)

/-- Initializes the server for listening a socket, call by call. -/
def bind (calls : BindCalls) (server : ServerListener) (portno : Int) (protocol : Protocol)
    (flags : Nat) : MSrvResult × Binding :=
  let (sockfd, binding) := perform ⟨server, []⟩ calls (.socket protocol.socktype)
  if sockfd ≤ 0 then (MSRVERR_SOCKET_FAILED, binding)
  else
    let (result, binding) :=
      binding.performIf (flags &&& ServerListener.BINDF_NOREUSE = 0) calls (.setsockopt sockfd)
    if result < 0 then
      (MSRVERR_SET_SOCKET_OPTIONS_FAILED, (binding.perform calls (.close sockfd)).2)
    else
      let (result, binding) := binding.perform calls (.bind sockfd (htons portno))
      if result < 0 then (MSRVERR_BIND_FAILED, (binding.perform calls (.close sockfd)).2)
      else
        let (result, binding) := binding.performIf (protocol = .TCP) calls (.listen sockfd 10)
        if result ≠ 0 then (MSRVERR_LISTEN_FAILED, (binding.perform calls (.close sockfd)).2)
        else
          let server :=
            { binding.server with
              mSocket := sockfd
              mProtocol := protocol
              sockets :=
                { binding.server.sockets with
                  mDescriptors := binding.server.sockets.mDescriptors ++ [⟨sockfd, none⟩] } }
          (0, { binding with server := server })

variable {calls : BindCalls} {server : ServerListener} {portno : Int} {protocol : Protocol}
  {flags : Nat}

/-- Call by call `bind` does what it does at once. -/
theorem bind_eq : ((bind calls server portno protocol flags).1,
    (bind calls server portno protocol flags).2.server) = server.bind protocol flags calls := by
  unfold bind ServerListener.bind performIf perform
  simp only [SystemCall.result, SystemCall.effect]
  rcases le_or_gt calls.socket 0 with failed | positive
  · simp only [failed, if_true]
    split_ifs <;> rfl
  · have made : ¬ calls.socket ≤ 0 := not_le.mpr positive
    have made' : ¬ calls.socket < 0 := not_lt.mpr positive.le
    simp only [made, made', if_false]
    by_cases reuse : flags &&& ServerListener.BINDF_NOREUSE = 0 <;>
      by_cases tcp : protocol = .TCP <;>
      simp only [reuse, tcp, if_true, if_false, true_and, false_and] <;>
      split_ifs <;> first | rfl | contradiction

/-- What `socket()` leaves when it has made a descriptor. -/
def opened (server : ServerListener) (sockfd : Int) : ServerListener :=
  { server with
    sockets :=
      { server.sockets with fds := Function.update server.sockets.fds sockfd (some .server) } }

/-- The calls after `socket()` have succeeded so far. -/
structure Succeeding (server : ServerListener) (sockfd : Int) (binding : Binding) : Prop where
  server : binding.server = opened server sockfd
  made : ∀ call ∈ binding.made, 0 ≤ call.2

/-- An error leaves the listener and the open descriptors as they were and comes
from a call that failed; otherwise there is one new descriptor, which is the
server socket and the last entry of the table. -/
structure AllOrNothing (server : ServerListener) (done : MSrvResult × Binding) : Prop where
  undone : done.1 ≠ 0 → done.2.server.mSocket = server.mSocket ∧
    done.2.server.mProtocol = server.mProtocol ∧
    done.2.server.sockets.mDescriptors = server.sockets.mDescriptors ∧
    done.2.server.sockets.fds = server.sockets.fds
  bound : done.1 = 0 → server.sockets.fds done.2.server.mSocket = none ∧
    done.2.server.sockets.fds =
      Function.update server.sockets.fds done.2.server.mSocket (some .server) ∧
    done.2.server.sockets.mDescriptors =
      server.sockets.mDescriptors ++ [⟨done.2.server.mSocket, none⟩]
  failed : done.1 ≠ 0 ↔ ∃ call ∈ done.2.made, call.2 < 0

/-- What the calls can return: `socket()` a number that is not open or -1, the
others 0 or -1. -/
structure Possible (server : ServerListener) (calls : BindCalls) : Prop where
  socket : calls.socket = -1 ∨ 0 ≤ calls.socket ∧ server.sockets.fds calls.socket = none
  setsockopt : calls.setsockopt = 0 ∨ calls.setsockopt = -1
  bind : calls.bind = 0 ∨ calls.bind = -1
  listen : calls.listen = 0 ∨ calls.listen = -1

variable {binding : Binding} {call : SystemCall} {sockfd : Int}

/-- After `socket()`. -/
theorem succeeding_socket (server : ServerListener) (socktype : SocketType)
    (made : 0 ≤ calls.socket) :
    Succeeding server calls.socket (perform ⟨server, []⟩ calls (.socket socktype)).2 where
  server := by
    simp only [perform, SystemCall.effect, if_neg (not_lt.mpr made)]
    rfl
  made := List.forall_mem_singleton.mpr made

/-- A call that opens and closes nothing leaves the listener as it is. -/
theorem perform_server (neutral : ∀ sockets, call.effect calls sockets = sockets) :
    (binding.perform calls call).2.server = binding.server := by
  unfold perform
  rw [neutral]

/-- A call after `socket()` has succeeded, or `bind` can end with an error. -/
structure Attempted (calls : BindCalls) (server : ServerListener) (sockfd : Int)
    (done : Int × Binding) : Prop where
  succeeded : 0 ≤ done.1 → Succeeding server sockfd done.2
  failed : done.1 < 0 → ∀ error : MSrvResult, error ≠ 0 →
    AllOrNothing server (error, (done.2.perform calls (.close sockfd)).2)

theorem Succeeding.perform (succeeding : Succeeding server sockfd binding)
    (free : server.sockets.fds sockfd = none)
    (neutral : ∀ sockets, call.effect calls sockets = sockets) :
    Attempted calls server sockfd (binding.perform calls call) := by
  constructor
  · intro succeeded
    constructor
    · exact (perform_server neutral).trans succeeding.server
    · exact List.forall_mem_append.mpr
        ⟨succeeding.made, List.forall_mem_singleton.mpr succeeded⟩
  · intro failed error is_error
    have left : ((binding.perform calls call).2.perform calls (.close sockfd)).2.server =
        { opened server sockfd with sockets := (opened server sockfd).sockets.closeFd sockfd } := by
      have same : (binding.perform calls call).2.server = binding.server := perform_server neutral
      rw [← succeeding.server, ← same]
      rfl
    constructor
    · intro _
      rw [left]
      refine ⟨rfl, rfl, rfl, ?_⟩
      simp only [opened, Sockets.closeFd, Function.update_idem]
      rw [← free, Function.update_eq_self]
    · intro success
      exact absurd success is_error
    · refine iff_of_true is_error ⟨(call, call.result calls), ?_, failed⟩
      simp [Binding.perform]

/-- A call that is not made has not failed. -/
theorem Succeeding.performIf (succeeding : Succeeding server sockfd binding)
    (free : server.sockets.fds sockfd = none)
    (neutral : ∀ sockets, call.effect calls sockets = sockets) (p : Prop) [Decidable p] :
    Attempted calls server sockfd (binding.performIf p calls call) := by
  unfold Binding.performIf
  split_ifs
  · exact succeeding.perform free neutral
  · exact ⟨fun _ => succeeding, fun failed => absurd failed (lt_irrefl 0)⟩

/-- When all calls have succeeded the socket is stored. -/
theorem Succeeding.bound (succeeding : Succeeding server sockfd binding)
    (free : server.sockets.fds sockfd = none) (protocol : Protocol) :
    AllOrNothing server (0, { binding with server := { binding.server with
      mSocket := sockfd
      mProtocol := protocol
      sockets := { binding.server.sockets with
        mDescriptors := binding.server.sockets.mDescriptors ++ [⟨sockfd, none⟩] } } }) where
  undone error := absurd rfl error
  bound _ := by
    rw [succeeding.server]
    exact ⟨free, rfl, rfl⟩
  failed := by
    refine iff_of_false (fun error => error rfl) ?_
    rintro ⟨call, made, negative⟩
    exact absurd negative (not_lt.mpr (succeeding.made call made))

theorem performIf_result {p : Prop} [Decidable p]
    (possible : call.result calls = 0 ∨ call.result calls = -1) :
    (binding.performIf p calls call).1 = 0 ∨ (binding.performIf p calls call).1 = -1 := by
  unfold Binding.performIf
  split_ifs
  · exact possible
  · exact Or.inl rfl

/-- A descriptor with a positive number is closed again or stored. -/
theorem allOrNothing_of_pos (possible : Possible server calls) (positive : 0 < calls.socket) :
    AllOrNothing server (bind calls server portno protocol flags) := by
  have free : server.sockets.fds calls.socket = none := by
    rcases possible.socket with failed | ⟨_, free⟩
    · omega
    · exact free
  have first := succeeding_socket server protocol.socktype positive.le
  have number : (perform ⟨server, []⟩ calls (.socket protocol.socktype)).1 = calls.socket := rfl
  unfold bind
  simp only
  generalize perform ⟨server, []⟩ calls (.socket protocol.socktype) = done at first number
  rw [number, if_neg (not_le.mpr positive)]
  split_ifs with unset unbound unheard
  · exact (first.performIf free (fun _ => rfl) _).failed unset _ (by decide)
  · have second := (first.performIf free (fun _ => rfl) _).succeeded (not_lt.mp unset)
    exact (second.perform free fun _ => rfl).failed unbound _ (by decide)
  · have second := (first.performIf free (fun _ => rfl) _).succeeded (not_lt.mp unset)
    have third := (second.perform free fun _ => rfl).succeeded (not_lt.mp unbound)
    have listened : SystemCall.result calls (.listen calls.socket 10) = 0 ∨
        SystemCall.result calls (.listen calls.socket 10) = -1 := possible.listen
    have negative := (performIf_result listened).resolve_left unheard
    refine (third.performIf free (fun _ => rfl) _).failed ?_ _ (by decide)
    rw [negative]
    decide
  · have second := (first.performIf free (fun _ => rfl) _).succeeded (not_lt.mp unset)
    have third := (second.perform free fun _ => rfl).succeeded (not_lt.mp unbound)
    have last := (third.performIf free (fun _ => rfl) _).succeeded (not_not.mp unheard).ge
    exact last.bound free protocol

/-- Without a descriptor nothing has happened. -/
theorem allOrNothing_of_neg (failed : calls.socket < 0) :
    AllOrNothing server (bind calls server portno protocol flags) := by
  unfold bind
  simp only [perform, SystemCall.result, SystemCall.effect, failed, failed.le, if_true,
    List.nil_append]
  have error : MSRVERR_SOCKET_FAILED ≠ 0 := by decide
  constructor
  · exact fun _ => ⟨rfl, rfl, rfl, rfl⟩
  · exact fun success => absurd success error
  · exact iff_of_true error ⟨_, List.mem_singleton_self _, failed⟩

/-- Descriptor 0 is taken for a failure although no call has failed. -/
theorem not_allOrNothing_of_zero (zero : calls.socket = 0) :
    ¬ AllOrNothing server (bind calls server portno protocol flags) := by
  unfold bind
  simp only [perform, SystemCall.result, zero, le_refl, if_true, List.nil_append]
  have error : MSRVERR_SOCKET_FAILED ≠ 0 := by decide
  intro whole
  obtain ⟨call, made, negative⟩ := whole.failed.mp error
  rw [List.mem_singleton.mp made] at negative
  exact absurd negative (lt_irrefl 0)

/-- `bind` does all or nothing exactly when `socket()` does not make descriptor 0. -/
theorem allOrNothing_iff (possible : Possible server calls) :
    AllOrNothing server (bind calls server portno protocol flags) ↔ calls.socket ≠ 0 := by
  constructor
  · intro whole zero
    exact not_allOrNothing_of_zero zero whole
  · intro nonzero
    rcases lt_or_gt_of_ne nonzero with failed | positive
    · exact allOrNothing_of_neg failed
    · exact allOrNothing_of_pos possible positive

/-- Port 80 is bound to with descriptor 3. -/
theorem allOrNothing_iff_three : Possible .construct ⟨3, 0, 0, 0⟩ ∧
    AllOrNothing .construct (bind ⟨3, 0, 0, 0⟩ .construct 80 .TCP 0) := by
  have possible : Possible .construct ⟨3, 0, 0, 0⟩ :=
    ⟨Or.inr ⟨by decide, rfl⟩, Or.inl rfl, Or.inl rfl, Or.inl rfl⟩
  exact ⟨possible, (allOrNothing_iff possible).mpr (by decide)⟩

/-- `socket()` makes descriptor 0: `bind` returns an error although no call has
failed, and the descriptor stays open. -/
theorem zero_left_open : Possible .construct ⟨0, 0, 0, 0⟩ ∧
    (bind ⟨0, 0, 0, 0⟩ .construct 80 .TCP 0).1 = MSRVERR_SOCKET_FAILED ∧
    (bind ⟨0, 0, 0, 0⟩ .construct 80 .TCP 0).2.made = [(.socket .SOCK_STREAM, 0)] ∧
    ServerListener.construct.sockets.fds 0 = none ∧
    (bind ⟨0, 0, 0, 0⟩ .construct 80 .TCP 0).2.server.sockets.fds 0 = some .server ∧
    ¬ AllOrNothing .construct (bind ⟨0, 0, 0, 0⟩ .construct 80 .TCP 0) :=
  ⟨⟨Or.inr ⟨by decide, rfl⟩, Or.inl rfl, Or.inl rfl, Or.inl rfl⟩, rfl, rfl, rfl, rfl,
    not_allOrNothing_of_zero rfl⟩

/-- The array of descriptors stores what the table of the model does. -/
theorem AllOrNothing.add (whole : AllOrNothing server (bind calls server portno protocol flags))
    (success : (bind calls server portno protocol flags).1 = 0) {array : Array Descriptor}
    (holds : array.Holds server.sockets.mDescriptors)
    (room : (server.sockets.mDescriptors.length : Int) < INT_MAX) :
    ∃ next, array.add ⟨(bind calls server portno protocol flags).2.server.mSocket, none⟩ =
      some (0, next) ∧
      next.Holds (bind calls server portno protocol flags).2.server.sockets.mDescriptors := by
  obtain ⟨_, _, table⟩ := whole.bound success
  rw [table]
  exact holds.add room _

end Binding

end MSrv
