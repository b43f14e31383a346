import MagicServer.Server.Sockets

/-!
# The server listener

`ServerListener` of `msrvserver.cc` with what the kernel gives to a call: the
results of the system calls in `bind`, the number that `::accept` returns, and
the results of the reads on a ready descriptor. A call of `descriptorEvent` is
cut where it passes a request to `getHandler()->process()`, so that the handler
can be the user's own in the listener thread or a `WorkerPool`.
-/

namespace MSrv

inductive Protocol where
  | TCP
  | UDP
  deriving DecidableEq

/-- A `ServerListener`, with the sockets of the process and the number of
request objects created so far. -/
structure ServerListener where
  sockets : Sockets
  mSocket : Int
  mProtocol : Protocol
  mRequestMask : Nat
  mShutdownStatus : Bool
  requests : Nat

/-- The results of the system calls that `bind` makes. -/
structure BindCalls where
  socket : Int
  setsockopt : Int
  bind : Int
  listen : Int

/-- The result of one `::read`. -/
inductive ReadResult where
  | error
  /-- A block of data, empty at the end of the stream. -/
  | block (data : List UInt8)
  deriving DecidableEq

/-- What the kernel gives to one `descriptorEvent`. -/
inductive EventInput where
  /-- The result of `::accept`. -/
  | accepted (clientsocket : Int)
  /-- The results of `::read`, the last one being that which ends the loop. -/
  | reads (results : List ReadResult)
  deriving DecidableEq

namespace ServerListener

/-- Flag of `bind`. -/
def BINDF_NOREUSE : Nat := 0x00000001

/-- The mask set by the constructor: all requests but `Timeout`. -/
def defaultMask : Nat :=
  RequestType.newConnection.bit ||| RequestType.streamData.bit ||| RequestType.datagram.bit |||
    RequestType.connectionLost.bit ||| RequestType.shutdown.bit

/-- Default constructor. -/
def construct : ServerListener where
  sockets := .empty
  mSocket := 0
  mProtocol := .TCP
  mRequestMask := defaultMask
  mShutdownStatus := false
  requests := 0

/-- Sets request mask that controls which requests will be generated. -/
def setRequestMask (server : ServerListener) (mask : Nat) : ServerListener :=
  { server with mRequestMask := mask }

/-- The server socket, the protocol and the mask. -/
def config (server : ServerListener) : Int × Protocol × Nat :=
  (server.mSocket, server.mProtocol, server.mRequestMask)

/-- The test of `mRequestMask` for a type of request. -/
def generates (server : ServerListener) (type : RequestType) : Bool :=
  server.mRequestMask &&& type.bit != 0

/-- Initializes the server for listening a socket. The descriptor made by
`socket()` is open from then on unless it is closed again. -/
def bind (server : ServerListener) (protocol : Protocol) (flags : Nat) (calls : BindCalls) :
    MSrvResult × ServerListener :=
  let sockfd := calls.socket
  let opened :=
    if sockfd < 0 then server
    else
      { server with
        sockets :=
          { server.sockets with fds := Function.update server.sockets.fds sockfd (some .server) } }
  let closed := { opened with sockets := opened.sockets.closeFd sockfd }
  if sockfd ≤ 0 then (MSRVERR_SOCKET_FAILED, opened)
  else if flags &&& BINDF_NOREUSE = 0 ∧ calls.setsockopt < 0 then
    (MSRVERR_SET_SOCKET_OPTIONS_FAILED, closed)
  else if calls.bind < 0 then (MSRVERR_BIND_FAILED, closed)
  else if protocol = .TCP ∧ calls.listen ≠ 0 then (MSRVERR_LISTEN_FAILED, closed)
  else
    (0, { server with
      mSocket := sockfd
      mProtocol := protocol
      sockets := server.sockets.addServer sockfd })

/-- A new request object. -/
def newRequest (server : ServerListener) (socket : Int) (content : Request.Content) :
    Request × ServerListener :=
  (⟨server.requests, socket, content⟩, { server with requests := server.requests + 1 })

/-- The request for the handler, if the mask lets one of its type be made. -/
def generate (server : ServerListener) (type : RequestType) (socket : Int)
    (content : Request.Content) : Option Request × ServerListener :=
  if server.generates type then
    let (request, server) := server.newRequest socket content
    (some request, server)
  else (none, server)

/-- Starts listening a TCP server socket, up to the call of the handler. The
kernel gives no descriptor number that is open. -/
def accept (server : ServerListener) (clientsocket : Int) :
    Option (Option Request × ServerListener) :=
  if clientsocket < 0 then
    -- MSRVERR_ACCEPT_FAILED, which descriptorEvent() does not look at
    some (none, server)
  else if server.sockets.fds clientsocket = none then
    let pNewConn := server.sockets.created
    let server := { server with sockets := server.sockets.addClient clientsocket }
    some (server.generate .newConnection clientsocket (.newConnection (some pNewConn)))
  else none

/-- The loop that reads all data available from the socket: what it has
gathered, and the last `readcount`. It has no result when it would read on after
the given results, or not get as far as the last one. -/
def readLoop (dynbuffer : List UInt8) : List ReadResult → Option (List UInt8 × Int)
  | [] => none
  | .error :: rest => if rest = [] then some (dynbuffer, -1) else none
  | .block data :: rest =>
      if data.length > MSRV_READ_BUFFER_LEN then none
      else if data = [] then if rest = [] then some (dynbuffer, 0) else none
      else if data.length = MSRV_READ_BUFFER_LEN then readLoop (dynbuffer ++ data) rest
      else if rest = [] then some (dynbuffer ++ data, data.length) else none

/-- Handles an event on a descriptor, up to the call of the handler: the request
for it, whether the descriptor is removed after the call, and the listener. -/
def descriptorEvent (server : ServerListener) (fd : Int) (pDescriptorData : Option ConnectionId) :
    EventInput → Option ((Option Request × ServerListener) × Bool)
  | .accepted clientsocket =>
      if fd = server.mSocket ∧ server.mProtocol = .TCP then
        (server.accept clientsocket).map fun arrived => (arrived, false)
      else none
  | .reads results =>
      if fd = server.mSocket ∧ server.mProtocol = .TCP then none
      else
        (readLoop [] results).map fun (dynbuffer, readcount) =>
          if dynbuffer ≠ [] then
            (match server.mProtocol with
              | .TCP => server.generate .streamData fd (.streamData pDescriptorData dynbuffer)
              | .UDP => server.generate .datagram fd (.datagram dynbuffer), false)
          else if readcount = 0 then
            (server.generate .connectionLost fd (.connectionLost pDescriptorData), true)
          else ((none, server), false)

/-- The end of `descriptorEvent`, after the call of the handler. -/
def descriptorEventEnd (remove : Removal) (server : ServerListener) (fd : Int) (lost : Bool) :
    ServerListener :=
  if lost then { server with sockets := (server.sockets.removeDescriptor remove fd).2 } else server

/-- Handles a timeout, up to the call of the handler. -/
def timeoutEvent (server : ServerListener) : Option Request × ServerListener :=
  server.generate .timeout (-1) .timeout

/-- What an event on a descriptor can bring: the request for the handler with the
listener that has made it, and whether the descriptor is removed after the call. -/
inductive Arrival (server : ServerListener) (fd : Int) (pDescriptorData : Option ConnectionId) :
    EventInput → Option Request × ServerListener → Bool → Prop
  | refused {clientsocket : Int} : fd = server.mSocket ∧ server.mProtocol = .TCP →
      clientsocket < 0 →
      Arrival server fd pDescriptorData (.accepted clientsocket) (none, server) false
  | accepted {clientsocket : Int} : fd = server.mSocket ∧ server.mProtocol = .TCP →
      0 ≤ clientsocket → server.sockets.fds clientsocket = none →
      Arrival server fd pDescriptorData (.accepted clientsocket)
        ({ server with sockets := server.sockets.addClient clientsocket }.generate .newConnection
          clientsocket (.newConnection (some server.sockets.created))) false
  | streamData {results : List ReadResult} {dynbuffer : List UInt8} {readcount : Int} :
      server.mProtocol = .TCP → fd ≠ server.mSocket →
      readLoop [] results = some (dynbuffer, readcount) → dynbuffer ≠ [] →
      Arrival server fd pDescriptorData (.reads results)
        (server.generate .streamData fd (.streamData pDescriptorData dynbuffer)) false
  | datagram {results : List ReadResult} {dynbuffer : List UInt8} {readcount : Int} :
      server.mProtocol = .UDP → readLoop [] results = some (dynbuffer, readcount) →
      dynbuffer ≠ [] →
      Arrival server fd pDescriptorData (.reads results)
        (server.generate .datagram fd (.datagram dynbuffer)) false
  | connectionLost {results : List ReadResult} :
      ¬ (fd = server.mSocket ∧ server.mProtocol = .TCP) → readLoop [] results = some ([], 0) →
      Arrival server fd pDescriptorData (.reads results)
        (server.generate .connectionLost fd (.connectionLost pDescriptorData)) true
  | failed {results : List ReadResult} {readcount : Int} :
      ¬ (fd = server.mSocket ∧ server.mProtocol = .TCP) →
      readLoop [] results = some ([], readcount) → readcount ≠ 0 →
      Arrival server fd pDescriptorData (.reads results) (none, server) false

section Events

variable {server : ServerListener} {fd : Int} {pDescriptorData : Option ConnectionId}
  {input : EventInput} {arrived : Option Request × ServerListener} {lost : Bool}

theorem arrival_of_event
    (event : server.descriptorEvent fd pDescriptorData input = some (arrived, lost)) :
    Arrival server fd pDescriptorData input arrived lost := by
  cases input with
  | accepted clientsocket =>
      simp only [descriptorEvent, accept, Option.ite_none_right_eq_some,
        Option.map_eq_some_iff] at event
      obtain ⟨client, arrived', accepted, pair⟩ := event
      cases pair
      split_ifs at accepted with negative free
      · cases accepted
        exact .refused client negative
      · cases accepted
        exact .accepted client (not_lt.mp negative) free
  | reads results =>
      simp only [descriptorEvent, Option.ite_none_left_eq_some, Option.map_eq_some_iff] at event
      obtain ⟨client, ⟨dynbuffer, readcount⟩, ended, outcome⟩ := event
      split_ifs at outcome with some_data no_data
      · cases outcome
        cases protocol : server.mProtocol with
        | TCP => exact .streamData protocol (fun same => client ⟨same, protocol⟩) ended some_data
        | UDP => exact .datagram protocol ended some_data
      · cases outcome
        obtain rfl : dynbuffer = [] := not_not.mp some_data
        obtain rfl : readcount = 0 := no_data
        exact .connectionLost client ended
      · cases outcome
        obtain rfl : dynbuffer = [] := not_not.mp some_data
        exact .failed client ended no_data

end Events

/-- A `bind` that returns 0 has made a server socket with a positive number and
registered it. -/
theorem bind_eq_zero {server bound : ServerListener} {protocol : Protocol}
    {flags : Nat} {calls : BindCalls} (result : server.bind protocol flags calls = (0, bound)) :
    0 < calls.socket ∧ bound =
      { server with
        mSocket := calls.socket
        mProtocol := protocol
        sockets := server.sockets.addServer calls.socket } := by
  unfold bind at result
  simp only at result
  split_ifs at result with failed <;> simp only [Prod.mk.injEq] at result
  all_goals first
    | exact absurd result.1 (by decide)
    | exact ⟨not_le.mp failed, result.2.symm⟩

/-- The end of `descriptorEvent` touches the table only. -/
theorem descriptorEventEnd_config (remove : Removal) (server : ServerListener) (fd : Int)
    (lost : Bool) : (server.descriptorEventEnd remove fd lost).config = server.config := by
  unfold descriptorEventEnd
  split <;> rfl

/-- A request is made if the mask lets it. -/
theorem generate_fst (server : ServerListener) (type : RequestType) (socket : Int)
    (content : Request.Content) :
    (server.generate type socket content).1.map Request.content =
      if server.generates type then some content else none := by
  unfold generate
  split <;> rfl

/-- Making a request leaves the shutdown status as it is. -/
theorem generate_mShutdownStatus (server : ServerListener) (type : RequestType) (socket : Int)
    (content : Request.Content) :
    (server.generate type socket content).2.mShutdownStatus = server.mShutdownStatus := by
  unfold generate
  split <;> rfl

/-- So does an event, up to the call of the handler. -/
theorem descriptorEvent_mShutdownStatus {server : ServerListener} {fd : Int}
    {pDescriptorData : Option ConnectionId} {input : EventInput}
    {arrived : Option Request × ServerListener} {lost : Bool}
    (event : server.descriptorEvent fd pDescriptorData input = some (arrived, lost)) :
    arrived.2.mShutdownStatus = server.mShutdownStatus := by
  cases arrival_of_event event with
  | refused | failed => rfl
  | accepted | streamData | datagram | connectionLost => exact generate_mShutdownStatus ..

/-- And the end of an event. -/
theorem descriptorEventEnd_mShutdownStatus (remove : Removal) (server : ServerListener) (fd : Int)
    (lost : Bool) :
    (server.descriptorEventEnd remove fd lost).mShutdownStatus = server.mShutdownStatus := by
  unfold descriptorEventEnd
  split <;> rfl

theorem mSocket_of_config {server other : ServerListener} (same : other.config = server.config) :
    other.mSocket = server.mSocket := congrArg (fun config => config.1) same

theorem protocol_of_config {server other : ServerListener} (same : other.config = server.config) :
    other.mProtocol = server.mProtocol := congrArg (fun config => config.2.1) same

theorem generates_of_config {server other : ServerListener} (same : other.config = server.config)
    (type : RequestType) : other.generates type = server.generates type := by
  unfold generates
  rw [show other.mRequestMask = server.mRequestMask from congrArg (fun config => config.2.2) same]

/-- A listener for concrete runs, with server socket 3. -/
def sample : ServerListener := (construct.bind .TCP 0 ⟨3, 0, 0, 0⟩).2

end ServerListener

end MSrv
