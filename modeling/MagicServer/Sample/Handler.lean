import MagicServer.Sample.Line
import MagicServer.Server.ConnIter
import MagicServer.Server.Serving

/-!
# The handler of the sample server

`MyHandler` of `samplehandler.cc`, in the listener thread of a server without a
pool. A client gets the bytes that are written to its socket, and loses those of
a write that fails; the sockets block, so that no write is short. Where the
handler would read behind the data of a request, or through a pointer to no
Connection, it has no result.
-/

namespace MSrv

/-- What `gethostbyaddr` finds. -/
inductive Host where
  | found (h_name : CString)
  | failed (h_errno : Int) (reason : CString)
  deriving DecidableEq

/-- What the handler finds outside the server. -/
structure World where
  /-- `char` is a signed type. -/
  signed : Bool
  address : ConnectionId → Address
  host : ConnectionId → Host

/-- A world for concrete runs, with clients from 127.0.0.1. -/
def World.sample : World where
  signed := true
  address _ := 0x0100007f#32
  host _ := .found (.ofString "localhost")

/-- The listener thread of the sample server and its clients. -/
structure Chat where
  serving : Serving
  /-- The bytes that have arrived at the client of each Connection. -/
  received : ConnectionId → List UInt8
  /-- The writes to descriptors that are not the socket of a client. -/
  astray : List (Int × List UInt8)
  /-- The messages passed to the log by the handler. -/
  log : List CString
  /-- `shutdown()` has passed its request to the handler. -/
  told : Bool

namespace Chat

/-- `listen()` is called. -/
def start (server : ServerListener) : Chat where
  serving := .start server
  received _ := []
  astray := []
  log := []
  told := false

def server (chat : Chat) : ServerListener := chat.serving.listening.server

def sockets (chat : Chat) : Sockets := chat.serving.sockets

/-- `write (fd, msg, strlen (msg))`; the writes to the clients in `deaf` fail. -/
def write (chat : Chat) (deaf : List ConnectionId) (fd : Int) (msg : CString) : Chat :=
  match chat.sockets.fds fd with
  | some (.client c) =>
      if c ∈ deaf then chat
      else { chat with received := Function.update chat.received c (chat.received c ++ msg.bytes) }
  | some .server | none => { chat with astray := chat.astray ++ [(fd, msg.bytes)] }

/-- `log().message ("SAMPLE", Log::Info, 0, text)`. -/
def message (chat : Chat) (text : CString) : Chat := { chat with log := chat.log ++ [text] }

/-- `startShutdown()`. -/
def startShutdown (chat : Chat) : Chat :=
  { chat with serving := { chat.serving with listening := chat.serving.listening.shutDown } }

/-- The Connection that a pointer points to; there is none behind a null or
dangling pointer. -/
def connection (chat : Chat) (pConn : Option ConnectionId) : Option ConnectionId := do
  let c ← pConn
  if chat.serving.Live c then some c else none

/-- `Connection::close()` by the handler. -/
def close (remove : Removal) (chat : Chat) (c : ConnectionId) : Option (MSrvResult × Chat) :=
  (chat.serving.step remove (.close c)).map fun serving =>
    ((chat.sockets.close remove c).1, { chat with serving := serving })

/-- What `ConnIter` visits. -/
def visits (chat : Chat) : List (Option ConnectionId) :=
  ConnIter.visits chat.sockets.mDescriptors.length (.create chat.server)

/-- The body of a loop over the connections, for each of them. -/
def forEach (body : Chat → ConnectionId → Chat) (chat : Chat) :
    List (Option ConnectionId) → Option Chat
  | [] => some chat
  | pConn :: rest => do
      let c ← chat.connection pConn
      (body chat c).forEach body rest

end Chat

namespace MyHandler

open CString (ofString ofChars)

/-- The request types that `init` sets. -/
def requestMask : Nat :=
  RequestType.newConnection.bit ||| RequestType.streamData.bit ||| RequestType.datagram.bit |||
    RequestType.connectionLost.bit ||| RequestType.shutdown.bit

/-- `data[i] < '\x20'`; as a signed `char` a byte from 0x80 on is negative. -/
def Control (signed : Bool) (byte : UInt8) : Prop := byte < 0x20 ∨ (signed ∧ 0x80 ≤ byte)

instance (signed : Bool) : DecidablePred (Control signed) := fun _ => instDecidableOr

/-- Cut at newline. -/
def cut (signed : Bool) : List UInt8 → List UInt8
  | [] => []
  | byte :: rest => if Control signed byte then 0x00 :: rest else byte :: cut signed rest

/-- There is a string in the data after the cut if there is a place to cut. -/
theorem read_cut (signed : Bool) (data : List UInt8) :
    (CString.read (cut signed data)).isSome ↔ ∃ byte ∈ data, Control signed byte := by
  induction data with
  | nil => simp [cut, CString.read]
  | cons byte rest ih =>
      rw [cut]
      by_cases control : Control signed byte
      · rw [if_pos control]
        exact iff_of_true rfl ⟨byte, List.mem_cons_self, control⟩
      · have text : byte ≠ 0 := by
          rintro rfl
          exact control (Or.inl (by decide))
        rw [if_neg control, CString.read, dif_neg text, Option.isSome_map, ih]
        simp [control]

/-- What is read is not cut. -/
theorem not_control_of_read {signed : Bool} {data : List UInt8} {text : CString}
    (read : CString.read (cut signed data) = some text) :
    ∀ byte ∈ text.bytes, ¬ Control signed byte := by
  induction data generalizing text with
  | nil => cases read
  | cons byte rest ih =>
      rw [cut] at read
      by_cases control : Control signed byte
      · rw [if_pos control] at read
        cases read
        exact nofun
      · have letter : byte ≠ 0 := by
          rintro rfl
          exact control (Or.inl (by decide))
        rw [if_neg control, CString.read, dif_neg letter] at read
        obtain ⟨later, below, rfl⟩ := Option.map_eq_some_iff.mp read
        exact List.forall_mem_cons.mpr ⟨control, ih below⟩

/-- Process new connection request. -/
def processNewConnection (world : World) (deaf : List ConnectionId) (chat : Chat) (socket : Int)
    (mrpConn : Option ConnectionId) : Option (MSrvResult × Chat) := do
  let c ← chat.connection mrpConn
  match world.host c with
  | .found h_name => some (0, chat.write deaf socket (Line.hello h_name (world.address c)).msg)
  | .failed h_errno reason =>
      let chat := chat.message (ofString "Resolving address " ++ ofChars (world.address c).print ++
        ofString " failed with error " ++ ofChars (Numeral.print 0 h_errno) ++ ofString "; " ++
        reason ++ ofString ".")
      some (0, chat.write deaf socket Line.helloThere.msg)

/-- Process connection lost request. -/
def processConnectionLost (chat : Chat) : Option (MSrvResult × Chat) :=
  some (0, chat.message (ofString "Connection lost"))

/-- Process data request (either stream data or datagram). -/
def processData (world : World) (remove : Removal) (deaf : List ConnectionId) (chat : Chat)
    (request : Request) (mpData : List UInt8) : Option (MSrvResult × Chat) := do
  let data ← CString.read (cut world.signed mpData)
  let (result, chat) ←
    if data = ofString "shutdown" then some (0, chat.startShutdown)
    else if request.getType = .streamData ∧ data = ofString "quit" then do
      let c ← chat.connection request.connection?
      (chat.write deaf request.mSocket Line.bye.msg).close remove c
    else do
      let replied := chat.write deaf request.mSocket (Line.reply data).msg
      let relayed ← replied.forEach (fun chat c =>
        if chat.sockets.socket c ≠ request.mSocket then
          chat.write deaf (chat.sockets.socket c) (Line.relay data).msg
        else chat) replied.visits
      some (0, relayed)
  some (result, chat.message (ofString "Received message '" ++ data ++ ofString "'."))

/-- Process shutdown request. -/
def processShutdown (deaf : List ConnectionId) (chat : Chat) : Option (MSrvResult × Chat) := do
  let chat := chat.message (ofString "Server is shutting down.")
  let chat ← chat.forEach (fun chat c =>
    chat.write deaf (chat.sockets.socket c) Line.shutdown.msg) chat.visits
  some (0, chat)

/-- Process timeout request. -/
def processTimeout (chat : Chat) : Option (MSrvResult × Chat) :=
  some (0, chat.message (ofString "Listener notified about a routine timeout."))

/-- `RequestHandler::process`, up to the destruction of the request. -/
def process (world : World) (remove : Removal) (deaf : List ConnectionId) (chat : Chat)
    (request : Request) : Option (MSrvResult × Chat) :=
  match request.content with
  | .newConnection mrpConn => processNewConnection world deaf chat request.mSocket mrpConn
  | .streamData _ mpData | .datagram mpData => processData world remove deaf chat request mpData
  | .connectionLost _ => processConnectionLost chat
  | .shutdown => processShutdown deaf chat
  | .timeout => processTimeout chat

end MyHandler

namespace Chat

inductive Action where
  /-- The listener thread goes on outside the handler, or another thread calls
  `startShutdown()`. -/
  | listen (action : Listening.Action)
  /-- The handler handles the request that is passed to it; the writes to `deaf` fail. -/
  | handle (deaf : List ConnectionId)
  /-- `shutdown()` passes its request to the handler. -/
  | farewell (deaf : List ConnectionId)
  deriving DecidableEq

/-- The clients to which writes fail in a step. -/
def Action.deaf : Action → List ConnectionId
  | .listen _ => []
  | .handle deaf | .farewell deaf => deaf

/-- One step of the listener thread. -/
def step (world : World) (remove : Removal) (chat : Chat) : Action → Option Chat
  | .listen action =>
      if chat.told then none
      else (chat.serving.step remove (.listen action)).map fun serving =>
        { chat with serving := serving }
  | .handle deaf =>
      match chat.serving.listening.pc with
      | .handling request _ => do
          let (result, chat) ← MyHandler.process world remove deaf chat request
          let serving ← chat.serving.step remove (.returned result)
          some { chat with serving := serving }
      | _ => none
  | .farewell deaf =>
      if chat.serving.listening.pc = .left ∧ chat.told = false ∧
          chat.server.generates .shutdown then do
        let (_, chat) ← MyHandler.processShutdown deaf chat
        some { chat with told := true }
      else none

/-- Every run of the sample server without a pool is a run of this machine, up to
the closing of its sockets in `shutdown()`. -/
def machine (world : World) (remove : Removal) : Machine Chat Action where
  step := step world remove

end Chat

end MSrv
