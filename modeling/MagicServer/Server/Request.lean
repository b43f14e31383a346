import MagicServer.Def

/-!
# Requests

A `Request` object is known by its address, carries a copy of the descriptor
number it originated from, and what its class adds: the `Connection` it is
about, or the data that has arrived.
-/

namespace MSrv

/-- A `Connection` object, known by its place in the order of creation. -/
abbrev ConnectionId := Nat

/-- Type identifier of a request, also acts as a request mask. -/
inductive RequestType where
  | newConnection
  | streamData
  | datagram
  | connectionLost
  | shutdown
  | timeout
  deriving DecidableEq, Repr

/-- The numeric identifier of a request type. -/
def RequestType.bit : RequestType → Nat
  | .newConnection => 0x0001
  | .streamData => 0x0002
  | .datagram => 0x0004
  | .connectionLost => 0x0008
  | .shutdown => 0x0010
  | .timeout => 0x0020

/-- What the class of a request adds to `Request`; the pointer to the connection may be `NULL`. -/
inductive Request.Content where
  | newConnection (mrpConn : Option ConnectionId)
  | streamData (mrpConn : Option ConnectionId) (mpData : List UInt8)
  | datagram (mpData : List UInt8)
  | connectionLost (mrpConn : Option ConnectionId)
  | shutdown
  | timeout
  deriving DecidableEq

/-- A request object. -/
structure Request where
  address : Nat
  mSocket : Int
  content : Request.Content
  deriving DecidableEq

namespace Request

def getType (request : Request) : RequestType :=
  match request.content with
  | .newConnection _ => .newConnection
  | .streamData _ _ => .streamData
  | .datagram _ => .datagram
  | .connectionLost _ => .connectionLost
  | .shutdown => .shutdown
  | .timeout => .timeout

/-- The connection of a `ConnectionRequest`. -/
def connection? (request : Request) : Option ConnectionId :=
  match request.content with
  | .newConnection mrpConn | .streamData mrpConn _ | .connectionLost mrpConn => mrpConn
  | .datagram _ | .shutdown | .timeout => none

end Request

end MSrv
