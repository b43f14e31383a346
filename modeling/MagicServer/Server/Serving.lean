import MagicServer.Server.Listen

/-!
# A handler in the listener thread

The listener with a `RequestHandler` whose `process` is the switchboard of
`msrvrequest.cc`: while it handles a request it closes Connections as it likes,
and when it returns the request is destroyed, and a `ConnectionLost` request
destroys its Connection. The trace records what is passed to the handler and
which Connections it closes.
-/

namespace MSrv

/-- What happens to a Connection in the listener thread. -/
inductive Happening where
  /-- A request is passed to the handler while `connection().socket()` is `socket`. -/
  | passed (request : Request) (socket : Option Int)
  /-- The handler calls `Connection::close()`. -/
  | closed (c : ConnectionId)
  deriving DecidableEq

/-- The listener thread with its handler. -/
structure Serving where
  listening : Listening
  /-- Which `Connection` objects have been destroyed. -/
  destroyed : ConnectionId → Bool
  trace : List Happening

namespace Serving

/-- `listen()` is called on a listener without Connections. -/
def start (server : ServerListener) : Serving where
  listening := .start server
  destroyed _ := false
  trace := []

inductive Action where
  /-- The listener thread goes on outside the handler. -/
  | listen (action : Listening.Action)
  /-- The handler closes a Connection. -/
  | close (c : ConnectionId)
  /-- The handler returns. -/
  | returned (result : MSrvResult)
  deriving DecidableEq

def sockets (serving : Serving) : Sockets := serving.listening.server.sockets

/-- The same listener with other sockets. -/
def withSockets (serving : Serving) (sockets : Sockets) : Serving :=
  { serving with
    listening :=
      { serving.listening with server := { serving.listening.server with sockets := sockets } } }

/-- A Connection object that exists. -/
def Live (serving : Serving) (c : ConnectionId) : Prop :=
  c < serving.sockets.created ∧ serving.destroyed c = false

instance (serving : Serving) : DecidablePred serving.Live := fun _ => instDecidableAnd

/-- `delete pRequest`: the destructor of a `ConnectionLostRequest` destroys the
Connection, and the destructor of a Connection closes it. -/
def deleteRequest (remove : Removal) (serving : Serving) (request : Request) : Serving :=
  match request.content with
  | .connectionLost (some c) =>
      { serving.withSockets (serving.sockets.close remove c).2 with
        destroyed := Function.update serving.destroyed c true }
  | _ => serving

/-- The record of the request that a step of `listen()` has passed on. -/
def passedOn (before after : Listening) : List Happening :=
  match before.pc.request?, after.pc.request? with
  | none, some request => [.passed request (request.connection?.map after.server.sockets.socket)]
  | _, _ => []

/-- One step of the listener thread. -/
def step (remove : Removal) (serving : Serving) : Action → Option Serving
  | .listen (.returned _) => none
  | .listen action =>
      (serving.listening.step remove action).map fun next =>
        { serving with
          listening := next
          trace := serving.trace ++ passedOn serving.listening next }
  | .close c =>
      if serving.listening.pc.request?.isSome ∧ serving.Live c then
        some
          { serving.withSockets (serving.sockets.close remove c).2 with
            trace := serving.trace ++ [.closed c] }
      else none
  | .returned result =>
      match serving.listening.pc with
      | .handling request _ =>
          let deleted := serving.deleteRequest remove request
          (deleted.listening.step remove (.returned result)).map fun next =>
            { deleted with listening := next }
      | _ => none

/-- Every run of the listener thread is a run of this machine. -/
def machine (remove : Removal) : Machine Serving Action where
  step := step remove

/-- The steps of the listener thread. -/
inductive Step (remove : Removal) (serving : Serving) : Action → Serving → Prop
  | listen {action : Listening.Action} {next : Listening} :
      Listening.Step remove serving.listening action next →
      (∀ result, action ≠ .returned result) →
      Step remove serving (.listen action)
        { serving with
          listening := next
          trace := serving.trace ++ passedOn serving.listening next }
  | close {c : ConnectionId} {request : Request} {resume : Resume} :
      serving.listening.pc = .handling request resume → serving.Live c →
      Step remove serving (.close c)
        { serving.withSockets (serving.sockets.close remove c).2 with
          trace := serving.trace ++ [.closed c] }
  | returned {request : Request} {resume : Resume} (result : MSrvResult) :
      serving.listening.pc = .handling request resume →
      Step remove serving (.returned result)
        { serving.deleteRequest remove request with
          listening :=
            (serving.deleteRequest remove request).listening.afterHandler remove result resume }

variable {remove : Removal} {serving next : Serving} {action : Action}

/-- The destruction of a request leaves the listener thread where it is. -/
theorem deleteRequest_pc (remove : Removal) (serving : Serving) (request : Request) :
    (serving.deleteRequest remove request).listening.pc = serving.listening.pc := by
  unfold deleteRequest
  split <;> rfl

theorem deleteRequest_of_lost {request : Request} {c : ConnectionId}
    (content : request.content = .connectionLost (some c)) :
    serving.deleteRequest remove request =
      { serving.withSockets (serving.sockets.close remove c).2 with
        destroyed := Function.update serving.destroyed c true } := by
  unfold deleteRequest
  rw [content]

theorem deleteRequest_of_ne_lost {request : Request}
    (other : ∀ data, request.content ≠ .connectionLost data) :
    serving.deleteRequest remove request = serving := by
  unfold deleteRequest
  split
  · next content => exact absurd content (other _)
  · rfl

theorem step_cases (taken : (machine remove).step serving action = some next) :
    Step remove serving action next := by
  change serving.step remove action = some next at taken
  cases action with
  | listen inner =>
      by_cases handler : ∃ result, inner = .returned result
      · obtain ⟨result, rfl⟩ := handler
        cases taken
      · have outside : ∀ result, inner ≠ .returned result := fun result same =>
          handler ⟨result, same⟩
        have unfolded : (serving.listening.step remove inner).map (fun next =>
            { serving with
              listening := next
              trace := serving.trace ++ passedOn serving.listening next }) = some next := by
          cases inner with
          | returned result => exact absurd rfl (outside result)
          | _ => exact taken
        obtain ⟨after, stepped, rfl⟩ := Option.map_eq_some_iff.mp unfolded
        exact .listen (Listening.step_cases stepped) outside
  | close c =>
      obtain ⟨⟨handling, live⟩, rfl⟩ := Option.ite_none_right_eq_some.mp taken |>.imp id
        Option.some_inj.mp
      cases here : serving.listening.pc with
      | handling request resume => exact .close here live
      | _ =>
          rw [here] at handling
          cases handling
  | returned result =>
      cases here : serving.listening.pc with
      | handling request resume =>
          simp only [step, here] at taken
          obtain ⟨after, stepped, rfl⟩ := Option.map_eq_some_iff.mp taken
          have moved := (deleteRequest_pc remove serving request).trans here
          simp only [Listening.step, moved, Option.some.injEq] at stepped
          subst stepped
          exact .returned result here
      | _ => simp only [step, here, reduceCtorEq] at taken

end Serving

end MSrv
