import MagicServer.Library.Machine
import MagicServer.Server.Listener

/-!
# The loop of the listener

`Listener::listen()` as a machine. One action is one pass through the head of
the loop, one outcome of `select()`, one entry of the dispatch loop, the return
of the handler, or the tests at the end of an iteration. While a request is with
the handler the machine waits for the handler to return; what the handler does
meanwhile is added by the systems built on it.
-/

namespace MSrv

/-- What `listen()` goes on with when the handler has returned. -/
inductive Resume where
  /-- The rest of `timeoutEvent()`. -/
  | timeout
  /-- The rest of `descriptorEvent()` for descriptor `fd` at entry `i`. -/
  | dispatch (ready : List Int) (i : Nat) (fd : Int) (lost : Bool)
  deriving DecidableEq

/-- Where the listener thread is in `listen()`. -/
inductive ListenPc where
  /-- About to build the descriptor set. -/
  | building
  /-- In `select()`. -/
  | selecting (fdset : List Int)
  /-- In the dispatch loop, at entry `i`. -/
  | dispatching (ready : List Int) (i : Nat)
  /-- In `getHandler()->process()`. -/
  | handling (request : Request) (resume : Resume)
  /-- At the tests that end an iteration. -/
  | checking
  /-- Has left the loop. -/
  | left
  deriving DecidableEq

/-- The listener and its thread. -/
structure Listening where
  server : ServerListener
  pc : ListenPc
  errorcount : Nat

namespace Listening

/-- `listen()` is called. -/
def start (server : ServerListener) : Listening where
  server := server
  pc := .building
  errorcount := 0

inductive Action where
  | build
  | selectFailed
  /-- `select` times out, which it may do at any moment here. -/
  | selectTimeout
  | selectReady (ready : List Int)
  /-- The entry is not in the ready set. -/
  | skip
  | event (input : EventInput)
  /-- The handler returns. -/
  | returned (result : MSrvResult)
  /-- The dispatch loop ends. -/
  | endDispatch
  | check
  /-- Some thread calls `startShutdown()`. -/
  | startShutdown
  deriving DecidableEq

/-- `startShutdown()`. -/
def shutDown (listening : Listening) : Listening :=
  { listening with server := { listening.server with mShutdownStatus := true } }

/-- The thread goes on at `pc`. -/
def go (listening : Listening) (pc : ListenPc) : Listening := { listening with pc := pc }

/-- `timeoutEvent()` has returned. -/
def afterTimeout (listening : Listening) (result : MSrvResult) : Listening :=
  if result = MSRVERR_SHUTDOWN_EVENT then listening.shutDown.go .checking
  else listening.go .checking

/-- What is left of `descriptorEvent()`, which returns 0, and of the entry's turn. -/
def afterEvent (remove : Removal) (listening : Listening) (ready : List Int) (i : Nat) (fd : Int)
    (lost : Bool) : Listening :=
  { listening with
    server := listening.server.descriptorEventEnd remove fd lost
    pc := .dispatching ready (i + 1) }

/-- The request, if there is one, is passed to the handler. -/
def pass (remove : Removal) (listening : Listening) (resume : Resume) :
    Option Request × ServerListener → Listening
  | (some request, server) =>
      { listening with server := server, pc := .handling request resume }
  | (none, server) =>
      match resume with
      | .timeout => afterTimeout { listening with server := server } 0
      | .dispatch ready i fd lost =>
          afterEvent remove { listening with server := server } ready i fd lost

/-- The handler has returned. -/
def afterHandler (remove : Removal) (listening : Listening) (result : MSrvResult) :
    Resume → Listening
  | .timeout => listening.afterTimeout result
  | .dispatch ready i fd lost => listening.afterEvent remove ready i fd lost

/-- One step of `listen()`. -/
def step (remove : Removal) (listening : Listening) (action : Action) : Option Listening :=
  let mDescriptors := listening.server.sockets.mDescriptors
  match action, listening.pc with
  | .build, .building => some (listening.go (.selecting (mDescriptors.map Descriptor.mFd)))
  | .selectFailed, .selecting _ =>
      some { listening with errorcount := listening.errorcount + 1, pc := .checking }
  | .selectTimeout, .selecting _ =>
      some (listening.pass remove .timeout listening.server.timeoutEvent)
  | .selectReady ready, .selecting fdset =>
      if ready ≠ [] ∧ ready ⊆ fdset then some (listening.go (.dispatching ready 0)) else none
  | .skip, .dispatching ready i => do
      let descriptor ← mDescriptors[i]?
      if descriptor.mFd ∈ ready then none else some (listening.go (.dispatching ready (i + 1)))
  | .event input, .dispatching ready i => do
      let descriptor ← mDescriptors[i]?
      if descriptor.mFd ∈ ready then do
        let (arrived, lost) ←
          listening.server.descriptorEvent descriptor.mFd descriptor.mpData input
        some (listening.pass remove (.dispatch ready i descriptor.mFd lost) arrived)
      else none
  | .returned result, .handling _ resume => some (listening.afterHandler remove result resume)
  | .endDispatch, .dispatching _ i =>
      if mDescriptors.length ≤ i then some { listening with errorcount := 0, pc := .checking }
      else none
  | .check, .checking =>
      let listening :=
        if listening.errorcount > MSRV_MAX_SELECT_ERROR_COUNT then listening.shutDown
        else listening
      some (listening.go (if listening.server.mShutdownStatus then .left else .building))
  | .startShutdown, _ => some listening.shutDown
  | _, _ => none

/-- The removal matters after an event or a handler's return only. -/
theorem step_removal (remove remove' : Removal) {listening : Listening} {action : Action}
    (other : ∀ input, action ≠ .event input) (inside : ∀ result, action ≠ .returned result) :
    listening.step remove action = listening.step remove' action := by
  cases action with
  | event input => exact absurd rfl (other input)
  | returned result => exact absurd rfl (inside result)
  | _ =>
      unfold step
      cases listening.pc <;> rfl

/-- Every run of `listen()` is a run of this machine, whatever the kernel and
the handler do. -/
def machine (remove : Removal) : Machine Listening Action where
  step := step remove

/-! ## What one step can do -/

/-- Where in the loop an action is taken, under which condition, and what it does. -/
inductive Taken (remove : Removal) (listening : Listening) : Action → Listening → Prop
  | build : listening.pc = .building → Taken remove listening .build
      (listening.go (.selecting (listening.server.sockets.mDescriptors.map Descriptor.mFd)))
  | selectFailed {fdset : List Int} : listening.pc = .selecting fdset →
      Taken remove listening .selectFailed
        { listening with errorcount := listening.errorcount + 1, pc := .checking }
  | selectTimeout {fdset : List Int} : listening.pc = .selecting fdset →
      Taken remove listening .selectTimeout
        (listening.pass remove .timeout listening.server.timeoutEvent)
  | selectReady {fdset ready : List Int} : listening.pc = .selecting fdset →
      ready ≠ [] ∧ ready ⊆ fdset →
      Taken remove listening (.selectReady ready) (listening.go (.dispatching ready 0))
  | skip {ready : List Int} {i : Nat} {entry : Descriptor} :
      listening.pc = .dispatching ready i →
      listening.server.sockets.mDescriptors[i]? = some entry → entry.mFd ∉ ready →
      Taken remove listening .skip (listening.go (.dispatching ready (i + 1)))
  | event {ready : List Int} {i : Nat} {entry : Descriptor} {input : EventInput}
      {arrived : Option Request × ServerListener} {lost : Bool} :
      listening.pc = .dispatching ready i →
      listening.server.sockets.mDescriptors[i]? = some entry → entry.mFd ∈ ready →
      listening.server.descriptorEvent entry.mFd entry.mpData input = some (arrived, lost) →
      Taken remove listening (.event input)
        (listening.pass remove (.dispatch ready i entry.mFd lost) arrived)
  | returned {request : Request} {resume : Resume} (result : MSrvResult) :
      listening.pc = .handling request resume →
      Taken remove listening (.returned result) (listening.afterHandler remove result resume)
  | endDispatch {ready : List Int} {i : Nat} : listening.pc = .dispatching ready i →
      listening.server.sockets.mDescriptors.length ≤ i →
      Taken remove listening .endDispatch { listening with errorcount := 0, pc := .checking }
  | check : listening.pc = .checking →
      Taken remove listening .check
        (let listening :=
          if listening.errorcount > MSRV_MAX_SELECT_ERROR_COUNT then listening.shutDown
          else listening
        listening.go (if listening.server.mShutdownStatus then .left else .building))
  | startShutdown : Taken remove listening .startShutdown listening.shutDown

theorem taken_of_step {remove : Removal} {listening next : Listening} {action : Action}
    (taken : (machine remove).step listening action = some next) :
    Taken remove listening action next := by
  change listening.step remove action = some next at taken
  cases action with
  | startShutdown =>
      simp only [step, Option.some.injEq] at taken
      subst taken
      exact .startShutdown
  | build =>
      cases here : listening.pc <;> simp only [step, here, reduceCtorEq, Option.some.injEq] at taken
      subst taken
      exact .build here
  | selectFailed =>
      cases here : listening.pc <;> simp only [step, here, reduceCtorEq, Option.some.injEq] at taken
      subst taken
      exact .selectFailed here
  | selectTimeout =>
      cases here : listening.pc <;> simp only [step, here, reduceCtorEq, Option.some.injEq] at taken
      subst taken
      exact .selectTimeout here
  | selectReady ready =>
      cases here : listening.pc <;> simp only [step, here, reduceCtorEq,
        Option.ite_none_right_eq_some, Option.some.injEq] at taken
      obtain ⟨arrived, rfl⟩ := taken
      exact .selectReady here arrived
  | skip =>
      cases here : listening.pc <;> simp only [step, here, reduceCtorEq] at taken
      rw [Option.bind_eq_bind, Option.bind_eq_some_iff] at taken
      obtain ⟨entry, listed, taken⟩ := taken
      simp only [Option.ite_none_left_eq_some, Option.some.injEq] at taken
      obtain ⟨unset, rfl⟩ := taken
      exact .skip here listed unset
  | event input =>
      cases here : listening.pc <;> simp only [step, here, reduceCtorEq] at taken
      rw [Option.bind_eq_bind, Option.bind_eq_some_iff] at taken
      obtain ⟨entry, listed, taken⟩ := taken
      rw [Option.ite_none_right_eq_some] at taken
      obtain ⟨set, taken⟩ := taken
      rw [Option.bind_eq_bind, Option.bind_eq_some_iff] at taken
      obtain ⟨⟨arrived, lost⟩, event, taken⟩ := taken
      cases taken
      exact .event here listed set event
  | returned result =>
      cases here : listening.pc <;> simp only [step, here, reduceCtorEq, Option.some.injEq] at taken
      subst taken
      exact .returned result here
  | endDispatch =>
      cases here : listening.pc <;> simp only [step, here, reduceCtorEq,
        Option.ite_none_right_eq_some, Option.some.injEq] at taken
      obtain ⟨ended, rfl⟩ := taken
      exact .endDispatch here ended
  | check =>
      cases here : listening.pc <;> simp only [step, here, reduceCtorEq, Option.some.injEq] at taken
      subst taken
      exact .check here

end Listening

/-- The request that is with the handler. -/
def ListenPc.request? : ListenPc → Option Request
  | .handling request _ => some request
  | .building | .selecting _ | .dispatching _ _ | .checking | .left => none

namespace Listening

/-- The steps of `listen()`, by what they do to the sockets and to the handler. -/
inductive Step (remove : Removal) (listening : Listening) : Action → Listening → Prop
  /-- Nothing but the place in the loop, the error count and the shutdown status. -/
  | quiet {action : Action} {next : Listening} : listening.pc.request? = none →
      next.pc.request? = none → next.server.sockets = listening.server.sockets →
      next.server.requests = listening.server.requests →
      next.server.config = listening.server.config → Step remove listening action next
  | startShutdown : Step remove listening .startShutdown listening.shutDown
  | timeout {fdset : List Int} : listening.pc = .selecting fdset →
      Step remove listening .selectTimeout
        { listening with
          server := { listening.server with requests := listening.server.requests + 1 }
          pc := .handling ⟨listening.server.requests, -1, .timeout⟩ .timeout }
  /-- A client is accepted without a request. -/
  | connected {ready : List Int} {i : Nat} {clientsocket : Int} :
      listening.pc = .dispatching ready i → 0 ≤ clientsocket →
      listening.server.sockets.fds clientsocket = none →
      listening.server.generates .newConnection = false →
      Step remove listening (.event (.accepted clientsocket))
        { listening with
          server :=
            { listening.server with sockets := listening.server.sockets.addClient clientsocket }
          pc := .dispatching ready (i + 1) }
  | newConnection {ready : List Int} {i : Nat} {fd clientsocket : Int} :
      listening.pc = .dispatching ready i → 0 ≤ clientsocket →
      listening.server.sockets.fds clientsocket = none →
      Step remove listening (.event (.accepted clientsocket))
        { listening with
          server :=
            { listening.server with
              sockets := listening.server.sockets.addClient clientsocket
              requests := listening.server.requests + 1 }
          pc := .handling ⟨listening.server.requests, clientsocket,
            .newConnection (some listening.server.sockets.created)⟩ (.dispatch ready i fd false) }
  | streamData {ready : List Int} {i : Nat} {entry : Descriptor} {results : List ReadResult}
      {dynbuffer : List UInt8} : listening.pc = .dispatching ready i →
      listening.server.sockets.mDescriptors[i]? = some entry → entry.mFd ∈ ready →
      listening.server.mProtocol = .TCP → entry.mFd ≠ listening.server.mSocket →
      dynbuffer ≠ [] →
      Step remove listening (.event (.reads results))
        { listening with
          server := { listening.server with requests := listening.server.requests + 1 }
          pc := .handling ⟨listening.server.requests, entry.mFd,
            .streamData entry.mpData dynbuffer⟩ (.dispatch ready i entry.mFd false) }
  | datagram {ready : List Int} {i : Nat} {entry : Descriptor} {results : List ReadResult}
      {dynbuffer : List UInt8} : listening.pc = .dispatching ready i →
      listening.server.sockets.mDescriptors[i]? = some entry → entry.mFd ∈ ready →
      listening.server.mProtocol = .UDP → dynbuffer ≠ [] →
      Step remove listening (.event (.reads results))
        { listening with
          server := { listening.server with requests := listening.server.requests + 1 }
          pc := .handling ⟨listening.server.requests, entry.mFd, .datagram dynbuffer⟩
            (.dispatch ready i entry.mFd false) }
  | connectionLost {ready : List Int} {i : Nat} {entry : Descriptor}
      {results : List ReadResult} : listening.pc = .dispatching ready i →
      listening.server.sockets.mDescriptors[i]? = some entry → entry.mFd ∈ ready →
      ¬ (entry.mFd = listening.server.mSocket ∧ listening.server.mProtocol = .TCP) →
      Step remove listening (.event (.reads results))
        { listening with
          server := { listening.server with requests := listening.server.requests + 1 }
          pc := .handling ⟨listening.server.requests, entry.mFd, .connectionLost entry.mpData⟩
            (.dispatch ready i entry.mFd true) }
  /-- A stream has ended, and the mask allows no request for it. -/
  | dropped {ready : List Int} {i : Nat} {entry : Descriptor} {results : List ReadResult} :
      listening.pc = .dispatching ready i →
      listening.server.sockets.mDescriptors[i]? = some entry → entry.mFd ∈ ready →
      listening.server.generates .connectionLost = false →
      Step remove listening (.event (.reads results))
        (listening.afterEvent remove ready i entry.mFd true)
  | returned {request : Request} {resume : Resume} (result : MSrvResult) :
      listening.pc = .handling request resume →
      Step remove listening (.returned result) (listening.afterHandler remove result resume)

variable {remove : Removal} {listening next : Listening} {action : Action}

/-- The return of `timeoutEvent()` changes no socket. -/
theorem afterTimeout_quiet (listening : Listening) (result : MSrvResult) :
    (listening.afterTimeout result).pc = .checking ∧
      (listening.afterTimeout result).server.sockets = listening.server.sockets ∧
      (listening.afterTimeout result).server.requests = listening.server.requests ∧
      (listening.afterTimeout result).server.config = listening.server.config := by
  unfold afterTimeout
  split <;> exact ⟨rfl, rfl, rfl, rfl⟩

/-- An event at an entry in the ready set. -/
theorem event_cases {ready : List Int} {i : Nat} {entry : Descriptor} {input : EventInput}
    {arrived : Option Request × ServerListener} {lost : Bool}
    (here : listening.pc = .dispatching ready i)
    (listed : listening.server.sockets.mDescriptors[i]? = some entry) (set : entry.mFd ∈ ready)
    (event : listening.server.descriptorEvent entry.mFd entry.mpData input = some (arrived, lost)) :
    Step remove listening (.event input)
      (listening.pass remove (.dispatch ready i entry.mFd lost) arrived) := by
  have before := congrArg ListenPc.request? here
  cases ServerListener.arrival_of_event event with
  | refused | failed => exact .quiet before rfl rfl rfl rfl
  | accepted _ nonneg free =>
      unfold ServerListener.generate
      split
      · exact .newConnection here nonneg free
      · next ignored => exact .connected here nonneg free (Bool.eq_false_iff.mpr ignored)
  | streamData protocol other _ some_data =>
      unfold ServerListener.generate
      split
      · exact .streamData here listed set protocol other some_data
      · exact .quiet before rfl rfl rfl rfl
  | datagram protocol _ some_data =>
      unfold ServerListener.generate
      split
      · exact .datagram here listed set protocol some_data
      · exact .quiet before rfl rfl rfl rfl
  | connectionLost client =>
      unfold ServerListener.generate
      split
      · exact .connectionLost here listed set client
      · next ignored => exact .dropped here listed set (Bool.eq_false_iff.mpr ignored)

/-- Every step of `listen()` is one of these. -/
theorem step_cases (taken : (machine remove).step listening action = some next) :
    Step remove listening action next := by
  cases taken_of_step taken with
  | startShutdown => exact .startShutdown
  | build here | selectFailed here | endDispatch here | selectReady here | skip here =>
      exact .quiet (congrArg ListenPc.request? here) rfl rfl rfl rfl
  | check here =>
      refine .quiet (congrArg ListenPc.request? here) ?_ ?_ ?_ ?_ <;>
        simp only [go, shutDown] <;> split_ifs <;> rfl
  | selectTimeout here =>
      unfold ServerListener.timeoutEvent ServerListener.generate
      split
      · exact .timeout here
      · obtain ⟨pc, sockets, requests, config⟩ := listening.afterTimeout_quiet 0
        exact .quiet (congrArg ListenPc.request? here) (congrArg ListenPc.request? pc) sockets
          requests config
  | event here listed set event => exact event_cases here listed set event
  | returned result here => exact .returned result here

/-- What follows the return of the handler changes neither the server socket nor
the protocol nor the mask. -/
theorem afterHandler_config (remove : Removal) (listening : Listening) (result : MSrvResult)
    (resume : Resume) :
    (listening.afterHandler remove result resume).server.config = listening.server.config := by
  cases resume with
  | timeout => exact (listening.afterTimeout_quiet result).2.2.2
  | dispatch ready i fd lost => exact listening.server.descriptorEventEnd_config remove fd lost

/-- Nor does any step of `listen()`. -/
theorem Step.config (step : Step remove listening action next) :
    next.server.config = listening.server.config := by
  cases step with
  | quiet _ _ _ _ config => exact config
  | dropped => exact listening.server.descriptorEventEnd_config ..
  | returned => exact afterHandler_config ..
  | _ => rfl

/-- When the handler has returned, `listen()` goes on without a request. It has
removed the descriptor of a lost stream, and changed no socket otherwise. -/
theorem afterHandler_cases (remove : Removal) (listening : Listening) (result : MSrvResult)
    (resume : Resume) : (listening.afterHandler remove result resume).pc.request? = none ∧
      (((∀ ready i fd, resume ≠ .dispatch ready i fd true) ∧
          (listening.afterHandler remove result resume).server.sockets =
            listening.server.sockets) ∨
        ∃ ready i fd, resume = .dispatch ready i fd true ∧
          (listening.afterHandler remove result resume).server.sockets =
            (listening.server.sockets.removeDescriptor remove fd).2) := by
  cases resume with
  | timeout =>
      obtain ⟨pc, sockets, _⟩ := listening.afterTimeout_quiet result
      exact ⟨congrArg ListenPc.request? pc, Or.inl ⟨nofun, sockets⟩⟩
  | dispatch ready i fd lost =>
      cases lost with
      | false =>
          refine ⟨rfl, Or.inl ⟨fun ready i fd same => ?_, rfl⟩⟩
          cases same
      | true => exact ⟨rfl, Or.inr ⟨ready, i, fd, rfl, rfl⟩⟩

/-- The request that a step of `listen()` has passed to the handler. -/
def newRequest (before after : Listening) : Option Request :=
  match before.pc.request? with
  | none => after.pc.request?
  | some _ => none

/-- The entry to which the dispatch loop has come, when it is in the ready set. -/
def entry? (listening : Listening) : Option Descriptor :=
  match listening.pc with
  | .dispatching ready i =>
      listening.server.sockets.mDescriptors[i]?.filter fun entry => entry.mFd ∈ ready
  | _ => none

/-- The descriptor that is removed when the handler has returned. -/
def removal? (listening : Listening) : Option Int :=
  match listening.pc with
  | .handling _ (.dispatch _ _ fd true) => some fd
  | _ => none

/-- The descriptor that a step of `listen()` removes from the table: that of a
stream that has ended, after its request if there is one. -/
def removes (listening : Listening) : Listening.Action → Option Int
  | .returned _ => match listening.pc with
      | .handling _ (.dispatch _ _ fd true) => some fd
      | _ => none
  | .event (.reads [.block []]) => match listening.pc with
      | .dispatching _ i =>
          if listening.server.generates .connectionLost then none
          else listening.server.sockets.mDescriptors[i]?.map Descriptor.mFd
      | _ => none
  | _ => none

theorem entry?_eq_some {entry : Descriptor} : listening.entry? = some entry ↔
    ∃ ready i, listening.pc = .dispatching ready i ∧
      listening.server.sockets.mDescriptors[i]? = some entry ∧ entry.mFd ∈ ready := by
  unfold entry?
  split
  · next ready i here =>
      simp only [Option.filter_eq_some_iff, decide_eq_true_eq, here, ListenPc.dispatching.injEq]
      constructor
      · intro found
        exact ⟨ready, i, ⟨rfl, rfl⟩, found⟩
      · rintro ⟨_, _, ⟨rfl, rfl⟩, found⟩
        exact found
  · next elsewhere =>
      refine iff_of_false nofun ?_
      rintro ⟨ready, i, here, _⟩
      exact elsewhere ready i here

end Listening

end MSrv
