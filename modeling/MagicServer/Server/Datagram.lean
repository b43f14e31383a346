import MagicServer.Container.Array
import MagicServer.Server.Listen
import MagicServer.Server.Read

/-!
# A UDP server

A UDP listener with the socket it reads: datagrams arrive at any time, one read
takes one of them, and what is beyond the length of the read is discarded. The
reads of a `descriptorEvent` are steps of their own, so that datagrams can arrive
between them and a call can wait for the next one. The listener goes through the
same branches as for the stream of a client.
-/

namespace MSrv

/-- The payload of a `DatagramRequest`. -/
def Request.datagram? (request : Request) : Option (List UInt8) :=
  match request.content with
  | .datagram mpData => some mpData
  | _ => none

/-- The request refers to a Connection by a `NULL` pointer. -/
def Request.RefersToNull (request : Request) : Prop :=
  match request.content with
  | .newConnection mrpConn | .streamData mrpConn _ | .connectionLost mrpConn => mrpConn = none
  | .datagram _ | .shutdown | .timeout => False

namespace Listening

variable {remove : Removal} {listening next : Listening} {entry : Descriptor}

/-- Outside `descriptorEvent` only timeouts make requests, and no descriptor is
removed but that of a lost stream. -/
theorem Step.outside {action : Action} (step : Step remove listening action next)
    (quiet : ∀ input, action ≠ .event input) :
    next.server.config = listening.server.config ∧
      (∀ request, listening.newRequest next = some request → request.content = .timeout) ∧
      (next.server.sockets = listening.server.sockets ∨ ∃ fd, listening.removal? = some fd ∧
        next.server.sockets = (listening.server.sockets.removeDescriptor remove fd).2) ∧
      (listening.removal? = none → next.removal? = none) := by
  refine ⟨step.config, ?_⟩
  have silent : ∀ {next : Listening}, next.pc.request? = none → next.removal? = none := by
    intro next away
    unfold removal?
    split
    · next here => rw [here] at away; cases away
    · rfl
  cases step with
  | quiet before away sockets =>
      refine ⟨fun request new => ?_, Or.inl sockets, fun _ => silent away⟩
      rw [newRequest, before, away] at new
      cases new
  | startShutdown =>
      refine ⟨fun request new => ?_, Or.inl rfl, id⟩
      unfold newRequest at new
      split at new
      · next before =>
          rw [show listening.shutDown.pc = listening.pc from rfl, before] at new
          exact absurd new nofun
      · cases new
  | timeout here =>
      refine ⟨fun request new => ?_, Or.inl rfl, fun _ => rfl⟩
      rw [newRequest, here] at new
      cases new
      rfl
  | returned result here =>
      obtain ⟨away, removed⟩ := afterHandler_cases remove listening result ‹Resume›
      refine ⟨fun request new => ?_, ?_, fun _ => silent away⟩
      · rw [newRequest, here] at new
        cases new
      · rcases removed with ⟨_, same⟩ | ⟨ready, i, fd, rfl, removed⟩
        · exact Or.inl same
        · exact Or.inr ⟨fd, by rw [removal?, here], removed⟩
  | connected | newConnection | streamData | datagram | connectionLost | dropped =>
      exact absurd rfl (quiet _)

/-- What a `descriptorEvent` of a UDP listener does with what it has read. -/
theorem udp_event {results : List ReadResult} {gathered : List UInt8} {readcount : Int}
    (protocol : listening.server.mProtocol = .UDP) (here : listening.entry? = some entry)
    (ended : ServerListener.readLoop [] results = some (gathered, readcount))
    (taken : listening.step remove (.event (.reads results)) = some next) :
    (gathered ≠ [] ∧ next.server.sockets = listening.server.sockets ∧ next.removal? = none ∧
      ((listening.newRequest next).map Request.content =
        if listening.server.generates .datagram then some (.datagram gathered) else none)) ∨
    (gathered = [] ∧ readcount = 0 ∧
      if listening.server.generates .connectionLost then
        (listening.newRequest next).map Request.content = some (.connectionLost entry.mpData)
      else next.server.sockets = (listening.server.sockets.removeDescriptor remove entry.mFd).2) ∨
    (gathered = [] ∧ readcount ≠ 0 ∧ next.server.sockets = listening.server.sockets ∧
      next.removal? = none ∧ listening.newRequest next = none) := by
  obtain ⟨ready, i, pc, listed, set⟩ := entry?_eq_some.mp here
  simp only [Listening.step, pc, listed, Option.bind_eq_bind, Option.bind_some, if_pos set,
    ServerListener.descriptorEvent, protocol, reduceCtorEq, and_false, ↓reduceIte, ended,
    Option.map_some, Option.some.injEq] at taken
  subst taken
  by_cases some_data : gathered = []
  · subst some_data
    by_cases lost : readcount = 0
    · refine Or.inr (Or.inl ⟨rfl, lost, ?_⟩)
      simp only [ne_eq, not_true_eq_false, ↓reduceIte, lost, ServerListener.generate]
      split
      · simp only [newRequest, pc, ListenPc.request?, pass, ServerListener.newRequest,
          Option.map_some]
      · rfl
    · refine Or.inr (Or.inr ⟨rfl, lost, ?_⟩)
      simp only [ne_eq, not_true_eq_false, ↓reduceIte, lost, pass, afterEvent,
        ServerListener.descriptorEventEnd, removal?, newRequest, pc, ListenPc.request?,
        Bool.false_eq_true, and_self]
  · refine Or.inl ⟨some_data, ?_⟩
    simp only [ne_eq, some_data, not_false_eq_true, ↓reduceIte, ServerListener.generate]
    split
    · simp only [newRequest, pc, ListenPc.request?, pass, ServerListener.newRequest, removal?,
        Option.map_some, and_self]
    · simp only [newRequest, pc, ListenPc.request?, pass, afterEvent,
        ServerListener.descriptorEventEnd, removal?, Option.map_none, Bool.false_eq_true,
        ↓reduceIte, and_self]

end Listening

/-- A UDP listener and its socket. -/
structure DatagramServer where
  listening : Listening
  /-- The datagrams that wait in the socket, the oldest first. -/
  waiting : List (List UInt8)
  /-- The reads so far of the `descriptorEvent` in progress. -/
  results : List ReadResult
  arrived : List (List UInt8)
  passed : List Request

namespace DatagramServer

/-- `listen()` is called. -/
def start (server : ServerListener) : DatagramServer where
  listening := .start server
  waiting := []
  results := []
  arrived := []
  passed := []

/-- A UDP listener for concrete runs, with server socket 3. -/
def sample : ServerListener := (ServerListener.construct.bind .UDP 0 ⟨3, 0, 0, 0⟩).2

inductive Action where
  /-- A datagram arrives. -/
  | arrive (datagram : List UInt8)
  /-- The listener goes on outside `descriptorEvent`. -/
  | listen (action : Listening.Action)
  /-- A `::read` takes a datagram. -/
  | read
  /-- A `::read` fails. -/
  | fail
  deriving DecidableEq

/-- The listener has moved, perhaps to the handler with a new request. -/
def move (server : DatagramServer) (next : Listening) : DatagramServer :=
  { server with
    listening := next
    passed := server.passed ++ (server.listening.newRequest next).toList }

/-- A `::read` in `descriptorEvent` returns: the loop reads on after a whole
block, and the call goes on to its end after any other result. -/
def receive (server : DatagramServer) (result : ReadResult) : Option DatagramServer :=
  let results := server.results ++ [result]
  if server.listening.entry?.isSome then
    if result.Full then some { server with results := results }
    else
      (server.listening.step Array.written (.event (.reads results))).map fun next =>
        { server.move next with results := [] }
  else none

/-- One step of the listener or of its socket. -/
def step (server : DatagramServer) : Action → Option DatagramServer
  | .arrive datagram =>
      some
        { server with
          waiting := server.waiting ++ [datagram]
          arrived := server.arrived ++ [datagram] }
  | .listen (.event _) => none
  | .listen action => (server.listening.step Array.written action).map server.move
  | .read =>
      match server.waiting with
      | [] => none
      | datagram :: rest =>
          receive { server with waiting := rest } (.block (datagram.take MSRV_READ_BUFFER_LEN))
  | .fail => server.receive .error

def machine : Machine DatagramServer Action where
  step := step

/-- What the handler has been given of the datagrams that have been taken from
the socket: one request each, in order, with exactly its payload. -/
def Delivers (server : DatagramServer) : Prop :=
  server.passed.filterMap Request.datagram? ++ server.waiting = server.arrived

/-- The listener watches its socket and has taken no datagram for a lost stream. -/
structure Watches (server : DatagramServer) : Prop where
  entry : ⟨server.listening.server.mSocket, none⟩ ∈ server.listening.server.sockets.mDescriptors
  lost : ∀ request ∈ server.passed, request.getType ≠ .connectionLost
  null : ∀ request ∈ server.passed, ¬ request.RefersToNull

/-- A `::read` takes only datagrams that are shorter than a block. -/
def TakesShort (server : DatagramServer) : Action → Prop
  | .read => ∀ datagram ∈ server.waiting.head?, datagram.length < MSRV_READ_BUFFER_LEN
  | .arrive _ | .listen _ | .fail => True

/-- The first `::read` of a call takes no empty datagram. -/
def TakesBytes (server : DatagramServer) : Action → Prop
  | .read => server.results = [] → server.waiting.head? ≠ some []
  | .arrive _ | .listen _ | .fail => True

/-- No empty datagram arrives, and no read fails. -/
def NonEmpty (_ : DatagramServer) : Action → Prop
  | .arrive datagram => datagram ≠ []
  | .fail => False
  | .listen _ | .read => True

theorem receive_full (server : DatagramServer) {result : ReadResult}
    (here : server.listening.entry?.isSome) (full : result.Full) :
    server.receive result = some { server with results := server.results ++ [result] } := by
  rw [receive, if_pos here, if_pos full]

theorem receive_last (server : DatagramServer) {result : ReadResult} {after : Listening}
    (here : server.listening.entry?.isSome) (ends : ¬ result.Full)
    (stepped : server.listening.step Array.written
      (.event (.reads (server.results ++ [result]))) = some after) :
    server.receive result = some { server.move after with results := [] } := by
  rw [receive, if_pos here, if_neg ends, stepped, Option.map_some]

/-- The steps of the listener and its socket. -/
inductive Step (server : DatagramServer) : Action → DatagramServer → Prop
  | arrive (datagram : List UInt8) :
      Step server (.arrive datagram)
        { server with
          waiting := server.waiting ++ [datagram]
          arrived := server.arrived ++ [datagram] }
  | listen {action : Listening.Action} {next : Listening} :
      Listening.Step Array.written server.listening action next →
      (∀ input, action ≠ .event input) → Step server (.listen action) (server.move next)
  /-- The loop reads on after a datagram that fills the block. -/
  | block {datagram : List UInt8} {rest : List (List UInt8)} :
      server.waiting = datagram :: rest → MSRV_READ_BUFFER_LEN ≤ datagram.length →
      Step server .read
        { server with
          waiting := rest
          results := server.results ++ [.block (datagram.take MSRV_READ_BUFFER_LEN)] }
  | short {datagram : List UInt8} {rest : List (List UInt8)} {entry : Descriptor}
      {next : Listening} : server.waiting = datagram :: rest →
      datagram.length < MSRV_READ_BUFFER_LEN → server.listening.entry? = some entry →
      server.listening.step Array.written
        (.event (.reads (server.results ++ [.block datagram]))) = some next →
      Step server .read { server.move next with waiting := rest, results := [] }
  | fail {entry : Descriptor} {next : Listening} : server.listening.entry? = some entry →
      server.listening.step Array.written (.event (.reads (server.results ++ [.error]))) =
        some next →
      Step server .fail { server.move next with results := [] }

variable {server next : DatagramServer} {action : Action}

theorem step_cases (taken : machine.step server action = some next) : Step server action next := by
  change server.step action = some next at taken
  cases action with
  | arrive datagram =>
      cases taken
      exact .arrive datagram
  | listen inner =>
      by_cases event : ∃ input, inner = .event input
      · obtain ⟨input, rfl⟩ := event
        cases taken
      · have outside : ∀ input, inner ≠ .event input := fun input same => event ⟨input, same⟩
        have moved : (server.listening.step Array.written inner).map server.move = some next := by
          cases inner with
          | event input => exact absurd rfl (outside input)
          | _ => exact taken
        obtain ⟨after, stepped, rfl⟩ := Option.map_eq_some_iff.mp moved
        exact .listen (Listening.step_cases stepped) outside
  | read =>
      simp only [step] at taken
      split at taken
      · cases taken
      · next datagram rest waiting =>
          simp only [receive, Option.ite_none_right_eq_some] at taken
          obtain ⟨here, taken⟩ := taken
          obtain ⟨entry, here⟩ := Option.isSome_iff_exists.mp here
          split at taken
          · next full =>
              cases taken
              refine .block waiting ?_
              have size : (datagram.take MSRV_READ_BUFFER_LEN).length = MSRV_READ_BUFFER_LEN := full
              rw [List.length_take] at size
              exact min_eq_left_iff.mp size
          · next partly =>
              have small : datagram.length < MSRV_READ_BUFFER_LEN := by
                by_contra large
                refine partly (show (datagram.take _).length = _ from ?_)
                rw [List.length_take]
                exact Nat.min_eq_left (not_lt.mp large)
              obtain ⟨after, stepped, rfl⟩ := Option.map_eq_some_iff.mp taken
              rw [List.take_of_length_le small.le] at stepped
              exact .short waiting small here stepped
  | fail =>
      simp only [step, receive, Option.ite_none_right_eq_some] at taken
      obtain ⟨here, taken⟩ := taken
      obtain ⟨entry, here⟩ := Option.isSome_iff_exists.mp here
      rw [if_neg (show ¬ ReadResult.Full .error from id)] at taken
      obtain ⟨after, stepped, rfl⟩ := Option.map_eq_some_iff.mp taken
      exact .fail here stepped

/-- The payloads that have been passed to the handler. -/
def delivered (server : DatagramServer) : List (List UInt8) :=
  server.passed.filterMap Request.datagram?

/-- A step outside `descriptorEvent` passes on no payload. -/
theorem delivered_outside {inner : Listening.Action} {after : Listening}
    (step : Listening.Step Array.written server.listening inner after)
    (outside : ∀ input, inner ≠ .event input) :
    (server.move after).delivered = server.delivered := by
  obtain ⟨_, timeouts, _⟩ := step.outside outside
  unfold delivered move
  rw [List.filterMap_append]
  cases new : server.listening.newRequest after with
  | none => exact List.append_nil _
  | some request =>
      simp only [Option.toList_some, List.filterMap_cons, Request.datagram?, timeouts request new,
        List.filterMap_nil, List.append_nil]

/-- As long as no datagram fills a block, the listener takes one at a time. -/
structure Delivering (server : DatagramServer) : Prop where
  protocol : server.listening.server.mProtocol = .UDP
  enabled : server.listening.server.generates .datagram = true
  results : server.results = []
  delivers : server.Delivers
  nonempty : ∀ datagram ∈ server.waiting, datagram ≠ []

theorem Delivering.step (delivering : server.Delivering) (domain : server.NonEmpty action)
    (short : server.TakesShort action) (taken : machine.step server action = some next) :
    next.Delivering := by
  obtain ⟨protocol, enabled, results, delivers, nonempty⟩ := delivering
  cases step_cases taken with
  | arrive datagram =>
      refine ⟨protocol, enabled, results, ?_, ?_⟩
      · unfold Delivers
        rw [← List.append_assoc, delivers]
      · intro other member
        rcases List.mem_append.mp member with earlier | new
        · exact nonempty other earlier
        · rw [List.mem_singleton.mp new]
          exact domain
  | listen step outside =>
      refine ⟨(ServerListener.protocol_of_config step.config).trans protocol,
        (ServerListener.generates_of_config step.config _).trans enabled, results, ?_, nonempty⟩
      exact (congrArg (· ++ server.waiting) (delivered_outside step outside)).trans delivers
  | @block datagram rest waiting large =>
      have small := short datagram (by rw [waiting]; rfl)
      exact absurd large small.not_ge
  | @short datagram rest entry after waiting small here stepped =>
      have config := (Listening.step_cases stepped).config
      have some_data : datagram ≠ [] :=
        nonempty datagram (by rw [waiting]; exact List.mem_cons_self)
      rw [results, List.nil_append] at stepped
      have ended := ServerListener.readLoop_short small
      refine ⟨(ServerListener.protocol_of_config config).trans protocol,
        (ServerListener.generates_of_config config _).trans enabled, rfl, ?_, ?_⟩
      · rcases Listening.udp_event protocol here ended stepped with
          ⟨_, _, _, new⟩ | ⟨empty, _⟩ | ⟨empty, _⟩
        · rw [if_pos enabled] at new
          obtain ⟨request, new, content⟩ := Option.map_eq_some_iff.mp new
          unfold Delivers move
          simp only [new, List.filterMap_append, Option.toList_some, List.filterMap_cons,
            Request.datagram?, content, List.filterMap_nil, List.append_assoc]
          rw [← delivers, waiting]
          rfl
        · exact absurd empty some_data
        · exact absurd empty some_data
      · intro other member
        exact nonempty other (by rw [waiting]; exact List.mem_cons_of_mem _ member)
  | fail => exact domain.elim

/-- A datagram has been taken from the socket for which there will be no request. -/
def Behind (server : DatagramServer) : Prop :=
  server.delivered.length + server.waiting.length < server.arrived.length

/-- A call passes on at most one payload. -/
theorem delivered_move_le (server : DatagramServer) (after : Listening) :
    (server.move after).delivered.length ≤ server.delivered.length + 1 := by
  unfold delivered move
  rw [List.filterMap_append, List.length_append]
  have one : (server.listening.newRequest after).toList.length ≤ 1 := by
    cases server.listening.newRequest after <;> simp
  have fewer := List.length_filterMap_le Request.datagram?
    (server.listening.newRequest after).toList
  omega

theorem Behind.step (behind : server.Behind) (domain : server.NonEmpty action)
    (taken : machine.step server action = some next) : next.Behind := by
  unfold Behind at behind ⊢
  cases step_cases taken with
  | arrive datagram =>
      simp only [List.length_append, List.length_singleton]
      change server.delivered.length + _ < _
      omega
  | listen step outside => rwa [delivered_outside step outside]
  | block waiting =>
      rw [waiting, List.length_cons] at behind
      exact (Nat.le_succ _).trans_lt behind
  | @short datagram rest entry after waiting =>
      rw [waiting, List.length_cons] at behind
      have more := server.delivered_move_le after
      change (server.move after).delivered.length + rest.length < server.arrived.length
      omega
  | fail => exact domain.elim

/-- A datagram that fills a block is taken without a request for it. -/
theorem Delivering.behind (delivering : server.Delivering) (large : ¬ server.TakesShort action)
    (taken : machine.step server action = some next) : next.Behind := by
  have all := congrArg List.length delivering.delivers
  rw [List.length_append] at all
  cases step_cases taken with
  | arrive | listen | fail => exact absurd trivial large
  | @short datagram rest _ _ waiting small =>
      refine absurd ?_ large
      intro head first
      rw [waiting] at first
      cases first
      exact small
  | block waiting =>
      rw [waiting, List.length_cons] at all
      exact (Nat.lt_succ_self _).trans_eq all

theorem delivering_start {mask flags : Nat} {calls : BindCalls} {listener : ServerListener}
    (bound : (ServerListener.construct.setRequestMask mask).bind .UDP flags calls = (0, listener))
    (enabled : listener.generates .datagram = true) : (start listener).Delivering := by
  obtain ⟨_, rfl⟩ := ServerListener.bind_eq_zero bound
  exact ⟨rfl, enabled, rfl, rfl, nofun⟩

/-- For datagrams that are not empty, a UDP listener passes exactly one request
with its payload for each datagram, in order, exactly when every datagram that it
reads is shorter than a block. -/
theorem delivers_iff_takesShort (mask flags : Nat) (calls : BindCalls) {listener : ServerListener}
    (bound : (ServerListener.construct.setRequestMask mask).bind .UDP flags calls = (0, listener))
    (enabled : listener.generates .datagram = true) (actions : List Action)
    {final : DatagramServer} (nonempty : machine.Steps NonEmpty (start listener) actions)
    (ran : machine.run (start listener) actions = some final) :
    final.Delivers ↔ machine.Steps TakesShort (start listener) actions := by
  refine machine.law_iff_steps Delivering Behind ?_ ?_ ?_ ?_ ?_
    (delivering_start bound enabled) nonempty ran
  · intro state action next delivering domain short taken
    exact delivering.step domain short taken
  · intro state action next delivering _ large taken
    exact delivering.behind large taken
  · intro state action next behind domain taken
    exact behind.step domain taken
  · intro state delivering
    exact delivering.delivers
  · intro state behind delivers
    have all := congrArg List.length delivers
    rw [List.length_append] at all
    exact absurd all behind.ne

/-- A datagram arrives and is read. -/
theorem delivers_iff_takesShort_run :
    ∃ final, machine.run (start sample)
        [.arrive [104], .listen .build, .listen (.selectReady [3]), .read] = some final ∧
      (final.Delivers ↔ machine.Steps TakesShort (start sample)
        [.arrive [104], .listen .build, .listen (.selectReady [3]), .read]) := by
  refine ⟨_, rfl, delivers_iff_takesShort ServerListener.defaultMask 0 ⟨3, 0, 0, 0⟩ rfl
    (by decide) _ (machine.steps_of_forall ?_) rfl⟩
  simp [NonEmpty]

/-- A datagram that fills a block and the next one are passed on as one. -/
theorem merges_block {datagram : List UInt8} (size : datagram.length = MSRV_READ_BUFFER_LEN) :
    ∃ final, machine.run (start sample)
        [.arrive datagram, .arrive [104], .listen .build, .listen (.selectReady [3]), .read,
          .read] = some final ∧ ¬ final.Delivers := by
  have whole : datagram.take MSRV_READ_BUFFER_LEN = datagram := List.take_of_length_le size.le
  have full : ReadResult.Full (.block datagram) := size
  have short : ¬ ReadResult.Full (.block [104]) := by decide
  have ended : ServerListener.readLoop [] [.block datagram, .block [104]] =
      some (datagram ++ [104], (1 : Int)) := by
    rw [ServerListener.readLoop_full full]
    exact ServerListener.readLoop_last (show ReadResult.Fits (.block [104]) by decide) short
  let calling : Listening := (Listening.start sample).go (.dispatching [3] 0)
  let ready : DatagramServer := ⟨calling, [datagram, [104]], [], [datagram, [104]], []⟩
  let reading : DatagramServer := ⟨calling, [[104]], [.block datagram], [datagram, [104]], []⟩
  let final : DatagramServer :=
    ⟨calling.pass Array.written (.dispatch [3] 0 3 false)
      (sample.generate .datagram 3 (.datagram (datagram ++ [104]))), [], [], [datagram, [104]],
      [⟨0, 3, .datagram (datagram ++ [104])⟩]⟩
  have first : machine.step ready .read = some reading := by
    change receive ⟨calling, [[104]], [], [datagram, [104]], []⟩
      (.block (datagram.take MSRV_READ_BUFFER_LEN)) = _
    rw [whole]
    exact receive_full _ rfl full
  have read : sample.descriptorEvent 3 none (.reads [.block datagram, .block [104]]) =
      some (sample.generate .datagram 3 (.datagram (datagram ++ [104])), false) := by
    have bytes : datagram ++ [104] ≠ [] := List.append_ne_nil_of_right_ne_nil _ nofun
    change (ServerListener.readLoop [] [.block datagram, .block [104]]).map _ = _
    rw [ended, Option.map_some]
    exact congrArg some (if_pos bytes)
  have event : calling.step Array.written (.event (.reads [.block datagram, .block [104]])) =
      some (calling.pass Array.written (.dispatch [3] 0 3 false)
        (sample.generate .datagram 3 (.datagram (datagram ++ [104])))) := by
    change (sample.descriptorEvent 3 none (.reads [.block datagram, .block [104]])).bind _ = _
    rw [read]
    rfl
  have second : machine.step reading .read = some final :=
    receive_last ⟨calling, [], [.block datagram], [datagram, [104]], []⟩ rfl short event
  refine ⟨final, ?_, fun delivers => ?_⟩
  · change machine.run (start sample) ([.arrive datagram, .arrive [104], .listen .build,
      .listen (.selectReady [3])] ++ [.read, .read]) = _
    rw [machine.run_append_eq_some]
    exact ⟨ready, rfl, machine.run_cons_eq_some.mpr ⟨reading, first,
      machine.run_cons_eq_some.mpr ⟨final, second, rfl⟩⟩⟩
  · have count := congrArg List.length delivers
    cases count

/-- Two datagrams, the first one as long as a block, give one request. -/
theorem not_delivers_block :
    ∃ final, machine.run (start sample)
        [.arrive (List.replicate MSRV_READ_BUFFER_LEN 0), .arrive [104], .listen .build,
          .listen (.selectReady [3]), .read, .read] = some final ∧ ¬ final.Delivers :=
  merges_block List.length_replicate

/-- A request that a UDP listener makes of what it has read, or of a timeout. -/
def Harmless (request : Request) : Prop :=
  (∃ mpData, request.content = .datagram mpData) ∨ request.content = .timeout

/-- As long as no call begins with an empty datagram, the listener keeps its entry. -/
structure Watching (server : DatagramServer) : Prop where
  protocol : server.listening.server.mProtocol = .UDP
  table : server.listening.server.sockets.mDescriptors = [⟨server.listening.server.mSocket, none⟩]
  removal : server.listening.removal? = none
  passed : ∀ request ∈ server.passed, Harmless request
  results : ∀ result ∈ server.results, result.Full

theorem Watching.watches (watching : server.Watching) : server.Watches where
  entry := by rw [watching.table]; exact List.mem_singleton_self _
  lost request member := by
    rcases watching.passed request member with ⟨mpData, content⟩ | content <;>
      rw [Request.getType, content] <;> exact nofun
  null request member := by
    rcases watching.passed request member with ⟨mpData, content⟩ | content <;>
      rw [Request.RefersToNull, content] <;> exact id

/-- The listener moves without a lost stream. -/
theorem Watching.move (watching : server.Watching) {after : Listening}
    (config : after.server.config = server.listening.server.config)
    (sockets : after.server.sockets = server.listening.server.sockets)
    (removal : after.removal? = none)
    (harmless : ∀ request, server.listening.newRequest after = some request → Harmless request)
    {waiting : List (List UInt8)} {results : List ReadResult}
    (full : ∀ result ∈ results, result.Full) :
    Watching { server.move after with waiting := waiting, results := results } where
  protocol := (ServerListener.protocol_of_config config).trans watching.protocol
  table := by
    have same : after.server.mSocket = server.listening.server.mSocket := congrArg Prod.fst config
    change after.server.sockets.mDescriptors = [⟨after.server.mSocket, none⟩]
    rw [sockets, same, watching.table]
  removal := removal
  passed request member := by
    rcases List.mem_append.mp member with earlier | new
    · exact watching.passed request earlier
    · exact harmless request (Option.mem_toList.mp new)
  results := full

/-- A call that does not begin with the end of a stream leaves the entry. -/
theorem Watching.event (watching : server.Watching) {entry : Descriptor} {results : List ReadResult}
    {after : Listening} (here : server.listening.entry? = some entry)
    (stepped : server.listening.step Array.written (.event (.reads results)) = some after)
    (call : OneCall results) (first : results ≠ [.block []]) {waiting : List (List UInt8)} :
    Watching { server.move after with waiting := waiting, results := [] } := by
  obtain ⟨readcount, ended⟩ := call.readLoop
  have config := (Listening.step_cases stepped).config
  rcases Listening.udp_event watching.protocol here ended stepped with
    ⟨_, sockets, removal, new⟩ | ⟨empty, zero, _⟩ | ⟨_, _, sockets, removal, new⟩
  · refine watching.move config sockets removal (fun request made => ?_) nofun
    rw [made, Option.map_some] at new
    split_ifs at new
    exact Or.inl ⟨_, Option.some_inj.mp new⟩
  · subst zero
    rcases call.bytes_cases with some_bytes | lost | failed
    · exact absurd empty some_bytes
    · exact absurd lost first
    · rw [failed] at ended
      cases ended
  · exact watching.move config sockets removal
      (fun request made => nomatch new.symm.trans made) nofun

theorem Watching.step (watching : server.Watching) (first : server.TakesBytes action)
    (taken : machine.step server action = some next) : next.Watching := by
  -- The reads of a call that ends with `last`.
  have call : ∀ {last : ReadResult}, last.Fits → ¬ last.Full →
      OneCall (server.results ++ [last]) := by
    intro last fits ends
    refine ⟨fun result member => ?_, server.results, last, rfl, watching.results, ends⟩
    rcases List.mem_append.mp member with earlier | new
    · exact (watching.results result earlier).fits
    · rwa [List.mem_singleton.mp new]
  cases step_cases taken with
  | arrive datagram =>
      exact ⟨watching.protocol, watching.table, watching.removal, watching.passed,
        watching.results⟩
  | listen step outside =>
      obtain ⟨config, timeouts, sockets, removal⟩ := step.outside outside
      have same := sockets.resolve_right fun ⟨fd, pending, _⟩ =>
        nomatch watching.removal.symm.trans pending
      exact watching.move config same (removal watching.removal)
        (fun request new => Or.inr (timeouts request new)) watching.results
  | @block datagram rest waiting large =>
      refine ⟨watching.protocol, watching.table, watching.removal, watching.passed, ?_⟩
      intro result member
      rcases List.mem_append.mp member with earlier | new
      · exact watching.results result earlier
      · rw [List.mem_singleton.mp new]
        exact (List.length_take ..).trans (Nat.min_eq_left large)
  | @short datagram rest entry after waiting small here stepped =>
      refine watching.event here stepped
        (call (show ReadResult.Fits (.block datagram) from small.le) small.ne) fun whole => ?_
      obtain ⟨none_before, last⟩ := List.append_eq_singleton_iff.mp whole |>.resolve_right
        fun ⟨_, impossible⟩ => nomatch impossible
      cases last
      exact first none_before (by rw [waiting]; rfl)
  | fail here stepped =>
      refine watching.event here stepped (call trivial id) fun whole => ?_
      have last := congrArg List.getLast? whole
      rw [List.getLast?_concat] at last
      cases last

/-- The listener has taken the end of a stream from a UDP socket. -/
def Fooled (server : DatagramServer) : Prop :=
  (∃ request ∈ server.passed, request.getType = .connectionLost) ∨
    server.listening.server.sockets.mDescriptors = []

theorem Fooled.step (fooled : server.Fooled) (taken : machine.step server action = some next) :
    next.Fooled := by
  -- Requests that have been passed stay passed.
  have passed : ∀ after waiting results, (∃ request ∈ server.passed,
      request.getType = .connectionLost) →
      Fooled { server.move after with waiting := waiting, results := results } :=
    fun _ _ _ ⟨request, member, lost⟩ =>
      Or.inl ⟨request, List.mem_append_left _ member, lost⟩
  -- Without an entry there is no event.
  have nowhere : server.listening.server.sockets.mDescriptors = [] →
      server.listening.entry? = none := by
    intro empty
    unfold Listening.entry?
    split
    · rw [empty]
      rfl
    · rfl
  cases step_cases taken with
  | arrive | block => exact fooled
  | listen step outside =>
      rcases fooled with lost | empty
      · exact passed _ _ _ lost
      · right
        obtain ⟨_, _, same | ⟨fd, _, removed⟩, _⟩ := step.outside outside
        · exact (congrArg Sockets.mDescriptors same).trans empty
        · apply (congrArg Sockets.mDescriptors removed).trans
          unfold Sockets.removeDescriptor
          rw [empty]
          exact empty
  | short _ _ here | fail here =>
      rcases fooled with lost | empty
      · exact passed _ _ _ lost
      · cases (nowhere empty).symm.trans here

/-- A call that begins with an empty datagram takes it for the end of a stream. -/
theorem Watching.fooled (watching : server.Watching) (empty : ¬ server.TakesBytes action)
    (taken : machine.step server action = some next) : next.Fooled := by
  cases step_cases taken with
  | arrive | listen | fail => exact absurd trivial empty
  | @block datagram rest waiting large =>
      simp only [TakesBytes, waiting, List.head?_cons, Option.some.injEq, Classical.not_imp,
        not_not] at empty
      rw [empty.2] at large
      exact absurd large (by decide)
  | @short datagram rest entry after waiting small here stepped =>
      simp only [TakesBytes, waiting, List.head?_cons, ne_eq, Option.some.injEq,
        Classical.not_imp, not_not] at empty
      obtain ⟨first, rfl⟩ := empty
      rw [first, List.nil_append] at stepped
      have listed : entry = ⟨server.listening.server.mSocket, none⟩ := by
        obtain ⟨_, _, _, found, _⟩ := Listening.entry?_eq_some.mp here
        have member := List.mem_of_getElem? found
        rwa [watching.table, List.mem_singleton] at member
      rcases Listening.udp_event watching.protocol here (ServerListener.readLoop_short small)
        stepped with ⟨some_data, _⟩ | ⟨_, _, lost⟩ | ⟨_, failed, _⟩
      · exact absurd rfl some_data
      · split_ifs at lost
        · obtain ⟨request, new, content⟩ := Option.map_eq_some_iff.mp lost
          refine Or.inl ⟨request, List.mem_append_right _ (Option.mem_toList.mpr new), ?_⟩
          rw [Request.getType, content]
        · right
          change after.server.sockets.mDescriptors = []
          rw [lost, Sockets.removeDescriptor, watching.table, listed]
          simp [Array.written]
      · exact absurd rfl failed

theorem watching_start {mask flags : Nat} {calls : BindCalls} {listener : ServerListener}
    (bound : (ServerListener.construct.setRequestMask mask).bind .UDP flags calls =
      (0, listener)) : (start listener).Watching := by
  obtain ⟨_, rfl⟩ := ServerListener.bind_eq_zero bound
  exact ⟨rfl, rfl, rfl, nofun, nofun⟩

/-- A UDP listener watches its socket and tells of no lost Connection exactly when
no call begins with an empty datagram. -/
theorem watches_iff_takesBytes (mask flags : Nat) (calls : BindCalls) {listener : ServerListener}
    (bound : (ServerListener.construct.setRequestMask mask).bind .UDP flags calls = (0, listener))
    (actions : List Action) {final : DatagramServer}
    (ran : machine.run (start listener) actions = some final) :
    final.Watches ↔ machine.Steps TakesBytes (start listener) actions := by
  refine machine.law_iff_steps Watching Fooled ?_ ?_ ?_ ?_ ?_ (watching_start bound)
    (machine.steps_true ..) ran
  · intro state action next watching _ bytes taken
    exact watching.step bytes taken
  · intro state action next watching _ empty taken
    exact watching.fooled empty taken
  · intro state action next fooled _ taken
    exact fooled.step taken
  · intro state watching
    exact watching.watches
  · rintro state (⟨request, member, lost⟩ | empty) watches
    · exact watches.lost request member lost
    · have listed := watches.entry
      rw [empty] at listed
      cases listed

/-- A datagram arrives and is read. -/
theorem watches_iff_takesBytes_run :
    ∃ final, machine.run (start sample)
        [.arrive [104], .listen .build, .listen (.selectReady [3]), .read] = some final ∧
      (final.Watches ↔ machine.Steps TakesBytes (start sample)
        [.arrive [104], .listen .build, .listen (.selectReady [3]), .read]) :=
  ⟨_, rfl, watches_iff_takesBytes ServerListener.defaultMask 0 ⟨3, 0, 0, 0⟩ rfl _ rfl⟩

/-- An empty datagram arrives: the handler is told of a lost Connection that does
not exist, and the socket is no longer watched. -/
theorem not_watches_empty_datagram :
    ∃ final, machine.run (start sample)
        [.arrive [], .listen .build, .listen (.selectReady [3]), .read,
          .listen (.returned 0)] = some final ∧
      final.passed = [⟨0, 3, .connectionLost none⟩] ∧
      final.listening.server.sockets.mDescriptors = [] ∧ ¬ final.Watches := by
  refine ⟨_, rfl, rfl, rfl, fun watches => ?_⟩
  cases watches.entry

end DatagramServer

end MSrv
