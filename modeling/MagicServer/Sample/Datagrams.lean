import MagicServer.Sample.Refinement
import MagicServer.Server.Leaving

/-!
# The sample server on a UDP port

A listener bound with `UDP` has its own socket and no client. `MyHandler` answers a
datagram as it answers a client, with `write` on the socket of the request: the
answers are written to the server socket itself, which is connected to nobody.
-/

namespace MSrv

open CString (ofString)

namespace Listening

variable {remove : Removal} {listening next : Listening} {action : Action}

/-- Clients are accepted on a TCP port only. -/
theorem Taken.accepts_tcp {clientsocket : Int}
    (taken : Taken remove listening (.event (.accepted clientsocket)) next) :
    listening.server.mProtocol = .TCP := by
  cases taken with
  | event _ _ _ event =>
      cases ServerListener.arrival_of_event event with
      | refused own | accepted own => exact own.2

/-- The table loses entries at most, and the open descriptors are the same. -/
structure Shrinks (before after : Sockets) : Prop where
  fds : after.fds = before.fds
  table : after.mDescriptors.Sublist before.mDescriptors

theorem shrinks_of_eq {before after : Sockets} (same : after = before) : Shrinks before after := by
  subst same
  exact ⟨rfl, List.Sublist.refl _⟩

theorem shrinks_removeDescriptor (drops : remove.Drops) (sockets : Sockets) (fd : Int) :
    Shrinks sockets (sockets.removeDescriptor remove fd).2 :=
  ⟨Sockets.removeDescriptor_fds, sockets.removeDescriptor_sublist drops fd⟩

/-- What `afterHandler` does to the sockets. -/
theorem shrinks_afterHandler (drops : remove.Drops) (listening : Listening) (result : MSrvResult)
    (resume : Resume) : Shrinks listening.server.sockets
      (listening.afterHandler remove result resume).server.sockets := by
  obtain ⟨_, ⟨_, same⟩ | ⟨_, _, fd, _, same⟩⟩ := afterHandler_cases remove listening result resume
  · exact shrinks_of_eq same
  · rw [same]
    exact shrinks_removeDescriptor drops _ fd

/-- On a UDP port there are no new sockets. -/
theorem Step.shrinks (drops : remove.Drops) (step : Step remove listening action next)
    (udp : ∀ clientsocket, action ≠ .event (.accepted clientsocket)) :
    Shrinks listening.server.sockets next.server.sockets := by
  cases step with
  | quiet _ _ same => exact shrinks_of_eq same
  | connected | newConnection => exact absurd rfl (udp _)
  | dropped => exact shrinks_removeDescriptor drops _ _
  | returned => exact shrinks_afterHandler drops _ _ _
  | _ => exact shrinks_of_eq rfl

/-- The requests of a listener on a UDP port. -/
inductive OnPort (mSocket : Int) (request : Request) : Prop
  | datagram {mpData : List UInt8} : request.content = .datagram mpData →
      request.mSocket = mSocket → OnPort mSocket request
  | connectionLost : request.content = .connectionLost none → OnPort mSocket request
  | timeout : request.content = .timeout → OnPort mSocket request

/-- On a UDP port whatever comes is about the port. -/
theorem Step.onPort (step : Step remove listening action next)
    (udp : listening.server.mProtocol = .UDP)
    (refuses : ∀ clientsocket, action ≠ .event (.accepted clientsocket))
    (table : listening.server.sockets.mDescriptors.Sublist [⟨listening.server.mSocket, none⟩])
    {request : Request} (handling : next.pc.request? = some request) :
    listening.pc.request? = some request ∨ OnPort listening.server.mSocket request := by
  have own {i : Nat} {entry : Descriptor}
      (listed : listening.server.sockets.mDescriptors[i]? = some entry) :
      entry = ⟨listening.server.mSocket, none⟩ :=
    List.mem_singleton.mp (table.subset (List.mem_of_getElem? listed))
  cases step with
  | quiet _ away =>
      rw [away] at handling
      cases handling
  | startShutdown => exact Or.inl handling
  | timeout =>
      cases handling
      exact Or.inr (.timeout rfl)
  | connected | newConnection => exact absurd rfl (refuses _)
  | streamData _ _ _ tcp => exact absurd (udp.symm.trans tcp) nofun
  | datagram _ listed =>
      cases handling
      exact Or.inr (.datagram rfl (congrArg Descriptor.mFd (own listed)))
  | connectionLost _ listed =>
      cases handling
      exact Or.inr (.connectionLost
        (congrArg Request.Content.connectionLost (congrArg Descriptor.mpData (own listed))))
  | dropped => cases handling
  | returned result =>
      rw [(afterHandler_cases remove listening result _).1] at handling
      cases handling

end Listening

namespace Chat

variable {world : World} {remove : Removal} {chat next : Chat} {deaf : List ConnectionId}
  {request : Request} {resume : Resume} {result : MSrvResult}

/-- The answer of `MyHandler` to a request of a UDP port, and where it is written to:
every datagram is answered but one that asks for the shutdown, and `quit` is no
command. An answer to a datagram without a byte to cut at has no text. -/
def answer? (world : World) (mSocket : Int) (request : Request) :
    Option (Int × Option (List UInt8)) :=
  match request.content with
  | .datagram mpData =>
      match CString.read (MyHandler.cut world.signed mpData) with
      | none => some (mSocket, none)
      | some data =>
          if data = ofString "shutdown" then none
          else some (mSocket, some (Line.reply data).msg.bytes)
  | _ => none

/-- The answers to the requests that have been passed to the handler. -/
def answers (world : World) (mSocket : Int) (trace : List Happening) :
    List (Int × Option (List UInt8)) :=
  trace.filterMap fun
    | .passed request _ => answer? world mSocket request
    | .closed _ => none

/-- The answer that the handler has still to give. -/
def pending? (world : World) (mSocket : Int) (chat : Chat) : Option (Int × Option (List UInt8)) :=
  chat.serving.listening.pc.request?.bind (answer? world mSocket)

/-- The answers that the handler has given. -/
def given (chat : Chat) : List (Int × Option (List UInt8)) :=
  chat.astray.map fun write => (write.1, some write.2)

/-- Nobody is connected, no byte has arrived anywhere, and the answers have been
written to the server socket. -/
structure Unheard (world : World) (mSocket : Int) (chat : Chat) : Prop where
  number : chat.server.mSocket = mSocket
  protocol : chat.server.mProtocol = .UDP
  nobody : ∀ fd c, chat.sockets.fds fd ≠ some (.client c)
  table : chat.sockets.mDescriptors.Sublist [⟨mSocket, none⟩]
  onPort : ∀ request, chat.serving.listening.pc.request? = some request →
    Listening.OnPort mSocket request
  received : ∀ c, chat.received c = []
  answered : chat.given ++ (chat.pending? world mSocket).toList =
    answers world mSocket chat.serving.trace

variable {mSocket : Int}

/-- There is nobody to pass a message on to. -/
theorem Unheard.visits (unheard : chat.Unheard world mSocket) : chat.visits = [] := by
  unfold Chat.visits
  rw [show chat.sockets.mDescriptors = chat.server.sockets.mDescriptors from rfl,
    ConnIter.visits_create, List.map_eq_nil_iff, List.filter_eq_nil_iff]
  intro entry listed
  rw [List.mem_singleton.mp (unheard.table.subset listed), unheard.number]
  simp

/-- A write goes astray. -/
theorem Unheard.write (unheard : chat.Unheard world mSocket) (fd : Int) (msg : CString) :
    chat.write deaf fd msg = { chat with astray := chat.astray ++ [(fd, msg.bytes)] } := by
  unfold Chat.write
  split
  · next c file => exact absurd file (unheard.nobody fd c)
  · rfl
  · rfl

theorem answers_append (world : World) (mSocket : Int) (first second : List Happening) :
    answers world mSocket (first ++ second) =
      answers world mSocket first ++ answers world mSocket second := List.filterMap_append

/-- What the thread passes on is what the handler has to answer. -/
theorem answers_passedOn (world : World) (mSocket : Int) {before after : Listening}
    (outside : before.pc.request? = none) :
    answers world mSocket (Serving.passedOn before after) =
      (after.pc.request?.bind (answer? world mSocket)).toList := by
  unfold Serving.passedOn
  rw [outside]
  cases after.pc.request? with
  | none => rfl
  | some request =>
      rw [Option.bind_some]
      cases answer : answer? world mSocket request <;>
        simp only [answers, List.filterMap_cons, answer, List.filterMap_nil] <;> rfl

/-- The thread goes on outside the handler. -/
theorem Unheard.listen (drops : remove.Drops) (unheard : chat.Unheard world mSocket)
    {action : Listening.Action}
    (taken : chat.step world remove (.listen action) = some next) :
    next.Unheard world mSocket := by
  obtain ⟨_, taken⟩ := Option.ite_none_left_eq_some.mp taken
  obtain ⟨serving, stepped, rfl⟩ := Option.map_eq_some_iff.mp taken
  obtain ⟨outside, after, effect, rfl⟩ := Serving.listened stepped
  have step : Listening.Step remove chat.serving.listening action after := by
    cases Serving.step_cases (show (Serving.machine remove).step _ _ = _ from stepped) with
    | listen step => exact step
  have refuses : ∀ clientsocket, action ≠ .event (.accepted clientsocket) := by
    intro clientsocket same
    subst same
    exact absurd (unheard.protocol.symm.trans effect.accepts_tcp) nofun
  have shrinks := step.shrinks drops refuses
  refine ⟨(ServerListener.mSocket_of_config step.config).trans unheard.number,
    (ServerListener.protocol_of_config step.config).trans unheard.protocol,
    fun fd c file => unheard.nobody fd c ((congrFun shrinks.fds fd).symm.trans file),
    shrinks.table.trans unheard.table, fun request handling => ?_, unheard.received, ?_⟩
  · have came := step.onPort unheard.protocol refuses
      (by rw [show chat.serving.listening.server.mSocket = mSocket from unheard.number]
          exact unheard.table) handling
    rw [show chat.serving.listening.server.mSocket = mSocket from unheard.number] at came
    exact came.elim (unheard.onPort request) id
  · change chat.given ++ (after.pc.request?.bind (answer? world mSocket)).toList =
      answers world mSocket (chat.serving.trace ++ Serving.passedOn chat.serving.listening after)
    have before := unheard.answered
    unfold pending? at before
    rw [answers_append, ← before, List.append_assoc]
    congr 1
    cases inside : chat.serving.listening.pc.request? with
    | none => exact (answers_passedOn world mSocket inside).symm
    | some request =>
        have stays := (effect.pc_of_handling outside (by rw [inside]; rfl)).1
        have quiet : Serving.passedOn chat.serving.listening after = [] := by
          unfold Serving.passedOn
          rw [inside]
        rw [stays, inside, quiet]
        exact (List.append_nil _).symm

/-- The handler answers the request and asks for the shutdown at most. -/
theorem Unheard.process (unheard : chat.Unheard world mSocket)
    (onPort : Listening.OnPort mSocket request) {middle : Chat}
    (processed : MyHandler.process world remove deaf chat request = some (result, middle)) :
    (middle.serving = chat.serving ∨ middle.serving = chat.startShutdown.serving) ∧
      middle.received = chat.received ∧
      middle.given = chat.given ++ (answer? world mSocket request).toList := by
  unfold MyHandler.process at processed
  cases onPort with
  | connectionLost content | timeout content =>
      rw [content] at processed
      cases processed
      refine ⟨Or.inl rfl, rfl, ?_⟩
      unfold answer?
      rw [content]
      exact (List.append_nil _).symm
  | @datagram mpData content number =>
      have type : request.getType ≠ .streamData := by
        unfold Request.getType
        rw [content]
        exact nofun
      simp only [content, MyHandler.processData, type, false_and, if_false] at processed
      unfold answer?
      simp only [content]
      cases read : CString.read (MyHandler.cut world.signed mpData) with
      | none =>
          rw [read] at processed
          cases processed
      | some data =>
          simp only [read, Option.bind_eq_bind, Option.bind_some] at processed ⊢
          by_cases shutdown : data = ofString "shutdown"
          · rw [if_pos shutdown] at processed ⊢
            cases processed
            exact ⟨Or.inr rfl, rfl, (List.append_nil _).symm⟩
          · have alone : (chat.write deaf request.mSocket (Line.reply data).msg).visits = [] := by
              rw [unheard.write]
              exact unheard.visits
            rw [if_neg shutdown] at processed ⊢
            rw [alone, unheard.write, number] at processed
            cases processed
            exact ⟨Or.inl rfl, rfl, List.map_append⟩

/-- The handler returns without a request, and the trace stays. -/
theorem returned_onPort (drops : remove.Drops) {serving after : Serving}
    (handling : serving.listening.pc = .handling request resume)
    {mSocket : Int} (onPort : Listening.OnPort mSocket request)
    (returned : (Serving.machine remove).step serving (.returned result) = some after) :
    after.listening.pc.request? = none ∧ after.trace = serving.trace ∧
      Listening.Shrinks serving.sockets after.sockets := by
  have kept : serving.deleteRequest remove request = serving := by
    unfold Serving.deleteRequest
    cases onPort with
    | datagram content | connectionLost content | timeout content => rw [content]
  refine ⟨Serving.request?_returned returned, ?_⟩
  cases Serving.step_cases returned with
  | returned result handling' =>
      cases handling.symm.trans handling'
      rw [kept]
      exact ⟨rfl, Listening.shrinks_afterHandler drops serving.listening result resume⟩

/-- The handler handles a request and returns. -/
theorem Unheard.handle (drops : remove.Drops) (unheard : chat.Unheard world mSocket)
    (taken : chat.step world remove (.handle deaf) = some next) : next.Unheard world mSocket := by
  obtain ⟨request, resume, result, middle, serving, handling, processed, returned, rfl⟩ :=
    handled taken
  have inside : chat.serving.listening.pc.request? = some request := by
    rw [handling]
    rfl
  have onPort := unheard.onPort request inside
  obtain ⟨kept, received, given⟩ := unheard.process onPort processed
  have place : middle.serving.listening.pc = .handling request resume ∧
      middle.serving.sockets = chat.sockets ∧ middle.serving.trace = chat.serving.trace ∧
      middle.serving.listening.server.config = chat.server.config := by
    rcases kept with same | same <;> rw [same] <;> exact ⟨handling, rfl, rfl, rfl⟩
  obtain ⟨away, trace, shrinks⟩ := returned_onPort drops place.1 onPort returned
  have config := (Serving.config_step returned).trans place.2.2.2
  rw [place.2.1] at shrinks
  refine ⟨(ServerListener.mSocket_of_config config).trans unheard.number,
    (ServerListener.protocol_of_config config).trans unheard.protocol,
    fun fd c file => unheard.nobody fd c ((congrFun shrinks.fds fd).symm.trans file),
    shrinks.table.trans unheard.table,
    fun request handling => absurd (away.symm.trans handling) nofun,
    fun c => (congrFun received c).trans (unheard.received c), ?_⟩
  have before := unheard.answered
  unfold pending? at before ⊢
  rw [inside, Option.bind_some] at before
  change middle.given ++ (serving.listening.pc.request?.bind _).toList =
    answers world mSocket serving.trace
  rw [away, trace, place.2.2.1, given, ← before]
  exact List.append_nil _

/-- The farewell is written to nobody. -/
theorem Unheard.farewell (unheard : chat.Unheard world mSocket)
    (taken : chat.step world remove (.farewell deaf) = some next) :
    next.Unheard world mSocket := by
  obtain ⟨_, taken⟩ := Option.ite_none_right_eq_some.mp taken
  have quiet : (chat.message (ofString "Server is shutting down.")).visits = [] := unheard.visits
  rw [MyHandler.processShutdown, quiet] at taken
  obtain rfl := Option.some_inj.mp taken
  exact ⟨unheard.number, unheard.protocol, unheard.nobody, unheard.table, unheard.onPort,
    unheard.received, unheard.answered⟩

variable {mask flags : Nat} {calls : BindCalls} {server : ServerListener}

theorem unheard_start
    (bound : (ServerListener.construct.setRequestMask mask).bind .UDP flags calls = (0, server))
    (world : World) : (start server).Unheard world server.mSocket := by
  obtain ⟨_, rfl⟩ := ServerListener.bind_eq_zero bound
  refine ⟨rfl, rfl, fun fd c file => ?_, List.Sublist.refl _, nofun, fun _ => rfl, rfl⟩
  change Function.update (fun _ => none) calls.socket (some OpenFile.server) fd = some _ at file
  by_cases own : fd = calls.socket
  · rw [own, Function.update_self] at file
    cases file
  · rw [Function.update_of_ne own] at file
    cases file

/-- On a UDP port nobody ever receives a byte: each request with a datagram is
answered once, in the order of the requests, and every answer goes to the server
socket. Only the request that the handler has before it may be without an answer,
and one whose datagram has no byte to cut at stays so. -/
theorem unheard_of_run (drops : remove.Drops)
    (bound : (ServerListener.construct.setRequestMask mask).bind .UDP flags calls = (0, server))
    (world : World) {actions : List Action}
    (ran : (machine world remove).run (start server) actions = some chat) :
    (∀ c, chat.received c = []) ∧
      chat.given ++ (chat.pending? world server.mSocket).toList =
        answers world server.mSocket chat.serving.trace := by
  have reached : (machine world remove).Reachable (start server) chat := ⟨actions, ran⟩
  have unheard : chat.Unheard world server.mSocket := by
    refine reached.invariant (fun chat => chat.Unheard world server.mSocket)
      (fun chat action next unheard taken => ?_) (unheard_start bound world)
    cases action with
    | listen action => exact unheard.listen drops taken
    | handle deaf => exact unheard.handle drops taken
    | farewell deaf =>
        exact unheard.farewell (show chat.step world remove _ = some next from taken)
  exact ⟨unheard.received, unheard.answered⟩

/-- A listener on a UDP port for concrete runs, with server socket 3. -/
def samplePort : ServerListener :=
  ((ServerListener.construct.setRequestMask MyHandler.requestMask).bind .UDP 0 ⟨3, 0, 0, 0⟩).2

/-- The word `quit` is answered like any other. -/
theorem unheard_of_run_quit :
    ∃ chat, (machine .sample Array.written).run (start samplePort)
        [.listen .build, .listen (.selectReady [3]),
          .listen (.event (.reads [.block (ofString "quit\n").bytes])), .handle []] = some chat ∧
      chat.astray = [(3, (ofString "004 Well well well, 'quit' to you too!\n").bytes)] ∧
      chat.given ++ (chat.pending? .sample 3).toList = answers .sample 3 chat.serving.trace := by
  have place : ((machine .sample Array.written).run (start samplePort)
      [.listen .build, .listen (.selectReady [3]),
        .listen (.event (.reads [.block (ofString "quit\n").bytes])), .handle []]).map astray =
      some [(3, (ofString "004 Well well well, 'quit' to you too!\n").bytes)] := by
    decide +kernel
  obtain ⟨chat, ran, written⟩ := Option.map_eq_some_iff.mp place
  have bound : (ServerListener.construct.setRequestMask MyHandler.requestMask).bind .UDP 0
    ⟨3, 0, 0, 0⟩ = (0, samplePort) := rfl
  exact ⟨chat, ran, written, (unheard_of_run drops_written bound .sample ran).2⟩

end Chat

end MSrv
