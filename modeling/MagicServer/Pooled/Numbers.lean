import MagicServer.Pooled.Coherence
import Mathlib.Tactic.FinCases

/-!
# The descriptor number in a request

A `StreamDataRequest` carries the number that its Connection had when the data
was read. Closing the Connection while the request waits, or while another worker
still handles it, frees the number, and `::accept` may return it for another
client. Where it does not, a worker finds behind the number of its request its own
Connection or none, from before it calls the handler until the handler returns.
-/

namespace MSrv.PooledServer

variable {size : Nat}

/-- The worker is about to call the handler with the request, or is inside it. -/
def Handles (server : PooledServer size) (w : Fin size) (request : Request) : Prop :=
  server.pool.worker w = .calling request ∨
    (server.pool.worker w = .handling request ∧ server.deleting w = false)

/-- The request waits in the queue, or a worker handles it. -/
def Unanswered (server : PooledServer size) (request : Request) : Prop :=
  request ∈ server.pool.mRequestQueue ∨ ∃ w, server.Handles w request

/-- The number of the request is not the socket of an open Connection other than
its own. -/
def AnswersOwn (server : PooledServer size) (request : Request) : Prop :=
  ∀ c, server.sockets.fds request.mSocket = some (.client c) → request.connection? = some c

/-- A worker that starts handling a `StreamDataRequest` answers its own client on
the number that the request carries. -/
def StartsOwn (server : PooledServer size) : Action size → Prop
  | .pool (.call _ request) => request.getType = .streamData → server.AnswersOwn request
  | _ => True

/-- Whatever a handler writes to the number of its `StreamDataRequest` goes to its own
client. -/
def WritesOwn (server : PooledServer size) : Prop :=
  ∀ w request, server.Handles w request → request.getType = .streamData →
    server.AnswersOwn request

/-- `::accept` returns no number that an unanswered `StreamDataRequest` carries. -/
def AcceptsUnused (server : PooledServer size) : Action size → Prop
  | .listen (.event (.accepted clientsocket)) => ∀ request, server.Unanswered request →
      request.getType = .streamData → request.mSocket ≠ clientsocket
  | _ => True

/-- The listener has the request in its hands, or it is unanswered. -/
def Awaits (server : PooledServer size) (request : Request) : Prop :=
  server.listening.pc.request? = some request ∨ server.Unanswered request

/-- The invariant: what has not been answered answers its own client. -/
structure Addressed (server : PooledServer size) : Prop where
  coherent : server.Coherent
  own : ∀ request, server.Awaits request → request.getType = .streamData →
    server.AnswersOwn request

variable {server next : PooledServer size} {action : Action size}

/-- No client has been accepted, and no request has been made. -/
theorem Addressed.keep (addressed : server.Addressed) (coherent : next.Coherent)
    (clients : ∀ fd c, next.sockets.fds fd = some (.client c) →
      server.sockets.fds fd = some (.client c))
    (awaits : ∀ request, next.Awaits request → request.getType = .streamData →
      server.Awaits request) : next.Addressed :=
  ⟨coherent, fun request waiting kind c client =>
    addressed.own request (awaits request waiting kind) kind c (clients _ c client)⟩

/-- The steps of `listen()` outside the handler. -/
theorem Addressed.listen (addressed : server.Addressed) {inner : Listening.Action}
    {after : Listening} (step : Listening.Step Array.written server.listening inner after)
    (outside : ∀ result, inner ≠ .returned result)
    (unused : server.AcceptsUnused (.listen inner))
    (coherent : Coherent { server with listening := after }) :
    Addressed { server with listening := after } := by
  -- A client with a number that no unanswered request carries.
  have accepted : ∀ {clientsocket : Int}, inner = .event (.accepted clientsocket) →
      after.server.sockets = server.sockets.addClient clientsocket →
      (∀ request, after.pc.request? = some request → request.getType ≠ .streamData) →
      Addressed { server with listening := after } := by
    intro clientsocket event sockets kinds
    refine ⟨coherent, ?_⟩
    rintro request (inHands | unanswered) kind c client
    · exact absurd kind (kinds request inHands)
    · subst event
      have different : request.mSocket ≠ clientsocket := unused request unanswered kind
      apply addressed.own request (Or.inr unanswered) kind c
      change after.server.sockets.fds request.mSocket = _ at client
      rwa [sockets, Sockets.addClient_fds_of_ne different] at client
  have waiting : ∀ {request : Request},
      (∀ made, after.pc.request? = some made → made.getType ≠ .streamData) →
      Awaits { server with listening := after } request → request.getType = .streamData →
      server.Awaits request := by
    rintro request kinds (inHands | unanswered) kind
    · exact absurd kind (kinds request inHands)
    · exact Or.inr unanswered
  cases step with
  | quiet _ away sockets =>
      refine addressed.keep coherent (fun fd c client => ?_) fun request =>
        waiting fun made inHands => by cases away.symm.trans inHands
      rwa [PooledServer.sockets, sockets] at client
  | startShutdown => exact addressed.keep coherent (fun _ _ => id) fun _ waiting _ => waiting
  | timeout | datagram | connectionLost =>
      refine addressed.keep coherent (fun _ _ => id) fun request =>
        waiting fun made inHands => ?_
      cases inHands
      exact nofun
  | connected => exact accepted rfl rfl fun made inHands => nomatch inHands
  | newConnection =>
      refine accepted rfl rfl fun made inHands => ?_
      cases inHands
      exact nofun
  | streamData here found =>
      refine ⟨coherent, ?_⟩
      rintro request (inHands | unanswered) kind c client
      · cases inHands
        exact addressed.coherent.sound.owner (List.mem_of_getElem? found) client
      · exact addressed.own request (Or.inr unanswered) kind c client
  | dropped =>
      refine addressed.keep coherent (fun fd c client => ?_) fun request =>
        waiting fun made inHands => by cases inHands
      change (server.sockets.removeDescriptor Array.written _).2.fds fd = _ at client
      rwa [Sockets.removeDescriptor_fds] at client
  | returned result => exact absurd rfl (outside result)

/-- Who handles a request after a step of the pool has handled it before, or has
just pulled it. -/
theorem handles_poolStep {action : WorkerPool.Action size 1} {pool : WorkerPool size 1}
    {deleting : Fin size → Bool} {w : Fin size} {request : Request}
    (taken : (WorkerPool.machine size 1).step server.pool action = some pool)
    (kept : ∀ w request, pool.worker w = .handling request → deleting w = server.deleting w)
    (handles : Handles { server with pool := pool, deleting := deleting } w request) :
    server.Unanswered request := by
  have move := WorkerPool.workerStep taken w
  rcases handles with calling | ⟨handling, running⟩
  · rw [show pool.worker w = .calling request from calling] at move
    generalize before : server.pool.worker w = pc at move
    cases move with
    | stay => exact Or.inr ⟨w, Or.inl before⟩
    | pull _ oldest => exact Or.inl (List.mem_of_head? oldest)
  · have still : server.deleting w = false := (kept w request handling).symm.trans running
    rw [show pool.worker w = .handling request from handling] at move
    generalize before : server.pool.worker w = pc at move
    cases move with
    | stay => exact Or.inr ⟨w, Or.inr ⟨before, still⟩⟩
    | call => exact Or.inr ⟨w, Or.inl before⟩

/-- A step of the pool makes no request. -/
theorem awaits_poolStep {action : WorkerPool.Action size 1} {pool : WorkerPool size 1}
    {deleting : Fin size → Bool} {request : Request} (takes : server.Takes action)
    (taken : (WorkerPool.machine size 1).step server.pool action = some pool)
    (kept : ∀ w request, pool.worker w = .handling request → deleting w = server.deleting w)
    (waiting : Awaits { server with pool := pool, deleting := deleting } request) :
    server.Awaits request := by
  rcases waiting with inHands | queued | ⟨w, handles⟩
  · exact Or.inl inHands
  · rcases WorkerPool.queue_step taken with
      ⟨_, _, same⟩ | ⟨pushed, _, _, _, grown, c, rfl⟩ | ⟨_, _, rest, _, queue, _, _, left⟩ |
      ⟨_, _, _, empty⟩
    · exact Or.inr (Or.inl (same ▸ queued))
    · rw [show request ∈ pool.mRequestQueue ↔ _ from grown ▸ List.mem_append] at queued
      rcases queued with earlier | now
      · exact Or.inr (Or.inl earlier)
      · rw [List.mem_singleton.mp now]
        exact Or.inl takes
    · refine Or.inr (Or.inl ?_)
      rw [queue]
      exact List.mem_cons_of_mem _ (left ▸ queued)
    · rw [show request ∈ pool.mRequestQueue ↔ request ∈ [] from empty ▸ Iff.rfl] at queued
      cases queued
  · exact Or.inr (handles_poolStep taken kept handles)

/-- The destruction of a request ends the handling of it. -/
theorem awaits_deleteRequest {w : Fin size} {request other : Request}
    (waiting : (server.deleteRequest w request).Awaits other) : server.Awaits other := by
  have after : (server.deleteRequest w request).listening.pc = server.listening.pc ∧
      (server.deleteRequest w request).deleting = Function.update server.deleting w true := by
    unfold deleteRequest
    split <;> exact ⟨rfl, rfl⟩
  unfold Awaits Unanswered Handles at waiting ⊢
  rw [deleteRequest_pool, after.1, after.2] at waiting
  refine waiting.imp_right (Or.imp_right ?_)
  rintro ⟨v, calling | ⟨handling, running⟩⟩
  · exact ⟨v, Or.inl calling⟩
  · have apart : v ≠ w := by
      rintro rfl
      cases (Function.update_self ..).symm.trans running
    exact ⟨v, Or.inr ⟨handling, (Function.update_of_ne apart ..).symm.trans running⟩⟩

/-- `close()` opens no descriptor. -/
theorem effect_clients {closers : Closers (Fin size)} {w : Fin size} {pc : ClosePc} {fd : Int}
    {c : ConnectionId} (client : (closers.effect (.step w pc)).sockets.fds fd = some (.client c)) :
    closers.sockets.fds fd = some (.client c) := by
  cases pc with
  | removing c' number =>
      change (closers.sockets.removeDescriptor Array.written number).2.fds fd = _ at client
      rwa [Sockets.removeDescriptor_fds] at client
  | closing c' number =>
      change (closers.sockets.closeFd number).fds fd = _ at client
      by_cases same : fd = number
      · rw [same, Sockets.closeFd_fds_self] at client
        cases client
      · rwa [Sockets.closeFd_fds_of_ne same] at client
  | _ => exact client

/-- Every step keeps the invariant when `::accept` returns unused numbers. -/
theorem Addressed.step (addressed : server.Addressed) (separate : server.Separate action)
    (unused : server.AcceptsUnused action)
    (taken : (machine size).step server action = some next) : next.Addressed := by
  have coherent := addressed.coherent.step separate taken
  cases step_cases taken with
  | listen step outside => exact addressed.listen step outside unused coherent
  | @returned request resume here =>
      obtain ⟨away, sockets⟩ :=
        Listening.afterHandler_cases Array.written server.listening 0 resume
      refine addressed.keep coherent (fun fd c client => ?_) ?_
      · rcases sockets with ⟨_, same⟩ | ⟨_, _, _, _, removed⟩
        · rwa [PooledServer.sockets, same] at client
        · rwa [PooledServer.sockets, removed, Sockets.removeDescriptor_fds] at client
      · rintro other (inHands | unanswered) _
        · cases away.symm.trans inHands
        · exact Or.inr unanswered
  | pool takes stepped kept =>
      exact addressed.keep coherent (fun _ _ => id)
        fun _ waiting _ => awaits_poolStep takes stepped kept waiting
  | close => exact addressed.keep coherent (fun _ _ => id) fun _ waiting _ => waiting
  | @closeStep w =>
      exact addressed.keep coherent (fun _ _ => effect_clients (w := w)) fun _ waiting _ => waiting
  | @delete w request =>
      have same : (server.deleteRequest w request).sockets = server.sockets := by
        unfold deleteRequest
        split <;> rfl
      exact addressed.keep coherent (fun fd c client => same ▸ client)
        fun other waiting _ => awaits_deleteRequest waiting

/-- The number in a request that is being handled is that of its own client. -/
theorem Addressed.writesOwn (addressed : server.Addressed) : server.WritesOwn :=
  fun w request handles kind => addressed.own request (Or.inr (Or.inr ⟨w, handles⟩)) kind

/-- In every run in which the calls of `close()` are separate and `::accept`
returns no number that an unanswered `StreamDataRequest` carries, a worker that
starts handling a `StreamDataRequest` answers its own client, and as long as the
handler runs nothing that it writes to the number goes to another one. -/
theorem startsOwn_of_acceptsUnused (mask flags : Nat) (calls : BindCalls)
    {listener : ServerListener}
    (bound : (ServerListener.construct.setRequestMask mask).bind .TCP flags calls = (0, listener))
    (actions : List (Action size))
    (met : (machine size).Steps
      (fun server action => server.Separate action ∧ server.AcceptsUnused action)
      (start size listener) actions) :
    (machine size).Steps StartsOwn (start size listener) actions ∧
      (machine size).Always WritesOwn (start size listener) actions := by
  have preserved : ∀ (server : PooledServer size) (action : Action size)
      (next : PooledServer size), server.Addressed →
      (server.Separate action ∧ server.AcceptsUnused action) →
        (machine size).step server action = some next → next.Addressed :=
    fun _ _ _ addressed met taken => addressed.step met.1 met.2 taken
  have begun : (start size listener).Addressed := by
    refine ⟨coherent_start bound, ?_⟩
    rintro request (inHands | queued | ⟨w, calling | ⟨handling, _⟩⟩) <;> contradiction
  refine ⟨(machine size).steps_mono preserved (fun server action next addressed _ taken => ?_)
    begun met, (machine size).always_of_invariant Addressed preserved
      (fun _ addressed => addressed.writesOwn) begun met⟩
  cases action with
  | pool action =>
      cases step_cases taken with
      | pool takes stepped =>
          cases action with
          | call w request =>
              obtain ⟨calling, _⟩ := WorkerPool.machine_step.mp stepped
              exact addressed.writesOwn w request (Or.inl calling)
          | _ => trivial
  | _ => trivial

/-- A listener for concrete runs that makes `StreamData` requests only. -/
def dataListener : ServerListener :=
  ((ServerListener.construct.setRequestMask RequestType.streamData.bit).bind .TCP 0
    ⟨3, 0, 0, 0⟩).2

/-- Data comes from the client with descriptor 5, and a worker starts handling it. -/
def dataStarted (c : Fin 1) (w : Fin size) : List (Action size) :=
  [.listen .skip, .listen .endDispatch, .listen .check, .listen .build,
    .listen (.selectReady [5]), .listen .skip, .listen (.event (.reads [.block [104]])),
    .pool (.process c ⟨0, 5, .streamData (some 0) [104]⟩),
    .pool (.signal c ⟨0, 5, .streamData (some 0) [104]⟩ none), .pool (.testWorker w),
    .pool (.sleep w), .pool (.wake w), .pool (.resume w),
    .pool (.pull w ⟨0, 5, .streamData (some 0) [104]⟩),
    .pool (.call w ⟨0, 5, .streamData (some 0) [104]⟩)]

/-- A client comes and sends data, and a worker starts handling it. -/
theorem startsOwn_of_acceptsUnused_run :
    ∃ final, (machine 1).run (start 1 dataListener)
        ([.listen .build, .listen (.selectReady [3])] ++
          [.listen (.event (.accepted 5))] ++ dataStarted 0 0) = some final ∧
      final.pool.worker 0 = .handling ⟨0, 5, .streamData (some 0) [104]⟩ ∧
      (machine 1).Steps StartsOwn (start 1 dataListener)
        ([.listen .build, .listen (.selectReady [3])] ++
          [.listen (.event (.accepted 5))] ++ dataStarted 0 0) ∧
      (machine 1).Always WritesOwn (start 1 dataListener)
        ([.listen .build, .listen (.selectReady [3])] ++
          [.listen (.event (.accepted 5))] ++ dataStarted 0 0) := by
  refine ⟨_, rfl, rfl, startsOwn_of_acceptsUnused RequestType.streamData.bit 0 ⟨3, 0, 0, 0⟩
    (show _ = (0, dataListener) from rfl)
    ([.listen .build, .listen (.selectReady [3])] ++
      [.listen (.event (.accepted 5))] ++ dataStarted 0 0) ?_⟩
  refine ((machine 1).steps_append rfl).mpr ⟨((machine 1).steps_append rfl).mpr
    ⟨(machine 1).steps_of_forall ?_, ?_⟩, (machine 1).steps_of_forall ?_⟩
  · intro action member server
    fin_cases member <;> exact ⟨nofun, trivial⟩
  · refine fun next _ => ⟨⟨nofun, ?_⟩, trivial⟩
    rintro request (queued | ⟨w, calling | ⟨handling, _⟩⟩)
    · cases queued
    · cases calling
    · cases handling
  · intro action member server
    unfold dataStarted at member
    fin_cases member <;> first | exact ⟨trivial, trivial⟩ | exact ⟨nofun, trivial⟩

/-- The data of Connection 0 waits while the handler of its `NewConnection`
request closes it. The next client gets the number 5, and then a worker starts
handling the data that came from the first one. -/
theorem starts_on_reused_number :
    ∃ before next, (machine 1).run (start 1 ServerListener.sample)
        [.listen .build, .listen (.selectReady [3]), .listen (.event (.accepted 5)),
          .pool (.process 0 ⟨0, 5, .newConnection (some 0)⟩),
          .pool (.signal 0 ⟨0, 5, .newConnection (some 0)⟩ none), .listen (.returned 0),
          .listen .skip, .listen .endDispatch, .listen .check, .listen .build,
          .listen (.selectReady [5]), .listen .skip, .listen (.event (.reads [.block [104]])),
          .pool (.process 0 ⟨1, 5, .streamData (some 0) [104]⟩),
          .pool (.signal 0 ⟨1, 5, .streamData (some 0) [104]⟩ none), .listen (.returned 0),
          .listen .endDispatch, .listen .check, .listen .build, .pool (.testWorker 0),
          .pool (.sleep 0), .pool (.wake 0), .pool (.resume 0),
          .pool (.pull 0 ⟨0, 5, .newConnection (some 0)⟩),
          .pool (.call 0 ⟨0, 5, .newConnection (some 0)⟩), .close 0 0,
          .closeStep 0 (.testing 0), .closeStep 0 (.readingRemove 0),
          .closeStep 0 (.removing 0 5), .closeStep 0 (.readingClose 0),
          .closeStep 0 (.closing 0 5), .closeStep 0 (.clearing 0), .delete 0,
          .pool (.finish 0 ⟨0, 5, .newConnection (some 0)⟩), .listen (.selectReady [3]),
          .listen (.event (.accepted 5)),
          .pool (.pull 0 ⟨1, 5, .streamData (some 0) [104]⟩)] = some before ∧
      before.sockets.fds 5 = some (.client 1) ∧ before.sockets.socket 1 = 5 ∧
      (machine 1).step before (.pool (.call 0 ⟨1, 5, .streamData (some 0) [104]⟩)) =
        some next ∧
      ¬ before.StartsOwn (.pool (.call 0 ⟨1, 5, .streamData (some 0) [104]⟩)) := by
  refine ⟨_, _, rfl, rfl, rfl, rfl, fun own => ?_⟩
  cases own rfl 1 rfl

end MSrv.PooledServer
