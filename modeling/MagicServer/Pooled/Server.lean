import MagicServer.Server.Close
import MagicServer.Server.Listen
import MagicServer.Worker.Accounting

/-!
# A listener with a worker pool

The handler of the listener is a `WorkerPool`: the listener thread passes its
requests to `WorkerPool::process()`, and a worker passes them on to the
switchboard of `msrvrequest.cc`, which destroys a request after its handler. One
action is one action of the listener, of the pool, or of a worker in
`Connection::close()`. A handler closes Connections as it likes and destroys
none; the destructor of a `ConnectionLostRequest` destroys its Connection.
-/

namespace MSrv

/-- The listener holds `mThreadLock`: it is in the dispatch loop. -/
def ListenPc.Locked : ListenPc → Prop
  | .dispatching _ _ | .handling _ (.dispatch _ _ _ _) => True
  | .building | .selecting _ | .handling _ .timeout | .checking | .left => False

instance : DecidablePred ListenPc.Locked
  | .dispatching _ _ | .handling _ (.dispatch _ _ _ _) => inferInstanceAs (Decidable True)
  | .building | .selecting _ | .handling _ .timeout | .checking | .left =>
      inferInstanceAs (Decidable False)

/-- The thread is about to take `mThreadLock` of the listener, in `removeDescriptor()`. -/
def ClosePc.Locks : ClosePc → Prop
  | .removing _ _ => True
  | .testing _ | .readingRemove _ | .readingClose _ | .closing _ _ | .clearing _ => False

instance : DecidablePred ClosePc.Locks
  | .removing _ _ => inferInstanceAs (Decidable True)
  | .testing _ | .readingRemove _ | .readingClose _ | .closing _ _ | .clearing _ =>
      inferInstanceAs (Decidable False)

/-- A listener and its pool of `size` workers; the only caller of the pool is the
listener thread. -/
structure PooledServer (size : Nat) where
  listening : Listening
  pool : WorkerPool size 1
  /-- Where a worker is in `Connection::close()`; `none` outside. -/
  closing : Fin size → Option ClosePc
  /-- The worker's handler has returned, and `delete pRequest` has begun. -/
  deleting : Fin size → Bool
  /-- The worker that has begun to destroy a Connection. -/
  destroyer : ConnectionId → Option (Fin size)
  /-- The calls of `::close` by workers, each with the Connection it was made for. -/
  closed : List (ConnectionId × Int)

namespace PooledServer

variable {size : Nat}

/-- `listen()` is called, and all workers have been started. -/
def start (size : Nat) (server : ServerListener) : PooledServer size where
  listening := .start server
  pool := .initial size 1
  closing _ := none
  deleting _ := false
  destroyer _ := none
  closed := []

inductive Action (size : Nat) where
  /-- The listener thread goes on outside `WorkerPool::process()`, or returns from it. -/
  | listen (action : Listening.Action)
  | pool (action : WorkerPool.Action size 1)
  /-- The handler in a worker calls `close()` on a Connection. -/
  | close (w : Fin size) (c : ConnectionId)
  /-- A worker goes on inside `close()`. -/
  | closeStep (w : Fin size) (pc : ClosePc)
  /-- The handler in a worker has returned, and `delete pRequest` begins. -/
  | delete (w : Fin size)

def sockets (server : PooledServer size) : Sockets := server.listening.server.sockets

/-- The workers as threads that close Connections. -/
def closers (server : PooledServer size) : Closers (Fin size) where
  sockets := server.sockets
  pc := server.closing
  closed := server.closed

/-- The same server after a step of the workers that close Connections. -/
def withClosers (server : PooledServer size) (closers : Closers (Fin size)) : PooledServer size :=
  { server with
    listening :=
      { server.listening with
        server := { server.listening.server with sockets := closers.sockets } }
    closing := closers.pc
    closed := closers.closed }

/-- A worker is in its handler. -/
def Serves (server : PooledServer size) (w : Fin size) : Prop :=
  (∃ request, server.pool.worker w = .handling request) ∧ server.deleting w = false ∧
    server.closing w = none

instance (server : PooledServer size) (w : Fin size) : Decidable (server.Serves w) :=
  have : Decidable (∃ request, server.pool.worker w = .handling request) :=
    match server.pool.worker w with
    | .handling request => .isTrue ⟨request, rfl⟩
    | .testing | .waiting | .asleep | .woken | .pulling | .calling _ | .left => .isFalse nofun
  instDecidableAnd

/-- Which steps of the pool its threads can take: the listener passes on the
request it has made, and a worker has finished when its request is destroyed.
Neither shutdown nor `~WorkerPool` takes place. -/
def Takes (server : PooledServer size) : WorkerPool.Action size 1 → Prop
  | .process _ request => server.listening.pc.request? = some request
  | .finish w _ => server.deleting w = true ∧ server.closing w = none
  | .signal _ _ _ | .testWorker _ | .sleep _ | .wake _ | .resume _ | .pull _ _ | .pullNull _
  | .call _ _ => True
  | .testShutdown _ _ | .setShutdown _ _ | .broadcast _ _ | .join _ _ _ | .joinEnd _ _ _
  | .callFinal _ _ | .finishFinal _ _ | .destruct _ | .testDestruct _ | .deleteWorker _ _
  | .destroyQueue _ _ => False

instance (server : PooledServer size) : DecidablePred server.Takes
  | .process _ _ => inferInstanceAs (Decidable (_ = _))
  | .finish _ _ => inferInstanceAs (Decidable (_ ∧ _))
  | .signal _ _ _ | .testWorker _ | .sleep _ | .wake _ | .resume _ | .pull _ _ | .pullNull _
  | .call _ _ => inferInstanceAs (Decidable True)
  | .testShutdown _ _ | .setShutdown _ _ | .broadcast _ _ | .join _ _ _ | .joinEnd _ _ _
  | .callFinal _ _ | .finishFinal _ _ | .destruct _ | .testDestruct _ | .deleteWorker _ _
  | .destroyQueue _ _ => inferInstanceAs (Decidable False)

/-- `delete pRequest` begins. The destructor of a `ConnectionLostRequest` destroys
the Connection, and the destructor of a Connection calls `close()`. -/
def deleteRequest (server : PooledServer size) (w : Fin size) (request : Request) :
    PooledServer size :=
  let begun := { server with deleting := Function.update server.deleting w true }
  match request.content with
  | .connectionLost (some c) =>
      { begun.withClosers (begun.closers.effect (.call w c)) with
        destroyer := Function.update server.destroyer c (some w) }
  | _ => begun

/-- `WorkerPool::process()` returns 0 after its push and its signal. -/
def HasPassed (server : PooledServer size) (request : Request) : Prop :=
  request ∈ server.pool.issued ∧ server.pool.caller 0 = .idle

instance (server : PooledServer size) : DecidablePred server.HasPassed := fun _ => instDecidableAnd

/-- One step of one thread. -/
def step (server : PooledServer size) : Action size → Option (PooledServer size)
  | .listen (.returned result) =>
      match server.listening.pc with
      | .handling request _ =>
          if result = 0 ∧ server.HasPassed request then
            (server.listening.step Array.written (.returned result)).map fun next =>
              { server with listening := next }
          else none
      | _ => none
  | .listen action =>
      (server.listening.step Array.written action).map fun next => { server with listening := next }
  | .pool action =>
      if server.Takes action then
        ((WorkerPool.machine size 1).step server.pool action).map fun pool =>
          { server with
            pool := pool
            deleting := match action with
              | .finish w _ => Function.update server.deleting w false
              | _ => server.deleting }
      else none
  | .close w c =>
      if server.Serves w ∧ c < server.sockets.created ∧ server.destroyer c = none then
        some (server.withClosers (server.closers.effect (.call w c)))
      else none
  | .closeStep w pc =>
      if server.closing w = some pc ∧ ¬ (pc.Locks ∧ server.listening.pc.Locked) then
        some (server.withClosers (server.closers.effect (.step w pc)))
      else none
  | .delete w =>
      match server.pool.worker w with
      | .handling request =>
          if server.Serves w then some (server.deleteRequest w request) else none
      | _ => none

/-- Every interleaving of the listener thread and the workers is a run. -/
def machine (size : Nat) : Machine (PooledServer size) (Action size) where
  step := step

/-- Whatever the listener or a worker removes from the table leaves the other entries.
After any other removal the array has slots in which nothing has been written, and
the list of its entries no longer is what the source reads. -/
def KeepsOthers (server : PooledServer size) : Action size → Prop
  | .listen action => ∀ fd ∈ server.listening.removes action, server.sockets.KeepsOthers fd
  | .closeStep _ (.removing _ fd) => server.sockets.KeepsOthers fd
  | _ => True

instance (server : PooledServer size) : DecidablePred server.KeepsOthers := fun action => by
  unfold KeepsOthers
  split <;> infer_instance

/-- The steps of the listener thread and the workers. -/
inductive Step (server : PooledServer size) : Action size → PooledServer size → Prop
  | listen {action : Listening.Action} {next : Listening} :
      Listening.Step Array.written server.listening action next →
      (∀ result, action ≠ .returned result) →
      Step server (.listen action) { server with listening := next }
  | returned {request : Request} {resume : Resume} :
      server.listening.pc = .handling request resume → server.HasPassed request →
      Step server (.listen (.returned 0))
        { server with listening := server.listening.afterHandler Array.written 0 resume }
  | pool {action : WorkerPool.Action size 1} {pool : WorkerPool size 1}
      {deleting : Fin size → Bool} : server.Takes action →
      (WorkerPool.machine size 1).step server.pool action = some pool →
      (∀ w request, pool.worker w = .handling request → deleting w = server.deleting w) →
      Step server (.pool action) { server with pool := pool, deleting := deleting }
  | close {w : Fin size} {c : ConnectionId} : server.closing w = none →
      c < server.sockets.created → server.destroyer c = none →
      Step server (.close w c) (server.withClosers (server.closers.effect (.call w c)))
  | closeStep {w : Fin size} {pc : ClosePc} : server.closing w = some pc →
      Step server (.closeStep w pc) (server.withClosers (server.closers.effect (.step w pc)))
  | delete {w : Fin size} {request : Request} : server.pool.worker w = .handling request →
      server.closing w = none → Step server (.delete w) (server.deleteRequest w request)

variable {server next : PooledServer size} {action : Action size}

/-- A request is handled when it has been passed on to the pool. -/
theorem returned_step {result : MSrvResult}
    (taken : (machine size).step server (.listen (.returned result)) = some next) :
    ∃ request resume after, server.listening.pc = .handling request resume ∧ result = 0 ∧
      server.HasPassed request ∧
      (Listening.machine Array.written).step server.listening (.returned result) = some after ∧
      next = { server with listening := after } := by
  change server.step (.listen (.returned result)) = some next at taken
  cases here : server.listening.pc <;> simp only [step, here, reduceCtorEq] at taken
  rw [Option.ite_none_right_eq_some, Option.map_eq_some_iff] at taken
  obtain ⟨⟨success, passed⟩, after, stepped, rfl⟩ := taken
  exact ⟨_, _, after, rfl, success, passed, stepped, rfl⟩

/-- A step of the listener is a step of `listen()`. -/
theorem listen_step {inner : Listening.Action}
    (taken : (machine size).step server (.listen inner) = some next) :
    ∃ after, (Listening.machine Array.written).step server.listening inner = some after ∧
      next = { server with listening := after } := by
  by_cases handler : ∃ result, inner = .returned result
  · obtain ⟨result, rfl⟩ := handler
    obtain ⟨_, _, after, _, _, _, stepped, rfl⟩ := returned_step taken
    exact ⟨after, stepped, rfl⟩
  · have unfolded : (server.listening.step Array.written inner).map
        (fun next => { server with listening := next }) = some next := by
      cases inner with
      | returned result => exact absurd ⟨result, rfl⟩ handler
      | _ => exact taken
    obtain ⟨after, stepped, rfl⟩ := Option.map_eq_some_iff.mp unfolded
    exact ⟨after, stepped, rfl⟩

theorem step_cases (taken : (machine size).step server action = some next) :
    Step server action next := by
  change server.step action = some next at taken
  cases action with
  | listen inner =>
      by_cases handler : ∃ result, inner = .returned result
      · obtain ⟨result, rfl⟩ := handler
        obtain ⟨request, resume, after, here, rfl, passed, stepped, rfl⟩ := returned_step taken
        cases Listening.taken_of_step stepped with | returned _ there => ?_
        cases here.symm.trans there
        exact .returned here passed
      · have outside : ∀ result, inner ≠ .returned result := fun result same =>
          handler ⟨result, same⟩
        obtain ⟨after, stepped, rfl⟩ := listen_step taken
        exact .listen (Listening.step_cases stepped) outside
  | pool action =>
      simp only [step, Option.ite_none_right_eq_some, Option.map_eq_some_iff] at taken
      obtain ⟨takes, pool, stepped, rfl⟩ := taken
      refine .pool takes stepped fun w request handling => ?_
      cases action with
      | finish v finished =>
          obtain ⟨_, rfl⟩ := WorkerPool.machine_step.mp stepped
          refine Function.update_of_ne (fun same => ?_) ..
          rw [same] at handling
          cases (Function.update_self ..).symm.trans handling
      | _ => rfl
  | close w c =>
      simp only [step, Option.ite_none_right_eq_some, Option.some.injEq] at taken
      obtain ⟨⟨serves, created, undestroyed⟩, rfl⟩ := taken
      exact .close serves.2.2 created undestroyed
  | closeStep w pc =>
      simp only [step, Option.ite_none_right_eq_some, Option.some.injEq] at taken
      obtain ⟨⟨here, _⟩, rfl⟩ := taken
      exact .closeStep here
  | delete w =>
      cases here : server.pool.worker w <;> simp only [step, here, reduceCtorEq] at taken
      rw [Option.ite_none_right_eq_some, Option.some.injEq] at taken
      obtain ⟨serves, rfl⟩ := taken
      exact .delete here serves.2.2

/-- The destruction of a request is no step of the pool. -/
theorem deleteRequest_pool (server : PooledServer size) (w : Fin size) (request : Request) :
    (server.deleteRequest w request).pool = server.pool := by
  unfold deleteRequest
  split <;> rfl

/-- The destruction of a request destroys the Connection that it tells is lost. -/
theorem deleteRequest_destroyer {w destroyer : Fin size} {request : Request} {c : ConnectionId}
    (destroyed : (server.deleteRequest w request).destroyer c = some destroyer) :
    server.destroyer c = some destroyer ∨
      (destroyer = w ∧ request.content = .connectionLost (some c)) := by
  unfold deleteRequest at destroyed
  split at destroyed
  · next lost content =>
      change Function.update server.destroyer lost (some w) c = some destroyer at destroyed
      by_cases same : c = lost
      · subst same
        rw [Function.update_self] at destroyed
        exact Or.inr ⟨(Option.some_inj.mp destroyed).symm, content⟩
      · rw [Function.update_of_ne same] at destroyed
        exact Or.inl destroyed
  · exact Or.inl destroyed

end PooledServer

end MSrv
