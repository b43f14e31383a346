import MagicServer.Library.Machine
import MagicServer.Server.Request
import Mathlib.Data.Fintype.Basic

/-!
# The worker pool

`WorkerPool` and `Worker::execute` of `msrvworker.cc` as a machine in which one
action is one lock-protected operation of one thread: a push or a pull on
`mRequestQueue`, going to sleep in `getWaitLock().wait()` together with the
release of its mutex, a wake-up, a `signal()`, a `broadcast()`, one read or
write of `mIsShutdown`, a join, or the start or the return of a handler call.
Any number of threads call `process()`; a `Shutdown` request takes its caller
through `shutdown()`, and one of them may run `~WorkerPool` at the end.
-/

namespace MSrv

/-- Where a worker thread is in `Worker::execute()`. -/
inductive WorkerPc where
  /-- About to read `mIsShutdown`; also a thread that has not begun. -/
  | testing
  /-- Has read `mIsShutdown` as false and is about to go to sleep in `wait()`. -/
  | waiting
  /-- In `pthread_cond_wait`. -/
  | asleep
  /-- Awakened, but not yet out of `wait()`. -/
  | woken
  /-- About to pull from the queue. -/
  | pulling
  /-- Holds a pulled request, about to call `handler().process()`. -/
  | calling (request : Request)
  /-- Inside `handler().process()`. -/
  | handling (request : Request)
  /-- Has left `execute()`; the thread has ended. -/
  | left
  deriving DecidableEq

/-- Where a thread that uses the pool is. The final request of `shutdown()` is
absent when `~WorkerPool` calls it. -/
inductive CallerPc where
  | idle
  /-- In `process()`, between the push and the signal. -/
  | signalling (request : Request)
  /-- In `shutdown()`, about to read `mIsShutdown`. -/
  | testing (final : Option Request)
  /-- In `shutdown()`, about to set `mIsShutdown`. -/
  | setting (final : Option Request)
  | broadcasting (final : Option Request)
  /-- In the join loop of `shutdown()`, at worker `i`. -/
  | joining (final : Option Request) (i : Nat)
  /-- About to pass the final request to the handler. -/
  | finalizing (request : Request)
  | handlingFinal (request : Request)
  /-- In `~WorkerPool`, about to read `mIsShutdown`. -/
  | destructing
  /-- In the loop of `~WorkerPool` that deletes the workers, at worker `i`. -/
  | deleting (i : Nat)
  /-- Has finished `~WorkerPool`. -/
  | destroyed
  deriving DecidableEq

/-- A pool of `size` workers used by `callers` threads. The last six fields are
history: what has been passed to `process()`, pushed, pulled, passed to the
handler and destroyed so far, and the requests whose `process()` call returned
while `mIsShutdown` was not set. -/
structure WorkerPool (size callers : Nat) where
  mIsShutdown : Bool
  /-- The requests in the queue, the oldest first. -/
  mRequestQueue : List Request
  worker : Fin size → WorkerPc
  caller : Fin callers → CallerPc
  joined : Fin size → Bool
  deleted : Fin size → Bool
  /-- No thread has entered `~WorkerPool`. -/
  alive : Bool
  issued : List Request
  pushed : List Request
  pulled : List Request
  handled : List Request
  destroyed : List Request
  accepted : List Request

namespace WorkerPool

variable {size callers : Nat}

/-- The pool as its constructor leaves it, all workers started. -/
def initial (size callers : Nat) : WorkerPool size callers where
  mIsShutdown := false
  mRequestQueue := []
  worker _ := .testing
  caller _ := .idle
  joined _ := false
  deleted _ := false
  alive := true
  issued := []
  pushed := []
  pulled := []
  handled := []
  destroyed := []
  accepted := []

/-- One step of one thread. -/
inductive Action (size callers : Nat) where
  /-- `process (request)`: its switch, and the push of a request that is not `Shutdown`. -/
  | process (c : Fin callers) (request : Request)
  /-- `signal()`, which wakes one sleeping worker if there is one. -/
  | signal (c : Fin callers) (request : Request) (target : Option (Fin size))
  | testShutdown (c : Fin callers) (final : Option Request)
  | setShutdown (c : Fin callers) (final : Option Request)
  | broadcast (c : Fin callers) (final : Option Request)
  | join (c : Fin callers) (final : Option Request) (i : Fin size)
  /-- The join loop ends. -/
  | joinEnd (c : Fin callers) (final : Option Request) (i : Nat)
  | callFinal (c : Fin callers) (request : Request)
  | finishFinal (c : Fin callers) (request : Request)
  | destruct (c : Fin callers)
  | testDestruct (c : Fin callers)
  | deleteWorker (c : Fin callers) (i : Fin size)
  /-- The members of the pool are destroyed, the queue with what it holds. -/
  | destroyQueue (c : Fin callers) (i : Nat)
  | testWorker (w : Fin size)
  | sleep (w : Fin size)
  /-- `pthread_cond_wait` returns without a signal. -/
  | wake (w : Fin size)
  /-- `wait()` returns. -/
  | resume (w : Fin size)
  /-- `pull()` returns a request. -/
  | pull (w : Fin size) (request : Request)
  /-- `pull()` returns `NULL`. -/
  | pullNull (w : Fin size)
  | call (w : Fin size) (request : Request)
  /-- The handler returns; it has destroyed the request. -/
  | finish (w : Fin size) (request : Request)
  deriving DecidableEq

/-- When a thread can take a step. An object is passed to `process()` once, and
`~WorkerPool` is entered when no thread is inside the pool's functions. A worker that
is not joined may go on after the queue has been destroyed. It finds the list empty
here, where the source may follow a dangling `mpLastItem`; `LinkedPool` has no result
for such a `pull()`. -/
def Enabled (pool : WorkerPool size callers) : Action size callers → Prop
  | .process c request => pool.alive = true ∧ pool.caller c = .idle ∧ request ∉ pool.issued
  | .signal c request target =>
      pool.caller c = .signalling request ∧
        match target with
        | some w => pool.worker w = .asleep
        | none => ∀ w, pool.worker w ≠ .asleep
  | .testShutdown c final => pool.caller c = .testing final
  | .setShutdown c final => pool.caller c = .setting final
  | .broadcast c final => pool.caller c = .broadcasting final
  | .join c final i => pool.caller c = .joining final i ∧ pool.worker i = .left
  | .joinEnd c final i => pool.caller c = .joining final i ∧ size ≤ i
  | .callFinal c request => pool.caller c = .finalizing request
  | .finishFinal c request => pool.caller c = .handlingFinal request
  | .destruct _ => pool.alive = true ∧ ∀ c, pool.caller c = .idle
  | .testDestruct c => pool.caller c = .destructing
  | .deleteWorker c i => pool.caller c = .deleting i
  | .destroyQueue c i => pool.caller c = .deleting i ∧ size ≤ i
  | .testWorker w => pool.worker w = .testing
  | .sleep w => pool.worker w = .waiting
  | .wake w => pool.worker w = .asleep
  | .resume w => pool.worker w = .woken
  | .pull w request => pool.worker w = .pulling ∧ pool.mRequestQueue.head? = some request
  | .pullNull w => pool.worker w = .pulling ∧ pool.mRequestQueue = []
  | .call w request => pool.worker w = .calling request
  | .finish w request => pool.worker w = .handling request

instance (pool : WorkerPool size callers) : DecidablePred pool.Enabled
  | .process _ _ => inferInstanceAs (Decidable (_ ∧ _))
  | .signal _ _ (some _) => inferInstanceAs (Decidable (_ ∧ _ = _))
  | .signal _ _ none => inferInstanceAs (Decidable (_ ∧ ∀ w, pool.worker w ≠ .asleep))
  | .testShutdown _ _ => inferInstanceAs (Decidable (_ = _))
  | .setShutdown _ _ => inferInstanceAs (Decidable (_ = _))
  | .broadcast _ _ => inferInstanceAs (Decidable (_ = _))
  | .join _ _ _ => inferInstanceAs (Decidable (_ ∧ _))
  | .joinEnd _ _ _ => inferInstanceAs (Decidable (_ ∧ _))
  | .callFinal _ _ => inferInstanceAs (Decidable (_ = _))
  | .finishFinal _ _ => inferInstanceAs (Decidable (_ = _))
  | .destruct _ => inferInstanceAs (Decidable (_ ∧ ∀ c, pool.caller c = .idle))
  | .testDestruct _ => inferInstanceAs (Decidable (_ = _))
  | .deleteWorker _ _ => inferInstanceAs (Decidable (_ = _))
  | .destroyQueue _ _ => inferInstanceAs (Decidable (_ ∧ _))
  | .testWorker _ => inferInstanceAs (Decidable (_ = _))
  | .sleep _ => inferInstanceAs (Decidable (_ = _))
  | .wake _ => inferInstanceAs (Decidable (_ = _))
  | .resume _ => inferInstanceAs (Decidable (_ = _))
  | .pull _ _ => inferInstanceAs (Decidable (_ ∧ _))
  | .pullNull _ => inferInstanceAs (Decidable (_ ∧ _))
  | .call _ _ => inferInstanceAs (Decidable (_ = _))
  | .finish _ _ => inferInstanceAs (Decidable (_ = _))

/-- The worker goes on at `pc`. -/
def goWorker (pool : WorkerPool size callers) (w : Fin size) (pc : WorkerPc) :
    Fin size → WorkerPc :=
  Function.update pool.worker w pc

/-- The caller goes on at `pc`. -/
def goCaller (pool : WorkerPool size callers) (c : Fin callers) (pc : CallerPc) :
    Fin callers → CallerPc :=
  Function.update pool.caller c pc

/-- What a step does. -/
def effect (pool : WorkerPool size callers) : Action size callers → WorkerPool size callers
  | .process c request =>
      match request.getType with
      | .shutdown =>
          { pool with
            caller := pool.goCaller c (.testing (some request))
            issued := pool.issued ++ [request] }
      | _ =>
          { pool with
            caller := pool.goCaller c (.signalling request)
            mRequestQueue := pool.mRequestQueue ++ [request]
            issued := pool.issued ++ [request]
            pushed := pool.pushed ++ [request] }
  | .signal c request target =>
      { pool with
        caller := pool.goCaller c .idle
        worker := match target with
          | some w => pool.goWorker w .woken
          | none => pool.worker
        accepted := if pool.mIsShutdown then pool.accepted else pool.accepted ++ [request] }
  | .testShutdown c final =>
      { pool with
        caller := pool.goCaller c
          (if pool.mIsShutdown then
            -- MSRVERR_REPEAT_SHUTDOWN_REQUEST, to process() or to ~WorkerPool
            match final with
            | some _ => .idle
            | none => .deleting 0
          else .setting final) }
  | .setShutdown c final =>
      { pool with caller := pool.goCaller c (.broadcasting final), mIsShutdown := true }
  | .broadcast c final =>
      { pool with
        -- The join loop starts at worker 1.
        caller := pool.goCaller c (.joining final 1)
        worker := fun w => if pool.worker w = .asleep then .woken else pool.worker w }
  | .join c final i =>
      { pool with
        caller := pool.goCaller c (.joining final (i + 1))
        joined := Function.update pool.joined i true }
  | .joinEnd c final _ =>
      { pool with
        caller := pool.goCaller c
          (match final with
          | some request => .finalizing request
          | none => .deleting 0) }
  | .callFinal c request =>
      { pool with
        caller := pool.goCaller c (.handlingFinal request)
        handled := pool.handled ++ [request] }
  | .finishFinal c request =>
      { pool with
        caller := pool.goCaller c .idle
        destroyed := pool.destroyed ++ [request] }
  | .destruct c => { pool with caller := pool.goCaller c .destructing, alive := false }
  | .testDestruct c =>
      { pool with
        caller := pool.goCaller c (if pool.mIsShutdown then .deleting 0 else .testing none) }
  | .deleteWorker c i =>
      { pool with
        caller := pool.goCaller c (.deleting (i + 1))
        deleted := Function.update pool.deleted i true }
  | .destroyQueue c _ =>
      { pool with
        caller := pool.goCaller c .destroyed
        mRequestQueue := []
        destroyed := pool.destroyed ++ pool.mRequestQueue }
  | .testWorker w =>
      { pool with worker := pool.goWorker w (if pool.mIsShutdown then .left else .waiting) }
  | .sleep w => { pool with worker := pool.goWorker w .asleep }
  | .wake w => { pool with worker := pool.goWorker w .woken }
  | .resume w => { pool with worker := pool.goWorker w .pulling }
  | .pull w request =>
      { pool with
        worker := pool.goWorker w (.calling request)
        mRequestQueue := pool.mRequestQueue.tail
        pulled := pool.pulled ++ [request] }
  | .pullNull w => { pool with worker := pool.goWorker w .testing }
  | .call w request =>
      { pool with
        worker := pool.goWorker w (.handling request)
        handled := pool.handled ++ [request] }
  | .finish w request =>
      { pool with
        worker := pool.goWorker w .pulling
        destroyed := pool.destroyed ++ [request] }

/-- The pool as a machine: every interleaving of its threads is a run. -/
def machine (size callers : Nat) : Machine (WorkerPool size callers) (Action size callers) :=
  Machine.guarded Enabled effect

theorem machine_step {pool next : WorkerPool size callers} {action : Action size callers} :
    (machine size callers).step pool action = some next ↔
      pool.Enabled action ∧ pool.effect action = next :=
  Machine.guarded_step

variable (pool : WorkerPool size callers)

theorem effect_process_shutdown (c : Fin callers) {request : Request}
    (final : request.getType = .shutdown) :
    pool.effect (.process c request) =
      { pool with
        caller := pool.goCaller c (.testing (some request))
        issued := pool.issued ++ [request] } := by
  simp only [effect, final]

theorem effect_process_push (c : Fin callers) {request : Request}
    (kind : request.getType ≠ .shutdown) :
    pool.effect (.process c request) =
      { pool with
        caller := pool.goCaller c (.signalling request)
        mRequestQueue := pool.mRequestQueue ++ [request]
        issued := pool.issued ++ [request]
        pushed := pool.pushed ++ [request] } := by
  simp only [effect]

/-- Entering `process()` moves no worker. -/
theorem effect_process_worker (c : Fin callers) (request : Request) :
    (pool.effect (.process c request)).worker = pool.worker := by
  by_cases final : request.getType = .shutdown
  · rw [effect_process_shutdown pool c final]
  · rw [effect_process_push pool c final]

theorem effect_broadcast_worker (c : Fin callers) (final : Option Request) (w : Fin size) :
    (pool.effect (.broadcast c final)).worker w =
      if pool.worker w = .asleep then .woken else pool.worker w := rfl

/-- A request for concrete runs. -/
def sampleRequest : Request := ⟨0, 5, .streamData (some 0) [104, 105]⟩

/-- A `Shutdown` request for concrete runs. -/
def sampleShutdown : Request := ⟨1, -1, .shutdown⟩

end WorkerPool

end MSrv
