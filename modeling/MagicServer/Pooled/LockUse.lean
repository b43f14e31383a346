import MagicServer.Library.LockOrder
import Mathlib.Data.Fintype.Basic

/-!
# What the server does with its locks

The functions of the library with only their locks left: for given outcomes of
its tests, each function is the list of locks that it takes and lets go, in the
order of the source. A handler is the list of the calls it makes. The listener
thread is thread 0, and worker `i` of the pool is the thread after `i`.
-/

namespace MSrv

/-- The locks of the library, by the object that has them as `mThreadLock`. -/
inductive ServerLock where
  | listener
  /-- Of `mDescriptors`. -/
  | descriptors
  /-- Of `mRequestQueue`. -/
  | queue
  /-- `mQueueWaitLock`. -/
  | wait
  /-- Of the `LogFile`. -/
  | log
  deriving DecidableEq

instance : Fintype ServerLock where
  elems := {.listener, .descriptors, .queue, .wait, .log}
  complete lock := by cases lock <;> decide

/-- A thread of a server with so many workers. -/
abbrev ServerThread (workers : Nat) := Fin (workers + 1)

/-- What a thread of the server does with the locks. -/
abbrev ServerAct (workers : Nat) := LockAct (ServerThread workers) ServerLock

namespace LockUse

variable {workers : Nat}

/-! ## The calls -/

/-- A lock taken and let go in one function. -/
def once (lock : ServerLock) : List (ServerAct workers) := [.acquire lock, .release lock]

/-- `LogFile::message`; where a write fails it returns without `unlock ()`. -/
def message (written : Bool) : List (ServerAct workers) :=
  .acquire .log :: if written then [.release .log] else []

/-- `Array::add` to the descriptors. -/
def add : List (ServerAct workers) := once .descriptors

/-- `Array::remove` of a descriptor that has been found. -/
def remove : List (ServerAct workers) := once .descriptors

/-- `Listener::removeDescriptor`. -/
def removeDescriptor (found : Bool) : List (ServerAct workers) :=
  .acquire .listener :: (if found then remove else []) ++ [.release .listener]

/-- `Queue::push`. -/
def push : List (ServerAct workers) := once .queue

/-- `Queue::pull`. -/
def pull : List (ServerAct workers) := once .queue

/-- `ThreadLock::wait`; `pthread_cond_wait` lets the lock go, sleeps until a wake-up,
and takes the lock again. -/
def wait : List (ServerAct workers) :=
  [.acquire .wait, .await .wait, .acquire .wait, .release .wait]

/-- `ThreadLock::signal`, which signals without the lock. -/
def signal : List (ServerAct workers) := once .wait ++ [.signal .wait]

/-- `ThreadLock::broadcast`. -/
def broadcast : List (ServerAct workers) := once .wait ++ [.broadcast .wait]

/-- The destructor of a `LogFile`, which calls `close ()`. -/
def destroyLog : List (ServerAct workers) := .acquire .log :: once .log ++ [.release .log]

/-- What `Connection::close()` finds, and whether its messages are written. -/
structure Closing where
  /-- `mSocket` is not 0. -/
  opened : Bool
  /-- `removeDescriptor` finds the socket. -/
  found : Bool
  /-- "Removing descriptor failed with error %d." -/
  warned : Bool
  /-- "Connection closed." -/
  told : Bool
  deriving DecidableEq

/-- `Connection::close`. -/
def connectionClose (closing : Closing) : List (ServerAct workers) :=
  if closing.opened then
    removeDescriptor closing.found ++
      (if closing.found then [] else message closing.warned) ++ message closing.told
  else []

/-- `ServerListener::close` of a pointer that may be `NULL`: its second call is `lock ()` again. -/
def serverListenerClose : Option Closing → List (ServerAct workers)
  | none => []
  | some closing => .acquire .listener :: connectionClose closing ++ [.acquire .listener]

/-- A call of the library. -/
inductive LibraryCall where
  | message (written : Bool)
  | add
  | removeDescriptor (found : Bool)
  | connectionClose (closing : Closing)
  | serverListenerClose (pConn : Option Closing)
  | push
  | pull
  | signal
  | broadcast
  | destroyQueue
  | openLog
  | destroyLog
  deriving DecidableEq

def LibraryCall.acts : LibraryCall → List (ServerAct workers)
  | message written => LockUse.message written
  | add => LockUse.add
  | removeDescriptor found => LockUse.removeDescriptor found
  | connectionClose closing => LockUse.connectionClose closing
  | serverListenerClose pConn => LockUse.serverListenerClose pConn
  | push => LockUse.push
  | pull => LockUse.pull
  | signal => LockUse.signal
  | broadcast => LockUse.broadcast
  | destroyQueue => once .queue
  | openLog => once .log
  | destroyLog => LockUse.destroyLog

/-- A part of a thread's program. -/
inductive Stage where
  | calls (calls : List LibraryCall)
  /-- Calls made with `mThreadLock` of the listener held around them. -/
  | locked (calls : List LibraryCall)
  /-- The thread waits for a signal. -/
  | wait
  /-- Every worker but the first is joined. -/
  | joinWorkers
  deriving DecidableEq

def Stage.acts : Stage → List (ServerAct workers)
  | .calls made => made.flatMap LibraryCall.acts
  | .locked made => .acquire .listener :: made.flatMap LibraryCall.acts ++ [.release .listener]
  | .wait => LockUse.wait
  | .joinWorkers => ((List.finRange workers).tail.map Fin.succ).map .join

def Stage.libraryCalls : Stage → List LibraryCall
  | .calls made | .locked made => made
  | .wait | .joinWorkers => []

/-- What a program does with the locks. -/
def acts (program : List Stage) : List (ServerAct workers) := program.flatMap Stage.acts

/-! ## The listener thread -/

/-- The calls that a handler makes while it handles one request. -/
abbrev Handled := List LibraryCall

/-- `WorkerPool::process` of a request other than `Shutdown`, as the handler of a listener. -/
def process : Handled := [.push, .signal]

/-- What an event on a descriptor brings. -/
inductive Event where
  /-- `::accept` fails. -/
  | refused (written : Bool)
  | accepted (written : Bool) (handled : Handled)
  /-- Data has been read; `failed` is the message about a read that fails after it. -/
  | data (failed : Option Bool) (handled : Handled)
  /-- The stream has ended. -/
  | lost (written : Bool) (handled : Handled) (found : Bool)
  /-- Nothing could be read. -/
  | failed (written : Bool)
  deriving DecidableEq

/-- `ServerListener::descriptorEvent`, with `accept`. -/
def descriptorEvent : Event → List LibraryCall
  | .refused written => [.message written]
  | .accepted written handled => [.message written, .add] ++ handled
  | .data failed handled => (failed.map LibraryCall.message).toList ++ handled
  | .lost written handled found => [.message written] ++ handled ++ [.removeDescriptor found]
  | .failed written => [.message written]

/-- The outcome of one `select()`. -/
inductive Round where
  /-- It fails; `tooMany` is the message when it has failed too many times. -/
  | failed (written : Bool) (tooMany : Option Bool)
  | timeout (handled : Handled)
  | ready (events : List Event)
  deriving DecidableEq

/-- One iteration of `Listener::listen`: the descriptor set is built, and the
events are dispatched, with the lock held. -/
def round : Round → List Stage
  | .failed written tooMany =>
      [.locked [], .calls ([.message written] ++ (tooMany.map LibraryCall.message).toList)]
  | .timeout handled => [.locked [], .calls handled]
  | .ready events => [.locked [], .locked (events.flatMap descriptorEvent)]

/-- What `WorkerPool::shutdown` does when it has not run before: its messages and,
if there is a final request, what the handler does with it. -/
structure PoolShutdown where
  shutting : Bool
  joined : Bool
  handling : Bool
  handled : Handled
  deriving DecidableEq

/-- `WorkerPool::shutdown`. -/
def poolShutdown (shutdown : PoolShutdown) : List Stage :=
  [.calls [.message shutdown.shutting, .broadcast], .joinWorkers,
    .calls ([.message shutdown.joined, .message shutdown.handling] ++ shutdown.handled)]

/-- How the handler of the listener handles the `Shutdown` request. -/
inductive ShutdownHandling where
  /-- In the listener thread; no calls if the mask lets no request be made. -/
  | handler (handled : Handled)
  | pool (shutdown : PoolShutdown)
  deriving DecidableEq

/-- `ServerListener::shutdown`, with what it finds at each entry of a client. -/
def shutdown (handling : ShutdownHandling) (clients : List (Option Closing)) (found : Bool) :
    List Stage :=
  (match handling with
    | .handler handled => [.calls handled]
    | .pool shutdown => poolShutdown shutdown) ++
  [.calls (clients.map LibraryCall.serverListenerClose ++ [.removeDescriptor found])]

/-- A run of `Listener::listen`. -/
structure Listen where
  starting : Bool
  rounds : List Round
  handling : ShutdownHandling
  clients : List (Option Closing)
  found : Bool
  /-- The message about descriptors that were still open. -/
  leftOpen : Option Bool
  deriving DecidableEq

/-- `Listener::listen`. -/
def listen (run : Listen) : List Stage :=
  [.calls [.message run.starting]] ++ run.rounds.flatMap round ++
    shutdown run.handling run.clients run.found ++
    [.calls (run.leftOpen.map LibraryCall.message).toList]

/-- How `ServerListener::bind` goes: which messages it writes, and whether it
gets as far as storing the socket. -/
structure Bind where
  messages : List Bool
  bound : Bool
  deriving DecidableEq

/-- `ServerListener::bind`. -/
def bind (run : Bind) : List Stage :=
  [.calls (run.messages.map LibraryCall.message)] ++ if run.bound then [.locked [.add]] else []

/-- The pool of a server: the message of its constructor, and `shutdown (NULL)` if
its destructor calls it. -/
structure Pool where
  started : Bool
  destroyed : Option PoolShutdown
  deriving DecidableEq

/-- `WorkerPool::~WorkerPool`. -/
def destroyPool (pool : Pool) : List Stage :=
  (pool.destroyed.map poolShutdown).getD [] ++ [.calls [.destroyQueue]]

/-- A run of a sample server: the messages of `serverMain` before and after
`listen ()`, the pool if there is one, and what `bind` and `listen` do. -/
structure ServerRun where
  opening : List Bool
  pool : Option Pool
  bind : Bind
  listen : Option Listen
  closing : List Bool
  deriving DecidableEq

/-- `serverMain`, to the destruction of its objects. -/
def serverMain (run : ServerRun) : List Stage :=
  [.calls ([.openLog] ++ run.opening.map LibraryCall.message ++
      (run.pool.map fun pool => LibraryCall.message pool.started).toList)] ++
    LockUse.bind run.bind ++ (run.listen.map LockUse.listen).getD [] ++
    [.calls (run.closing.map LibraryCall.message)] ++ (run.pool.map destroyPool).getD [] ++
    [.calls [.destroyLog]]

/-! ## The workers -/

/-- `Worker::execute`: each time it has waited, the worker handles requests until
it pulls none. -/
def execute (turns : List (List Handled)) : List Stage :=
  turns.flatMap fun requests =>
    [.wait, .calls (requests.flatMap (fun handled => [.pull] ++ handled) ++ [.pull])]

/-- The program of each thread. -/
def program (run : ServerRun) (turns : Fin workers → List (List Handled)) :
    ServerThread workers → List Stage :=
  Fin.cases (serverMain run) fun worker => execute (turns worker)

/-- The locks and the threads when the server starts. -/
def start (program : ServerThread workers → List Stage) :
    Locking (ServerThread workers) ServerLock :=
  .start fun thread => acts (program thread)

/-! ## Calls that let go of all they take -/

/-- The messages of the call are written, and it closes no Connection through the listener. -/
def LibraryCall.Clean : LibraryCall → Prop
  | message written => written
  | connectionClose closing => closing.opened → (closing.found ∨ closing.warned) ∧ closing.told
  | serverListenerClose pConn => pConn = none
  | add | removeDescriptor _ | push | pull | signal | broadcast => True
  | destroyQueue | openLog | destroyLog => True

instance : DecidablePred LibraryCall.Clean
  | .message _ => inferInstanceAs (Decidable (_ = true))
  | .connectionClose closing =>
      inferInstanceAs (Decidable (closing.opened → (closing.found ∨ closing.warned) ∧ closing.told))
  | .serverListenerClose pConn => inferInstanceAs (Decidable (pConn = none))
  | .add | .removeDescriptor _ | .push | .pull | .signal | .broadcast
  | .destroyQueue | .openLog | .destroyLog => inferInstanceAs (Decidable True)

/-- Every call of the program does. -/
def Clean (program : List Stage) : Prop :=
  ∀ stage ∈ program, ∀ call ∈ stage.libraryCalls, call.Clean

instance : DecidablePred Clean := fun program =>
  inferInstanceAs (Decidable (∀ stage ∈ program, ∀ call ∈ stage.libraryCalls, call.Clean))

end LockUse

end MSrv
