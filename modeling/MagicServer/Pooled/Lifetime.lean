import MagicServer.Pooled.Coherence
import Mathlib.Tactic.FinCases

/-!
# How long a Connection lives

The `ConnectionLost` request of a Connection is pulled last of all requests about
it, but the workers that have pulled the earlier ones may be at it for longer.
Where the worker that destroys a Connection is the last one with a request about
it, no worker ever handles a request about a Connection that another one
destroys.
-/

namespace MSrv.PooledServer

variable {size : Nat}

/-- No Connection whose request a worker handles is being destroyed, or has been
destroyed, by another thread. -/
def Guarded (server : PooledServer size) : Prop :=
  ∀ w request c, server.pool.worker w = .handling request → request.connection? = some c →
    ∀ destroyer, server.destroyer c = some destroyer → destroyer = w

/-- When a worker begins to destroy a Connection, no other worker has a request
about it in its hands. -/
def DestroysLast (server : PooledServer size) : Action size → Prop
  | .delete w => ∀ request c, server.pool.worker w = .handling request →
      request.content = .connectionLost (some c) → ∀ v ≠ w, ∀ other,
        (server.pool.worker v).request? = some other → other.connection? ≠ some c
  | .listen _ | .pool _ | .close _ _ | .closeStep _ _ => True

/-- The invariant: of a Connection that is being destroyed, the loss has been
pulled, and only its destroyer has a request in its hands. -/
structure Spared (server : PooledServer size) : Prop where
  coherent : server.Coherent
  lost : ∀ c destroyer, server.destroyer c = some destroyer →
    ∃ lost ∈ server.pool.pulled, lost.content = .connectionLost (some c)
  held : ∀ c destroyer, server.destroyer c = some destroyer → ∀ w request,
    (server.pool.worker w).request? = some request → request.connection? = some c → destroyer = w

variable {server next : PooledServer size} {action : Action size}

theorem Spared.guarded (spared : server.Spared) : server.Guarded := by
  intro w request c handling about destroyer destroyed
  exact spared.held c destroyer destroyed w request (congrArg WorkerPc.request? handling) about

/-- A request that is pulled later is not about a Connection whose loss has been pulled. -/
theorem Coherent.outlasts (coherent : server.Coherent) {lost request : Request}
    (pulled : lost ∈ server.pool.pulled)
    (oldest : server.pool.mRequestQueue.head? = some request) : Outlasts lost request := by
  have queued : request ∈ server.pool.mRequestQueue := List.mem_of_head? oldest
  rcases (WorkerPool.accounts_of_reachable coherent.pool).1.order with whole | ⟨dead, _⟩
  · have order := coherent.lostLast
    rw [← whole, List.pairwise_append] at order
    exact order.2.2 lost pulled request queued
  · exact absurd coherent.alive (by rw [dead]; exact nofun)

/-- Every step keeps the invariant when Connections are destroyed by the last
worker with a request about them. -/
theorem Spared.step (spared : server.Spared) (separate : server.Separate action)
    (last : server.DestroysLast action)
    (taken : (machine size).step server action = some next) : next.Spared := by
  have coherent := spared.coherent.step separate taken
  cases step_cases taken with
  | listen | returned | close | closeStep => exact ⟨coherent, spared.lost, spared.held⟩
  | pool takes stepped =>
      refine ⟨coherent, fun c destroyer destroyed => ?_,
        fun c destroyer destroyed w request held about => ?_⟩
      · obtain ⟨lost, pulled, content⟩ := spared.lost c destroyer destroyed
        exact ⟨lost, WorkerPool.pulled_mono stepped pulled, content⟩
      · rcases WorkerPool.held_step stepped held with before | rfl
        · exact spared.held c destroyer destroyed w request before about
        · obtain ⟨lost, pulled, content⟩ := spared.lost c destroyer destroyed
          obtain ⟨⟨_, oldest⟩, _⟩ := WorkerPool.machine_step.mp stepped
          exact absurd about (spared.coherent.outlasts pulled oldest c content)
  | @delete w request handling =>
      have here : (server.pool.worker w).request? = some request :=
        congrArg WorkerPc.request? handling
      have pulled := (spared.coherent.held_made here).1
      refine ⟨coherent, fun c destroyer destroyed => ?_,
        fun c destroyer destroyed v other held about => ?_⟩
      · rw [deleteRequest_pool]
        rcases deleteRequest_destroyer destroyed with before | ⟨_, content⟩
        · exact spared.lost c destroyer before
        · exact ⟨request, pulled, content⟩
      · rw [deleteRequest_pool] at held
        rcases deleteRequest_destroyer destroyed with before | ⟨rfl, content⟩
        · exact spared.held c destroyer before v other held about
        · by_contra apart
          exact last request c handling content v (Ne.symm apart) other held about

/-- In every run in which the calls of `close()` are separate and a Connection is
destroyed by the last worker with a request about it, no worker handles a request
about a Connection that another thread destroys. -/
theorem guarded_of_destroysLast (mask flags : Nat) (calls : BindCalls) {listener : ServerListener}
    (bound : (ServerListener.construct.setRequestMask mask).bind .TCP flags calls = (0, listener))
    (actions : List (Action size))
    (met : (machine size).Steps
      (fun server action => server.Separate action ∧ server.DestroysLast action)
      (start size listener) actions)
    (ran : (machine size).run (start size listener) actions = some server) : server.Guarded := by
  have spared : server.Spared :=
    (machine size).run_invariant Spared
      (fun _ _ _ spared met taken => spared.step met.1 met.2 taken)
      ⟨coherent_start bound, nofun, nofun⟩ met ran
  exact spared.guarded

/-- A listener for concrete runs that makes `ConnectionLost` requests only. -/
def lossListener : ServerListener :=
  ((ServerListener.construct.setRequestMask RequestType.connectionLost.bit).bind .TCP 0
    ⟨3, 0, 0, 0⟩).2

/-- A client comes, and there is something to read from it. -/
def clientReady : List (Action 1) :=
  [.listen .build, .listen (.selectReady [3]), .listen (.event (.accepted 5)), .listen .skip,
    .listen .endDispatch, .listen .check, .listen .build, .listen (.selectReady [5]), .listen .skip]

/-- The only worker handles the loss and begins to destroy the Connection. -/
def lossHandled (c : Fin 1) (w : Fin size) : List (Action size) :=
  [.pool (.process c ⟨0, 5, .connectionLost (some 0)⟩),
    .pool (.signal c ⟨0, 5, .connectionLost (some 0)⟩ none), .pool (.testWorker w),
    .pool (.sleep w), .pool (.wake w), .pool (.resume w),
    .pool (.pull w ⟨0, 5, .connectionLost (some 0)⟩),
    .pool (.call w ⟨0, 5, .connectionLost (some 0)⟩), .delete w]

/-- A lone worker destroys the Connection whose loss it handles. -/
theorem guarded_of_destroysLast_run :
    ∃ final, (machine 1).run (start 1 lossListener)
        (clientReady ++ [.listen (.event (.reads [.block []]))] ++ lossHandled 0 0) = some final ∧
      final.destroyer 0 = some 0 ∧ final.Guarded := by
  refine ⟨_, rfl, rfl, guarded_of_destroysLast RequestType.connectionLost.bit 0 ⟨3, 0, 0, 0⟩
    (show _ = (0, lossListener) from rfl)
    (clientReady ++ [.listen (.event (.reads [.block []]))] ++ lossHandled 0 0) ?_ rfl⟩
  have alone : ∀ server : PooledServer 1, server.DestroysLast (.delete 0) :=
    fun _ _ _ _ _ v different => absurd (Subsingleton.elim v 0) different
  refine ((machine 1).steps_append rfl).mpr ⟨((machine 1).steps_append rfl).mpr
    ⟨(machine 1).steps_of_forall ?_, ?_⟩, (machine 1).steps_of_forall ?_⟩
  · intro action member server
    unfold clientReady at member
    fin_cases member <;> exact ⟨nofun, trivial⟩
  · intro _ _
    exact ⟨⟨nofun, trivial⟩, trivial⟩
  · intro action member server
    unfold lossHandled at member
    fin_cases member <;> first | exact ⟨trivial, trivial⟩ | exact ⟨trivial, alone server⟩

/-- Worker 0 is still at the `NewConnection` request of Connection 0 when the
client goes away; worker 1 handles the loss and destroys the Connection. -/
theorem destroyed_while_handled :
    ∃ final, (machine 2).run (start 2 ServerListener.sample)
        [.listen .build, .listen (.selectReady [3]), .listen (.event (.accepted 5)),
          .pool (.process 0 ⟨0, 5, .newConnection (some 0)⟩),
          .pool (.signal 0 ⟨0, 5, .newConnection (some 0)⟩ none), .pool (.testWorker 0),
          .pool (.sleep 0), .pool (.wake 0), .pool (.resume 0),
          .pool (.pull 0 ⟨0, 5, .newConnection (some 0)⟩),
          .pool (.call 0 ⟨0, 5, .newConnection (some 0)⟩), .listen (.returned 0), .listen .skip,
          .listen .endDispatch, .listen .check, .listen .build, .listen (.selectReady [5]),
          .listen .skip, .listen (.event (.reads [.block []])),
          .pool (.process 0 ⟨1, 5, .connectionLost (some 0)⟩),
          .pool (.signal 0 ⟨1, 5, .connectionLost (some 0)⟩ none), .pool (.testWorker 1),
          .pool (.sleep 1), .pool (.wake 1), .pool (.resume 1),
          .pool (.pull 1 ⟨1, 5, .connectionLost (some 0)⟩),
          .pool (.call 1 ⟨1, 5, .connectionLost (some 0)⟩), .delete 1] = some final ∧
      ¬ final.Guarded := by
  refine ⟨_, rfl, fun guarded => ?_⟩
  have same : (1 : Fin 2) = 0 := guarded 0 ⟨0, 5, .newConnection (some 0)⟩ 0 rfl rfl 1 rfl
  cases same

end MSrv.PooledServer
