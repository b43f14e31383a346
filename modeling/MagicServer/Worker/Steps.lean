import MagicServer.Library.Threads
import MagicServer.Worker.Pool

/-!
# What one step does to one thread

Whatever step the pool takes, a worker stays where it is or moves along
`Worker::execute()`, and a caller stays where it is or moves along the function
it is in. Invariants about program counters are read off these two relations.
-/

namespace MSrv.WorkerPool

variable {size callers : Nat}

/-- The moves of a worker in one step of the pool. -/
inductive WorkerStep (pool : WorkerPool size callers) : WorkerPc → WorkerPc → Prop
  | stay (pc : WorkerPc) : WorkerStep pool pc pc
  | leave : pool.mIsShutdown = true → WorkerStep pool .testing .left
  | pass : pool.mIsShutdown = false → WorkerStep pool .testing .waiting
  | sleep : WorkerStep pool .waiting .asleep
  | awaken : WorkerStep pool .asleep .woken
  | resume : WorkerStep pool .woken .pulling
  | pull (request : Request) : pool.mRequestQueue.head? = some request →
      WorkerStep pool .pulling (.calling request)
  | pullNull : pool.mRequestQueue = [] → WorkerStep pool .pulling .testing
  | call (request : Request) : WorkerStep pool (.calling request) (.handling request)
  | finish (request : Request) : WorkerStep pool (.handling request) .pulling

/-- The moves of a caller in one step from `pool` to `next`. -/
inductive CallerStep (pool next : WorkerPool size callers) : CallerPc → CallerPc → Prop
  | stay (pc : CallerPc) : CallerStep pool next pc pc
  | push (request : Request) : pool.alive = true → request ∉ pool.issued →
      request.getType ≠ .shutdown → request ∈ next.pushed →
      CallerStep pool next .idle (.signalling request)
  | shutdown (request : Request) : pool.alive = true → request ∉ pool.issued →
      request.getType = .shutdown → CallerStep pool next .idle (.testing (some request))
  | signal (request : Request) : CallerStep pool next (.signalling request) .idle
  | repeated (request : Request) : pool.mIsShutdown = true →
      CallerStep pool next (.testing (some request)) .idle
  | repeatedNull : pool.mIsShutdown = true → CallerStep pool next (.testing none) (.deleting 0)
  | test (final : Option Request) : pool.mIsShutdown = false →
      CallerStep pool next (.testing final) (.setting final)
  | set (final : Option Request) : next.mIsShutdown = true →
      CallerStep pool next (.setting final) (.broadcasting final)
  | broadcast (final : Option Request) :
      CallerStep pool next (.broadcasting final) (.joining final 1)
  | join (final : Option Request) (i : Fin size) : pool.worker i = .left → next.joined i = true →
      CallerStep pool next (.joining final i) (.joining final (i + 1))
  | joinEnd (request : Request) (i : Nat) : size ≤ i →
      CallerStep pool next (.joining (some request) i) (.finalizing request)
  | joinEndNull (i : Nat) : size ≤ i → CallerStep pool next (.joining none i) (.deleting 0)
  | callFinal (request : Request) :
      CallerStep pool next (.finalizing request) (.handlingFinal request)
  | finishFinal (request : Request) : CallerStep pool next (.handlingFinal request) .idle
  | destruct : pool.alive = true → next.alive = false → (∀ c, pool.caller c = .idle) →
      CallerStep pool next .idle .destructing
  | skip : pool.mIsShutdown = true → CallerStep pool next .destructing (.deleting 0)
  | shutdownNull : pool.mIsShutdown = false → CallerStep pool next .destructing (.testing none)
  | delete (i : Fin size) : CallerStep pool next (.deleting i) (.deleting (i + 1))
  | destroy (i : Nat) : size ≤ i → CallerStep pool next (.deleting i) .destroyed

variable {pool next : WorkerPool size callers} {action : Action size callers}

private theorem workerStep_go {w moved : Fin size} {before after : WorkerPc}
    (here : pool.worker moved = before) (move : WorkerStep pool before after) :
    WorkerStep pool (pool.worker w) (pool.goWorker moved after w) := by
  by_cases same : w = moved
  · subst same
    rwa [goWorker, Function.update_self, here]
  · rw [goWorker, Function.update_of_ne same]
    exact .stay _

private theorem callerStep_go {c moved : Fin callers} {before after : CallerPc}
    (here : pool.caller moved = before) (move : CallerStep pool next before after) :
    CallerStep pool next (pool.caller c) (pool.goCaller moved after c) := by
  by_cases same : c = moved
  · subst same
    rwa [goCaller, Function.update_self, here]
  · rw [goCaller, Function.update_of_ne same]
    exact .stay _

/-- Every step moves each worker along `execute()`, if at all. -/
theorem workerStep (taken : (machine size callers).step pool action = some next) (w : Fin size) :
    WorkerStep pool (pool.worker w) (next.worker w) := by
  obtain ⟨enabled, rfl⟩ := machine_step.mp taken
  cases action with
  | process c request =>
      rw [effect_process_worker]
      exact .stay _
  | signal c request target =>
      cases target with
      | none => exact .stay _
      | some target => exact workerStep_go enabled.2 .awaken
  | broadcast c final =>
      rw [effect_broadcast_worker]
      split_ifs with asleep
      · rw [asleep]
        exact .awaken
      · exact .stay _
  | testWorker moved =>
      apply workerStep_go enabled
      split_ifs with shutdown
      · exact .leave shutdown
      · exact .pass (Bool.eq_false_iff.mpr shutdown)
  | sleep moved => exact workerStep_go enabled .sleep
  | wake moved => exact workerStep_go enabled .awaken
  | resume moved => exact workerStep_go enabled .resume
  | pull moved request => exact workerStep_go enabled.1 (.pull request enabled.2)
  | pullNull moved => exact workerStep_go enabled.1 (.pullNull enabled.2)
  | call moved request => exact workerStep_go enabled (.call request)
  | finish moved request => exact workerStep_go enabled (.finish request)
  | _ => exact .stay _

/-- Every step moves each caller along the function it is in, if at all. -/
theorem callerStep (taken : (machine size callers).step pool action = some next)
    (c : Fin callers) : CallerStep pool next (pool.caller c) (next.caller c) := by
  obtain ⟨enabled, rfl⟩ := machine_step.mp taken
  cases action with
  | process moved request =>
      obtain ⟨alive, idle, new⟩ := enabled
      by_cases final : request.getType = .shutdown
      · rw [effect_process_shutdown pool moved final]
        exact callerStep_go idle (.shutdown request alive new final)
      · rw [effect_process_push pool moved final]
        exact callerStep_go idle (.push request alive new final (List.mem_append_right _ (by simp)))
  | signal moved request target => exact callerStep_go enabled.1 (.signal request)
  | testShutdown moved final =>
      apply callerStep_go enabled
      split_ifs with shutdown
      · cases final with
        | none => exact .repeatedNull shutdown
        | some request => exact .repeated request shutdown
      · exact .test final (Bool.eq_false_iff.mpr shutdown)
  | setShutdown moved final => exact callerStep_go enabled (.set final rfl)
  | broadcast moved final => exact callerStep_go enabled (.broadcast final)
  | join moved final i =>
      exact callerStep_go enabled.1 (.join final i enabled.2 (Function.update_self ..))
  | joinEnd moved final i =>
      apply callerStep_go enabled.1
      cases final with
      | none => exact .joinEndNull i enabled.2
      | some request => exact .joinEnd request i enabled.2
  | callFinal moved request => exact callerStep_go enabled (.callFinal request)
  | finishFinal moved request => exact callerStep_go enabled (.finishFinal request)
  | destruct moved => exact callerStep_go (enabled.2 moved) (.destruct enabled.1 rfl enabled.2)
  | testDestruct moved =>
      apply callerStep_go enabled
      split_ifs with shutdown
      · exact .skip shutdown
      · exact .shutdownNull (Bool.eq_false_iff.mpr shutdown)
  | deleteWorker moved i => exact callerStep_go enabled (.delete i)
  | destroyQueue moved i => exact callerStep_go enabled.1 (.destroy i enabled.2)
  | _ => exact .stay _

/-- `~WorkerPool` finishes with the destruction of the members. -/
theorem destroyed_of_step (taken : (machine size callers).step pool action = some next)
    {c : Fin callers} (finished : next.caller c = .destroyed) :
    pool.caller c = .destroyed ∨ ∃ i, action = .destroyQueue c i := by
  have moved {moved : Fin callers} {pc : CallerPc} (other : pc ≠ .destroyed)
      (finished : pool.goCaller moved pc c = .destroyed) : pool.caller c = .destroyed := by
    by_cases same : c = moved
    · rw [same, goCaller, Function.update_self] at finished
      exact absurd finished other
    · rwa [goCaller, Function.update_of_ne same] at finished
  obtain ⟨enabled, rfl⟩ := machine_step.mp taken
  cases action with
  | process mover request =>
      by_cases final : request.getType = .shutdown
      · rw [effect_process_shutdown pool mover final] at finished
        exact Or.inl (moved (by simp) finished)
      · rw [effect_process_push pool mover final] at finished
        exact Or.inl (moved (by simp) finished)
  | testShutdown mover final =>
      refine Or.inl (moved ?_ finished)
      split_ifs
      · cases final <;> simp
      · simp
  | joinEnd mover final i =>
      refine Or.inl (moved ?_ finished)
      cases final <;> simp
  | testDestruct mover =>
      refine Or.inl (moved ?_ finished)
      split_ifs <;> simp
  | destroyQueue mover i =>
      by_cases same : c = mover
      · exact Or.inr ⟨i, same ▸ rfl⟩
      · exact Or.inl ((Function.update_of_ne same ..).symm.trans finished)
  | testWorker | sleep | wake | resume | pull | pullNull | call | finish => exact Or.inl finished
  | _ => exact Or.inl (moved (by simp) finished)

/-- Every step leaves the queue alone, pushes a new request, pulls the oldest
one, or destroys the queue. -/
theorem queue_step (taken : (machine size callers).step pool action = some next) :
    (next.pushed = pool.pushed ∧ next.pulled = pool.pulled ∧
      next.mRequestQueue = pool.mRequestQueue) ∨
    (∃ request, request ∉ pool.issued ∧ next.pushed = pool.pushed ++ [request] ∧
      next.pulled = pool.pulled ∧ next.mRequestQueue = pool.mRequestQueue ++ [request] ∧
      ∃ c, action = .process c request) ∨
    (∃ w request rest, pool.worker w = .pulling ∧ pool.mRequestQueue = request :: rest ∧
      next.pushed = pool.pushed ∧ next.pulled = pool.pulled ++ [request] ∧
      next.mRequestQueue = rest) ∨
    ((∃ c i, action = .destroyQueue c i) ∧ next.pushed = pool.pushed ∧
      next.pulled = pool.pulled ∧ next.mRequestQueue = []) := by
  obtain ⟨enabled, rfl⟩ := machine_step.mp taken
  cases action with
  | process c request =>
      by_cases final : request.getType = .shutdown
      · left
        simp only [effect, final, and_self]
      · refine Or.inr (Or.inl ⟨request, enabled.2.2, ?_⟩)
        simp only [effect, true_and]
        exact ⟨c, rfl⟩
  | pull w request =>
      obtain ⟨rest, queue⟩ := List.head?_eq_some_iff.mp enabled.2
      refine Or.inr (Or.inr (Or.inl ⟨w, request, rest, enabled.1, queue, rfl, rfl, ?_⟩))
      simp only [effect, queue, List.tail_cons]
  | destroyQueue c i => exact Or.inr (Or.inr (Or.inr ⟨⟨c, i, rfl⟩, rfl, rfl, rfl⟩))
  | _ => exact Or.inl ⟨rfl, rfl, rfl⟩

/-- A request becomes accepted when its caller signals before shutdown. -/
theorem accepted_step (taken : (machine size callers).step pool action = some next) :
    next.accepted = pool.accepted ∨
      (pool.mIsShutdown = false ∧ ∃ c request, pool.caller c = .signalling request ∧
        next.accepted = pool.accepted ++ [request]) := by
  obtain ⟨enabled, rfl⟩ := machine_step.mp taken
  cases action with
  | process c request =>
      simp only [effect]
      split <;> exact Or.inl rfl
  | signal c request target =>
      cases running : pool.mIsShutdown with
      | true => exact Or.inl (by simp only [effect, running, ↓reduceIte])
      | false =>
          refine Or.inr ⟨rfl, c, request, enabled.1, ?_⟩
          simp only [effect, running, Bool.false_eq_true, ↓reduceIte]
  | _ => exact Or.inl rfl

/-- Only `shutdown()` sets `mIsShutdown`. -/
theorem shutdown_step (taken : (machine size callers).step pool action = some next) :
    next.mIsShutdown = pool.mIsShutdown ∨ ∃ c final, action = .setShutdown c final := by
  obtain ⟨_, rfl⟩ := machine_step.mp taken
  cases action with
  | process c request =>
      simp only [effect]
      split <;> exact Or.inl rfl
  | setShutdown c final => exact Or.inr ⟨c, final, rfl⟩
  | _ => exact Or.inl rfl

/-- Once set, `mIsShutdown` stays set. -/
theorem shutdown_stays (taken : (machine size callers).step pool action = some next)
    (shutdown : pool.mIsShutdown = true) : next.mIsShutdown = true := by
  rcases shutdown_step taken with same | ⟨c, final, rfl⟩
  · exact same.trans shutdown
  · obtain ⟨_, rfl⟩ := machine_step.mp taken
    rfl

/-- A step moves at most one caller. -/
theorem one_caller_moves (taken : (machine size callers).step pool action = some next)
    {c c' : Fin callers} (different : c ≠ c') :
    next.caller c = pool.caller c ∨ next.caller c' = pool.caller c' := by
  obtain ⟨_, rfl⟩ := machine_step.mp taken
  have one : ∀ (moved : Fin callers) (pc : CallerPc),
      pool.goCaller moved pc c = pool.caller c ∨ pool.goCaller moved pc c' = pool.caller c' := by
    intro moved pc
    by_cases same : c = moved
    · exact Or.inr (Function.update_of_ne (same ▸ different.symm) ..)
    · exact Or.inl (Function.update_of_ne same ..)
  cases action with
  | process m request =>
      simp only [effect]
      split <;> exact one m _
  | signal m | testShutdown m | setShutdown m | broadcast m | join m | joinEnd m | callFinal m
  | finishFinal m | destruct m | testDestruct m | deleteWorker m | destroyQueue m => exact one m _
  | _ => exact Or.inl rfl

/-- Only entering `~WorkerPool` ends the life of the pool. -/
theorem alive_step (taken : (machine size callers).step pool action = some next) :
    next.alive = pool.alive ∨ ((∀ c, pool.caller c = .idle) ∧ ∃ m, action = .destruct m) := by
  obtain ⟨enabled, rfl⟩ := machine_step.mp taken
  cases action with
  | process c request =>
      simp only [effect]
      split <;> exact Or.inl rfl
  | destruct m => exact Or.inr ⟨enabled.2, m, rfl⟩
  | _ => exact Or.inl rfl

/-- Before shutdown no worker has left. -/
theorem left_shutdown (reached : (machine size callers).Reachable (initial size callers) pool)
    (w : Fin size) (left : pool.worker w = .left) : pool.mIsShutdown = true := by
  refine reached.invariant (fun pool => ∀ w, pool.worker w = .left →
    pool.mIsShutdown = true) (fun pool action next ih taken w left => ?_)
    (fun w left => by cases left) w left
  have move := workerStep taken w
  rw [left] at move
  generalize before : pool.worker w = pc at move
  cases move with
  | stay => exact shutdown_stays taken (ih w before)
  | leave shutdown => exact shutdown_stays taken shutdown

/-- The places of a caller inside `~WorkerPool`, the call of `shutdown (NULL)` included. -/
def Destructing : CallerPc → Prop
  | .testing none | .setting none | .broadcasting none | .joining none _ => True
  | .destructing | .deleting _ | .destroyed => True
  | .testing (some _) | .setting (some _) | .broadcasting (some _) | .joining (some _) _ => False
  | .idle | .signalling _ | .finalizing _ | .handlingFinal _ => False

/-- Whoever runs `~WorkerPool` is alone in the pool's functions. -/
structure Lone (pool : WorkerPool size callers) : Prop where
  dead : ∀ c, Destructing (pool.caller c) → pool.alive = false
  others : pool.alive = false → ∀ c, pool.caller c = .idle ∨ Destructing (pool.caller c)
  unique : ∀ c c', Destructing (pool.caller c) → Destructing (pool.caller c') → c = c'

theorem lone_initial : (initial size callers).Lone where
  dead _ := False.elim
  others dead := nomatch dead
  unique _ _ := False.elim

/-- A caller inside `~WorkerPool` came from there, or has just entered it. -/
theorem CallerStep.into_destructing {before after : CallerPc}
    (move : CallerStep pool next before after) (inside : Destructing after) :
    Destructing before ∨ (pool.alive = true ∧ next.alive = false) := by
  cases move with
  | stay => exact Or.inl inside
  | destruct alive dead => exact Or.inr ⟨alive, dead⟩
  | test final | set final | broadcast final | join final =>
      cases final with
      | none => exact Or.inl trivial
      | some request => exact inside.elim
  | repeatedNull | joinEndNull | skip | shutdownNull | delete | destroy => exact Or.inl trivial
  | push | shutdown | signal | repeated | joinEnd | callFinal | finishFinal => exact inside.elim

/-- Once the pool is being destroyed, callers outside `~WorkerPool` stay outside
all of its functions. -/
theorem CallerStep.while_dead {before after : CallerPc} (move : CallerStep pool next before after)
    (dead : pool.alive = false) (outside : before = .idle ∨ Destructing before) :
    after = .idle ∨ Destructing after := by
  cases move with
  | stay => exact outside
  | push _ alive | shutdown _ alive | destruct alive =>
      exact absurd alive (by rw [dead]; exact nofun)
  | test final | set final | broadcast final | join final =>
      cases final with
      | none => exact Or.inr trivial
      | some request => exact outside.elim nofun False.elim
  | repeatedNull | joinEndNull | skip | shutdownNull | delete | destroy => exact Or.inr trivial
  | signal | repeated | finishFinal => exact Or.inl rfl
  | joinEnd | callFinal => exact outside.elim nofun False.elim

/-- A worker that has left never runs again. -/
theorem left_stays (taken : (machine size callers).step pool action = some next) {w : Fin size}
    (left : pool.worker w = .left) : next.worker w = .left := by
  have move := workerStep taken w
  rw [left] at move
  generalize next.worker w = after at move
  cases move with
  | stay => rfl

/-- Nobody comes back from the end of `~WorkerPool`. -/
theorem destroyed_stays (taken : (machine size callers).step pool action = some next)
    {c : Fin callers} (finished : pool.caller c = .destroyed) : next.caller c = .destroyed := by
  have move := callerStep taken c
  rw [finished] at move
  generalize next.caller c = pc at move ⊢
  cases move
  rfl

theorem Lone.step (lone : pool.Lone)
    (taken : (machine size callers).step pool action = some next) : next.Lone where
  dead c inside := by
    rcases (callerStep taken c).into_destructing inside with before | ⟨_, dead⟩
    · rcases alive_step taken with same | ⟨idle, _⟩
      · exact same.trans (lone.dead c before)
      · rw [idle c] at before
        exact before.elim
    · exact dead
  others dead c := by
    rcases alive_step taken with same | ⟨idle, m, rfl⟩
    · have dead' := same.symm.trans dead
      exact (callerStep taken c).while_dead dead' (lone.others dead' c)
    · obtain ⟨_, rfl⟩ := machine_step.mp taken
      by_cases moved : c = m
      · right
        rw [moved]
        change Destructing (Function.update pool.caller m .destructing m)
        rw [Function.update_self]
        trivial
      · left
        exact (Function.update_of_ne moved ..).trans (idle c)
  unique c c' inside inside' := by
    by_contra different
    -- One of the two has not moved and was inside before, so nobody can have entered.
    have stuck : ∀ {d d' : Fin callers}, d ≠ d' → next.caller d = pool.caller d →
        Destructing (next.caller d) → Destructing (next.caller d') → False := by
      intro d d' apart same here here'
      rw [same] at here
      rcases (callerStep taken d').into_destructing here' with before | ⟨alive, _⟩
      · exact apart (lone.unique d d' here before)
      · exact absurd (lone.dead d here) (by rw [alive]; exact nofun)
    rcases one_caller_moves taken different with same | same
    · exact stuck different same inside inside'
    · exact stuck (Ne.symm different) same inside' inside

end MSrv.WorkerPool
