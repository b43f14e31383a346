import MagicServer.Pooled.LockUse

/-!
# The locks of the server never block it for good

The library takes its locks in one order: the lock of the listener before every
other, and no two of the others at once. A server whose calls let go of all they
take therefore never comes to a halt over its locks: where no thread can move,
those that have not finished sleep in `pthread_cond_wait`, or join one that does.
A lock that a call keeps stays with its thread, and every other thread that comes
to it waits for good.
-/

namespace MSrv

namespace LockUse

open LockAct

variable {workers : Nat}

/-- The order in which the library takes its locks, and in which threads are joined. -/
def order (workers : Nat) : LockOrder (ServerThread workers) ServerLock where
  lock
    | .listener => 0
    | .descriptors | .queue | .wait | .log => 1
  thread := Fin.val

/-! ## The calls -/

variable {lock : ServerLock} {self : ServerThread workers}

theorem keeps_once (lock other : ServerLock) : Keeps lock (once other : List (ServerAct workers)) :=
  Keeps.locked .nil other

theorem keeps_message (lock : ServerLock) (written : Bool) :
    Keeps lock (message written : List (ServerAct workers)) := by
  cases written with
  | true => exact keeps_once lock ServerLock.log
  | false => exact .of_gives rfl

theorem keeps_removeDescriptor (lock : ServerLock) (found : Bool) :
    Keeps lock (removeDescriptor found : List (ServerAct workers)) := by
  cases found with
  | true => exact Keeps.locked (keeps_once lock .descriptors) .listener
  | false => exact keeps_once lock .listener

theorem keeps_connectionClose (lock : ServerLock) (closing : Closing) :
    Keeps lock (connectionClose closing : List (ServerAct workers)) := by
  obtain ⟨_ | _, found, warned, told⟩ := closing
  · exact .nil
  · refine ((keeps_removeDescriptor lock found).append ?_).append (keeps_message lock told)
    cases found with
    | true => exact .nil
    | false => exact keeps_message lock warned

theorem keeps_serverListenerClose (lock : ServerLock) (pConn : Option Closing) :
    Keeps lock (serverListenerClose pConn : List (ServerAct workers)) := by
  cases pConn with
  | none => exact .nil
  | some closing =>
      exact ((Keeps.of_gives rfl).append (keeps_connectionClose lock closing)).append
        (.of_gives rfl)

/-- No call lets go of a lock that was held before it. -/
theorem LibraryCall.keeps (lock : ServerLock) (call : LibraryCall) :
    Keeps lock (call.acts : List (ServerAct workers)) := by
  cases call with
  | message written => exact keeps_message lock written
  | add => exact keeps_once lock .descriptors
  | removeDescriptor found => exact keeps_removeDescriptor lock found
  | connectionClose closing => exact keeps_connectionClose lock closing
  | serverListenerClose pConn => exact keeps_serverListenerClose lock pConn
  | push | pull | destroyQueue => exact keeps_once lock .queue
  | signal | broadcast => exact (keeps_once lock .wait).append (.of_gives rfl)
  | openLog => exact keeps_once lock .log
  | destroyLog => exact Keeps.locked (keeps_once lock .log) .log

/-- Around a call a thread holds at most the lock of the listener. -/
abbrev Neat (self : ServerThread workers) (acts : List (ServerAct workers)) : Prop :=
  Balanced (order workers) self (· = .listener) acts

theorem neat_locked (self : ServerThread workers) (lock : ServerLock)
    {acts : List (ServerAct workers)}
    (inside : Balanced (order workers) self (fun other => other = lock ∨ other = .listener) acts) :
    Neat self (.acquire lock :: acts ++ [.release lock]) := by
  refine .locked ?_ inside
  rintro other rfl
  cases lock with
  | listener => exact Or.inl rfl
  | descriptors | queue | wait | log => exact Or.inr Nat.zero_lt_one

theorem neat_once (self : ServerThread workers) (lock : ServerLock) : Neat self (once lock) :=
  neat_locked self lock .nil

/-- The lock of the listener may be held around what a thread may do with it held. -/
theorem Neat.listener {acts : List (ServerAct workers)} (inside : Neat self acts) :
    Neat self (.acquire .listener :: acts ++ [.release .listener]) :=
  neat_locked self .listener fun held only => inside held fun lock holds =>
    (only lock holds).elim id id

theorem neat_message (self : ServerThread workers) {written : Bool} (complete : written) :
    Neat self (message written) := by
  subst complete
  exact neat_once self .log

theorem neat_removeDescriptor (self : ServerThread workers) (found : Bool) :
    Neat self (removeDescriptor found) := by
  cases found with
  | true => exact (neat_once self .descriptors).listener
  | false => exact neat_once self .listener

/-- A clean call takes its locks in order and lets go of them. -/
theorem LibraryCall.neat (self : ServerThread workers) {call : LibraryCall}
    (clean : call.Clean) : Neat self call.acts := by
  cases call with
  | message written => exact neat_message self clean
  | add => exact neat_once self .descriptors
  | push | pull | destroyQueue => exact neat_once self .queue
  | signal | broadcast =>
      exact (neat_once self .wait).append fun _ _ => ⟨trivial, rfl⟩
  | openLog => exact neat_once self .log
  | removeDescriptor found => exact neat_removeDescriptor self found
  | connectionClose closing =>
      obtain ⟨_ | _, found, warned, told⟩ := closing
      · exact .nil
      · obtain ⟨warning, finished⟩ := clean rfl
        refine Balanced.append ((neat_removeDescriptor self found).append ?_)
          (neat_message self finished)
        cases found with
        | true => exact .nil
        | false => exact neat_message self (warning.resolve_left (by simp))
  | serverListenerClose pConn =>
      cases clean
      exact .nil
  | destroyLog =>
      refine neat_locked self .log (.locked ?_ .nil)
      rintro other (rfl | rfl)
      · exact Or.inl rfl
      · exact Or.inr Nat.zero_lt_one

/-- `ServerListener::close` takes the lock of the listener twice more than it lets it go. -/
theorem acquires_serverListenerClose (workers : Nat) (closing : Closing) :
    releases .listener (serverListenerClose (some closing) : List (ServerAct workers)) + 2 ≤
      acquires .listener (serverListenerClose (some closing) : List (ServerAct workers)) := by
  have keeps : Keeps .listener (connectionClose closing : List (ServerAct workers)) :=
    keeps_connectionClose .listener closing
  have inner := keeps.covered.releases_le
  simp [acquires, releases, serverListenerClose, takes, gives] at inner ⊢
  omega

/-- Any other call keeps a lock, which it takes more often than it lets it go. -/
theorem LibraryCall.leaks (workers : Nat) {call : LibraryCall} (leaking : ¬ call.Clean) :
    ∃ lock, releases lock (call.acts : List (ServerAct workers)) + 1 ≤
      acquires lock (call.acts : List (ServerAct workers)) := by
  cases call with
  | message written =>
      cases written with
      | true => exact absurd rfl leaking
      | false => exact ⟨.log, le_rfl⟩
  | add | push | pull | signal | broadcast | destroyQueue | openLog | removeDescriptor found
  | destroyLog => exact absurd trivial leaking
  | connectionClose closing =>
      refine ⟨.log, ?_⟩
      obtain ⟨_ | _, _ | _, _ | _, _ | _⟩ := closing <;>
        first
          | exact absurd (by decide) leaking
          | exact le_rfl
          | exact Nat.le_succ _
  | serverListenerClose pConn =>
      cases pConn with
      | none => exact absurd rfl leaking
      | some closing =>
          have twice := acquires_serverListenerClose workers closing
          exact ⟨.listener, (Nat.le_succ _).trans twice⟩

/-! ## Programs -/

theorem Stage.keeps (lock : ServerLock) (stage : Stage) :
    Keeps lock (stage.acts : List (ServerAct workers)) := by
  have calls (made : List LibraryCall) :
      Keeps lock (made.flatMap LibraryCall.acts : List (ServerAct workers)) :=
    .flatMap fun call _ => call.keeps lock
  cases stage with
  | calls made => exact calls made
  | locked made => exact (calls made).locked .listener
  | wait => exact (Keeps.await .wait).append (keeps_once lock .wait)
  | joinWorkers => exact .joins _

/-- A program whose calls are clean follows the order, and holds nothing in the end. -/
theorem follows_of_clean (self : ServerThread workers) {program : List Stage}
    (clean : Clean program) (joins : .joinWorkers ∈ program → self = 0) :
    Follows (order workers) self (fun _ => 0) (acts program) fun _ => 0 := by
  induction program with
  | nil => rfl
  | cons stage rest ih =>
      have later := ih (fun other member => clean other (List.mem_cons_of_mem _ member))
        fun member => joins (List.mem_cons_of_mem _ member)
      have calls {made : List LibraryCall} (here : ∀ call ∈ made, call.Clean) :
          Neat self (made.flatMap LibraryCall.acts) :=
        .flatMap fun call member => LibraryCall.neat self (here call member)
      have first := clean stage List.mem_cons_self
      rw [acts, List.flatMap_cons]
      refine Follows.append ?_ later
      cases stage with
      | calls made => exact calls first _ fun _ holds => absurd holds (Nat.lt_irrefl 0)
      | locked made => exact (calls first).listener _ fun _ holds => absurd holds (Nat.lt_irrefl 0)
      | wait => exact follows_await ServerLock.wait fun _ => rfl
      | joinWorkers =>
          refine follows_joins ?_ fun _ => rfl
          intro thread member
          obtain ⟨worker, _, rfl⟩ := List.mem_map.mp member
          rw [joins List.mem_cons_self]
          exact Nat.succ_pos worker

/-- A stage with a call that keeps a lock takes that lock more often than it lets it go. -/
theorem Stage.leaks {stage : Stage} {call : LibraryCall} {more : Nat}
    (made : call ∈ stage.libraryCalls)
    (extra : releases lock (call.acts : List (ServerAct workers)) + more ≤
      acquires lock (call.acts : List (ServerAct workers))) :
    releases lock (stage.acts : List (ServerAct workers)) + more ≤
      acquires lock (stage.acts : List (ServerAct workers)) := by
  cases stage with
  | calls made' => exact releases_add_le (fun call _ => call.keeps lock) made extra
  | locked made' =>
      exact releases_locked_le (releases_add_le (fun call _ => call.keeps lock) made extra) _
  | wait | joinWorkers => cases made

theorem leaks_of_not_clean (workers : Nat) {program : List Stage} (leaking : ¬ Clean program) :
    ∃ lock, releases lock (acts program : List (ServerAct workers)) + 1 ≤
      acquires lock (acts program : List (ServerAct workers)) := by
  simp only [Clean, not_forall] at leaking
  obtain ⟨stage, member, call, made, keeps⟩ := leaking
  obtain ⟨lock, extra⟩ := LibraryCall.leaks workers keeps
  exact ⟨lock, releases_add_le (fun stage _ => stage.keeps lock) member
    (Stage.leaks made extra)⟩

/-! ## The server -/

/-- Threads with clean programs come to a halt only where no lock is held, and
nobody waits but for a wake-up. -/
theorem atRest_of_clean {program : ServerThread workers → List Stage}
    (clean : ∀ thread, Clean (program thread))
    (joins : ∀ thread, .joinWorkers ∈ program thread → thread = 0)
    {final : Locking (ServerThread workers) ServerLock}
    (reached : Locking.machine.Reachable (start program) final) (stuck : final.Stuck) :
    final.AtRest := by
  have ordered : final.Ordered (order workers) :=
    reached.invariant (fun state => state.Ordered (order workers))
      (fun state move next ordered taken => ordered.step taken)
      fun thread => follows_of_clean thread (clean thread) (joins thread)
  exact ordered.atRest_of_stuck stuck

/-- Where a thread has a call that keeps a lock, that lock is held in the end. -/
theorem not_over_of_leaking {program : ServerThread workers → List Stage}
    {thread : ServerThread workers} (leaking : ¬ Clean (program thread))
    {final : Locking (ServerThread workers) ServerLock}
    (reached : Locking.machine.Reachable (start program) final) : ¬ final.Over := by
  rintro ⟨finished, free⟩
  obtain ⟨lock, extra⟩ := leaks_of_not_clean workers leaking
  have held := Locking.held_of_unbalanced reached thread lock
  have none_held : final.held thread lock = 0 := by
    rw [Locking.held, free lock]
    rfl
  rw [finished thread, none_held] at held
  change 0 + acquires lock (acts (program thread)) + 0 ≤
    0 + 0 + releases lock (acts (program thread)) at held
  omega

/-- Workers are joined by the listener thread only. -/
theorem program_joins (run : ServerRun) (turns : Fin workers → List (List Handled))
    (thread : ServerThread workers) : .joinWorkers ∈ program run turns thread → thread = 0 := by
  refine Fin.cases (fun _ => rfl) (fun worker member => ?_) thread
  obtain ⟨requests, _, stage⟩ := List.mem_flatMap.mp member
  simp at stage

/-- A server that has been shut down with one client, and a worker that removes a descriptor. -/
def closedDown : ServerRun where
  opening := []
  pool := some ⟨true, none⟩
  bind := ⟨[], true⟩
  listen := some
    { starting := true
      rounds := []
      handling := .handler []
      clients := [some ⟨true, true, true, true⟩]
      found := true
      leftOpen := none }
  closing := []

end LockUse

end MSrv
