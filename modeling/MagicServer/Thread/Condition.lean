import MagicServer.Library.Machine
import MagicServer.Library.RecursiveLock
import MagicServer.Library.Threads
import Mathlib.Data.Fintype.Basic

/-!
# The condition variable of a lock

`ThreadLock::wait`, `signal` and `broadcast` of `msrvthread.cc`, called by any
number of threads. One action is one lock or unlock of the mutex, one read or
write of `mCondInited`, one call of a `pthread_cond` function, or a wake-up. The
condition variable is initialised by the first of the calls that finds it is not;
an invariant over the places of all threads shows that this happens once, under
the mutex and before any use.
-/

namespace MSrv

/-- A call of one of the three functions. -/
inductive CondCall where
  /-- `wait (seconds)`; it is timed when `seconds` is positive. -/
  | wait (timed : Bool)
  | signal
  | broadcast
  deriving DecidableEq

/-- Where a thread is. -/
inductive CondPc where
  | outside
  /-- About to call `lock()`. -/
  | locking (call : CondCall)
  /-- About to read `mCondInited`. -/
  | testing (call : CondCall)
  /-- In `initCond()`, about to read `mCondInited` once more. -/
  | retesting (call : CondCall)
  /-- About to call `pthread_cond_init`. -/
  | initing (call : CondCall)
  /-- About to set `mCondInited`. -/
  | marking (call : CondCall)
  /-- About to call `pthread_cond_wait` or `pthread_cond_timedwait`. -/
  | waiting (timed : Bool)
  /-- Asleep on the condition variable. -/
  | asleep (timed : Bool)
  /-- Awakened, and about to take the mutex again. -/
  | woken (timed : Bool)
  /-- About to call `unlock()`. -/
  | unlocking (call : CondCall)
  /-- About to call `pthread_cond_signal`. -/
  | signalling
  /-- About to call `pthread_cond_broadcast`. -/
  | broadcasting
  deriving DecidableEq

namespace CondPc

/-- The place after the initialisation. -/
def inited : CondCall → CondPc
  | .wait timed => .waiting timed
  | .signal => .unlocking .signal
  | .broadcast => .unlocking .broadcast

/-- The place after `unlock()`. -/
def unlocked : CondCall → CondPc
  | .wait _ => .outside
  | .signal => .signalling
  | .broadcast => .broadcasting

/-- The place of a thread that has been awakened if it was asleep. -/
def awaken : CondPc → CondPc
  | .asleep timed => .woken timed
  | pc => pc

/-- The thread sleeps on the condition variable. -/
def Asleep : CondPc → Prop
  | .asleep _ => True
  | .outside | .locking _ | .testing _ | .retesting _ | .initing _ | .marking _ | .waiting _
  | .woken _ | .unlocking _ | .signalling | .broadcasting => False

/-- The thread sleeps on the condition variable, or is about to sleep on it, to
signal it or to broadcast it. -/
def Uses : CondPc → Prop
  | .waiting _ | .asleep _ | .signalling | .broadcasting => True
  | .outside | .locking _ | .testing _ | .retesting _ | .initing _ | .marking _ | .woken _
  | .unlocking _ => False

instance : DecidablePred Asleep
  | .asleep _ => inferInstanceAs (Decidable True)
  | .outside | .locking _ | .testing _ | .retesting _ | .initing _ | .marking _ | .waiting _
  | .woken _ | .unlocking _ | .signalling | .broadcasting => inferInstanceAs (Decidable False)

end CondPc

/-- A `ThreadLock` and the threads that use it. -/
structure ThreadLock (Thread : Type*) where
  mThreadLock : RecursiveLock Thread
  mCondInited : Bool
  /-- How often `mThreadCond` has been initialised. -/
  inits : Nat
  pc : Thread → CondPc
  /-- How often a thread held the lock when it made its last call. -/
  found : Thread → Nat

namespace ThreadLock

variable {Thread : Type*} [DecidableEq Thread]

/-- Creates a mutually exclusive (mutex) thread lock. -/
def create : ThreadLock Thread where
  mThreadLock := .free
  mCondInited := false
  inits := 0
  pc _ := .outside
  found _ := 0

inductive Action (Thread : Type*) where
  /-- A thread calls `lock()` for itself. -/
  | lock (thread : Thread)
  | unlock (thread : Thread)
  | call (thread : Thread) (call : CondCall)
  /-- `lock()` inside a call. -/
  | enter (thread : Thread)
  | test (thread : Thread)
  | retest (thread : Thread)
  | init (thread : Thread)
  | mark (thread : Thread)
  /-- The thread goes to sleep, and the mutex is let go. -/
  | sleep (thread : Thread)
  /-- `pthread_cond_timedwait` refuses its time-out. -/
  | refuse (thread : Thread)
  /-- The thread awakes by itself, at its time-out or without a reason. -/
  | wake (thread : Thread)
  /-- The awakened thread takes the mutex again. -/
  | retake (thread : Thread)
  /-- `unlock()` inside a call. -/
  | leave (thread : Thread)
  /-- `pthread_cond_signal`, which wakes one sleeping thread if there is one. -/
  | signal (thread : Thread) (target : Option Thread)
  | broadcast (thread : Thread)

/-- The thread goes on at `pc`. -/
def go (state : ThreadLock Thread) (thread : Thread) (pc : CondPc) : ThreadLock Thread :=
  { state with pc := Function.update state.pc thread pc }

/-- `pthread_mutex_lock`; the thread goes on at `pc` when it has the mutex. -/
def acquire (state : ThreadLock Thread) (thread : Thread) (pc : CondPc) :
    Option (ThreadLock Thread) :=
  (state.mThreadLock.take thread).map fun lock => { state.go thread pc with mThreadLock := lock }

/-- `pthread_mutex_unlock`. -/
def letGo (state : ThreadLock Thread) (thread : Thread) (pc : CondPc) : ThreadLock Thread :=
  { state.go thread pc with mThreadLock := state.mThreadLock.release thread }

/-- The sleeping threads among these are awakened. -/
def rouse (state : ThreadLock Thread) (p : Thread → Prop) [DecidablePred p] : ThreadLock Thread :=
  { state with
    pc := fun thread => if p thread then (state.pc thread).awaken else state.pc thread }

/-- Whom `pthread_cond_signal` can wake. -/
def Hears [Fintype Thread] (state : ThreadLock Thread) : Option Thread → Prop
  | some target => (state.pc target).Asleep
  | none => ∀ thread, ¬ (state.pc thread).Asleep

instance [Fintype Thread] (state : ThreadLock Thread) : DecidablePred state.Hears
  | some target => inferInstanceAs (Decidable (state.pc target).Asleep)
  | none => inferInstanceAs (Decidable (∀ thread, ¬ (state.pc thread).Asleep))

/-- One step of one thread. No thread makes a call while it holds the lock. -/
def step [Fintype Thread] (state : ThreadLock Thread) :
    Action Thread → Option (ThreadLock Thread)
  | .lock thread =>
      match state.pc thread with
      | .outside => state.acquire thread .outside
      | _ => none
  | .unlock thread =>
      match state.pc thread with
      | .outside => some (state.letGo thread .outside)
      | _ => none
  | .call thread call =>
      match state.pc thread with
      | .outside =>
          if state.mThreadLock.count thread = 0 then
            some
              { state.go thread (.locking call) with
                found := Function.update state.found thread (state.mThreadLock.count thread) }
          else none
      | _ => none
  | .enter thread =>
      match state.pc thread with
      | .locking call => state.acquire thread (.testing call)
      | _ => none
  | .test thread =>
      match state.pc thread with
      | .testing call =>
          some (state.go thread (if state.mCondInited then .inited call else .retesting call))
      | _ => none
  | .retest thread =>
      match state.pc thread with
      | .retesting call =>
          some (state.go thread (if state.mCondInited then .inited call else .initing call))
      | _ => none
  | .init thread =>
      match state.pc thread with
      | .initing call => some { state.go thread (.marking call) with inits := state.inits + 1 }
      | _ => none
  | .mark thread =>
      match state.pc thread with
      | .marking call => some { state.go thread (.inited call) with mCondInited := true }
      | _ => none
  | .sleep thread =>
      match state.pc thread with
      | .waiting timed => some (state.letGo thread (.asleep timed))
      | _ => none
  | .refuse thread =>
      match state.pc thread with
      | .waiting true => some (state.go thread (.unlocking (.wait true)))
      | _ => none
  | .wake thread =>
      match state.pc thread with
      | .asleep timed => some (state.go thread (.woken timed))
      | _ => none
  | .retake thread =>
      match state.pc thread with
      | .woken timed => state.acquire thread (.unlocking (.wait timed))
      | _ => none
  | .leave thread =>
      match state.pc thread with
      | .unlocking call => some (state.letGo thread (.unlocked call))
      | _ => none
  | .signal thread target =>
      match state.pc thread with
      | .signalling =>
          if state.Hears target then
            some ((state.rouse fun t => some t = target).go thread .outside)
          else none
      | _ => none
  | .broadcast thread =>
      match state.pc thread with
      | .broadcasting => some ((state.rouse fun _ => True).go thread .outside)
      | _ => none

/-- Every interleaving of the threads is a run. -/
def machine (Thread : Type*) [DecidableEq Thread] [Fintype Thread] :
    Machine (ThreadLock Thread) (Action Thread) where
  step := step

/-! ## What one step can do -/

/-- The steps, each with the place it is taken from. -/
inductive Taken [Fintype Thread] (state : ThreadLock Thread) :
    Action Thread → ThreadLock Thread → Prop
  | lock {thread : Thread} {lock : RecursiveLock Thread} : state.pc thread = .outside →
      state.mThreadLock.take thread = some lock →
      Taken state (.lock thread) { state.go thread .outside with mThreadLock := lock }
  | unlock {thread : Thread} : state.pc thread = .outside →
      Taken state (.unlock thread) (state.letGo thread .outside)
  | call {thread : Thread} (call : CondCall) : state.pc thread = .outside →
      state.mThreadLock.count thread = 0 →
      Taken state (.call thread call)
        { state.go thread (.locking call) with
          found := Function.update state.found thread (state.mThreadLock.count thread) }
  | enter {thread : Thread} {call : CondCall} {lock : RecursiveLock Thread} :
      state.pc thread = .locking call → state.mThreadLock.take thread = some lock →
      Taken state (.enter thread) { state.go thread (.testing call) with mThreadLock := lock }
  | test {thread : Thread} {call : CondCall} : state.pc thread = .testing call →
      Taken state (.test thread)
        (state.go thread (if state.mCondInited then .inited call else .retesting call))
  | retest {thread : Thread} {call : CondCall} : state.pc thread = .retesting call →
      Taken state (.retest thread)
        (state.go thread (if state.mCondInited then .inited call else .initing call))
  | init {thread : Thread} {call : CondCall} : state.pc thread = .initing call →
      Taken state (.init thread) { state.go thread (.marking call) with inits := state.inits + 1 }
  | mark {thread : Thread} {call : CondCall} : state.pc thread = .marking call →
      Taken state (.mark thread) { state.go thread (.inited call) with mCondInited := true }
  | sleep {thread : Thread} {timed : Bool} : state.pc thread = .waiting timed →
      Taken state (.sleep thread) (state.letGo thread (.asleep timed))
  | refuse {thread : Thread} : state.pc thread = .waiting true →
      Taken state (.refuse thread) (state.go thread (.unlocking (.wait true)))
  | wake {thread : Thread} {timed : Bool} : state.pc thread = .asleep timed →
      Taken state (.wake thread) (state.go thread (.woken timed))
  | retake {thread : Thread} {timed : Bool} {lock : RecursiveLock Thread} :
      state.pc thread = .woken timed → state.mThreadLock.take thread = some lock →
      Taken state (.retake thread)
        { state.go thread (.unlocking (.wait timed)) with mThreadLock := lock }
  | leave {thread : Thread} {call : CondCall} : state.pc thread = .unlocking call →
      Taken state (.leave thread) (state.letGo thread (.unlocked call))
  | signal {thread : Thread} {target : Option Thread} : state.pc thread = .signalling →
      state.Hears target →
      Taken state (.signal thread target)
        ((state.rouse fun t => some t = target).go thread .outside)
  | broadcast {thread : Thread} : state.pc thread = .broadcasting →
      Taken state (.broadcast thread) ((state.rouse fun _ => True).go thread .outside)

section Steps

variable [Fintype Thread] {state next : ThreadLock Thread} {action : Action Thread}

theorem taken_of_step (taken : (machine Thread).step state action = some next) :
    Taken state action next := by
  change state.step action = some next at taken
  cases action with
  | lock thread | enter thread | retake thread =>
      cases here : state.pc thread <;>
        simp only [step, here, reduceCtorEq, acquire, Option.map_eq_some_iff] at taken
      obtain ⟨lock, held, rfl⟩ := taken
      constructor <;> assumption
  | call thread call =>
      cases here : state.pc thread <;> simp only [step, here, reduceCtorEq,
        Option.ite_none_right_eq_some, Option.some.injEq] at taken
      obtain ⟨unheld, rfl⟩ := taken
      exact .call call here unheld
  | signal thread target =>
      cases here : state.pc thread <;> simp only [step, here, reduceCtorEq,
        Option.ite_none_right_eq_some, Option.some.injEq] at taken
      obtain ⟨hears, rfl⟩ := taken
      exact .signal here hears
  | refuse thread =>
      cases here : state.pc thread with
      | waiting timed =>
          cases timed <;> simp only [step, here, reduceCtorEq, Option.some.injEq] at taken
          subst taken
          exact .refuse here
      | _ => simp only [step, here, reduceCtorEq] at taken
  | _ thread =>
      cases here : state.pc thread <;>
        simp only [step, here, reduceCtorEq, Option.some.injEq] at taken
      subst taken
      constructor
      exact here

end Steps

/-! ## The condition variable is initialised once -/

/-- What holds of a thread at its place, with how often it holds the mutex now
and did at its call, and with what has become of the condition variable. -/
def Keeps (count found : Nat) (inited : Bool) (inits : Nat) : CondPc → Prop
  | .outside => True
  | .locking _ => count = 0 ∧ found = 0
  | .testing _ => count = 1 ∧ found = 0
  | .retesting _ | .initing _ => count = 1 ∧ found = 0 ∧ inited = false ∧ inits = 0
  | .marking _ => count = 1 ∧ found = 0 ∧ inited = false ∧ inits = 1
  | .waiting _ | .unlocking _ => count = 1 ∧ found = 0 ∧ inited = true
  | .asleep _ | .woken _ | .signalling | .broadcasting => count = 0 ∧ found = 0 ∧ inited = true

/-- A thread has initialised the condition variable and not yet said so. -/
def Marking (state : ThreadLock Thread) (thread : Thread) : Prop :=
  ∃ call, state.pc thread = .marking call

/-- The invariant: every thread keeps its part, and `mCondInited` tells whether
the condition variable is initialised unless a thread is about to set it. -/
structure Coherent (state : ThreadLock Thread) : Prop where
  places : ∀ thread, Keeps (state.mThreadLock.count thread) (state.found thread)
    state.mCondInited state.inits (state.pc thread)
  settled : (∀ thread, ¬ state.Marking thread) → state.inits = state.mCondInited.toNat

variable {state next : ThreadLock Thread} {thread : Thread} {pc : CondPc}

theorem coherent_create : (create : ThreadLock Thread).Coherent where
  places _ := trivial
  settled _ := rfl

theorem Coherent.place (coherent : state.Coherent) (here : state.pc thread = pc) :
    Keeps (state.mThreadLock.count thread) (state.found thread) state.mCondInited state.inits pc :=
  here ▸ coherent.places thread

/-- When one thread moves, it has to keep its part at the new place, and the
others theirs at their places. -/
theorem places_update {count found : Thread → Nat} {inited : Bool} {inits : Nat}
    (others : ∀ other, other ≠ thread →
      Keeps (count other) (found other) inited inits (state.pc other))
    (place : Keeps (count thread) (found thread) inited inits pc) (other : Thread) :
    Keeps (count other) (found other) inited inits (Function.update state.pc thread pc other) := by
  by_cases same : other = thread
  · subst same
    rwa [Function.update_self]
  · rw [Function.update_of_ne same]
    exact others other same

/-- A step of one thread that leaves the condition variable and the others as they are. -/
theorem Coherent.move {before : CondPc} (coherent : state.Coherent)
    (here : state.pc thread = before) (unmarked : ∀ call, before ≠ .marking call)
    (pcs : next.pc = Function.update state.pc thread pc)
    (inited : next.mCondInited = state.mCondInited) (inits : next.inits = state.inits)
    (others : ∀ other, other ≠ thread →
      next.mThreadLock.count other = state.mThreadLock.count other ∧
        next.found other = state.found other)
    (place : Keeps (next.mThreadLock.count thread) (next.found thread) state.mCondInited
      state.inits pc) : next.Coherent where
  places := by
    rw [pcs, inited, inits]
    refine places_update (fun other different => ?_) place
    rw [(others other different).1, (others other different).2]
    exact coherent.places other
  settled none_marks := by
    rw [inited, inits]
    apply coherent.settled
    rintro other ⟨call, marking⟩
    by_cases same : other = thread
    · subst same
      exact unmarked call (here.symm.trans marking)
    · exact none_marks other ⟨call, by rw [pcs, Function.update_of_ne same, marking]⟩

theorem Coherent.go {before : CondPc} (coherent : state.Coherent)
    (here : state.pc thread = before) (unmarked : ∀ call, before ≠ .marking call)
    (place : Keeps (state.mThreadLock.count thread) (state.found thread) state.mCondInited
      state.inits pc) : (state.go thread pc).Coherent :=
  coherent.move here unmarked rfl rfl rfl (fun _ _ => ⟨rfl, rfl⟩) place

theorem Coherent.acquire {before : CondPc} {lock : RecursiveLock Thread}
    (coherent : state.Coherent) (here : state.pc thread = before)
    (unmarked : ∀ call, before ≠ .marking call) (held : state.mThreadLock.take thread = some lock)
    (place : Keeps (state.mThreadLock.count thread + 1) (state.found thread) state.mCondInited
      state.inits pc) : Coherent { state.go thread pc with mThreadLock := lock } := by
  refine coherent.move here unmarked rfl rfl rfl (fun other different => ⟨?_, rfl⟩) ?_
  · exact RecursiveLock.count_take_of_ne held different
  · rw [← RecursiveLock.count_take held] at place
    exact place

theorem Coherent.letGo {before : CondPc} (coherent : state.Coherent)
    (here : state.pc thread = before) (unmarked : ∀ call, before ≠ .marking call)
    (place : Keeps (state.mThreadLock.count thread - 1) (state.found thread) state.mCondInited
      state.inits pc) : (state.letGo thread pc).Coherent := by
  refine coherent.move here unmarked rfl rfl rfl (fun other different => ⟨?_, rfl⟩) ?_
  · exact RecursiveLock.count_release_of_ne _ different
  · rw [← RecursiveLock.count_release] at place
    exact place

/-- A thread that does not hold the mutex and has not yet looked at the
condition variable keeps its part whatever becomes of it. -/
theorem Keeps.of_uninited {found inits inits' : Nat} {inited' : Bool}
    (keeps : Keeps 0 found false inits pc) : Keeps 0 found inited' inits' pc := by
  cases pc with
  | outside => trivial
  | locking => exact keeps
  | _ => simp [Keeps] at keeps

/-- Being awakened changes nothing in what a thread keeps. -/
theorem Keeps.awaken {count found inits : Nat} {inited : Bool}
    (keeps : Keeps count found inited inits pc) : Keeps count found inited inits pc.awaken := by
  cases pc <;> exact keeps

theorem Coherent.rouse (coherent : state.Coherent) (p : Thread → Prop) [DecidablePred p] :
    (state.rouse p).Coherent where
  places other := by
    change Keeps _ _ _ _ (if p other then _ else _)
    split_ifs
    · exact (coherent.places other).awaken
    · exact coherent.places other
  settled none_marks := by
    apply coherent.settled
    rintro other ⟨call, marking⟩
    refine none_marks other ⟨call, ?_⟩
    change (if p other then _ else _) = _
    rw [marking]
    split_ifs <;> rfl

omit [DecidableEq Thread] in
/-- Who is not asleep is not awakened. -/
theorem rouse_pc {p : Thread → Prop} [DecidablePred p] (here : state.pc thread = pc)
    (awake : ¬ pc.Asleep) : (state.rouse p).pc thread = pc := by
  change (if p thread then (state.pc thread).awaken else state.pc thread) = pc
  rw [here]
  split_ifs
  · cases pc with
    | asleep => exact absurd trivial awake
    | _ => rfl
  · rfl

/-- A thread that holds the mutex at a place that keeps it so has the condition
variable to itself. -/
theorem Coherent.uninited_others (coherent : state.Coherent)
    (held : state.mThreadLock.count thread = 1) (uninited : state.mCondInited = false)
    (inited' : Bool) (inits' : Nat) {other : Thread} (different : other ≠ thread) :
    Keeps (state.mThreadLock.count other) (state.found other) inited' inits' (state.pc other) := by
  have place := coherent.places other
  rw [RecursiveLock.count_eq_zero_of_ne (by rw [held]; decide) different, uninited] at place
  rw [RecursiveLock.count_eq_zero_of_ne (by rw [held]; decide) different]
  exact place.of_uninited

theorem keeps_inited {count found inits : Nat} (count_one : count = 1) (found_zero : found = 0)
    (call : CondCall) : Keeps count found true inits (.inited call) := by
  cases call <;> exact ⟨count_one, found_zero, rfl⟩

/-- While a thread holds the mutex at another place, no thread is about to set `mCondInited`. -/
theorem Coherent.inits_eq (coherent : state.Coherent) (here : state.pc thread = pc)
    (unmarked : ∀ call, pc ≠ .marking call) (held : state.mThreadLock.count thread = 1) :
    state.inits = state.mCondInited.toNat := by
  apply coherent.settled
  rintro other ⟨call, marking⟩
  have place := coherent.place marking
  by_cases same : other = thread
  · subst same
    exact unmarked call (here.symm.trans marking)
  · have unheld := RecursiveLock.count_eq_zero_of_ne (by rw [held]; decide) same
    rw [unheld] at place
    exact absurd place.1 (by decide)

theorem Coherent.once (coherent : state.Coherent) : state.inits ≤ 1 := by
  by_cases marks : ∃ thread, state.Marking thread
  · obtain ⟨thread, call, marking⟩ := marks
    have place := coherent.place marking
    exact place.2.2.2.le
  · rw [coherent.settled (not_exists.mp marks)]
    exact Bool.toNat_le _

/-- Once `mCondInited` is set the condition variable is initialised. -/
theorem Coherent.inits_of_inited (coherent : state.Coherent) (inited : state.mCondInited = true) :
    state.inits = 1 := by
  have settled := coherent.settled
  rw [inited] at settled
  apply settled
  rintro thread ⟨call, marking⟩
  have place := coherent.place marking
  rw [inited] at place
  exact absurd place.2.2.1 (by decide)

/-- A thread that uses the condition variable has found it initialised. -/
theorem Keeps.inited {count found inits : Nat} {inited : Bool}
    (keeps : Keeps count found inited inits pc) (uses : pc.Uses) : inited = true := by
  cases pc with
  | waiting | asleep | signalling | broadcasting => exact keeps.2.2
  | _ => exact uses.elim

/-- A thread is outside after a step only if it was before, or if it is the one
that moves there. -/
theorem outside_of_update {moved : Thread} (inside : state.pc thread ≠ .outside)
    (returned : Function.update state.pc moved pc thread = .outside) :
    thread = moved ∧ pc = .outside := by
  have moves := Threads.of_update (p := fun (_ : Thread) (pc : CondPc) => pc = .outside) returned
  rcases moves with here | ⟨_, outside⟩
  · exact here
  · exact absurd outside inside

omit [DecidableEq Thread] in
theorem rouse_outside {p : Thread → Prop} [DecidablePred p]
    (outside : (state.rouse p).pc thread = .outside) : state.pc thread = .outside := by
  change (if p thread then (state.pc thread).awaken else state.pc thread) = .outside at outside
  split_ifs at outside
  · cases here : state.pc thread <;> simp [here, CondPc.awaken] at outside ⊢
  · exact outside

variable [Fintype Thread] {action : Action Thread}

theorem Coherent.step (coherent : state.Coherent)
    (taken : (machine Thread).step state action = some next) : next.Coherent := by
  cases taken_of_step taken with
  | lock here held => exact coherent.acquire here nofun held trivial
  | unlock here => exact coherent.letGo here nofun trivial
  | call call here unheld =>
      refine coherent.move here nofun rfl rfl rfl (fun other different => ⟨rfl, ?_⟩) ?_
      · exact Function.update_of_ne different ..
      · exact ⟨unheld, (Function.update_self ..).trans unheld⟩
  | @enter thread call lock here held =>
      obtain ⟨count, found⟩ := coherent.place here
      exact coherent.acquire here nofun held ⟨by rw [count], found⟩
  | @test thread call here =>
      obtain ⟨count, found⟩ := coherent.place here
      have settled := coherent.inits_eq here nofun count
      refine coherent.go here nofun ?_
      cases inited : state.mCondInited with
      | true => exact keeps_inited count found call
      | false => exact ⟨count, found, rfl, by rw [settled, inited]; rfl⟩
  | @retest thread call here =>
      obtain ⟨count, found, uninited, inits⟩ := coherent.place here
      refine coherent.go here nofun ?_
      rw [uninited]
      exact ⟨count, found, rfl, inits⟩
  | @init thread call here =>
      obtain ⟨count, found, uninited, inits⟩ := coherent.place here
      constructor
      · refine places_update (fun other => coherent.uninited_others count uninited _ _) ?_
        exact ⟨count, found, uninited, congrArg (· + 1) inits⟩
      · intro none_marks
        exact absurd ⟨call, Function.update_self ..⟩ (none_marks thread)
  | @mark thread call here =>
      obtain ⟨count, found, uninited, inits⟩ := coherent.place here
      constructor
      · refine places_update (fun other => coherent.uninited_others count uninited _ _) ?_
        exact keeps_inited count found call
      · intro _
        exact inits
  | @sleep thread timed here =>
      obtain ⟨count, found, inited⟩ := coherent.place here
      exact coherent.letGo here nofun ⟨by rw [count], found, inited⟩
  | @refuse thread here =>
      have place := coherent.place here
      exact coherent.go here nofun place
  | @wake thread timed here =>
      have place := coherent.place here
      exact coherent.go here nofun place
  | @retake thread timed lock here held =>
      obtain ⟨count, found, inited⟩ := coherent.place here
      exact coherent.acquire here nofun held ⟨by rw [count], found, inited⟩
  | @leave thread call here =>
      obtain ⟨count, found, inited⟩ := coherent.place here
      refine coherent.letGo here nofun ?_
      cases call with
      | wait => trivial
      | _ => exact ⟨by rw [count], found, inited⟩
  | signal here =>
      exact (coherent.rouse _).go (rouse_pc here id) nofun trivial
  | broadcast here =>
      exact (coherent.rouse _).go (rouse_pc here id) nofun trivial

/-! ## What follows for the calls -/

/-- What the three functions promise each other. -/
structure Lawful (state : ThreadLock Thread) : Prop where
  once : state.inits ≤ 1
  before : ∀ thread, (state.pc thread).Uses → state.inits = 1
  apart : ∀ thread call, state.pc thread = .initing call → ∀ sleeper,
    ¬ (state.pc sleeper).Asleep
  /-- A call returns with the mutex held as often as it was at the call. -/
  returns : ∀ action next, (machine Thread).step state action = some next → ∀ thread,
    state.pc thread ≠ .outside → next.pc thread = .outside →
    next.mThreadLock.count thread = next.found thread

theorem Coherent.returns (coherent : state.Coherent)
    (taken : (machine Thread).step state action = some next) (inside : state.pc thread ≠ .outside)
    (returned : next.pc thread = .outside) :
    next.mThreadLock.count thread = next.found thread := by
  cases taken_of_step taken with
  | lock here | unlock here =>
      obtain ⟨rfl, _⟩ := outside_of_update inside returned
      exact absurd here inside
  | call _ here | enter here | init here | sleep here | refuse here | wake here | retake here =>
      cases (outside_of_update inside returned).2
  | @mark thread call here =>
      obtain ⟨_, same⟩ := outside_of_update inside returned
      cases call <;> cases same
  | @test thread call here | @retest thread call here =>
      obtain ⟨_, same⟩ := outside_of_update inside returned
      split_ifs at same
      cases call <;> cases same
  | @leave moved call here =>
      obtain ⟨rfl, same⟩ := outside_of_update inside returned
      obtain ⟨count, found, _⟩ := coherent.place here
      change (state.mThreadLock.release thread).count thread = state.found thread
      rw [RecursiveLock.count_release, count, found]
  | signal here | broadcast here =>
      obtain ⟨rfl, _⟩ := outside_of_update (fun outside => inside (rouse_outside outside)) returned
      have place := coherent.place here
      exact place.1.trans place.2.1.symm

theorem Coherent.lawful (coherent : state.Coherent) : state.Lawful where
  once := coherent.once
  before thread uses := coherent.inits_of_inited ((coherent.places thread).inited uses)
  apart thread call here sleeper asleep := by
    have place := coherent.place here
    have inited : state.mCondInited = true := by
      apply (coherent.places sleeper).inited
      revert asleep
      cases state.pc sleeper <;> simp [CondPc.Asleep, CondPc.Uses]
    rw [place.2.2.1] at inited
    cases inited
  returns _ _ taken _ inside returned := coherent.returns taken inside returned

/-- In every state that any number of threads reach in any order of their steps,
the condition variable has been initialised at most once, by no thread while
another sleeps on it, and before any thread uses it; and a call returns with the
mutex held as often as it was at the call. -/
theorem lawful_of_reachable (reached : (machine Thread).Reachable create state) : state.Lawful := by
  have coherent : state.Coherent :=
    reached.invariant Coherent (fun _ _ _ coherent => coherent.step) coherent_create
  exact coherent.lawful

/-- The first thread goes to sleep, the second one wakes it, and both return. -/
def awakened : List (Action (Fin 2)) :=
  [.call 0 (.wait false), .enter 0, .test 0, .retest 0, .init 0, .mark 0, .sleep 0,
    .call 1 .signal, .enter 1, .test 1, .leave 1, .signal 1 (some 0), .retake 0, .leave 0]

theorem lawful_of_reachable_awakened :
    ∃ state, (machine (Fin 2)).run create awakened = some state ∧ state.inits = 1 ∧
      (∀ thread, state.pc thread = .outside) ∧ state.Lawful :=
  ⟨_, rfl, rfl, by decide, lawful_of_reachable ⟨awakened, rfl⟩⟩

end ThreadLock

end MSrv
