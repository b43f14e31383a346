import MagicServer.Library.Machine
import MagicServer.Library.RecursiveLock
import MagicServer.Library.Threads
import Mathlib.Data.Finset.Max
import Mathlib.Data.Fintype.Prod

/-!
# Threads that take locks in an order

Threads with nothing left of their programs but what they do with the locks and
with each other: take a lock, let one go, sleep on the condition of a lock until
a wake-up, wake others, wait for the end of a thread. A thread follows an order
when it takes a new lock only above all that it holds, lets go only of what it
holds, falls asleep only on the one lock that it holds, and waits only for
threads above it and with no lock held. Threads that all follow one order never
block each other by their locks: where none can move, no lock is held and each
has finished, or sleeps, or waits for one that does. A lock that a thread keeps
at its end blocks every other thread that comes to it, for good.
-/

/-- What a thread does with the locks and with the other threads. -/
inductive LockAct (Thread Lock : Type*) where
  | acquire (lock : Lock)
  | release (lock : Lock)
  /-- Let the lock go and fall asleep on its condition. -/
  | await (lock : Lock)
  /-- Asleep on the condition of the lock until a wake-up. -/
  | sleep (lock : Lock)
  /-- Wake one of those who sleep on the condition of the lock. -/
  | signal (lock : Lock)
  /-- Wake all of them. -/
  | broadcast (lock : Lock)
  /-- Wait until the thread has finished. -/
  | join (thread : Thread)
  deriving DecidableEq

/-- What a thread does next. -/
inductive LockMove (Thread : Type*) where
  /-- It does its next act. -/
  | go (thread : Thread)
  /-- It signals, and the other one wakes. -/
  | rouse (thread other : Thread)
  /-- It wakes although nobody has signalled. -/
  | wake (thread : Thread)
  deriving DecidableEq

/-- The locks, and what each thread has still to do. -/
structure Locking (Thread Lock : Type*) where
  locks : Lock → RecursiveLock Thread
  todo : Thread → List (LockAct Thread Lock)

/-- The order in which locks are taken, and the one in which threads are waited for. -/
structure LockOrder (Thread Lock : Type*) where
  lock : Lock → Nat
  thread : Thread → Nat

/-- The thread that moves. -/
def LockMove.mover {Thread : Type*} : LockMove Thread → Thread
  | go thread | rouse thread _ | wake thread => thread

namespace LockAct

variable {Thread Lock : Type*} [DecidableEq Lock]

/-- How often a lock is held after the act that was held `count` times before it. -/
def tally (lock : Lock) (count : Nat) : LockAct Thread Lock → Nat
  | acquire other => if other = lock then count + 1 else count
  | release other | await other => if other = lock then count - 1 else count
  | sleep _ | signal _ | broadcast _ | join _ => count

/-- What a thread holds of each lock after the act. -/
def after (held : Lock → Nat) (act : LockAct Thread Lock) (lock : Lock) : Nat :=
  act.tally lock (held lock)

/-- An act that the order allows to a thread that holds so much of each lock. -/
def Allowed (order : LockOrder Thread Lock) (self : Thread) (held : Lock → Nat) :
    LockAct Thread Lock → Prop
  | acquire lock => 0 < held lock ∨ ∀ other, 0 < held other → order.lock other < order.lock lock
  | release lock => 0 < held lock
  | await lock => ∀ other, held other = if other = lock then 1 else 0
  | sleep _ => ∀ lock, held lock = 0
  | signal _ | broadcast _ => True
  | join thread => order.thread self < order.thread thread ∧ ∀ lock, held lock = 0

/-- The thread that holds `held` follows the order in all these acts and holds
`final` after them. -/
def Follows (order : LockOrder Thread Lock) (self : Thread) :
    (Lock → Nat) → List (LockAct Thread Lock) → (Lock → Nat) → Prop
  | held, [], final => final = held
  | held, act :: rest, final =>
      act.Allowed order self held ∧ Follows order self (after held act) rest final

/-- The act takes the lock. -/
def takes (lock : Lock) : LockAct Thread Lock → Bool
  | acquire other => other = lock
  | _ => false

/-- The act lets the lock go. -/
def gives (lock : Lock) : LockAct Thread Lock → Bool
  | release other | await other => other = lock
  | _ => false

/-- How often the lock is taken. -/
def acquires (lock : Lock) (acts : List (LockAct Thread Lock)) : Nat := acts.countP (takes lock)

/-- How often the lock is let go. -/
def releases (lock : Lock) (acts : List (LockAct Thread Lock)) : Nat := acts.countP (gives lock)

/-- The acts without the sleep on the condition of the lock that they may begin with. -/
def roused [DecidableEq Thread] (lock : Lock) (acts : List (LockAct Thread Lock)) :
    List (LockAct Thread Lock) :=
  if acts.head? = some (sleep lock) then acts.tail else acts

/-- How much there is to do. To fall asleep leaves the sleep to be done. -/
def work : List (LockAct Thread Lock) → Nat
  | [] => 0
  | await _ :: rest => work rest + 2
  | _ :: rest => work rest + 1

omit [DecidableEq Lock] in
theorem work_lt_cons (act : LockAct Thread Lock) (rest : List (LockAct Thread Lock)) :
    work rest < work (act :: rest) := by
  cases act <;> simp only [work] <;> omega

variable {order : LockOrder Thread Lock} {self : Thread} {held middle final : Lock → Nat}
  {first second acts : List (LockAct Thread Lock)}

theorem Follows.append (before : Follows order self held first middle)
    (later : Follows order self middle second final) :
    Follows order self held (first ++ second) final := by
  induction first generalizing held with
  | nil =>
      cases before
      exact later
  | cons act rest ih => exact ⟨before.1, ih before.2⟩

/-- Acts that a thread can do while it holds nothing but locks it `may` hold, and
that let go of all they take. -/
def Balanced (order : LockOrder Thread Lock) (self : Thread) (may : Lock → Prop)
    (acts : List (LockAct Thread Lock)) : Prop :=
  ∀ held : Lock → Nat, (∀ lock, 0 < held lock → may lock) → Follows order self held acts held

variable {lock : Lock} {may : Lock → Prop}

theorem Balanced.nil : Balanced order self may [] := fun _ _ => rfl

theorem Balanced.append (before : Balanced order self may first)
    (later : Balanced order self may second) : Balanced order self may (first ++ second) :=
  fun held only => (before held only).append (later held only)

theorem Balanced.flatMap {α : Type*} {use : α → List (LockAct Thread Lock)} {parts : List α}
    (each : ∀ part ∈ parts, Balanced order self may (use part)) :
    Balanced order self may (parts.flatMap use) := by
  induction parts with
  | nil => exact .nil
  | cons part rest ih =>
      rw [List.flatMap_cons]
      exact (each part List.mem_cons_self).append
        (ih fun other member => each other (List.mem_cons_of_mem _ member))

/-- A lock is held around the acts, above all others that the thread may hold. -/
theorem Balanced.locked
    (above : ∀ other, may other → other = lock ∨ order.lock other < order.lock lock)
    (inside : Balanced order self (fun other => other = lock ∨ may other) acts) :
    Balanced order self may (acquire lock :: acts ++ [release lock]) := by
  intro held only
  have still : ∀ other, 0 < after held (acquire lock : LockAct Thread Lock) other →
      other = lock ∨ may other := by
    intro other holds
    by_cases same : lock = other
    · exact Or.inl same.symm
    · simp only [after, tally, same, if_false] at holds
      exact Or.inr (only other holds)
  refine ⟨?_, (inside _ still).append ⟨?_, funext fun other => ?_⟩⟩
  · by_cases again : 0 < held lock
    · exact Or.inl again
    · refine Or.inr fun other holds => (above other (only other holds)).resolve_left ?_
      rintro rfl
      exact again holds
  · simp only [Allowed, after, tally, if_true, Nat.succ_pos]
  · by_cases same : lock = other <;> simp [after, tally, same]

/-- A thread that has let go of everything waits for threads above it. -/
theorem follows_joins {threads : List Thread}
    (above : ∀ thread ∈ threads, order.thread self < order.thread thread)
    (nothing : ∀ lock, held lock = 0) : Follows order self held (threads.map join) held := by
  induction threads with
  | nil => rfl
  | cons thread rest ih =>
      exact ⟨⟨above thread List.mem_cons_self, nothing⟩,
        ih fun other member => above other (List.mem_cons_of_mem _ member)⟩

/-- A thread that holds nothing may sleep on the condition of a lock. -/
theorem follows_await (lock : Lock) (nothing : ∀ lock, held lock = 0) :
    Follows order self held [acquire lock, await lock, acquire lock, release lock] held := by
  have once : ∀ other, after held (acquire lock : LockAct Thread Lock) other =
      if other = lock then 1 else 0 := by
    intro other
    by_cases same : lock = other
    · simp only [after, tally, nothing, same, if_true]
    · simp only [after, tally, nothing, if_neg same, if_neg (Ne.symm same)]
  have given : after (after held (acquire lock : LockAct Thread Lock))
      (await lock : LockAct Thread Lock) = held := by
    funext other
    by_cases same : lock = other <;> simp [after, tally, same]
  refine ⟨Or.inr fun other holds => absurd (nothing other) holds.ne', once, ?_⟩
  rw [given]
  refine ⟨Or.inr fun other holds => absurd (nothing other) holds.ne', ?_, ?_⟩
  · simp only [Allowed, once, if_true, Nat.zero_lt_one]
  · funext other
    by_cases same : lock = other <;> simp [after, tally, same]

/-! ## What acts leave held -/

/-- The lock is never let go more often than it has been taken on top of `count`. -/
def Covered (lock : Lock) : Nat → List (LockAct Thread Lock) → Prop
  | _, [] => True
  | count, act :: rest => (act.gives lock → 0 < count) ∧ Covered lock (act.tally lock count) rest

/-- Acts after which a thread holds the lock as often as before, or more often,
and that never let go what was held before. -/
def Keeps (lock : Lock) (acts : List (LockAct Thread Lock)) : Prop :=
  ∀ count rest, Covered lock count rest → Covered lock count (acts ++ rest)

theorem tally_mono (lock : Lock) (act : LockAct Thread Lock) {count more : Nat}
    (le : count ≤ more) : act.tally lock count ≤ act.tally lock more := by
  cases act with
  | acquire other | release other | await other =>
      simp only [tally]
      split <;> omega
  | sleep | signal | broadcast | join => exact le

/-- What is held beyond `count` is still held after an act that `count` allows. -/
theorem tally_add {act : LockAct Thread Lock} {count more : Nat}
    (allowed : act.gives lock → 0 < count) :
    act.tally lock (count + more) = act.tally lock count + more := by
  cases act with
  | acquire other =>
      simp only [tally]
      split <;> omega
  | release other | await other =>
      simp only [tally]
      split
      · next same =>
          have positive := allowed (decide_eq_true same)
          omega
      · rfl
  | sleep | signal | broadcast | join => rfl

theorem Covered.mono {count more : Nat} (covered : Covered lock count acts)
    (le : count ≤ more) : Covered lock more acts := by
  induction acts generalizing count more with
  | nil => trivial
  | cons act rest ih =>
      exact ⟨fun same => (covered.1 same).trans_le le, ih covered.2 (tally_mono lock act le)⟩

theorem Keeps.nil : Keeps lock ([] : List (LockAct Thread Lock)) := fun _ _ covered => covered

theorem Keeps.append (before : Keeps lock first) (later : Keeps lock second) :
    Keeps lock (first ++ second) := by
  intro count rest covered
  rw [List.append_assoc]
  exact before count _ (later count rest covered)

theorem Keeps.flatMap {α : Type*} {use : α → List (LockAct Thread Lock)} {parts : List α}
    (each : ∀ part ∈ parts, Keeps lock (use part)) : Keeps lock (parts.flatMap use) := by
  induction parts with
  | nil => exact .nil
  | cons part rest ih =>
      rw [List.flatMap_cons]
      exact (each part List.mem_cons_self).append
        (ih fun other member => each other (List.mem_cons_of_mem _ member))

/-- An act that does not let the lock go, -/
theorem Keeps.of_gives {act : LockAct Thread Lock} (never : act.gives lock = false) :
    Keeps lock [act] := by
  intro count rest covered
  refine ⟨fun gives => absurd (never.symm.trans gives) Bool.false_ne_true, covered.mono ?_⟩
  cases act with
  | acquire other =>
      simp only [tally]
      split <;> omega
  | release other | await other =>
      simp only [tally, if_neg (of_decide_eq_false never), le_refl]
  | sleep | signal | broadcast | join => exact le_rfl

/-- holding one around the acts, -/
theorem Keeps.locked (inside : Keeps lock acts) (other : Lock) :
    Keeps lock (LockAct.acquire other :: acts ++ [release other]) := by
  intro count rest covered
  change Covered lock count (LockAct.acquire other :: (acts ++ [release other] ++ rest))
  rw [List.append_assoc]
  refine ⟨Bool.noConfusion, inside _ _ ⟨fun same => ?_, ?_⟩⟩
  · cases of_decide_eq_true same
    simp only [tally, if_true, Nat.succ_pos]
  · have given : (release other : LockAct Thread Lock).tally lock
        ((LockAct.acquire other : LockAct Thread Lock).tally lock count) = count := by
      by_cases same : other = lock <;> simp [tally, same]
    rw [given]
    exact covered

/-- and falling asleep on one. -/
theorem Keeps.await (other : Lock) :
    Keeps lock [acquire other, (LockAct.await other : LockAct Thread Lock)] := by
  intro count rest covered
  refine ⟨Bool.noConfusion, fun same => ?_, ?_⟩
  · cases of_decide_eq_true same
    simp only [tally, if_true, Nat.succ_pos]
  · have given : (LockAct.await other : LockAct Thread Lock).tally lock
        ((acquire other : LockAct Thread Lock).tally lock count) = count := by
      by_cases same : other = lock <;> simp [tally, same]
    rw [given]
    exact covered

theorem Keeps.joins (threads : List Thread) :
    Keeps lock (threads.map (join : Thread → LockAct Thread Lock)) := by
  induction threads with
  | nil => exact .nil
  | cons thread rest ih => exact (Keeps.of_gives rfl).append ih

/-- The parts of a program keep a lock that the whole keeps from its start. -/
theorem Keeps.covered (keeps : Keeps lock acts) : Covered lock 0 acts := by
  have whole := keeps 0 [] trivial
  rwa [List.append_nil] at whole

theorem acquires_cons (lock : Lock) (act : LockAct Thread Lock)
    (rest : List (LockAct Thread Lock)) :
    acquires lock (act :: rest) = acquires lock [act] + acquires lock rest := by
  rw [← List.singleton_append, acquires, List.countP_append]
  rfl

theorem releases_cons (lock : Lock) (act : LockAct Thread Lock)
    (rest : List (LockAct Thread Lock)) :
    releases lock (act :: rest) = releases lock [act] + releases lock rest := by
  rw [← List.singleton_append, releases, List.countP_append]
  rfl

/-- An act gives at least the difference, -/
theorem tally_ge (lock : Lock) (act : LockAct Thread Lock) (count : Nat) :
    count + acquires lock [act] ≤ act.tally lock count + releases lock [act] := by
  cases act with
  | acquire other | release other | await other =>
      by_cases same : other = lock <;> simp [acquires, releases, takes, gives, tally, same] <;>
        omega
  | sleep | signal | broadcast | join => simp [acquires, releases, takes, gives, tally]

/-- and no more, if it is allowed. -/
theorem tally_le {act : LockAct Thread Lock} {count : Nat}
    (allowed : act.gives lock → 0 < count) :
    act.tally lock count + releases lock [act] ≤ count + acquires lock [act] := by
  cases act with
  | acquire other =>
      by_cases same : other = lock <;> simp [acquires, releases, takes, gives, tally, same]
  | release other | await other =>
      by_cases same : other = lock
      · have positive := allowed (decide_eq_true same)
        simp [acquires, releases, takes, gives, tally, same]
        omega
      · simp [acquires, releases, takes, gives, tally, same]
  | sleep | signal | broadcast | join => simp [acquires, releases, takes, gives, tally]

/-- Acts that keep a lock let it go no more often than they take it. -/
theorem Covered.releases_le {count : Nat} (covered : Covered lock count acts) :
    releases lock acts ≤ count + acquires lock acts := by
  induction acts generalizing count with
  | nil => exact Nat.zero_le _
  | cons act rest ih =>
      have here := tally_le covered.1
      have later := ih covered.2
      rw [acquires_cons, releases_cons]
      omega

/-- What acts take more often than they let go, they do with a lock held around them. -/
theorem releases_locked_le {more : Nat} (extra : releases lock acts + more ≤ acquires lock acts)
    (other : Lock) :
    releases lock (acquire other :: acts ++ [release other]) + more ≤
      acquires lock (acquire other :: acts ++ [release other]) := by
  have same : releases lock [(release other : LockAct Thread Lock)] =
      acquires lock [(acquire other : LockAct Thread Lock)] := rfl
  have none_given : releases lock [(acquire other : LockAct Thread Lock)] = 0 := rfl
  rw [List.cons_append, acquires_cons, releases_cons, none_given]
  simp only [acquires, releases, List.countP_append] at extra same ⊢
  omega

/-- What one part takes more often than it lets go, the whole does. -/
theorem releases_add_le {α : Type*} {use : α → List (LockAct Thread Lock)} {parts : List α}
    {part : α} {more : Nat} (each : ∀ part ∈ parts, Keeps lock (use part)) (member : part ∈ parts)
    (extra : releases lock (use part) + more ≤ acquires lock (use part)) :
    releases lock (parts.flatMap use) + more ≤ acquires lock (parts.flatMap use) := by
  obtain ⟨before, later, rfl⟩ := List.append_of_mem member
  have kept : Keeps lock (before.flatMap use) :=
    .flatMap fun part member => each part (List.mem_append_left _ member)
  have kept' : Keeps lock (later.flatMap use) :=
    .flatMap fun part member => each part (List.mem_append_right _ (List.mem_cons_of_mem _ member))
  have first := kept.covered.releases_le
  have last := kept'.covered.releases_le
  rw [List.flatMap_append, List.flatMap_cons]
  simp only [acquires, releases, List.countP_append] at first last extra ⊢
  omega

end LockAct

namespace Locking

open LockAct

variable {Thread Lock : Type*}

/-- No lock is held, and each thread has its program before it. -/
def start (program : Thread → List (LockAct Thread Lock)) : Locking Thread Lock where
  locks _ := .free
  todo := program

variable [DecidableEq Thread] [DecidableEq Lock]

/-- The thread sleeps on the condition of the lock. -/
def Asleep (state : Locking Thread Lock) (lock : Lock) (thread : Thread) : Prop :=
  (state.todo thread).head? = some (.sleep lock)

instance (state : Locking Thread Lock) (lock : Lock) : DecidablePred (state.Asleep lock) :=
  fun thread => inferInstanceAs (Decidable ((state.todo thread).head? = some (.sleep lock)))

variable [Fintype Thread]

/-- One move of one thread; there is none while it has to wait. A signal wakes one
thread of those who sleep, if there are any. -/
def step (state : Locking Thread Lock) : LockMove Thread → Option (Locking Thread Lock)
  | .go thread =>
      match state.todo thread with
      | .acquire lock :: rest =>
          ((state.locks lock).take thread).map fun taken =>
            { locks := Function.update state.locks lock taken
              todo := Function.update state.todo thread rest }
      | .release lock :: rest =>
          some
            { locks := Function.update state.locks lock ((state.locks lock).release thread)
              todo := Function.update state.todo thread rest }
      | .await lock :: rest =>
          some
            { locks := Function.update state.locks lock ((state.locks lock).release thread)
              todo := Function.update state.todo thread (.sleep lock :: rest) }
      | .signal lock :: rest =>
          if ∀ other, ¬ state.Asleep lock other then
            some { state with todo := Function.update state.todo thread rest }
          else none
      | .broadcast lock :: rest =>
          some
            { state with
              todo := Function.update (fun other => roused lock (state.todo other)) thread rest }
      | .join other :: rest =>
          if state.todo other = [] then
            some { state with todo := Function.update state.todo thread rest }
          else none
      | _ => none
  | .rouse thread other =>
      match state.todo thread with
      | .signal lock :: rest =>
          if state.Asleep lock other then
            some
              { state with
                todo := Function.update
                  (Function.update state.todo other (roused lock (state.todo other))) thread rest }
          else none
      | _ => none
  | .wake thread =>
      match state.todo thread with
      | .sleep _ :: rest => some { state with todo := Function.update state.todo thread rest }
      | _ => none

def machine : Machine (Locking Thread Lock) (LockMove Thread) where
  step := step

/-- What a thread holds of each lock. -/
def held (state : Locking Thread Lock) (thread : Thread) (lock : Lock) : Nat :=
  (state.locks lock).count thread

/-- Every thread has finished and no lock is held. -/
def Over (state : Locking Thread Lock) : Prop :=
  (∀ thread, state.todo thread = []) ∧ ∀ lock, state.locks lock = .free

/-- No thread can move, unless it wakes without a signal. -/
def Stuck (state : Locking Thread Lock) : Prop :=
  ∀ thread, state.step (.go thread) = none ∧ ∀ other, state.step (.rouse thread other) = none

/-- The thread sleeps, or waits for the end of one that does. -/
inductive Idle (state : Locking Thread Lock) : Thread → Prop
  | asleep {thread : Thread} {lock : Lock} {rest : List (LockAct Thread Lock)} :
      state.todo thread = .sleep lock :: rest → Idle state thread
  | joining {thread other : Thread} {rest : List (LockAct Thread Lock)} :
      state.todo thread = .join other :: rest → Idle state other → Idle state thread

/-- No lock is held, and nobody waits but for a wake-up. -/
def AtRest (state : Locking Thread Lock) : Prop :=
  (∀ lock, state.locks lock = .free) ∧ ∀ thread, state.todo thread = [] ∨ state.Idle thread

variable {state next : Locking Thread Lock} {move : LockMove Thread} {thread mover : Thread}

/-- What a move is for one of the threads. -/
inductive Turn (state : Locking Thread Lock) (move : LockMove Thread)
    (next : Locking Thread Lock) (thread : Thread) : Prop
  /-- Nothing. -/
  | stays (bystander : thread ≠ move.mover) (todo : next.todo thread = state.todo thread)
      (held : next.held thread = state.held thread)
  /-- It has done its next act, or has been woken. -/
  | does {act : LockAct Thread Lock} {rest : List (LockAct Thread Lock)}
      (program : state.todo thread = act :: rest) (todo : next.todo thread = rest)
      (held : next.held thread = after (state.held thread) act)
      (free : ∀ lock, act = .acquire lock → ∀ other, other ≠ thread → state.held other lock = 0)
  /-- It has fallen asleep. -/
  | sleeps {lock : Lock} {rest : List (LockAct Thread Lock)}
      (program : state.todo thread = .await lock :: rest)
      (todo : next.todo thread = .sleep lock :: rest)
      (held : next.held thread = after (state.held thread) (.await lock : LockAct Thread Lock))

omit [Fintype Thread] in
/-- A thread changes one lock. -/
theorem held_update (mover : Thread) (act : LockAct Thread Lock)
    (todo : Thread → List (LockAct Thread Lock)) {lock : Lock} {changed : RecursiveLock Thread}
    (mine : changed.count mover = act.tally lock ((state.locks lock).count mover))
    (elsewhere : ∀ other, other ≠ lock → ∀ count, act.tally other count = count)
    (others : ∀ other, other ≠ mover → changed.count other = (state.locks lock).count other) :
    held ⟨Function.update state.locks lock changed, todo⟩ mover = after (state.held mover) act ∧
      ∀ other, other ≠ mover →
        held ⟨Function.update state.locks lock changed, todo⟩ other = state.held other := by
  refine ⟨funext fun other => ?_, fun bystander different => funext fun other => ?_⟩
  · by_cases same : other = lock
    · subst same
      simp only [held, after, Function.update_self, mine]
    · simp only [held, after, Function.update_of_ne same, elsewhere other same]
  · by_cases same : other = lock
    · subst same
      simp only [held, Function.update_self, others bystander different]
    · simp only [held, Function.update_of_ne same]

omit [Fintype Thread] in
theorem Asleep.roused {lock : Lock} (asleep : state.Asleep lock thread) :
    ∃ rest, state.todo thread = .sleep lock :: rest ∧ roused lock (state.todo thread) = rest := by
  obtain ⟨rest, program⟩ := List.head?_eq_some_iff.mp asleep
  refine ⟨rest, program, ?_⟩
  rw [program]
  exact if_pos rfl

omit [Fintype Thread] in
/-- Where the mover does its next act, and a thread that does not stay as it is wakes. -/
theorem turn_of_does {act : LockAct Thread Lock} {rest : List (LockAct Thread Lock)}
    (program : state.todo move.mover = act :: rest) (todo : next.todo move.mover = rest)
    (held : next.held move.mover = after (state.held move.mover) act)
    (free : ∀ lock, act = .acquire lock → ∀ other, other ≠ move.mover →
      state.held other lock = 0)
    (todos : ∀ other, other ≠ move.mover → next.todo other = state.todo other ∨
      ∃ lock, state.todo other = .sleep lock :: next.todo other)
    (helds : ∀ other, other ≠ move.mover → next.held other = state.held other) :
    Turn state move next thread := by
  by_cases same : thread = move.mover
  · subst same
    exact .does program todo held free
  · rcases todos thread same with kept | ⟨lock, sleeping⟩
    · exact .stays same kept (helds thread same)
    · exact .does sleeping rfl (helds thread same) fun _ wants => by cases wants

omit [Fintype Thread] in
/-- A thread whose program is changed by a signal has slept. -/
theorem roused_or_sleeping (lock : Lock) (thread : Thread) :
    roused lock (state.todo thread) = state.todo thread ∨
      ∃ asleep, state.todo thread = .sleep asleep :: roused lock (state.todo thread) := by
  by_cases asleep : state.Asleep lock thread
  · obtain ⟨rest, sleeping, woken⟩ := asleep.roused
    exact Or.inr ⟨lock, by rw [woken, sleeping]⟩
  · exact Or.inl (if_neg asleep)

/-- A step is a turn for each thread. -/
theorem turn_of_step (taken : machine.step state move = some next) (thread : Thread) :
    Turn state move next thread := by
  change state.step move = some next at taken
  cases move with
  | go mover =>
      cases program : state.todo mover with
      | nil => simp only [step, program, reduceCtorEq] at taken
      | cons act rest => ?_
      cases act with
      | acquire lock =>
          simp only [step, program, Option.map_eq_some_iff] at taken
          obtain ⟨locked, takes, rfl⟩ := taken
          obtain ⟨mine, others⟩ := held_update mover (.acquire lock)
            (Function.update state.todo mover rest)
            (by simp only [tally, if_true, RecursiveLock.count_take takes])
            (fun other different _ => if_neg (Ne.symm different))
            (fun _ different => RecursiveLock.count_take_of_ne takes different)
          refine turn_of_does program (Function.update_self ..) mine
            (fun wanted wants other different => ?_)
            (fun other different => Or.inl (Function.update_of_ne different ..)) others
          cases wants
          by_contra holds
          simp only [LockMove.mover] at different
          rw [RecursiveLock.take_eq_none holds different.symm] at takes
          cases takes
      | release lock =>
          simp only [step, program, Option.some.injEq] at taken
          subst taken
          obtain ⟨mine, others⟩ := held_update mover (.release lock)
            (Function.update state.todo mover rest)
            (by simp only [tally, if_true, RecursiveLock.count_release])
            (fun other different _ => if_neg (Ne.symm different))
            (fun _ different => RecursiveLock.count_release_of_ne _ different)
          exact turn_of_does program (Function.update_self ..) mine
            (fun _ wants => by cases wants)
            (fun other different => Or.inl (Function.update_of_ne different ..)) others
      | await lock =>
          simp only [step, program, Option.some.injEq] at taken
          subst taken
          obtain ⟨mine, others⟩ := held_update mover (.await lock)
            (Function.update state.todo mover (.sleep lock :: rest))
            (by simp only [tally, if_true, RecursiveLock.count_release])
            (fun other different _ => if_neg (Ne.symm different))
            (fun _ different => RecursiveLock.count_release_of_ne _ different)
          by_cases same : thread = mover
          · subst same
            exact .sleeps program (Function.update_self ..) mine
          · exact .stays same (Function.update_of_ne same ..) (others thread same)
      | sleep lock => simp only [step, program, reduceCtorEq] at taken
      | signal lock =>
          simp only [step, program, Option.ite_none_right_eq_some, Option.some.injEq] at taken
          obtain ⟨_, rfl⟩ := taken
          exact turn_of_does program (Function.update_self ..) rfl (fun _ wants => by cases wants)
            (fun other different => Or.inl (Function.update_of_ne different ..))
            (fun _ _ => rfl)
      | broadcast lock =>
          simp only [step, program, Option.some.injEq] at taken
          subst taken
          refine turn_of_does program ?_ rfl (fun _ wants => by cases wants)
            (fun other different => ?_) (fun _ _ => rfl)
          · simp only [LockMove.mover, Function.update_self]
          · simp only [LockMove.mover] at different
            simp only [Function.update_of_ne different]
            exact roused_or_sleeping lock other
      | join other =>
          simp only [step, program, Option.ite_none_right_eq_some, Option.some.injEq] at taken
          obtain ⟨_, rfl⟩ := taken
          exact turn_of_does program (Function.update_self ..) rfl (fun _ wants => by cases wants)
            (fun other different => Or.inl (Function.update_of_ne different ..))
            (fun _ _ => rfl)
  | rouse mover sleeper =>
      simp only [step] at taken
      split at taken
      · next lock rest program =>
          obtain ⟨asleep, same⟩ := Option.ite_none_right_eq_some.mp taken
          cases same
          refine turn_of_does program (Function.update_self ..) rfl (fun _ wants => by cases wants)
            (fun other different => ?_) (fun _ _ => rfl)
          simp only [LockMove.mover] at different
          simp only [Function.update_of_ne different]
          by_cases woken : other = sleeper
          · subst woken
            rw [Function.update_self]
            exact roused_or_sleeping lock other
          · exact Or.inl (Function.update_of_ne woken ..)
      · cases taken
  | wake mover =>
      simp only [step] at taken
      split at taken
      · next lock rest program =>
          cases taken
          exact turn_of_does program (Function.update_self ..) rfl (fun _ wants => by cases wants)
            (fun other different => Or.inl (Function.update_of_ne different ..))
            (fun _ _ => rfl)
      · cases taken

/-- Where a thread has something to do and cannot do it, another one holds the
lock, or it sleeps, or the thread it waits for has not finished. -/
theorem waits {act : LockAct Thread Lock} {rest : List (LockAct Thread Lock)}
    (program : state.todo thread = act :: rest) (stuck : state.Stuck) :
    (∃ lock other, act = .acquire lock ∧ other ≠ thread ∧ 0 < state.held other lock) ∨
      (∃ lock, act = .sleep lock) ∨ ∃ other, act = .join other ∧ state.todo other ≠ [] := by
  obtain ⟨waiting, unheard⟩ := stuck thread
  cases act with
  | acquire lock =>
      simp only [step, program, Option.map_eq_none_iff] at waiting
      obtain ⟨⟨_ | ⟨holder, again⟩⟩, here⟩ : ∃ own, own = state.locks lock := ⟨_, rfl⟩
      · rw [← here] at waiting
        cases waiting
      · rw [← here] at waiting
        refine Or.inl ⟨lock, holder, rfl, ?_, ?_⟩
        · rintro rfl
          simp only [RecursiveLock.take, if_true, reduceCtorEq] at waiting
        · simp only [held, ← here, RecursiveLock.count, if_true, Nat.succ_pos]
  | release lock | await lock | broadcast lock =>
      simp only [step, program, reduceCtorEq] at waiting
  | sleep lock => exact Or.inr (Or.inl ⟨lock, rfl⟩)
  | signal lock =>
      simp only [step, program, ite_eq_right_iff, reduceCtorEq, imp_false, not_forall,
        not_not] at waiting
      obtain ⟨other, asleep⟩ := waiting
      have heard := unheard other
      simp only [step, program, if_pos asleep, reduceCtorEq] at heard
  | join other =>
      simp only [step, program, ite_eq_right_iff, reduceCtorEq, imp_false] at waiting
      exact Or.inr (Or.inr ⟨other, rfl, waiting⟩)

/-! ## Threads that follow one order -/

/-- Each thread follows the order in what it has to do, and lets go of all it holds. -/
def Ordered (order : LockOrder Thread Lock) (state : Locking Thread Lock) : Prop :=
  ∀ thread, Follows order thread (state.held thread) (state.todo thread) fun _ => 0

variable {order : LockOrder Thread Lock}

theorem Ordered.step (ordered : state.Ordered order)
    (taken : machine.step state move = some next) : next.Ordered order := by
  intro thread
  have follows := ordered thread
  cases turn_of_step taken thread with
  | stays _ todo held =>
      rw [todo, held]
      exact follows
  | does program todo held =>
      rw [program] at follows
      rw [todo, held]
      exact follows.2
  | @sleeps lock rest program todo held =>
      rw [program] at follows
      rw [todo, held]
      refine ⟨fun other => ?_, follows.2⟩
      have once : state.held thread other = if other = lock then 1 else 0 := follows.1 other
      by_cases same : lock = other
      · simp only [after, tally, once, if_pos same, if_pos same.symm]
      · simp only [after, tally, once, if_neg same, if_neg (Ne.symm same)]

omit [Fintype Thread] in
/-- Who holds a lock has not finished. -/
theorem Ordered.unfinished (ordered : state.Ordered order) {lock : Lock}
    (holds : 0 < state.held thread lock) : state.todo thread ≠ [] := by
  intro finished
  have follows := ordered thread
  rw [finished] at follows
  exact absurd (congrFun follows lock) holds.ne

omit [DecidableEq Lock] [Fintype Thread] in
/-- A lock that nobody holds is free. -/
theorem free_of_held {lock : Lock} (nobody : ∀ thread, state.held thread lock = 0) :
    state.locks lock = .free := by
  obtain ⟨⟨_ | ⟨holder, again⟩⟩, here⟩ : ∃ own, own = state.locks lock := ⟨_, rfl⟩
  · exact here.symm
  · have none_held := nobody holder
    simp only [held, ← here, RecursiveLock.count, if_true, Nat.succ_ne_zero] at none_held

/-- While a lock is held, the holder of the highest one can move. -/
theorem Ordered.holder_moves [Fintype Lock] (ordered : state.Ordered order) {lock : Lock}
    (holds : 0 < state.held thread lock) : ¬ state.Stuck := by
  intro stuck
  obtain ⟨⟨holder, highest⟩, held, maximal⟩ := Finset.exists_max_image
    (Finset.univ.filter fun pair : Thread × Lock => 0 < state.held pair.1 pair.2)
    (fun pair => order.lock pair.2) ⟨(thread, lock), by simpa using holds⟩
  simp only [Finset.mem_filter, Finset.mem_univ, true_and] at held maximal
  obtain ⟨act, rest, program⟩ := List.exists_cons_of_ne_nil (ordered.unfinished held)
  have allowed := ordered holder
  rw [program] at allowed
  rcases waits program stuck with ⟨wanted, other, rfl, different, taken⟩ | ⟨_, rfl⟩ |
    ⟨other, rfl, unfinished⟩
  · rcases allowed.1 with own | above
    · exact absurd own
        (RecursiveLock.count_eq_zero_of_ne taken.ne' different.symm).not_gt
    · exact absurd (maximal (other, wanted) taken) (above highest held).not_ge
  · exact absurd (allowed.1 highest) held.ne'
  · exact absurd (allowed.1.2 highest) held.ne'

/-- Where no lock is held and no thread can move, nobody waits but for a wake-up:
of those that would, the highest waits for one that does. -/
theorem Ordered.idle_of_stuck (ordered : state.Ordered order)
    (nobody : ∀ thread lock, state.held thread lock = 0) (stuck : state.Stuck) (thread : Thread) :
    state.todo thread = [] ∨ state.Idle thread := by
  classical
  by_contra waiting
  obtain ⟨highest, waits, maximal⟩ := Finset.exists_max_image
    (Finset.univ.filter fun thread => ¬ (state.todo thread = [] ∨ state.Idle thread))
    order.thread ⟨thread, by simpa using waiting⟩
  simp only [Finset.mem_filter, Finset.mem_univ, true_and] at waits maximal
  obtain ⟨unfinished, busy⟩ := not_or.mp waits
  obtain ⟨act, rest, program⟩ := List.exists_cons_of_ne_nil unfinished
  have allowed := ordered highest
  rw [program] at allowed
  rcases Locking.waits program stuck with ⟨wanted, other, rfl, different, taken⟩ | ⟨lock, rfl⟩ |
    ⟨other, rfl, running⟩
  · exact absurd (nobody other wanted) taken.ne'
  · exact busy (.asleep program)
  · by_cases idle : state.Idle other
    · exact busy (.joining program idle)
    · exact absurd (maximal other (not_or.mpr ⟨running, idle⟩)) allowed.1.1.not_ge

/-- Threads that follow one order come to a halt only where no lock is held, and
nobody waits but for a wake-up. -/
theorem Ordered.atRest_of_stuck [Fintype Lock] (ordered : state.Ordered order)
    (stuck : state.Stuck) : state.AtRest := by
  have nobody : ∀ thread lock, state.held thread lock = 0 := fun thread lock =>
    Nat.eq_zero_of_not_pos fun holds => ordered.holder_moves holds stuck
  exact ⟨fun lock => free_of_held fun thread => nobody thread lock,
    ordered.idle_of_stuck nobody stuck⟩

/-! ## Every run ends -/

omit [Fintype Thread] in
/-- No thread has more to do after a step, and the one that moves has less. -/
theorem Turn.work_le (turn : Turn state move next thread) :
    work (next.todo thread) ≤ work (state.todo thread) ∧
      (thread = move.mover → work (next.todo thread) < work (state.todo thread)) := by
  cases turn with
  | stays bystander todo =>
      rw [todo]
      exact ⟨le_rfl, fun moves => absurd moves bystander⟩
  | @does act rest program todo =>
      have less := work_lt_cons act rest
      rw [todo, program]
      exact ⟨less.le, fun _ => less⟩
  | sleeps program todo =>
      rw [todo, program]
      exact ⟨Nat.le_succ _, fun _ => Nat.lt_succ_self _⟩

/-- The threads can go on until none of them can move and none sleeps. -/
theorem exists_still (state : Locking Thread Lock) :
    ∃ final, machine.Reachable state final ∧ ∀ move, final.step move = none := by
  generalize size : Threads.total work state.todo = total
  induction total using Nat.strong_induction_on generalizing state with
  | _ total ih =>
      by_cases still : ∀ move, state.step move = none
      · exact ⟨state, .refl state, still⟩
      · obtain ⟨move, moves⟩ := not_forall.mp still
        obtain ⟨next, taken⟩ := Option.ne_none_iff_exists'.mp moves
        have turns := fun thread => turn_of_step taken thread
        have less : Threads.total work next.todo < total := by
          rw [← size]
          exact Finset.sum_lt_sum (fun thread _ => (turns thread).work_le.1)
            ⟨move.mover, Finset.mem_univ _, (turns move.mover).work_le.2 rfl⟩
        obtain ⟨final, reached, ended⟩ := ih _ less next rfl
        exact ⟨final, ((Machine.Reachable.refl state).step taken).trans reached, ended⟩

/-- Where nobody can even wake, nobody waits for a wake-up. -/
theorem AtRest.over (rests : state.AtRest) (still : ∀ move, state.step move = none) :
    state.Over := by
  refine ⟨fun thread => (rests.2 thread).resolve_right fun idle => ?_, rests.1⟩
  induction idle with
  | @asleep thread lock rest program =>
      have waking := still (.wake thread)
      simp only [step, program, reduceCtorEq] at waking
  | joining _ _ ih => exact ih

/-! ## Locks that are not let go -/

section Kept

variable {final : Locking Thread Lock} {lock : Lock}

/-- What a thread holds in the end is at least what it has taken more often than let go. -/
theorem held_of_unbalanced (reached : machine.Reachable state final) (thread : Thread)
    (lock : Lock) :
    state.held thread lock + acquires lock (state.todo thread) +
        releases lock (final.todo thread) ≤
      final.held thread lock + acquires lock (final.todo thread) +
        releases lock (state.todo thread) := by
  refine reached.invariant (fun final =>
    state.held thread lock + acquires lock (state.todo thread) +
        releases lock (final.todo thread) ≤
      final.held thread lock + acquires lock (final.todo thread) +
        releases lock (state.todo thread)) ?_ le_rfl
  intro middle move next before taken
  cases turn_of_step taken thread with
  | stays _ todo held =>
      rw [todo, held]
      exact before
  | @does act rest program todo held =>
      have gained := tally_ge lock act (middle.held thread lock)
      rw [program, acquires_cons, releases_cons] at before
      rw [todo, held, after]
      omega
  | @sleeps lock' rest program todo held =>
      have gained := tally_ge lock (.await lock' : LockAct Thread Lock) (middle.held thread lock)
      rw [program, acquires_cons, releases_cons] at before
      rw [todo, held, after, acquires_cons, releases_cons]
      have asleep : acquires lock [(.sleep lock' : LockAct Thread Lock)] = 0 ∧
          releases lock [(.sleep lock' : LockAct Thread Lock)] = 0 := ⟨rfl, rfl⟩
      omega

omit [Fintype Thread] in
/-- What a thread holds beyond what the rest of its program lets go, it still holds
after a turn. -/
theorem Turn.covered {count more : Nat} (turn : Turn state move next thread)
    (covered : Covered lock count (state.todo thread))
    (holds : count + more ≤ state.held thread lock) :
    ∃ count, Covered lock count (next.todo thread) ∧ count + more ≤ next.held thread lock := by
  cases turn with
  | stays _ todo held =>
      rw [todo, held]
      exact ⟨count, covered, holds⟩
  | @does act rest program todo held =>
      rw [program] at covered
      refine ⟨act.tally lock count, ?_, ?_⟩
      · rw [todo]
        exact covered.2
      · rw [held, after, ← tally_add covered.1]
        exact tally_mono lock act holds
  | @sleeps lock' rest program todo held =>
      rw [program] at covered
      refine ⟨(LockAct.await lock' : LockAct Thread Lock).tally lock count, ?_, ?_⟩
      · rw [todo]
        exact ⟨Bool.noConfusion, covered.2⟩
      · rw [held, after, ← tally_add covered.1]
        exact tally_mono lock _ holds

/-- A thread that holds a lock more often than the rest of its program lets it go
holds it for good. -/
theorem held_of_covered {count more : Nat} (covered : Covered lock count (state.todo thread))
    (holds : count + more ≤ state.held thread lock) (reached : machine.Reachable state final) :
    more ≤ final.held thread lock := by
  suffices still : ∃ count, Covered lock count (final.todo thread) ∧
      count + more ≤ final.held thread lock by
    obtain ⟨count, _, holds⟩ := still
    omega
  refine reached.invariant (fun final => ∃ count, Covered lock count (final.todo thread) ∧
    count + more ≤ final.held thread lock) ?_ ⟨count, covered, holds⟩
  rintro middle move next ⟨count, covered, holds⟩ taken
  exact (turn_of_step taken thread).covered covered holds

/-- No other thread gets past the taking of such a lock. -/
theorem blocked_of_covered {count : Nat} (covered : Covered lock count (state.todo thread))
    (holds : count < state.held thread lock) (reached : machine.Reachable state final)
    {other : Thread} (different : other ≠ thread) {rest : List (LockAct Thread Lock)}
    (waiting : state.todo other = .acquire lock :: rest) :
    final.todo other = .acquire lock :: rest := by
  refine (reached.invariant (fun final => final.todo other = .acquire lock :: rest ∧
    ∃ count, Covered lock count (final.todo thread) ∧
      count + 1 ≤ final.held thread lock) ?_ ⟨waiting, count, covered, holds⟩).1
  rintro middle move next ⟨waiting, count, covered, holds⟩ taken
  refine ⟨?_, (turn_of_step taken thread).covered covered holds⟩
  cases turn_of_step taken other with
  | stays _ todo => rw [todo, waiting]
  | does program _ _ free =>
      have wants := (List.cons.inj (waiting.symm.trans program)).1
      have nobody := free lock wants.symm thread different.symm
      omega
  | sleeps program => cases waiting.symm.trans program

end Kept

end Locking
