import MagicServer.Library.Threads
import MagicServer.Log.Record
import Mathlib.Algebra.BigOperators.Group.List.Basic

/-!
# The lines of the log

The lock keeps the writes of a call together: while no thread is in `message()`,
the stream holds one whole line for each call that has returned 0. Where all
writes succeed, the line says what the call was given but for the month, so no
call of `message()` is read back from the log.
-/

namespace MSrv

/-- The thread is between taking `mThreadLock` and its return. -/
def MessagePc.Inside : MessagePc → Prop
  | .testing _ | .writing _ _ | .unlocking _ => True
  | .idle | .locking _ => False

/-- What the call has added to the stream. -/
def MessagePc.added : MessagePc → List Char
  | .writing call write => call.before write
  | .unlocking call => call.line ++ ['\n']
  | .idle | .locking _ | .testing _ => []

/-- The call that has not returned. -/
def MessagePc.call? : MessagePc → Option LogCall
  | .locking call | .testing call | .writing call _ | .unlocking call => some call
  | .idle => none

namespace Logging

variable {threads : Nat}

/-- The calls that have returned 0, in that order. -/
def written (logging : Logging threads) : List LogCall :=
  (logging.returned.filter fun entry => entry.2 = 0).map Prod.fst

/-- What the call of the thread that holds the lock has added to the stream. -/
def tail (logging : Logging threads) : List Char :=
  match logging.mThreadLock.owner with
  | some t => (logging.pc t).added
  | none => []

/-- How often a call is under way. -/
def underWay (call : LogCall) (pc : Fin threads → MessagePc) : Nat :=
  Threads.total (fun pc => (MessagePc.call? pc).toList.count call) pc

/-- Whole lines, and the part of a line that the holder of the lock has written. -/
structure Orderly (logging : Logging threads) : Prop where
  locked : ∀ t, (logging.pc t).Inside → logging.mThreadLock.owner = some t
  stream : logging.mpLogStream =
    some (logging.written.flatMap (fun call => call.line ++ ['\n']) ++ logging.tail)
  counted : ∀ call, logging.called.count call =
    (logging.returned.map Prod.fst).count call + underWay call logging.pc
  plain : ∀ call ∈ logging.called, call.Plain

theorem orderly_opened : (opened threads).Orderly where
  locked _ := False.elim
  stream := rfl
  counted call := by
    have nobody : underWay call (opened threads).pc = 0 := Threads.total_eq_zero _ fun _ => rfl
    rw [nobody]
    rfl
  plain _ member := nomatch member

/-- Every write succeeds, the module names have no white space, and the formatted
messages no newline. -/
def Clean : Action threads → Prop
  | .call _ call => call.Plain
  | .write _ outcome => outcome = .written
  | .lock _ | .test _ | .unlock _ => True

instance decidableClean : (action : Action threads) → Decidable (Clean action)
  | .call _ call => inferInstanceAs (Decidable call.Plain)
  | .write _ outcome => inferInstanceAs (Decidable (outcome = .written))
  | .lock _ | .test _ | .unlock _ => isTrue trivial

/-- The steps of the threads where all writes succeed. -/
inductive Step (logging : Logging threads) : Logging threads → Prop
  | call {t : Fin threads} {call : LogCall} : logging.pc t = .idle → call.Plain →
      Step logging
        (Logging.go { logging with called := logging.called ++ [call] } t (.locking call))
  | lock {t : Fin threads} {call : LogCall} {lock : RecursiveLock (Fin threads)} :
      logging.pc t = .locking call → logging.mThreadLock.take t = some lock →
      Step logging (Logging.go { logging with mThreadLock := lock } t (.testing call))
  /-- A call returns early and keeps the lock. -/
  | early {t : Fin threads} {call : LogCall} {result : MSrvResult} :
      logging.pc t = .testing call → result ≠ 0 → Step logging (logging.finish t call result)
  | start {t : Fin threads} {call : LogCall} : logging.pc t = .testing call →
      Step logging (logging.go t (.writing call .time))
  | write {t : Fin threads} {call : LogCall} {write : LogWrite} {pc : MessagePc} :
      logging.pc t = .writing call write → pc.call? = some call → pc.Inside →
      pc.added = call.before write ++ call.piece write →
      Step logging ((logging.add (call.piece write)).go t pc)
  | unlock {t : Fin threads} {call : LogCall} : logging.pc t = .unlocking call →
      Step logging (Logging.finish
        { logging with mThreadLock := logging.mThreadLock.release t } t call 0)

variable {logging next : Logging threads} {action : Action threads}

/-- A write that succeeds passes its test. -/
theorem write_written {t : Fin threads} {call : LogCall} {write : LogWrite}
    (taken : logging.write t call write .written = some next)
    (here : logging.pc t = .writing call write) : Step logging next := by
  unfold Logging.write at taken
  obtain ⟨_, taken⟩ := Option.ite_none_left_eq_some.mp taken
  have passes := (not_congr (LogOutcome.test_iff .written call write)).mpr (not_not.mpr rfl)
  simp only [if_neg passes] at taken
  cases write with
  | newline =>
      cases taken
      exact .write here rfl trivial rfl
  | time | header | text =>
      cases taken
      exact .write here rfl trivial rfl

theorem step_cases (clean : Clean action)
    (taken : (machine threads).step logging action = some next) : Step logging next := by
  change logging.step action = some next at taken
  cases action with
  | call t call =>
      cases here : logging.pc t <;> simp only [step, here, reduceCtorEq, Option.some.injEq] at taken
      subst taken
      exact .call here clean
  | lock t =>
      cases here : logging.pc t <;> simp only [step, here, reduceCtorEq] at taken
      obtain ⟨lock, took, rfl⟩ := Option.map_eq_some_iff.mp taken
      exact .lock here took
  | test t =>
      cases here : logging.pc t <;> simp only [step, here, reduceCtorEq] at taken
      unfold Logging.test at taken
      split_ifs at taken <;> cases taken
      · exact .early here (by decide)
      · exact .early here (by decide)
      · exact .early here (by decide)
      · exact .start here
  | write t outcome =>
      cases here : logging.pc t <;> simp only [step, here, reduceCtorEq] at taken
      rw [show outcome = .written from clean] at taken
      exact write_written taken here
  | unlock t =>
      cases here : logging.pc t <;> simp only [step, here, reduceCtorEq, Option.some.injEq] at taken
      subst taken
      exact .unlock here

theorem tail_of_owner {t : Fin threads} (holds : logging.mThreadLock.owner = some t) :
    logging.tail = (logging.pc t).added := by
  unfold tail
  rw [holds]

/-- A move between places with nothing in the stream changes no line. -/
theorem tail_go {t : Fin threads} {pc : MessagePc} (same : pc.added = (logging.pc t).added) :
    (logging.go t pc).tail = logging.tail := by
  unfold tail go
  cases logging.mThreadLock.owner with
  | none => rfl
  | some holder =>
      by_cases moved : holder = t
      · subst moved
        simp only [Function.update_self, same]
      · simp only [Function.update_of_ne moved]

/-- A call that returns with an error has no line of its own. -/
theorem written_finish {t : Fin threads} {call : LogCall} {result : MSrvResult}
    (error : result ≠ 0) : (logging.finish t call result).written = logging.written := by
  simp only [written, finish, List.filter_append, List.filter_cons, error, decide_false,
    Bool.false_eq_true, ↓reduceIte, List.filter_nil, List.append_nil]

theorem written_finish_zero (logging : Logging threads) (t : Fin threads) (call : LogCall) :
    (logging.finish t call 0).written = logging.written ++ [call] := by
  simp only [written, finish, List.filter_append, List.filter_cons, decide_true, ↓reduceIte,
    List.filter_nil, List.map_append, List.map_cons, List.map_nil]

/-- Whoever is inside after a move was inside before or is the thread that moved. -/
theorem inside_update {t u : Fin threads} {pc : MessagePc}
    (inside : (Function.update logging.pc t pc u).Inside) :
    (u = t ∧ pc.Inside) ∨ (u ≠ t ∧ (logging.pc u).Inside) :=
  Threads.of_update (p := fun _ pc => MessagePc.Inside pc) inside

/-- Every thread inside holds the lock after a step. -/
theorem Orderly.locked_step (orderly : logging.Orderly) (step : Step logging next) :
    ∀ u, (next.pc u).Inside → next.mThreadLock.owner = some u := by
  -- A thread that was inside and holds the lock may stay there.
  have stays : ∀ {t u : Fin threads} {pc : MessagePc}, (pc.Inside → (logging.pc t).Inside) →
      (Function.update logging.pc t pc u).Inside → logging.mThreadLock.owner = some u := by
    intro t u pc was inside
    rcases inside_update inside with ⟨rfl, here⟩ | ⟨_, before⟩
    · exact orderly.locked u (was here)
    · exact orderly.locked u before
  intro u inside
  cases step with
  | call here => exact stays False.elim inside
  | early here => exact stays False.elim inside
  | start here => exact stays (fun _ => by rw [here]; trivial) inside
  | write here => exact stays (fun _ => by rw [here]; trivial) inside
  | lock here took =>
      obtain ⟨holds, nobody⟩ := RecursiveLock.owner_take took
      rcases inside_update inside with ⟨rfl, _⟩ | ⟨different, before⟩
      · exact holds
      · have owner := orderly.locked u before
        rcases nobody with free | mine
        · cases free.symm.trans owner
        · exact absurd (Option.some_inj.mp (owner.symm.trans mine)) different
  | @unlock t call here =>
      have mine := orderly.locked t (by rw [here]; trivial)
      rcases inside_update inside with ⟨_, impossible⟩ | ⟨different, before⟩
      · exact impossible.elim
      · exact absurd (Option.some_inj.mp ((orderly.locked u before).symm.trans mine)) different

/-- The stream holds whole lines and the part of the holder after a step. -/
theorem Orderly.stream_step (orderly : logging.Orderly) (step : Step logging next) :
    next.mpLogStream =
      some (next.written.flatMap (fun call => call.line ++ ['\n']) ++ next.tail) := by
  have stream := orderly.stream
  cases step with
  | @call t call here =>
      have same : (logging.go t (.locking call)).tail = logging.tail := tail_go (by rw [here]; rfl)
      rw [← same] at stream
      exact stream
  | @lock t call lock here took =>
      obtain ⟨holds, nobody⟩ := RecursiveLock.owner_take took
      have nothing : logging.tail = [] := by
        rcases nobody with free | mine
        · rw [tail, free]
        · rw [tail_of_owner mine, here]
          rfl
      rw [nothing] at stream
      rw [tail_of_owner (t := t) holds]
      simp only [go, Function.update_self, MessagePc.added]
      exact stream
  | @early t call result here error =>
      have same : (logging.go t .idle).tail = logging.tail := tail_go (by rw [here]; rfl)
      rw [written_finish error]
      rw [← same] at stream
      exact stream
  | @start t call here =>
      have same : (logging.go t (.writing call .time)).tail = logging.tail :=
        tail_go (by rw [here]; rfl)
      rw [← same] at stream
      exact stream
  | @write t call write pc here under inside added =>
      have mine := orderly.locked t (by rw [here]; trivial)
      have part : ((logging.add (call.piece write)).go t pc).tail = pc.added := by
        have holds : ((logging.add (call.piece write)).go t pc).mThreadLock.owner = some t := mine
        rw [tail_of_owner holds]
        simp only [go, Function.update_self]
      rw [tail_of_owner mine, here] at stream
      rw [part, added, ← List.append_assoc]
      change logging.mpLogStream.map _ = _
      rw [stream]
      rfl
  | @unlock t call here =>
      have mine := orderly.locked t (by rw [here]; trivial)
      have nothing : (Logging.finish
          { logging with mThreadLock := logging.mThreadLock.release t } t call 0).tail = [] := by
        rcases RecursiveLock.owner_release mine with free | held
        · rw [tail, finish, free]
        · rw [tail_of_owner (t := t) held]
          simp only [finish, Function.update_self, MessagePc.added]
      rw [tail_of_owner mine, here] at stream
      rw [written_finish_zero, nothing, List.flatMap_append, List.flatMap_singleton,
        List.append_nil]
      exact stream

/-- Every call has returned or is under way after a step. -/
theorem Orderly.counted_step (orderly : logging.Orderly) (step : Step logging next)
    (other : LogCall) : next.called.count other =
      (next.returned.map Prod.fst).count other + underWay other next.pc := by
  have before := orderly.counted other
  -- What is under way when a thread goes on.
  have moved : ∀ {t : Fin threads} {pc : MessagePc} (pc' : MessagePc), logging.pc t = pc →
      underWay other (Function.update logging.pc t pc') + pc.call?.toList.count other =
        underWay other logging.pc + pc'.call?.toList.count other := by
    intro t pc pc' here
    rw [← here]
    exact Threads.total_update _
  cases step with
  | @call t call here =>
      have entered := moved (.locking call) here
      simp only [go, MessagePc.call?, Option.toList_none, Option.toList_some, List.count_nil,
        List.count_append] at entered ⊢
      omega
  | @lock t call lock here took =>
      have stays := moved (.testing call) here
      simp only [go, MessagePc.call?] at stays ⊢
      omega
  | @early t call result here error =>
      have left := moved .idle here
      simp only [finish, MessagePc.call?, Option.toList_none, Option.toList_some, List.count_nil,
        List.map_append, List.map_cons, List.map_nil, List.count_append] at left ⊢
      omega
  | @start t call here =>
      have stays := moved (.writing call .time) here
      simp only [go, MessagePc.call?] at stays ⊢
      omega
  | @write t call write pc here under inside added =>
      have stays := moved pc here
      rw [under] at stays
      simp only [go, add, MessagePc.call?] at stays ⊢
      omega
  | @unlock t call here =>
      have left := moved .idle here
      simp only [finish, MessagePc.call?, Option.toList_none, Option.toList_some, List.count_nil,
        List.map_append, List.map_cons, List.map_nil, List.count_append] at left ⊢
      omega

theorem Orderly.step (orderly : logging.Orderly) (step : Step logging next) : next.Orderly where
  locked := orderly.locked_step step
  stream := orderly.stream_step step
  counted := orderly.counted_step step
  plain other member := by
    cases step with
    | call _ plain =>
        rcases List.mem_append.mp member with before | new
        · exact orderly.plain other before
        · rw [List.mem_singleton.mp new]
          exact plain
    | _ => exact orderly.plain other member

end Logging

end MSrv
