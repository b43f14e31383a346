import MagicServer.Log.Locks

/-!
# A call that is not interrupted

What `LogFile.message` says of a call is what the steps of one thread of
`Logging` do when no other thread takes a step among them.
-/

namespace MSrv.Logging

variable {threads : Nat} {t : Fin threads} {log : LogFile} {logging final : Logging threads}
  {call : LogCall} {write : LogWrite}

/-- The two states show the same log, with the lock free or held by the thread. -/
structure Alike (t : Fin threads) (log : LogFile) (logging : Logging threads) : Prop where
  stream : logging.mpLogStream = log.mpLogStream.map log.contents
  lock : logging.mThreadLock = .heldBy t log.mThreadLock

/-- The call of the thread has returned with this result and this log. -/
structure Returns (t : Fin threads) (call : LogCall) (result : MSrvResult × LogFile)
    (logging final : Logging threads) : Prop where
  alike : Alike t result.2 final
  idle : final.pc t = .idle
  others : ∀ other, other ≠ t → final.pc other = logging.pc other
  returned : final.returned = logging.returned ++ [(call, result.1)]

/-- The write, and those after it. -/
def onward : LogWrite → List LogWrite
  | .time => [.time, .header, .text, .newline]
  | .header => [.header, .text, .newline]
  | .text => [.text, .newline]
  | .newline => [.newline]

/-- Where the thread goes on after a write. -/
def after (call : LogCall) (write : LogWrite) : MessagePc :=
  write.next.elim (.unlocking call) (.writing call)

theorem Alike.add (alike : Alike t log logging) (piece : List Char) :
    Alike t (log.add piece) (logging.add piece) := by
  obtain ⟨stream, lock⟩ := alike
  unfold LogFile.add Logging.add
  rw [stream]
  cases opened : log.mpLogStream with
  | none => exact ⟨by rw [opened]; rfl, lock⟩
  | some stream =>
      refine ⟨?_, lock⟩
      simp only [Option.map_some, Function.update_self]

theorem Alike.go (alike : Alike t log logging) (pc : MessagePc) :
    Alike t log (logging.go t pc) := ⟨alike.stream, alike.lock⟩

/-- A call that returns now. -/
theorem Alike.finish (alike : Alike t log logging) (call : LogCall) (result : MSrvResult) :
    Returns t call (result, log) logging (logging.finish t call result) where
  alike := ⟨alike.stream, alike.lock⟩
  idle := Function.update_self ..
  others _ different := Function.update_of_ne different ..
  returned := rfl

/-- The call returns from an earlier state, too. -/
theorem Returns.of_step {result : MSrvResult × LogFile} {middle : Logging threads}
    (returns : Returns t call result middle final)
    (others : ∀ other, other ≠ t → middle.pc other = logging.pc other)
    (unreturned : middle.returned = logging.returned) : Returns t call result logging final where
  alike := returns.alike
  idle := returns.idle
  others other different := (returns.others other different).trans (others other different)
  returned := by rw [returns.returned, unreturned]

/-- A step that only takes the thread elsewhere. -/
theorem Returns.of_go {result : MSrvResult × LogFile} {middle : Logging threads}
    {pc : MessagePc} (returns : Returns t call result (middle.go t pc) final)
    (same : middle.pc = logging.pc) (unreturned : middle.returned = logging.returned) :
    Returns t call result logging final := by
  apply returns.of_step _ unreturned
  intro other different
  rw [← same]
  exact Function.update_of_ne different ..

/-- A complete write. -/
theorem write_of_written (year : 1900 + call.time.tm_year ≤ INT_MAX) :
    logging.write t call write .written =
      some ((logging.add (call.piece write)).go t (after call write)) := by
  have passes := (not_congr (LogOutcome.test_iff .written call write)).mpr (not_not.mpr rfl)
  unfold Logging.write
  rw [if_neg fun overflow => absurd overflow.2 (not_lt.mpr year)]
  simp only [if_neg passes]
  cases write <;> rfl

/-- A write that fails. -/
theorem write_of_failed (year : 1900 + call.time.tm_year ≤ INT_MAX) {failure : LogOutcome}
    (failed : failure ≠ .written) :
    logging.write t call write failure =
      some ((logging.add (failure.added (call.piece write))).finish t call
        MSRVERR_LOG_WRITE_FAILED) := by
  unfold Logging.write
  rw [if_neg fun overflow => absurd overflow.2 (not_lt.mpr year)]
  simp only [if_pos ((failure.test_iff call write).mpr failed)]

theorem onward_eq (write : LogWrite) : onward write = write :: write.next.elim [] onward := by
  cases write <;> rfl

/-- The last step of a call lets the lock go. -/
theorem unlock_step (alike : Alike t log logging) (held : log.mThreadLock ≠ 0)
    (here : logging.pc t = .unlocking call) :
    ∃ final, (machine threads).step logging (.unlock t) = some final ∧
      Returns t call (0, log.unlock) logging final := by
  obtain ⟨again, count⟩ := Nat.exists_eq_succ_of_ne_zero held
  have released : logging.mThreadLock.release t = .heldBy t log.unlock.mThreadLock := by
    rw [alike.lock, count, RecursiveLock.release_heldBy, LogFile.unlock, count]
    rfl
  have alike' : Alike t log.unlock { logging with mThreadLock := logging.mThreadLock.release t } :=
    ⟨alike.stream, released⟩
  refine ⟨_, ?_, (alike'.finish call 0).of_step (fun _ _ => rfl) rfl⟩
  change logging.step (.unlock t) = _
  unfold Logging.step
  simp only [here]

/-- From a write on, the steps of the thread are the remaining writes. -/
theorem writes_run (year : 1900 + call.time.tm_year ≤ INT_MAX) (outcome : LogWrite → LogOutcome)
    (alike : Alike t log logging) (held : log.mThreadLock ≠ 0)
    (here : logging.pc t = .writing call write) :
    ∃ actions final, (machine threads).run logging actions = some final ∧
      Returns t call (log.writeAll call outcome (onward write)) logging final := by
  induction remaining : onward write generalizing log logging write with
  | nil => cases write <;> cases remaining
  | cons first rest induction =>
      obtain ⟨rfl, rfl⟩ := List.cons_eq_cons.mp ((onward_eq write).symm.trans remaining)
      have step : (machine threads).step logging (.write t (outcome write)) =
          logging.write t call write (outcome write) := by
        change logging.step (.write t (outcome write)) = _
        unfold Logging.step
        simp only [here]
      by_cases complete : outcome write = .written
      · rw [LogFile.writeAll_of_written complete]
        rw [complete, write_of_written year] at step
        have alike' := (alike.add (call.piece write)).go (after call write)
        have held' : (log.add (call.piece write)).mThreadLock ≠ 0 := by
          rwa [LogFile.add_mThreadLock]
        have there : ((logging.add (call.piece write)).go t (after call write)).pc t =
          after call write := Function.update_self ..
        have resume : ∃ actions final, (machine threads).run
            ((logging.add (call.piece write)).go t (after call write)) actions = some final ∧
            Returns t call ((log.add (call.piece write)).writeAll call outcome
              (write.next.elim [] onward)) ((logging.add (call.piece write)).go t
                (after call write)) final := by
          cases next : write.next with
          | none =>
              rw [after, next] at alike' there ⊢
              obtain ⟨final, taken, returns⟩ := unlock_step alike' held' there
              exact ⟨[.unlock t], final, (machine threads).run_cons_eq_some.mpr
                ⟨final, taken, rfl⟩, returns⟩
          | some following =>
              rw [after, next] at alike' there ⊢
              have rest := induction alike' held' there (by rw [next]; rfl)
              rw [next] at rest
              exact rest
        obtain ⟨actions, final, ran, returns⟩ := resume
        exact ⟨.write t .written :: actions, final,
          (machine threads).run_cons_eq_some.mpr ⟨_, step, ran⟩, returns.of_go rfl rfl⟩
      · rw [LogFile.writeAll_of_failed complete]
        rw [write_of_failed year complete] at step
        exact ⟨[.write t (outcome write)], _, (machine threads).run_cons_eq_some.mpr
          ⟨_, step, rfl⟩, ((alike.add _).finish call _).of_step (fun _ _ => rfl) rfl⟩

/-- The tests of a call find in both what is wrong with it. -/
theorem test_run (alike : Alike t log.lock logging) (here : logging.pc t = .testing call)
    {outcome : LogWrite → LogOutcome} {returned : MSrvResult × LogFile}
    (returns : log.message call outcome = some returned) :
    ∃ actions final, (machine threads).run logging actions = some final ∧
      Returns t call returned logging final := by
  have step : (machine threads).step logging (.test t) = logging.test t call := by
    change logging.step (.test t) = _
    unfold Logging.step
    simp only [here]
  unfold Logging.test at step
  unfold LogFile.message at returns
  have closed : logging.mpLogStream = none ↔ log.lock.mpLogStream = none := by
    rw [alike.stream, Option.map_eq_none_iff]
  simp only [closed] at step
  simp only at returns
  split_ifs at returns with stream unwritten severity overflow
  · cases returns
    rw [if_pos stream] at step
    exact ⟨[.test t], _, (machine threads).run_cons_eq_some.mpr ⟨_, step, rfl⟩, alike.finish call _⟩
  · cases returns
    rw [if_neg stream, if_pos unwritten] at step
    exact ⟨[.test t], _, (machine threads).run_cons_eq_some.mpr ⟨_, step, rfl⟩, alike.finish call _⟩
  · cases returns
    rw [if_neg stream, if_neg unwritten, if_pos severity] at step
    exact ⟨[.test t], _, (machine threads).run_cons_eq_some.mpr ⟨_, step, rfl⟩, alike.finish call _⟩
  · cases returns
    obtain ⟨errno, year⟩ := not_or.mp overflow
    rw [if_neg stream, if_neg unwritten, if_neg severity, if_neg errno] at step
    have started : (logging.go t (.writing call .time)).pc t = .writing call .time :=
      Function.update_self ..
    obtain ⟨actions, final, ran, returns⟩ :=
      writes_run (not_lt.mp year) outcome (alike.go _) (Nat.succ_ne_zero _) started
    exact ⟨.test t :: actions, final, (machine threads).run_cons_eq_some.mpr ⟨_, step, ran⟩,
      returns.of_go rfl rfl⟩

/-- A whole call. -/
theorem message_run (alike : Alike t log logging) (idle : logging.pc t = .idle)
    {outcome : LogWrite → LogOutcome} {returned : MSrvResult × LogFile}
    (returns : log.message call outcome = some returned) :
    ∃ actions final, (machine threads).run logging actions = some final ∧
      Returns t call returned logging final := by
  let entered := Logging.go { logging with called := logging.called ++ [call] } t (.locking call)
  let locked := Logging.go { entered with mThreadLock := .heldBy t log.lock.mThreadLock } t
    (.testing call)
  have entering : (machine threads).step logging (.call t call) = some entered := by
    change logging.step (.call t call) = _
    unfold Logging.step
    simp only [idle, entered]
  have waiting : entered.pc t = .locking call := Function.update_self ..
  have taken : entered.mThreadLock.take t = some (.heldBy t log.lock.mThreadLock) := by
    change logging.mThreadLock.take t = _
    rw [alike.lock, RecursiveLock.take_heldBy]
    rfl
  have locking : (machine threads).step entered (.lock t) = some locked := by
    change entered.step (.lock t) = _
    unfold Logging.step
    simp only [waiting, taken, Option.map_some, locked]
  have alike' : Alike t log.lock locked := ⟨alike.stream, rfl⟩
  have testing : locked.pc t = .testing call := Function.update_self ..
  obtain ⟨actions, final, ran, returns⟩ := test_run alike' testing returns
  refine ⟨.call t call :: .lock t :: actions, final, ?_, ?_⟩
  · exact (machine threads).run_cons_eq_some.mpr ⟨entered, entering,
      (machine threads).run_cons_eq_some.mpr ⟨locked, locking, ran⟩⟩
  · have from_entered : Returns t call returned entered final :=
      returns.of_go rfl rfl
    exact from_entered.of_go rfl rfl

end MSrv.Logging
