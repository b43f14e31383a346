import MagicServer.Log.File

/-!
# The lock of the log file

How often a thread holds the lock of a `LogFile` after a call, for every outcome
of the stdio calls. Only `write` and `message` have returns that keep it.
-/

namespace MSrv.LogFile

@[simp] theorem add_mThreadLock (log : LogFile) (piece : List Char) :
    (log.add piece).mThreadLock = log.mThreadLock := by
  unfold add
  split <;> rfl

theorem setFilename_mThreadLock (log : LogFile) (filename : Option (List Char)) :
    (log.setFilename filename).2.mThreadLock = log.mThreadLock := by
  cases filename with
  | none => rfl
  | some filename =>
      rw [setFilename_eq]

theorem openLog_mThreadLock (log : LogFile) (fopen : Bool) :
    (log.openLog fopen).2.mThreadLock = log.mThreadLock := by
  rw [openLog_eq]
  split
  · rfl
  · split_ifs <;> rfl

theorem close_mThreadLock (log : LogFile) : log.close.mThreadLock = log.mThreadLock := by
  rw [close_eq]
  split_ifs <;> rfl

/-- The call gets as far as `unlock ()`: there is a stream, the arguments pass
their tests, and every write is complete. -/
def Completes (log : LogFile) : Call → Prop
  | .setFilename _ | .openLog _ | .close => True
  | .write data len written => log.mpLogStream ≠ none ∧ data ≠ none ∧ len ≤ written
  | .message call outcome =>
      log.mpLogStream ≠ none ∧ call.message ≠ none ∧ 0 ≤ call.fatality ∧
        call.fatality ≤ Log.Debug ∧ ∀ write, outcome write = .written

/-- The call passes its tests, but the negation of its error code or its year is no
`int`. -/
def Overflows (log : LogFile) : Call → Prop
  | .message call _ =>
      log.mpLogStream ≠ none ∧ call.message ≠ none ∧ 0 ≤ call.fatality ∧
        call.fatality ≤ Log.Debug ∧ (call.errno = INT_MIN ∨ 1900 + call.time.tm_year > INT_MAX)
  | _ => False

/-- `write` keeps the lock at each of its early returns. -/
theorem write_mThreadLock (log : LogFile) (data : Option (List Char)) (len written : Int) :
    (log.Completes (.write data len written) →
        (log.write data len written).2.mThreadLock = log.mThreadLock) ∧
      (¬ log.Completes (.write data len written) →
        (log.write data len written).2.mThreadLock = log.mThreadLock + 1) := by
  cases stream : log.mpLogStream with
  | none => simp [Completes, write, lock, stream]
  | some stream =>
      cases data with
      | none => simp [Completes, write, lock, stream]
      | some data =>
          by_cases short : written < len
          · simp [Completes, write, lock, stream, short]
          · simp [Completes, write, lock, unlock, stream, short, not_lt.mp short]

/-- The writes of a message keep the lock when one of them fails. -/
theorem writeAll_mThreadLock (log : LogFile) (call : LogCall)
    (outcome : LogWrite → LogOutcome) (writes : List LogWrite) :
    ((∀ write ∈ writes, outcome write = .written) →
        (log.writeAll call outcome writes).2.mThreadLock = log.mThreadLock - 1) ∧
      (¬ (∀ write ∈ writes, outcome write = .written) →
        (log.writeAll call outcome writes).2.mThreadLock = log.mThreadLock) := by
  induction writes generalizing log with
  | nil => simp [writeAll, unlock]
  | cons write rest induction =>
      by_cases complete : outcome write = .written
      · rw [writeAll_of_written complete, List.forall_mem_cons, and_iff_right complete,
          ← log.add_mThreadLock]
        exact induction _
      · simp [writeAll_of_failed complete, complete]

/-- `message` keeps the lock at each of its early returns. -/
theorem message_mThreadLock {log : LogFile} {call : LogCall} {outcome : LogWrite → LogOutcome}
    {returned : MSrvResult × LogFile} (returns : log.message call outcome = some returned) :
    (log.Completes (.message call outcome) → returned.2.mThreadLock = log.mThreadLock) ∧
      (¬ log.Completes (.message call outcome) →
        returned.2.mThreadLock = log.mThreadLock + 1) := by
  have tests : log.lock.mpLogStream = log.mpLogStream := rfl
  unfold message at returns
  simp only [tests] at returns
  split_ifs at returns with stream unwritten severity overflow
  · cases returns
    simp [Completes, lock, stream]
  · cases returns
    simp [Completes, lock, unwritten]
  · cases returns
    have excluded : ¬ log.Completes (.message call outcome) := by
      rintro ⟨-, -, nonneg, atMost, -⟩
      omega
    simp [lock, excluded]
  · cases returns
    have writes := writeAll_mThreadLock log.lock call outcome [.time, .header, .text, .newline]
    have all : (∀ write ∈ [LogWrite.time, .header, .text, .newline], outcome write = .written) ↔
        log.Completes (.message call outcome) := by
      constructor
      · intro written
        refine ⟨stream, unwritten, by omega, by omega, fun write => written write ?_⟩
        cases write <;> simp
      · intro complete write _
        exact complete.2.2.2.2 write
    rw [← all]
    exact writes

/-- Every call returns, unless it overflows. -/
theorem perform_eq_none_iff (log : LogFile) (call : Call) :
    log.perform call = none ↔ log.Overflows call := by
  cases call with
  | setFilename | openLog | close | write => simp [perform, Overflows]
  | message call outcome =>
      have tests : log.lock.mpLogStream = log.mpLogStream := rfl
      simp only [perform, message, Overflows, tests]
      split_ifs with stream unwritten severity overflow
      · simp [stream]
      · simp [unwritten]
      · refine iff_of_false id ?_
        rintro ⟨-, -, nonneg, atMost, -⟩
        omega
      · exact iff_of_true rfl ⟨stream, unwritten, by omega, by omega, overflow⟩
      · exact iff_of_false id fun overflows => overflow overflows.2.2.2.2

/-- A call that completes leaves the lock as it was. -/
theorem mThreadLock_of_completes {log : LogFile} {call : Call} {returned : MSrvResult × LogFile}
    (returns : log.perform call = some returned) (complete : log.Completes call) :
    returned.2.mThreadLock = log.mThreadLock := by
  cases call with
  | setFilename filename =>
      cases returns
      exact log.setFilename_mThreadLock filename
  | openLog fopen =>
      cases returns
      exact log.openLog_mThreadLock fopen
  | close =>
      cases returns
      exact log.close_mThreadLock
  | write data len written =>
      cases returns
      exact (log.write_mThreadLock data len written).1 complete
  | message call outcome => exact (message_mThreadLock returns).1 complete

/-- Any other call holds the lock once more when it returns. -/
theorem mThreadLock_of_not_completes {log : LogFile} {call : Call}
    {returned : MSrvResult × LogFile} (returns : log.perform call = some returned)
    (incomplete : ¬ log.Completes call) : returned.2.mThreadLock = log.mThreadLock + 1 := by
  cases call with
  | setFilename filename => exact absurd trivial incomplete
  | openLog fopen => exact absurd trivial incomplete
  | close => exact absurd trivial incomplete
  | write data len written =>
      cases returns
      exact (log.write_mThreadLock data len written).2 incomplete
  | message call outcome => exact (message_mThreadLock returns).2 incomplete

/-- What a call does with the lock that its thread holds so often when it begins. -/
structure LetsGo (log after : LogFile) : Prop where
  /-- The thread holds the lock as often as before. -/
  count : after.mThreadLock = log.mThreadLock
  /-- No other thread has to wait that would not have had to wait before. -/
  others : ∀ thread other : Nat,
    (RecursiveLock.heldBy thread log.mThreadLock).Available other →
      (RecursiveLock.heldBy thread after.mThreadLock).Available other

/-- A call that overflows has no result. Every other one returns, and lets the lock go
as often as it has taken it exactly when it completes. -/
theorem letsGo_iff_completes (log : LogFile) (call : Call) :
    (log.Overflows call ∧ log.perform call = none) ∨
      ∃ returned, log.perform call = some returned ∧
        (LetsGo log returned.2 ↔ log.Completes call) := by
  cases returns : log.perform call with
  | none => exact Or.inl ⟨(log.perform_eq_none_iff call).mp returns, rfl⟩
  | some returned =>
      refine Or.inr ⟨returned, rfl, fun balanced => ?_, fun complete => ?_⟩
      · by_contra incomplete
        have kept := mThreadLock_of_not_completes returns incomplete
        rw [balanced.count] at kept
        exact Nat.succ_ne_self _ kept.symm
      · have same := mThreadLock_of_completes returns complete
        refine ⟨same, fun thread other available => ?_⟩
        rw [same]
        exact available

/-- A log on the standard output, which nobody holds. -/
def onStdout : LogFile := (raw none).ofStream (some .stdout)

/-- A message without a text keeps the lock of an open log, and the next message
of another thread waits for it. -/
theorem null_message_keeps_lock : ∃ after,
    onStdout.perform (.message ⟨[], 0, 0, none, ⟨0, 0, 0, 1, 0, 0, by decide, by decide,
      by decide, by decide, by decide⟩⟩ fun _ => .written) = some (MSRVERR_NULL_ARGUMENT, after) ∧
      after.mThreadLock = onStdout.mThreadLock + 1 ∧
      (RecursiveLock.heldBy 0 onStdout.mThreadLock).Available 1 ∧
      (RecursiveLock.heldBy 0 after.mThreadLock).take 1 = none ∧ ¬ LetsGo onStdout after := by
  refine ⟨_, rfl, rfl, Or.inl rfl, rfl, fun balanced => ?_⟩
  exact absurd balanced.count (by decide)

end MSrv.LogFile
