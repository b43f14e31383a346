import MagicServer.Log.File
import MagicServer.Library.Machine

/-!
# Opening and closing the log file

When `mpLogStream` is set and reset over any sequence of calls. A log file on
the standard output is not closed by `close`, so that it keeps that stream for
good; every other log file goes from one name to the next as documented.
-/

namespace MSrv.LogFile

variable {log log' : LogFile} {stream : LogStream}

/-- The stream of a file name. -/
def streamOf (filename : List Char) : LogStream :=
  if filename = ['-'] then .stdout else .file filename

/-- `open()` sets the stream from `NULL` to that of the name, or changes nothing. -/
theorem openLog_cases (log : LogFile) (fopen : Bool) :
    (∃ filename, log.filename = some filename ∧ log.mpLogStream = none ∧
        log.openLog fopen = (0, log.setStream (some (streamOf filename)))) ∨
      ((log.openLog fopen).1 < 0 ∧ (log.openLog fopen).2 = log) := by
  rw [openLog_eq]
  cases named : log.filename with
  | none => exact Or.inr ⟨(by decide : MSRVERR_LOG_NO_FILENAME < 0), rfl⟩
  | some filename =>
      simp only
      split_ifs with opened standard opens
      · exact Or.inr ⟨(by decide : MSRVERR_LOG_ALREADY_OPEN < 0), rfl⟩
      · exact Or.inl ⟨filename, rfl, not_not.mp opened, by rw [streamOf, if_pos standard]⟩
      · exact Or.inl ⟨filename, rfl, not_not.mp opened, by rw [streamOf, if_neg standard]⟩
      · exact Or.inr ⟨(by decide : MSRVERR_LOG_OPEN_FAILED < 0), rfl⟩

/-- `close` resets every stream but the standard output. -/
theorem close_mpLogStream (log : LogFile) :
    log.close.mpLogStream = if log.mpLogStream = some .stdout then some .stdout else none := by
  rw [close_eq]
  split_ifs with running standard standard
  · exact absurd standard running.2
  · rfl
  · exact standard
  · by_contra opened
    exact running ⟨opened, standard⟩

theorem setFilename_mpLogStream (log : LogFile) (filename : Option (List Char)) :
    (log.setFilename filename).2.mpLogStream = log.mpLogStream := by
  cases filename with
  | none => rfl
  | some filename => rw [setFilename_eq]

/-- Only a successful `open()` and `close` change the stream. -/
theorem step_mpLogStream {call : Call} (taken : machine.step log call = some log')
    (unopened : ∀ fopen, call = .openLog fopen → (log.openLog fopen).1 ≠ 0)
    (unclosed : call = .close → log.mpLogStream = none ∨ log.mpLogStream = some .stdout) :
    log'.mpLogStream = log.mpLogStream := by
  cases call with
  | setFilename filename =>
      cases taken
      exact log.setFilename_mpLogStream filename
  | openLog fopen =>
      cases taken
      rcases log.openLog_cases fopen with ⟨filename, -, -, opens⟩ | ⟨-, same⟩
      · exact absurd (congrArg Prod.fst opens) (unopened fopen rfl)
      · exact congrArg mpLogStream same
  | close =>
      cases taken
      change log.close.mpLogStream = log.mpLogStream
      rw [close_mpLogStream]
      rcases unclosed rfl with closed | standard
      · simp [closed]
      · simp [standard]
  | write data len written =>
      cases taken
      exact (OnlyWrites.write log data len written).mpLogStream
  | message call outcome =>
      obtain ⟨_, returns⟩ := performed taken
      exact (OnlyWrites.message returns).mpLogStream

/-- An open log file cannot be opened again. -/
theorem openLog_of_open (opened : log.mpLogStream ≠ none) (fopen : Bool) :
    (log.openLog fopen).1 ≠ 0 := by
  rcases log.openLog_cases fopen with ⟨-, -, closed, -⟩ | ⟨failed, -⟩
  · exact absurd closed opened
  · exact failed.ne

/-- Every call keeps the standard output. -/
theorem step_stdout (standard : log.mpLogStream = some .stdout) {call : Call}
    (taken : machine.step log call = some log') : log'.mpLogStream = some .stdout := by
  rw [step_mpLogStream taken, standard]
  · intro fopen _
    exact openLog_of_open (by rw [standard]; exact Option.some_ne_none _) fopen
  · intro _
    exact Or.inr standard

/-- `message()` and `write()` refuse until an `open()` succeeds. -/
def Closed (log : LogFile) : Prop :=
  ∀ later now, machine.run log later = some now →
    machine.Steps
        (fun log call => ∀ fopen, call = .openLog fopen → (log.openLog fopen).1 ≠ 0) log later →
      (∀ call outcome, (now.message call outcome).map Prod.fst = some MSRVERR_LOG_NOT_OPEN) ∧
        ∀ data len written, (now.write data len written).1 = MSRVERR_LOG_NOT_OPEN

theorem closed_iff (log : LogFile) : log.Closed ↔ log.mpLogStream = none := by
  constructor
  · intro closed
    have refused := (closed [] log rfl trivial).2 none 0 0
    by_contra opened
    cases (refused.symm.trans (congrArg Prod.fst (if_neg opened)) :
      MSRVERR_LOG_NOT_OPEN = MSRVERR_NULL_ARGUMENT)
  · intro closed later now ran unopened
    have still : now.mpLogStream = none := by
      apply machine.run_invariant (fun log => log.mpLogStream = none) _ closed unopened ran
      intro log call _ closed unopened taken
      rw [step_mpLogStream taken unopened fun _ => Or.inl closed, closed]
    refine ⟨fun call outcome => ?_, fun data len written => ?_⟩
    · exact congrArg (Option.map Prod.fst) (if_pos still)
    · exact congrArg Prod.fst (if_pos still)

/-- Whatever a message adds is added to `stream`, and that is its line when it
returns 0. -/
def GoesTo (log : LogFile) (stream : LogStream) : Prop :=
  ∀ call outcome, ∀ returned ∈ log.message call outcome, ∃ added,
    returned.2.contents = Function.update log.contents stream (log.contents stream ++ added) ∧
      (returned.1 = 0 → added = call.line ++ ['\n'])

theorem add_contents (opened : log.mpLogStream = some stream) (piece : List Char) :
    (log.add piece).contents =
      Function.update log.contents stream (log.contents stream ++ piece) := by
  rw [add, opened]

/-- The writes of a message add their pieces one after the other, as far as they
get. -/
theorem writeAll_contents (opened : log.mpLogStream = some stream) (call : LogCall)
    (outcome : LogWrite → LogOutcome) (writes : List LogWrite) : ∃ added,
    (log.writeAll call outcome writes).2.contents =
        Function.update log.contents stream (log.contents stream ++ added) ∧
      ((log.writeAll call outcome writes).1 = 0 → added = writes.flatMap call.piece) := by
  induction writes generalizing log with
  | nil =>
      refine ⟨[], ?_, fun _ => rfl⟩
      rw [List.append_nil, Function.update_eq_self]
      rfl
  | cons write rest induction =>
      by_cases complete : outcome write = .written
      · have first := add_contents opened (call.piece write)
        obtain ⟨added, others, whole⟩ := induction ((OnlyWrites.add log _).mpLogStream.trans opened)
        rw [writeAll_of_written complete]
        refine ⟨call.piece write ++ added, ?_, fun returned => ?_⟩
        · rw [others, first, Function.update_self, Function.update_idem, List.append_assoc]
        · rw [whole returned, List.flatMap_cons]
      · rw [writeAll_of_failed complete]
        refine ⟨(outcome write).added (call.piece write), add_contents opened _, ?_⟩
        intro returned
        cases returned

/-- An open log file writes its messages to its stream. -/
theorem goesTo_of_open (opened : log.mpLogStream = some stream) : log.GoesTo stream := by
  intro call outcome returned returns
  have tests : log.lock.mpLogStream = some stream := opened
  rw [Option.mem_def] at returns
  unfold message at returns
  simp only [tests, reduceCtorEq, if_false] at returns
  split_ifs at returns
  · cases returns
    refine ⟨[], ?_, fun returned => by cases returned⟩
    rw [List.append_nil, Function.update_eq_self]
    rfl
  · cases returns
    refine ⟨[], ?_, fun returned => by cases returned⟩
    rw [List.append_nil, Function.update_eq_self]
    rfl
  · cases returns
    obtain ⟨added, others, whole⟩ :=
      writeAll_contents tests call outcome [.time, .header, .text, .newline]
    refine ⟨added, others, fun returned => (whole returned).trans ?_⟩
    simp [LogCall.line, LogCall.before, LogCall.piece]

/-- What follows when the name is set, and the log file is closed and opened. -/
def Reopens (log : LogFile) (filename : List Char) (fopen : Bool) : Prop :=
  let opened := (log.setFilename (some filename)).2.close.openLog fopen
  opened.1 ≠ MSRVERR_LOG_ALREADY_OPEN ∧
    (opened.1 = 0 → ∀ later now, (∀ call ∈ later, call ≠ .close) →
      machine.run opened.2 later = some now → now.GoesTo (streamOf filename))

/-- What `close` and `setFilename` are documented to do. -/
structure Rotates (log : LogFile) : Prop where
  closes : log.close.Closed
  reopens : ∀ filename fopen, log.Reopens filename fopen

/-- An open log file stays on its stream until it is closed. -/
theorem run_mpLogStream (opened : log.mpLogStream = some stream) {later : List Call}
    {now : LogFile} (unclosed : ∀ call ∈ later, call ≠ .close)
    (ran : machine.run log later = some now) : now.mpLogStream = some stream := by
  apply machine.run_invariant (fun log => log.mpLogStream = some stream) _ opened
    ((machine.steps_iff_forall ran).mpr unclosed) ran
  intro log call _ opened unclosed taken
  rw [step_mpLogStream taken, opened]
  · intro fopen _
    exact openLog_of_open (by rw [opened]; exact Option.some_ne_none _) fopen
  · intro close
    exact absurd close unclosed

theorem setFilename_filename (log : LogFile) (filename : List Char) :
    (log.setFilename (some filename)).2.filename = some filename := by
  rw [setFilename_eq]
  simp [LogFile.filename]

theorem close_filename (log : LogFile) : log.close.filename = log.filename := by
  rw [close_eq]
  split_ifs <;> rfl

/-- A log file that is not on the standard output goes to the stream of a new name. -/
theorem reopens_of_ne_stdout (file : log.mpLogStream ≠ some .stdout) (filename : List Char)
    (fopen : Bool) : log.Reopens filename fopen := by
  have closed : (log.setFilename (some filename)).2.close.mpLogStream = none := by
    rw [close_mpLogStream, setFilename_mpLogStream, if_neg file]
  have named : (log.setFilename (some filename)).2.close.filename = some filename := by
    rw [close_filename, setFilename_filename]
  unfold Reopens
  generalize (log.setFilename (some filename)).2.close = between at closed named
  simp only
  constructor
  · rw [openLog_eq, named]
    simp only [closed, ne_eq, not_true_eq_false, if_false]
    split_ifs
    · change (0 : MSrvResult) ≠ MSRVERR_LOG_ALREADY_OPEN
      decide
    · change (0 : MSrvResult) ≠ MSRVERR_LOG_ALREADY_OPEN
      decide
    · change MSRVERR_LOG_OPEN_FAILED ≠ MSRVERR_LOG_ALREADY_OPEN
      decide
  · intro opens later now unclosed ran
    rcases between.openLog_cases fopen with ⟨name, same, -, result⟩ | ⟨failed, -⟩
    · cases named.symm.trans same
      rw [result] at ran
      exact goesTo_of_open (run_mpLogStream rfl unclosed ran)
    · exact absurd opens failed.ne

/-- The documented behaviour depends on the stream alone. -/
theorem rotates_iff_ne_stdout (log : LogFile) : log.Rotates ↔ log.mpLogStream ≠ some .stdout := by
  constructor
  · intro rotates standard
    have closed := log.close.closed_iff.mp rotates.closes
    rw [close_mpLogStream, if_pos standard] at closed
    exact Option.some_ne_none _ closed
  · intro file
    refine ⟨log.close.closed_iff.mpr ?_, reopens_of_ne_stdout file⟩
    rw [close_mpLogStream, if_neg file]

/-- The call is an `open()` that opens the standard output. -/
def OpensStdout (log : LogFile) : Call → Prop
  | .openLog _ => log.filename = some ['-'] ∧ log.mpLogStream = none
  | _ => False

instance (log : LogFile) : (call : Call) → Decidable (log.OpensStdout call)
  | .openLog _ => inferInstanceAs (Decidable (log.filename = some ['-'] ∧ log.mpLogStream = none))
  | .setFilename _ | .close | .write .. | .message .. => isFalse id

/-- The standard output is opened by such a call and by no other. -/
theorem step_ne_stdout (file : log.mpLogStream ≠ some .stdout) {call : Call}
    (not_opened : ¬ log.OpensStdout call) (taken : machine.step log call = some log') :
    log'.mpLogStream ≠ some .stdout := by
  cases call with
  | setFilename filename =>
      cases taken
      rw [setFilename_mpLogStream]
      exact file
  | openLog fopen =>
      cases taken
      rcases log.openLog_cases fopen with ⟨filename, named, closed, opens⟩ | ⟨-, same⟩
      · intro standard
        have stream : some (streamOf filename) = some LogStream.stdout :=
          (congrArg (fun result => result.2.mpLogStream) opens).symm.trans standard
        by_cases dash : filename = ['-']
        · exact not_opened ⟨dash ▸ named, closed⟩
        · rw [streamOf, if_neg dash] at stream
          cases stream
      · exact fun standard => file ((congrArg mpLogStream same).symm.trans standard)
  | close =>
      cases taken
      change log.close.mpLogStream ≠ some .stdout
      rw [close_mpLogStream, if_neg file]
      exact (Option.some_ne_none _).symm
  | write data len written =>
      cases taken
      rw [(OnlyWrites.write log data len written).mpLogStream]
      exact file
  | message call outcome =>
      obtain ⟨_, returns⟩ := performed taken
      rw [(OnlyWrites.message returns).mpLogStream]
      exact file

theorem step_opensStdout {call : Call} (opened : log.OpensStdout call)
    (taken : machine.step log call = some log') : log'.mpLogStream = some .stdout := by
  cases call with
  | openLog fopen =>
      obtain ⟨named, closed⟩ := opened
      cases taken
      rw [openLog_eq, named]
      simp only [closed, ne_eq, not_true_eq_false, if_false, if_true]
      rfl
  | setFilename filename => exact opened.elim
  | close => exact opened.elim
  | write data len written => exact opened.elim
  | message call outcome => exact opened.elim

/-- The log file when its constructor calls `open()`. -/
def unopened (memory : LogFile) (filename : List Char) : LogFile :=
  { memory with
    mpFilename := .name memory.names.length
    mpLogStream := none
    named := true
    streamed := true
    names := memory.names ++ [filename] }

/-- What the constructor makes of a name, when it returns. -/
theorem ofFilename_eq_some {memory : LogFile} {filename : List Char} {fopen : Bool}
    (built : memory.ofFilename (some filename) fopen = some log) :
    log = (memory.unopened filename).setStream (some (streamOf filename)) := by
  have opening : memory.ofFilename (some filename) fopen =
      if ((memory.unopened filename).openLog fopen).1 < 0 then none
      else some ((memory.unopened filename).openLog fopen).2 := rfl
  have named : (memory.unopened filename).filename = some filename := by
    simp [unopened, LogFile.filename]
  rw [opening] at built
  rcases (memory.unopened filename).openLog_cases fopen with ⟨name, same, -, opens⟩ | ⟨failed, -⟩
  · cases named.symm.trans same
    rw [opens] at built
    exact (Option.some_inj.mp built).symm
  · rw [if_pos failed] at built
    cases built

/-- A log file made of a name closes and opens as documented, after any calls,
exactly when neither its constructor nor any `open()` has opened the standard
output. -/
theorem rotates_iff_never_stdout {memory final : LogFile} {filename : List Char} {fopen : Bool}
    {calls : List Call} (built : memory.ofFilename (some filename) fopen = some log)
    (ran : machine.run log calls = some final) :
    final.Rotates ↔
      filename ≠ ['-'] ∧ machine.Steps (fun log call => ¬ log.OpensStdout call) log calls := by
  have start : log.mpLogStream = some (streamOf filename) :=
    congrArg mpLogStream (ofFilename_eq_some built)
  rw [rotates_iff_ne_stdout]
  by_cases dash : filename = ['-']
  · apply iff_of_false _ fun never => never.1 dash
    rw [streamOf, if_pos dash] at start
    rw [not_not]
    apply machine.run_invariant (fun log => log.mpLogStream = some .stdout) _ start
      (machine.steps_true _ _) ran
    exact fun _ _ _ standard _ taken => step_stdout standard taken
  · rw [streamOf, if_neg dash] at start
    rw [and_iff_right dash]
    apply machine.law_iff_steps (fun log => log.mpLogStream ≠ some .stdout)
      (fun log => log.mpLogStream = some .stdout) _ _ _ _ _ (by rw [start]; simp)
      (machine.steps_true _ _) ran
    · exact fun _ _ _ file _ not_opened taken => step_ne_stdout file not_opened taken
    · exact fun _ _ _ _ _ opened taken => step_opensStdout (not_not.mp opened) taken
    · exact fun _ _ _ standard _ taken => step_stdout standard taken
    · exact fun _ file => file
    · exact fun _ standard file => file standard

/-- A log that goes from the file `a` to the file `b`. -/
theorem rotates_from_a_to_b : ∃ log final, (raw none).ofFilename (some ['a']) true = some log ∧
    machine.run log [.setFilename (some ['b']), .close, .openLog true] = some final ∧
      final.mpLogStream = some (.file ['b']) ∧ final.Rotates := by
  obtain ⟨log, built⟩ : ∃ log, (raw none).ofFilename (some ['a']) true = some log := ⟨_, rfl⟩
  obtain ⟨final, ran⟩ : ∃ final,
      machine.run log [.setFilename (some ['b']), .close, .openLog true] = some final := ⟨_, rfl⟩
  refine ⟨log, final, built, ran, ?_, (rotates_iff_never_stdout built ran).mpr ?_⟩
  · cases built
    cases ran
    rfl
  · cases built
    exact ⟨by decide, by decide⟩

/-- A log file made of the name `-` writes its messages after `close` as before,
and cannot be opened as the file `a`. -/
theorem stdout_not_closed : ∃ log, (raw none).ofFilename (some ['-']) true = some log ∧
    (log.close.message ⟨['M'], 6, 0, some ['x'], ⟨0, 0, 0, 1, 0, 0, by decide, by decide,
        by decide, by decide, by decide⟩⟩ fun _ => .written).map Prod.fst = some 0 ∧
      ((log.setFilename (some ['a'])).2.close.openLog true).1 = MSRVERR_LOG_ALREADY_OPEN ∧
      ¬ log.close.Closed ∧ ¬ log.Reopens ['a'] true := by
  refine ⟨_, rfl, by decide, by decide, ?_, fun reopens => reopens.1 (by decide)⟩
  rw [closed_iff]
  decide

end MSrv.LogFile
