import MagicServer.Log.Logging

/-!
# The log file

`LogFile` of `msrvlog.cc` as one thread uses it: its constructors, its
destructor and its calls, with the outcomes of the stdio calls inside them as
arguments. The state keeps what `strdup` has made and what has been released.
-/

namespace MSrv

/-- What `mpLogStream` points to, when it is not `NULL`. -/
inductive LogStream where
  | stdout
  /-- What `fopen` has returned for a name. -/
  | file (name : List Char)
  /-- Another stream that the user has opened. -/
  | user (number : Nat)
  deriving DecidableEq

/-- A value of `mpFilename`. -/
inductive NamePointer where
  | null
  /-- The result of one of the calls of `strdup`, by its number. -/
  | name (number : Nat)
  /-- An address that no call of `strdup` has returned, and the text that stands there. -/
  | junk (text : List Char)
  deriving DecidableEq

/-- A log file, with the calls of `strdup` and `delete` that it has made. -/
structure LogFile where
  mpFilename : NamePointer
  mpLogStream : Option LogStream
  /-- How often the thread holds the lock. -/
  mThreadLock : Nat
  /-- `mpFilename` has been given a value. -/
  named : Bool
  /-- `mpLogStream` has been given a value. -/
  streamed : Bool
  /-- The strings that `strdup` has made. -/
  names : List (List Char)
  /-- What has been released as a name. -/
  released : List NamePointer
  /-- What has been added to each stream. -/
  contents : LogStream → List Char

namespace LogFile

def lock (log : LogFile) : LogFile := { log with mThreadLock := log.mThreadLock + 1 }

def unlock (log : LogFile) : LogFile := { log with mThreadLock := log.mThreadLock - 1 }

/-- `strdup`. -/
def strdup (log : LogFile) (text : List Char) : NamePointer × LogFile :=
  (.name log.names.length, { log with names := log.names ++ [text] })

/-- `delete`, which does nothing for `NULL`, and with which the log file releases
what `strdup` has made. -/
def delete (log : LogFile) (pointer : NamePointer) : LogFile :=
  if pointer = .null then log else { log with released := log.released ++ [pointer] }

/-- `mpFilename = pointer`. -/
def assign (log : LogFile) (pointer : NamePointer) : LogFile :=
  { log with mpFilename := pointer, named := true }

/-- The string that `mpFilename` points to. -/
def filename (log : LogFile) : Option (List Char) :=
  match log.mpFilename with
  | .null => none
  | .name number => some (log.names[number]?.getD [])
  | .junk text => some text

/-- Something is added to the stream of the log, if there is one. -/
def add (log : LogFile) (piece : List Char) : LogFile :=
  match log.mpLogStream with
  | none => log
  | some stream =>
      { log with
        contents := Function.update log.contents stream (log.contents stream ++ piece) }

/-- The memory of a log file before its constructor, with an address or nothing
in the place of `mpFilename`. -/
def raw (leftover : Option (List Char)) : LogFile where
  mpFilename := match leftover with
    | none => .null
    | some text => .junk text
  mpLogStream := none
  mThreadLock := 0
  named := false
  streamed := false
  names := []
  released := []
  contents _ := []

/-- `mpLogStream = stream`. -/
def setStream (log : LogFile) (stream : Option LogStream) : LogFile :=
  { log with mpLogStream := stream, streamed := true }

/-- Opens log to the given already open stream. The constructor does not mention
`mpFilename`. -/
def ofStream (memory : LogFile) (stream : Option LogStream) : LogFile := memory.setStream stream

/-- Sets the file name. -/
def setFilename (log : LogFile) : Option (List Char) → MSrvResult × LogFile
  | none => (MSRVERR_LOG_NO_FILENAME, log)
  | some filename =>
      let log := log.lock
      let log := if log.mpFilename ≠ .null then log.delete log.mpFilename else log
      let (pointer, log) := log.strdup filename
      (0, (log.assign pointer).unlock)

/-- `open()`: opens the log file. `fopen` is whether the call of that name succeeds. -/
def openLog (log : LogFile) (fopen : Bool) : MSrvResult × LogFile :=
  let log := log.lock
  match log.filename with
  | none => (MSRVERR_LOG_NO_FILENAME, log.unlock)
  | some filename =>
      if log.mpLogStream ≠ none then (MSRVERR_LOG_ALREADY_OPEN, log.unlock)
      else if filename = ['-'] then (0, (log.setStream (some .stdout)).unlock)
      else if fopen then (0, (log.setStream (some (.file filename))).unlock)
      else (MSRVERR_LOG_OPEN_FAILED, log.unlock)

/-- Closes the log file, but not the standard output. -/
def close (log : LogFile) : LogFile :=
  let log := log.lock
  let log :=
    if log.mpLogStream ≠ none ∧ log.mpLogStream ≠ some .stdout then log.setStream none else log
  log.unlock

/-- What `setFilename` does apart from the lock. -/
theorem setFilename_eq (log : LogFile) (filename : List Char) :
    log.setFilename (some filename) =
      (0, { log with
        mpFilename := .name log.names.length
        named := true
        names := log.names ++ [filename]
        released := log.released ++ if log.mpFilename = .null then [] else [log.mpFilename] }) := by
  by_cases unnamed : log.mpFilename = .null
  · simp [setFilename, lock, unlock, strdup, assign, unnamed]
  · simp [setFilename, lock, unlock, strdup, assign, delete, unnamed]

/-- What `open()` does apart from the lock. -/
theorem openLog_eq (log : LogFile) (fopen : Bool) :
    log.openLog fopen =
      match log.filename with
      | none => (MSRVERR_LOG_NO_FILENAME, log)
      | some filename =>
          if log.mpLogStream ≠ none then (MSRVERR_LOG_ALREADY_OPEN, log)
          else if filename = ['-'] then (0, log.setStream (some .stdout))
          else if fopen then (0, log.setStream (some (.file filename)))
          else (MSRVERR_LOG_OPEN_FAILED, log) := rfl

/-- What `close` does apart from the lock. -/
theorem close_eq (log : LogFile) :
    log.close =
      if log.mpLogStream ≠ none ∧ log.mpLogStream ≠ some .stdout then log.setStream none
      else log := by
  by_cases opened : log.mpLogStream ≠ none ∧ log.mpLogStream ≠ some .stdout
  · simp [close, lock, unlock, setStream, opened]
  · simp only [close, lock, unlock, opened, if_false, Nat.add_sub_cancel]

/-- Writes a block of data to log stream. `written` is the result of `fwrite`. -/
def write (log : LogFile) (data : Option (List Char)) (len written : Int) : MSrvResult × LogFile :=
  let log := log.lock
  if log.mpLogStream = none then (MSRVERR_LOG_NOT_OPEN, log)
  else
    match data with
    | none => (MSRVERR_NULL_ARGUMENT, log)
    | some data =>
        let log := log.add (data.take written.toNat)
        if written < len then (MSRVERR_SHORT_WRITE, log) else (0, log.unlock)

/-- The writes of a log message, each with its test, and what follows the last.
Only the formatted message may be empty. -/
def writeAll (log : LogFile) (call : LogCall) (outcome : LogWrite → LogOutcome) :
    List LogWrite → MSrvResult × LogFile
  | [] => (0, log.unlock)
  | write :: rest =>
      let piece := call.piece write
      let log := log.add ((outcome write).added piece)
      let written := (outcome write).result piece
      if written < 0 ∨ (written = 0 ∧ write ≠ .text) then (MSRVERR_LOG_WRITE_FAILED, log)
      else log.writeAll call outcome rest

/-- Writes a log message. The negation of the least `int`, and a year that is no
`int`, have no result. -/
def message (log : LogFile) (call : LogCall) (outcome : LogWrite → LogOutcome) :
    Option (MSrvResult × LogFile) :=
  let log := log.lock
  if log.mpLogStream = none then some (MSRVERR_LOG_NOT_OPEN, log)
  else if call.message = none then some (MSRVERR_NULL_ARGUMENT, log)
  else if call.fatality < 0 ∨ call.fatality > Log.Debug then
    some (MSRVERR_LOG_INVALID_FATALITY, log)
  else if call.errno = INT_MIN ∨ 1900 + call.time.tm_year > INT_MAX then none
  else some (log.writeAll call outcome [.time, .header, .text, .newline])

/-- A complete write is followed by the next one, -/
theorem writeAll_of_written {outcome : LogWrite → LogOutcome} {write : LogWrite}
    (complete : outcome write = .written) (log : LogFile) (call : LogCall)
    (rest : List LogWrite) :
    log.writeAll call outcome (write :: rest) =
      (log.add (call.piece write)).writeAll call outcome rest := by
  have passes :=
    (not_congr ((outcome write).test_iff call write)).mpr (not_not.mpr complete)
  rw [writeAll]
  simp only [if_neg passes]
  rw [complete, LogOutcome.added]

/-- and a failed one ends the call. -/
theorem writeAll_of_failed {outcome : LogWrite → LogOutcome} {write : LogWrite}
    (failed : outcome write ≠ .written) (log : LogFile) (call : LogCall) (rest : List LogWrite) :
    log.writeAll call outcome (write :: rest) =
      (MSRVERR_LOG_WRITE_FAILED, log.add ((outcome write).added (call.piece write))) :=
  if_pos (((outcome write).test_iff call write).mpr failed)

/-- Opens a log file with the given name; there is none when the constructor
throws, since the file cannot be opened. -/
def ofFilename (memory : LogFile) (filename : Option (List Char)) (fopen : Bool) :
    Option LogFile :=
  let log := memory.setStream none
  let (pointer, log) :=
    match filename with
    | none => (NamePointer.null, log)
    | some filename => log.strdup filename
  let (result, log) := (log.assign pointer).openLog fopen
  if result < 0 then none else some log

/-- The destructor. -/
def destroy (log : LogFile) : LogFile :=
  let log := log.lock.close
  (log.delete log.mpFilename).unlock

/-- A call on a log file, with the outcomes of the stdio calls inside it. -/
inductive Call where
  | setFilename (filename : Option (List Char))
  | openLog (fopen : Bool)
  | close
  | write (data : Option (List Char)) (len written : Int)
  | message (call : LogCall) (outcome : LogWrite → LogOutcome)

/-- The result of a call, which is 0 for `close`, and the log file after it. -/
def perform (log : LogFile) : Call → Option (MSrvResult × LogFile)
  | .setFilename filename => some (log.setFilename filename)
  | .openLog fopen => some (log.openLog fopen)
  | .close => some (0, log.close)
  | .write data len written => some (log.write data len written)
  | .message call outcome => log.message call outcome

/-- Any sequence of calls is a run. -/
def machine : Machine LogFile Call where
  step log call := (log.perform call).map Prod.snd

theorem performed {log next : LogFile} {call : Call} (taken : machine.step log call = some next) :
    ∃ result, log.perform call = some (result, next) := by
  obtain ⟨⟨result, _⟩, returns, rfl⟩ := Option.map_eq_some_iff.mp taken
  exact ⟨result, returns⟩

/-! ## What writing leaves -/

/-- Nothing but the lock and the contents of the streams changes. -/
structure OnlyWrites (log log' : LogFile) : Prop where
  mpFilename : log'.mpFilename = log.mpFilename
  mpLogStream : log'.mpLogStream = log.mpLogStream
  named : log'.named = log.named
  streamed : log'.streamed = log.streamed
  names : log'.names = log.names
  released : log'.released = log.released

namespace OnlyWrites

variable {log log' log'' : LogFile}

theorem lock (log : LogFile) : OnlyWrites log log.lock := ⟨rfl, rfl, rfl, rfl, rfl, rfl⟩

theorem unlock (log : LogFile) : OnlyWrites log log.unlock := ⟨rfl, rfl, rfl, rfl, rfl, rfl⟩

theorem trans (first : OnlyWrites log log') (second : OnlyWrites log' log'') :
    OnlyWrites log log'' where
  mpFilename := second.mpFilename.trans first.mpFilename
  mpLogStream := second.mpLogStream.trans first.mpLogStream
  named := second.named.trans first.named
  streamed := second.streamed.trans first.streamed
  names := second.names.trans first.names
  released := second.released.trans first.released

theorem add (log : LogFile) (piece : List Char) : OnlyWrites log (log.add piece) := by
  unfold LogFile.add
  split <;> exact ⟨rfl, rfl, rfl, rfl, rfl, rfl⟩

theorem write (log : LogFile) (data : Option (List Char)) (len written : Int) :
    OnlyWrites log (log.write data len written).2 := by
  unfold LogFile.write
  simp only
  by_cases closed : log.lock.mpLogStream = none
  · rw [if_pos closed]
    exact lock log
  · rw [if_neg closed]
    cases data with
    | none => exact lock log
    | some data =>
        have added := (lock log).trans (add _ (data.take written.toNat))
        simp only
        split_ifs
        · exact added
        · exact added.trans (unlock _)

theorem writeAll (log : LogFile) (call : LogCall) (outcome : LogWrite → LogOutcome)
    (writes : List LogWrite) : OnlyWrites log (log.writeAll call outcome writes).2 := by
  induction writes generalizing log with
  | nil => exact unlock log
  | cons write rest induction =>
      unfold LogFile.writeAll
      simp only
      split_ifs
      · exact add log _
      · exact (add log _).trans (induction _)

theorem message {log : LogFile} {call : LogCall} {outcome : LogWrite → LogOutcome}
    {returned : MSrvResult × LogFile} (returns : log.message call outcome = some returned) :
    OnlyWrites log returned.2 := by
  unfold LogFile.message at returns
  simp only at returns
  split_ifs at returns
  · cases returns
    exact lock log
  · cases returns
    exact lock log
  · cases returns
    exact lock log
  · cases returns
    exact (lock log).trans (writeAll _ call outcome _)

end OnlyWrites

end LogFile

end MSrv
