import MagicServer.Def
import MagicServer.Library.Machine
import MagicServer.Library.Numeral
import MagicServer.Library.RecursiveLock
import Mathlib.Logic.Function.Basic

/-!
# Messages to a log file

`LogFile::message` of `msrvlog.cc`, called by any number of threads on one
`LogFile`. One action is the entry of a thread, the taking of `mThreadLock`, the
tests of the arguments, one of the four writes to the stream with its outcome,
or the release of the lock. A call that returns early keeps the lock.
-/

namespace MSrv

/-- `struct tm`, with the ranges of the C standard. -/
structure Tm where
  tm_sec : Int
  tm_min : Int
  tm_hour : Int
  tm_mday : Int
  tm_mon : Int
  tm_year : Int
  sec_range : 0 ≤ tm_sec ∧ tm_sec ≤ 60
  min_range : 0 ≤ tm_min ∧ tm_min ≤ 59
  hour_range : 0 ≤ tm_hour ∧ tm_hour ≤ 23
  mday_range : 1 ≤ tm_mday ∧ tm_mday ≤ 31
  mon_range : 0 ≤ tm_mon ∧ tm_mon ≤ 11
  deriving DecidableEq

/-- `Log::Debug`, the last value of the severities. -/
def Log.Debug : Int := 7

/-- The names of the severities. -/
def fatalities : List String :=
  ["EMERGENCY", "ALERT", "CRITICAL", "ERROR", "WARNING", "NOTICE", "INFO", "DEBUG"]

/-- A call of `message()`: its arguments and the local time at which it is made. -/
structure LogCall where
  modulename : List Char
  fatality : Int
  errno : Int
  /-- What the message and the arguments after it are formatted to; `none` when
  the message is `NULL`. -/
  message : Option (List Char)
  time : Tm
  deriving DecidableEq

/-- The writes to the stream that one call makes. -/
inductive LogWrite where
  | time
  | header
  | text
  | newline
  deriving DecidableEq

/-- The write after this one. -/
def LogWrite.next : LogWrite → Option LogWrite
  | .time => some .header
  | .header => some .text
  | .text => some .newline
  | .newline => none

namespace LogCall

/-- The format `%04d/%02d/%02d %02d:%02d:%02d` and a blank. -/
def printTime (tm : Tm) : List Char :=
  Numeral.print 4 (1900 + tm.tm_year) ++ '/' :: (Numeral.print 2 tm.tm_mon ++ '/' ::
    (Numeral.print 2 tm.tm_mday ++ ' ' :: (Numeral.print 2 tm.tm_hour ++ ':' ::
      (Numeral.print 2 tm.tm_min ++ ':' :: (Numeral.print 2 tm.tm_sec ++ [' '])))))

/-- The message number, made positive. -/
def number (call : LogCall) : Int := if call.errno < 0 then -call.errno else call.errno

/-- `fatalities[fatality]`. -/
def severity (call : LogCall) : List Char :=
  (fatalities[call.fatality.toNat]?.getD "").toList

/-- The format `%s %s %d:` and a blank. -/
def printHeader (call : LogCall) : List Char :=
  call.modulename ++ ' ' :: (call.severity ++ ' ' :: (Numeral.print 0 call.number ++ [':', ' ']))

/-- The formatted message. -/
def text (call : LogCall) : List Char := call.message.getD []

/-- What one write adds to the stream when it succeeds. -/
def piece (call : LogCall) : LogWrite → List Char
  | .time => printTime call.time
  | .header => call.printHeader
  | .text => call.text
  | .newline => ['\n']

/-- What a call has added before a write. -/
def before (call : LogCall) : LogWrite → List Char
  | .time => []
  | .header => call.piece .time
  | .text => call.piece .time ++ call.piece .header
  | .newline => call.piece .time ++ call.piece .header ++ call.piece .text

/-- The line of a call, without the newline. -/
def line (call : LogCall) : List Char := call.before .newline

end LogCall

/-- The outcome of a write: everything has been written, or an error is returned
after the first `count` characters. -/
inductive LogOutcome where
  | written
  | failed (count : Nat)
  deriving DecidableEq

/-- What the write of `piece` adds to the stream. -/
def LogOutcome.added (piece : List Char) : LogOutcome → List Char
  | .written => piece
  | .failed count => piece.take count

/-- What `fprintf` returns. -/
def LogOutcome.result (piece : List Char) : LogOutcome → Int
  | .written => piece.length
  | .failed _ => -1

/-- Only the formatted message can be empty. -/
theorem LogCall.piece_ne_nil (call : LogCall) {write : LogWrite} (other : write ≠ .text) :
    call.piece write ≠ [] := by
  cases write with
  | time => exact List.append_ne_nil_of_right_ne_nil _ (List.cons_ne_nil _ _)
  | header => exact List.append_ne_nil_of_right_ne_nil _ (List.cons_ne_nil _ _)
  | text => exact absurd rfl other
  | newline => exact List.cons_ne_nil _ _

/-- The test after a write finds every failure, and nothing else. -/
theorem LogOutcome.test_iff (outcome : LogOutcome) (call : LogCall) (write : LogWrite) :
    (outcome.result (call.piece write) < 0 ∨
      (outcome.result (call.piece write) = 0 ∧ write ≠ .text)) ↔ outcome ≠ .written := by
  cases outcome with
  | failed count =>
      have negative : (LogOutcome.failed count).result (call.piece write) < 0 := by
        change (-1 : Int) < 0
        decide
      exact iff_of_true (Or.inl negative) LogOutcome.noConfusion
  | written =>
      apply iff_of_false _ fun failed => failed rfl
      rintro (negative | ⟨zero, other⟩)
      · exact absurd negative (not_lt.mpr (Int.natCast_nonneg _))
      · exact call.piece_ne_nil other (List.length_eq_zero_iff.mp (Int.natCast_eq_zero.mp zero))

/-- Where a thread is in `message()`. -/
inductive MessagePc where
  | idle
  /-- About to take `mThreadLock`. -/
  | locking (call : LogCall)
  /-- At the tests of the stream and the arguments. -/
  | testing (call : LogCall)
  | writing (call : LogCall) (write : LogWrite)
  | unlocking (call : LogCall)
  deriving DecidableEq

/-- A `LogFile` and `threads` threads that call `message()` on it. The last two
fields are history: the calls that have been made, and those that have returned
with their results. -/
structure Logging (threads : Nat) where
  /-- What has been added to the stream; `none` when `mpLogStream` is `NULL`. -/
  mpLogStream : Option (List Char)
  mThreadLock : RecursiveLock (Fin threads)
  pc : Fin threads → MessagePc
  called : List LogCall
  returned : List (LogCall × MSrvResult)

namespace Logging

variable {threads : Nat}

/-- An open `LogFile` on which no call has been made. -/
def opened (threads : Nat) : Logging threads where
  mpLogStream := some []
  mThreadLock := .free
  pc _ := .idle
  called := []
  returned := []

inductive Action (threads : Nat) where
  | call (t : Fin threads) (call : LogCall)
  | lock (t : Fin threads)
  | test (t : Fin threads)
  | write (t : Fin threads) (outcome : LogOutcome)
  | unlock (t : Fin threads)
  deriving DecidableEq

/-- The thread goes on at `pc`. -/
def go (logging : Logging threads) (t : Fin threads) (pc : MessagePc) : Logging threads :=
  { logging with pc := Function.update logging.pc t pc }

/-- `message()` returns. -/
def finish (logging : Logging threads) (t : Fin threads) (call : LogCall) (result : MSrvResult) :
    Logging threads :=
  { logging with
    pc := Function.update logging.pc t .idle
    returned := logging.returned ++ [(call, result)] }

/-- Something is added to the stream, if there is one. -/
def add (logging : Logging threads) (piece : List Char) : Logging threads :=
  { logging with mpLogStream := logging.mpLogStream.map fun text => text ++ piece }

/-- The tests of the stream and the arguments; the negation of the least `int`
has no result. -/
def test (logging : Logging threads) (t : Fin threads) (call : LogCall) :
    Option (Logging threads) :=
  if logging.mpLogStream = none then some (logging.finish t call MSRVERR_LOG_NOT_OPEN)
  else if call.message = none then some (logging.finish t call MSRVERR_NULL_ARGUMENT)
  else if call.fatality < 0 ∨ call.fatality > Log.Debug then
    some (logging.finish t call MSRVERR_LOG_INVALID_FATALITY)
  else if call.errno = INT_MIN then none
  else some (logging.go t (.writing call .time))

/-- A write with its test. Only the formatted message may be empty. A year that
is no `int` has no result. -/
def write (logging : Logging threads) (t : Fin threads) (call : LogCall) (write : LogWrite)
    (outcome : LogOutcome) : Option (Logging threads) :=
  if write = .time ∧ 1900 + call.time.tm_year > INT_MAX then none
  else
    let piece := call.piece write
    let logging := logging.add (outcome.added piece)
    let written := outcome.result piece
    if written < 0 ∨ (written = 0 ∧ write ≠ .text) then
      some (logging.finish t call MSRVERR_LOG_WRITE_FAILED)
    else
      match write.next with
      | some next => some (logging.go t (.writing call next))
      | none => some (logging.go t (.unlocking call))

/-- One step of one thread in `message()`. -/
def step (logging : Logging threads) : Action threads → Option (Logging threads)
  | .call t call =>
      match logging.pc t with
      | .idle =>
          some (Logging.go { logging with called := logging.called ++ [call] } t (.locking call))
      | _ => none
  | .lock t =>
      match logging.pc t with
      | .locking call =>
          (logging.mThreadLock.take t).map fun lock =>
            Logging.go { logging with mThreadLock := lock } t (.testing call)
      | _ => none
  | .test t =>
      match logging.pc t with
      | .testing call => logging.test t call
      | _ => none
  | .write t outcome =>
      match logging.pc t with
      | .writing call write => logging.write t call write outcome
      | _ => none
  | .unlock t =>
      match logging.pc t with
      | .unlocking call =>
          let logging := { logging with mThreadLock := logging.mThreadLock.release t }
          some (logging.finish t call 0)
      | _ => none

/-- Every interleaving of the threads is a run. -/
def machine (threads : Nat) : Machine (Logging threads) (Action threads) where
  step := step

end Logging

end MSrv
