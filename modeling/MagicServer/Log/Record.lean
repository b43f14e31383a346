import MagicServer.Log.Logging
import Mathlib.Algebra.Order.Group.Unbundled.Abs

/-!
# What a line of the log says

The record that a line of the log is meant to hold, and how it is read. Every
field is read back but the month: `tm_mon` counts from 0 and is written as it is.
-/

namespace MSrv

/-- What a line of the log says; the months count from 1. -/
structure LogRecord where
  year : Int
  month : Int
  day : Int
  hour : Int
  minute : Int
  second : Int
  modulename : List Char
  severity : List Char
  number : Int
  text : List Char
  deriving DecidableEq

namespace LogRecord

/-- What stands after each field of a line but the last. The message number is
followed by a colon and a blank, with nothing between them. -/
def separators : List Char := ['/', '/', ' ', ':', ':', ' ', ' ', ' ', ':', ' ']

/-- Reads a line of the log. -/
def parse (line : List Char) : Option LogRecord :=
  match Field.cuts separators line with
  | some [year, month, day, hour, minute, second, modulename, severity, number, [], text] => do
      some
        { year := ← Numeral.read year
          month := ← Numeral.read month
          day := ← Numeral.read day
          hour := ← Numeral.read hour
          minute := ← Numeral.read minute
          second := ← Numeral.read second
          modulename := modulename
          severity := severity
          number := ← Numeral.read number
          text := text }
  | _ => none

end LogRecord

namespace LogCall

/-- What the line of a call is meant to say. -/
def record (call : LogCall) : LogRecord where
  year := 1900 + call.time.tm_year
  month := call.time.tm_mon + 1
  day := call.time.tm_mday
  hour := call.time.tm_hour
  minute := call.time.tm_min
  second := call.time.tm_sec
  modulename := call.modulename
  severity := call.severity
  number := |call.errno|
  text := call.text

/-- The module name has no white space, and the formatted message has no newline. -/
structure Plain (call : LogCall) : Prop where
  modulename : ∀ c ∈ call.modulename, c.isWhitespace = false
  text : '\n' ∉ call.text

theorem plain_iff (call : LogCall) : call.Plain ↔
    (call.modulename.all fun c => !c.isWhitespace) = true ∧ '\n' ∉ call.text := by
  simp only [List.all_eq_true, Bool.not_eq_true']
  constructor
  · rintro ⟨modulename, text⟩
    exact ⟨modulename, text⟩
  · rintro ⟨modulename, text⟩
    exact ⟨modulename, text⟩

instance (call : LogCall) : Decidable call.Plain := decidable_of_iff' _ call.plain_iff

/-- The fields of the line of a call, each with what stands after it. -/
def fields (call : LogCall) : List (List Char × Char) :=
  [(Numeral.print 4 (1900 + call.time.tm_year), '/'), (Numeral.print 2 call.time.tm_mon, '/'),
    (Numeral.print 2 call.time.tm_mday, ' '), (Numeral.print 2 call.time.tm_hour, ':'),
    (Numeral.print 2 call.time.tm_min, ':'), (Numeral.print 2 call.time.tm_sec, ' '),
    (call.modulename, ' '), (call.severity, ' '), (Numeral.print 0 call.number, ':'), ([], ' ')]

theorem line_eq (call : LogCall) : call.line = Field.join call.fields call.text := by
  simp only [line, before, piece, printTime, printHeader, fields, Field.join, List.append_assoc,
    List.cons_append, List.nil_append]

theorem number_eq (call : LogCall) : call.number = |call.errno| := by
  unfold number
  split_ifs with negative
  · exact (abs_of_neg negative).symm
  · exact (abs_of_nonneg (not_lt.mp negative)).symm

/-- No severity has a blank or a newline in its name. -/
theorem severity_plain (call : LogCall) : ∀ c ∈ call.severity, c.isWhitespace = false := by
  have names : (fatalities.all fun name => name.toList.all fun c => !c.isWhitespace) = true := by
    decide
  simp only [List.all_eq_true, Bool.not_eq_true'] at names
  unfold severity
  cases found : fatalities[call.fatality.toNat]? with
  | none => exact nofun
  | some name => exact names name (List.mem_of_getElem? found)

/-- White space does not occur where there is none. -/
theorem not_mem_of_white {c : Char} {field : List Char} (white : c.isWhitespace = true)
    (plain : ∀ c ∈ field, c.isWhitespace = false) : c ∉ field := by
  intro member
  rw [plain c member] at white
  cases white

/-- No field has the character in it that stands after it. -/
theorem fields_absent {call : LogCall} (plain : call.Plain) :
    ∀ entry ∈ call.fields, entry.2 ∉ entry.1 := by
  have numeral : ∀ {c : Char}, c.isDigit = false → c ≠ '-' → ∀ width number,
      c ∉ Numeral.print width number := Numeral.not_mem_print
  simp only [fields, List.forall_mem_cons]
  refine ⟨?_, ?_, ?_, ?_, ?_, ?_, not_mem_of_white rfl plain.modulename,
    not_mem_of_white rfl call.severity_plain, ?_, List.not_mem_nil, nofun⟩ <;>
      exact numeral rfl (by decide) _ _

/-- The line of a call is one line. -/
theorem newline_not_mem_line {call : LogCall} (plain : call.Plain) : '\n' ∉ call.line := by
  have numeral : ∀ width number, '\n' ∉ Numeral.print width number :=
    Numeral.not_mem_print rfl (by decide)
  have separators : '\n' ∉ call.fields.map Prod.snd := by
    change '\n' ∉ LogRecord.separators
    decide
  rw [line_eq]
  apply Field.not_mem_join _ separators plain.text
  have modulename : '\n' ∉ call.modulename := not_mem_of_white rfl plain.modulename
  have severity : '\n' ∉ call.severity := not_mem_of_white rfl call.severity_plain
  simp only [fields, List.forall_mem_cons, numeral, modulename, severity, List.not_mem_nil,
    not_false_eq_true, true_and]
  exact nofun

/-- A line says what it is meant to say, but for the month. -/
theorem parse_line {call : LogCall} (plain : call.Plain) :
    LogRecord.parse call.line = some { call.record with month := call.time.tm_mon } := by
  have cuts := Field.cuts_join (fields_absent plain) call.text
  have separators : call.fields.map Prod.snd = LogRecord.separators := rfl
  rw [separators] at cuts
  unfold LogRecord.parse
  rw [line_eq, cuts]
  simp only [fields, List.map_cons, List.map_nil, List.cons_append, List.nil_append,
    Numeral.read_print, number_eq, record, Option.bind_eq_bind, Option.bind_some]

end LogCall

end MSrv
