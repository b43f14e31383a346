import Mathlib.Algebra.Order.Ring.Int
import Mathlib.Data.List.Basic

/-!
# Numerals and fields of a line

Decimal numerals of integers, padded with zeros to a width, can be read back at
every width. A line of fields is read by cutting it at one separator after the
other; a field comes back whole when its separator does not occur in it.
-/

namespace Numeral

/-- The conversion `%0*d`: the sign counts for the width. -/
def print (width : Nat) (number : Int) : List Char :=
  let digits := Nat.toDigits 10 number.natAbs
  if number < 0 then '-' :: (List.replicate (width - 1 - digits.length) '0' ++ digits)
  else List.replicate (width - digits.length) '0' ++ digits

/-- The number that digits stand for, if there are only digits and at least one. -/
def readDigits (digits : List Char) : Option Nat :=
  if digits ≠ [] ∧ digits.all Char.isDigit then some (Nat.ofDigitChars 10 digits 0) else none

/-- The number that a numeral stands for. -/
def read : List Char → Option Int
  | '-' :: digits => (readDigits digits).map fun (number : Nat) => -(number : Int)
  | digits => (readDigits digits).map fun (number : Nat) => (number : Int)

theorem isDigit_of_mem_padded {zeros number : Nat} {c : Char}
    (member : c ∈ List.replicate zeros '0' ++ Nat.toDigits 10 number) : c.isDigit := by
  rcases List.mem_append.mp member with zero | digit
  · rw [List.eq_of_mem_replicate zero]
    rfl
  · exact Nat.isDigit_of_mem_toDigits (by decide) (by decide) digit

/-- Zeros before the digits of a number are read as nothing. -/
theorem readDigits_padded (zeros number : Nat) :
    readDigits (List.replicate zeros '0' ++ Nat.toDigits 10 number) = some number := by
  have nonempty : List.replicate zeros '0' ++ Nat.toDigits 10 number ≠ [] :=
    List.append_ne_nil_of_right_ne_nil _ Nat.toDigits_ne_nil
  have digits : (List.replicate zeros '0' ++ Nat.toDigits 10 number).all Char.isDigit := by
    rw [List.all_eq_true]
    exact fun c => isDigit_of_mem_padded
  unfold readDigits
  rw [if_pos ⟨nonempty, digits⟩, Nat.ofDigitChars_append, Nat.ofDigitChars_replicate_zero,
    Nat.mul_zero, Nat.ofDigitChars_ten_toDigits]

theorem read_of_digit {digits : List Char} (digit : ∀ c ∈ digits, c.isDigit) :
    read digits = (readDigits digits).map fun (number : Nat) => (number : Int) := by
  unfold read
  split
  · next rest => exact absurd (digit '-' List.mem_cons_self) (by decide)
  · rfl

/-- A printed number is read back. -/
theorem read_print (width : Nat) (number : Int) : read (print width number) = some number := by
  unfold print
  split_ifs with negative
  · rw [read, readDigits_padded, Option.map_some]
    congr 1
    omega
  · rw [read_of_digit fun c => isDigit_of_mem_padded, readDigits_padded, Option.map_some]
    congr 1
    omega

/-- There is nothing but digits and a sign in a printed number. -/
theorem not_mem_print {c : Char} (digit : c.isDigit = false) (sign : c ≠ '-') (width : Nat)
    (number : Int) : c ∉ print width number := by
  have absent : ∀ zeros, c ∉ List.replicate zeros '0' ++ Nat.toDigits 10 number.natAbs := by
    intro zeros member
    rw [isDigit_of_mem_padded member] at digit
    cases digit
  unfold print
  split_ifs
  · exact List.not_mem_cons_of_ne_of_not_mem sign (absent _)
  · exact absent _

end Numeral

namespace Field

variable {Symbol : Type*} [DecidableEq Symbol]

/-- The part of a line before the first separator and the part after it. -/
def cut (separator : Symbol) : List Symbol → Option (List Symbol × List Symbol)
  | [] => none
  | symbol :: rest =>
      if symbol = separator then some ([], rest)
      else (cut separator rest).map fun (field, rest) => (symbol :: field, rest)

/-- The fields of a line that is cut at one separator after the other, and the rest. -/
def cuts : List Symbol → List Symbol → Option (List (List Symbol))
  | [], line => some [line]
  | separator :: separators, line =>
      (cut separator line).bind fun (field, rest) => (cuts separators rest).map (field :: ·)

/-- Fields, each with a separator after it, and a last one. -/
def join : List (List Symbol × Symbol) → List Symbol → List Symbol
  | [], last => last
  | (field, separator) :: rest, last => field ++ separator :: join rest last

/-- A field without the separator is cut off whole. -/
theorem cut_append {separator : Symbol} {field : List Symbol} (absent : separator ∉ field)
    (rest : List Symbol) : cut separator (field ++ separator :: rest) = some (field, rest) := by
  induction field with
  | nil => exact if_pos rfl
  | cons symbol field ih =>
      rw [List.mem_cons, not_or] at absent
      rw [List.cons_append, cut, if_neg (Ne.symm absent.1), ih absent.2, Option.map_some]

/-- Joined fields come back when no separator occurs in the field before it. -/
theorem cuts_join {fields : List (List Symbol × Symbol)}
    (absent : ∀ entry ∈ fields, entry.2 ∉ entry.1) (last : List Symbol) :
    cuts (fields.map Prod.snd) (join fields last) = some (fields.map Prod.fst ++ [last]) := by
  induction fields with
  | nil => rfl
  | cons entry rest ih =>
      rw [List.forall_mem_cons] at absent
      simp only [List.map_cons, cuts, join, cut_append absent.1, Option.bind_some, ih absent.2,
        Option.map_some, List.cons_append]

omit [DecidableEq Symbol] in
/-- What occurs in no field and is no separator occurs nowhere in the line. -/
theorem not_mem_join {symbol : Symbol} {fields : List (List Symbol × Symbol)}
    (absent : ∀ entry ∈ fields, symbol ∉ entry.1) (other : symbol ∉ fields.map Prod.snd)
    {last : List Symbol} (after : symbol ∉ last) : symbol ∉ join fields last := by
  induction fields with
  | nil => exact after
  | cons entry rest ih =>
      rw [List.forall_mem_cons] at absent
      rw [List.map_cons, List.mem_cons, not_or] at other
      simp only [join, List.mem_append, List.mem_cons, not_or]
      exact ⟨absent.1, other.1, ih absent.2 other.2⟩

/-- Rows with a separator after each of them are split into the rows and an empty rest. -/
theorem splitOn_flatMap {separator : Symbol} {rows : List (List Symbol)}
    (absent : ∀ row ∈ rows, separator ∉ row) :
    (rows.flatMap fun row => row ++ [separator]).splitOn separator = rows ++ [[]] := by
  induction rows with
  | nil => rfl
  | cons row rows ih =>
      rw [List.forall_mem_cons] at absent
      rw [List.flatMap_cons, List.append_assoc, List.singleton_append,
        List.splitOn_append_cons_self_of_not_mem absent.1, ih absent.2, List.cons_append]

end Field
