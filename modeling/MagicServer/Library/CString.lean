import Mathlib.Data.List.TakeWhile
import Mathlib.Data.List.Basic

/-!
# Strings in buffers

A C string ends at the first zero byte, so none of its bytes is zero. Reading one
from a buffer is defined only where the buffer has a zero byte; otherwise the
reader leaves the buffer. Texts between a fixed beginning and a fixed end can be
taken out of them again.
-/

/-- The bytes of a C string before the zero that ends it. -/
@[ext] structure CString where
  bytes : List UInt8
  no_nul : 0 ∉ bytes
  deriving DecidableEq

namespace CString

/-- The string at the beginning of a buffer; there is none in a buffer without a zero byte. -/
def read : List UInt8 → Option CString
  | [] => none
  | byte :: rest =>
      if nul : byte = 0 then some ⟨[], List.not_mem_nil⟩
      else (read rest).map fun text =>
        ⟨byte :: text.bytes, List.not_mem_cons_of_ne_of_not_mem (Ne.symm nul) text.no_nul⟩

/-- What stands before the first zero byte. -/
def upTo (buffer : List UInt8) : CString where
  bytes := buffer.takeWhile (· ≠ 0)
  no_nul nul := by simpa using List.mem_takeWhile_imp nul

/-- A text of characters below 256. -/
def ofChars (text : List Char) : CString := upTo (text.map Char.toUInt8)

/-- A string literal. -/
def ofString (text : String) : CString := ofChars text.toList

instance : Append CString where
  append first second :=
    ⟨first.bytes ++ second.bytes, fun nul => (List.mem_append.mp nul).elim first.no_nul
      second.no_nul⟩

/-- What `snprintf` leaves of a text in a buffer of `size` bytes. -/
def snprintf (size : Nat) (text : CString) : CString where
  bytes := text.bytes.take (size - 1)
  no_nul nul := text.no_nul (List.mem_of_mem_take nul)

/-- `strlen`. -/
def length (text : CString) : Nat := text.bytes.length

@[simp] theorem bytes_append (first second : CString) :
    (first ++ second).bytes = first.bytes ++ second.bytes := rfl

/-- A string is all of its bytes. -/
@[simp] theorem upTo_bytes (text : CString) : upTo text.bytes = text := by
  refine CString.ext (List.takeWhile_eq_self_iff.mpr fun byte member => ?_)
  exact decide_eq_true fun nul => text.no_nul (nul ▸ member)

theorem ofUInt8_toUInt8 {c : Char} (ascii : c.toNat < 128) : Char.ofUInt8 c.toUInt8 = c := by
  apply Char.ext
  apply UInt32.toNat_inj.mp
  change (c.val.toUInt8).toUInt32.toNat = c.val.toNat
  rw [UInt8.toNat_toUInt32, UInt32.toNat_toUInt8]
  exact Nat.mod_eq_of_lt (ascii.trans (by decide))

/-- A text comes back from its bytes. -/
theorem map_ofUInt8 {text : List Char} (ascii : ∀ c ∈ text, c.toNat < 128) :
    (text.map Char.toUInt8).map Char.ofUInt8 = text := by
  rw [List.map_map]
  conv_rhs => rw [← List.map_id text]
  exact List.map_congr_left fun c member => ofUInt8_toUInt8 (ascii c member)

/-- A text without a zero is all of its string. -/
theorem bytes_ofChars {text : List Char} (ascii : ∀ c ∈ text, c.toNat < 128 ∧ c ≠ '\x00') :
    (ofChars text).bytes = text.map Char.toUInt8 := by
  refine List.takeWhile_eq_self_iff.mpr fun byte member => decide_eq_true fun nul => ?_
  obtain ⟨c, present, rfl⟩ := List.mem_map.mp member
  apply (ascii c present).2
  rw [← ofUInt8_toUInt8 (ascii c present).1, nul]
  rfl

/-- A text shorter than the buffer is left whole. -/
theorem snprintf_of_lt {size : Nat} {text : CString} (fits : text.length < size) :
    text.snprintf size = text :=
  CString.ext (List.take_of_length_le (Nat.le_sub_one_of_lt fits))

end CString

namespace Field

variable {Symbol : Type*} [DecidableEq Symbol]

/-- What stands between a beginning and an end. -/
def unwrap (opening closing whole : List Symbol) : Option (List Symbol) :=
  if opening <+: whole ∧ closing <:+ whole.drop opening.length then
    some ((whole.drop opening.length).take (whole.length - opening.length - closing.length))
  else none

/-- Between its beginning and its end a text comes back whole. -/
theorem unwrap_wrap (opening text closing : List Symbol) :
    unwrap opening closing (opening ++ (text ++ closing)) = some text := by
  have inside : (opening ++ (text ++ closing)).length - opening.length - closing.length =
      text.length := by
    rw [List.length_append, List.length_append]
    omega
  unfold unwrap
  rw [inside, List.drop_left, if_pos ⟨List.prefix_append _ _, List.suffix_append _ _⟩,
    List.take_left]

/-- A text is split into one part more than it has separators. -/
theorem length_splitOn (separator : Symbol) (whole : List Symbol) :
    (whole.splitOn separator).length = whole.count separator + 1 := by
  induction whole with
  | nil => rfl
  | cons symbol rest ih =>
      rw [List.splitOn_cons_eq_if_modifyHead, List.count_cons]
      split
      · rw [List.length_cons, ih]
      · rw [List.length_modifyHead, ih, Nat.add_zero]

/-- A text with another beginning has nothing between them. -/
theorem unwrap_of_other_opening {opening closing whole : List Symbol}
    (other : ¬ opening <+: whole) : unwrap opening closing whole = none :=
  if_neg fun both => other both.1

end Field
