import MagicServer.Library.CString
import MagicServer.Library.Numeral
import Mathlib.Data.BitVec

/-!
# What the sample server writes to its clients

The messages of `samplehandler.cc`, as they are formatted and as they arrive
through the buffer `msg`. A client that reads its stream line by line gets back
exactly the messages that were written, as long as none was cut to the buffer.
-/

namespace MSrv

/-- `sin_addr.s_addr` of a client, which `Connection::ipAddress` returns. -/
abbrev Address := BitVec 32

namespace Address

/-- `(ipAddress >> shift) & 0xff`. -/
def octet (ipAddress : Address) (shift : Nat) : Address := ipAddress.sshiftRight shift &&& 0xff#32

/-- The format `%d.%d.%d.%d`. -/
def print (ipAddress : Address) : List Char :=
  Field.join
    [(Numeral.print 0 (ipAddress.octet 0).toInt, '.'),
      (Numeral.print 0 (ipAddress.octet 8).toInt, '.'),
      (Numeral.print 0 (ipAddress.octet 16).toInt, '.')]
    (Numeral.print 0 (ipAddress.octet 24).toInt)

/-- The address that four numbers stand for. -/
def ofOctets : List Int → Option Address
  | [first, second, third, fourth] =>
      some (BitVec.ofInt 32 (first + 256 * (second + 256 * (third + 256 * fourth))))
  | _ => none

/-- Read a dotted quad. -/
def read (text : List Char) : Option Address :=
  ((Field.cuts ['.', '.', '.'] text).bind fun fields => fields.mapM Numeral.read).bind ofOctets

/-- The octets are the digits of the address in base 256. -/
theorem octet_toInt (ipAddress : Address) {shift : Nat}
    (inside : shift = 0 ∨ shift = 8 ∨ shift = 16 ∨ shift = 24) :
    (ipAddress.octet shift).toInt = ipAddress.toNat / 2 ^ shift % 256 := by
  have masked : (ipAddress.octet shift).toNat = (ipAddress.sshiftRight shift).toNat % 256 := by
    rw [octet, BitVec.toNat_and]
    exact Nat.and_two_pow_sub_one_eq_mod _ 8
  have small : (ipAddress.octet shift).toInt = (ipAddress.octet shift).toNat := by
    rw [BitVec.toInt_eq_toNat_cond, if_pos (by omega)]
  rw [small, masked, BitVec.toNat_sshiftRight]
  have range := ipAddress.isLt
  split <;> rcases inside with rfl | rfl | rfl | rfl <;>
    simp only [Nat.shiftRight_eq_div_pow] <;> omega

/-- A printed address is read back. -/
theorem read_print (ipAddress : Address) : read ipAddress.print = some ipAddress := by
  have dot {number : Int} : '.' ∉ Numeral.print 0 number :=
    Numeral.not_mem_print rfl (by decide) 0 number
  unfold read print
  rw [show ['.', '.', '.'] = List.map Prod.snd
    [(Numeral.print 0 (ipAddress.octet 0).toInt, '.'),
      (Numeral.print 0 (ipAddress.octet 8).toInt, '.'),
      (Numeral.print 0 (ipAddress.octet 16).toInt, '.')] from rfl, Field.cuts_join (by simp [dot])]
  have range := ipAddress.isLt
  have digits : (ipAddress.octet 0).toInt + 256 * ((ipAddress.octet 8).toInt +
      256 * ((ipAddress.octet 16).toInt + 256 * (ipAddress.octet 24).toInt)) =
        (ipAddress.toNat : Int) := by
    simp only [octet_toInt, true_or, or_true]
    omega
  simp only [List.map_cons, List.map_nil, List.cons_append, List.nil_append,
    Option.bind_some, List.mapM_cons, List.mapM_nil, Numeral.read_print, Option.pure_def,
    Option.bind_eq_bind, ofOctets, digits, BitVec.ofInt_natCast, BitVec.ofNat_toNat,
    BitVec.setWidth_eq]

/-- A numeral of an octet has at most three digits. -/
theorem length_print_octet (ipAddress : Address) {shift : Nat}
    (inside : shift = 0 ∨ shift = 8 ∨ shift = 16 ∨ shift = 24) :
    (Numeral.print 0 (ipAddress.octet shift).toInt).length ≤ 3 := by
  have value := octet_toInt ipAddress inside
  generalize (ipAddress.octet shift).toInt = number at value
  have small : number.natAbs < 10 ^ 3 := by omega
  rw [Numeral.print, if_neg (by omega), Nat.zero_sub, List.replicate_zero, List.nil_append]
  exact (Nat.length_toDigits_le_iff (by decide) (by decide)).mpr small

/-- With its terminating zero the printed address fits into `ipaddr`, which has 22 bytes. -/
theorem length_print_lt (ipAddress : Address) : ipAddress.print.length < 22 := by
  have first := length_print_octet ipAddress (Or.inl rfl)
  have second := length_print_octet ipAddress (Or.inr (Or.inl rfl))
  have third := length_print_octet ipAddress (Or.inr (Or.inr (Or.inl rfl)))
  have fourth := length_print_octet ipAddress (Or.inr (Or.inr (Or.inr rfl)))
  simp only [print, Field.join, List.length_append, List.length_cons]
  omega

/-- There is nothing but digits, signs and dots in a printed address. -/
theorem not_mem_print {c : Char} (digit : c.isDigit = false) (sign : c ≠ '-') (dot : c ≠ '.')
    (ipAddress : Address) : c ∉ ipAddress.print := by
  have absent {number : Int} : c ∉ Numeral.print 0 number :=
    Numeral.not_mem_print digit sign 0 number
  exact Field.not_mem_join (by simp [absent]) (by simp [dot]) absent

theorem ascii_of_mem_print {c : Char} {ipAddress : Address} (member : c ∈ ipAddress.print) :
    c.toNat < 128 ∧ c ≠ '\x00' := by
  have plain : c.isDigit = true ∨ c = '-' ∨ c = '.' := by
    by_contra other
    simp only [not_or, Bool.not_eq_true] at other
    exact not_mem_print other.1 other.2.1 other.2.2 ipAddress member
  rcases plain with digit | rfl | rfl
  · have range : 48 ≤ c.toNat ∧ c.toNat ≤ 57 := Char.isDigit_iff_toNat.mp digit
    refine ⟨by omega, ?_⟩
    rintro rfl
    exact absurd digit (by decide)
  · decide
  · decide

end Address

/-! ## The messages -/

/-- A message to a client. -/
inductive Line where
  /-- The welcome of a client whose host name has been resolved. -/
  | hello (h_name : CString) (ipAddress : Address)
  /-- The welcome of any other client. -/
  | helloThere
  | bye
  | shutdown
  /-- To the sender of `data`. -/
  | reply (data : CString)
  /-- To all others. -/
  | relay (data : CString)
  deriving DecidableEq

namespace Line

open CString (ofString ofChars)

/-- The formatted message. -/
def text : Line → CString
  | hello h_name ipAddress =>
      ofString "001 Hello, there, \"" ++ h_name ++ ofString "\" (" ++ ofChars ipAddress.print ++
        ofString ")!\n"
  | helloThere => ofString "001 Hello, there!\n"
  | bye => ofString "002 Bye, there!\n"
  | shutdown => ofString "003 Server shutting down immediately! (bye bye)\n"
  | reply data => ofString "004 Well well well, '" ++ data ++ ofString "' to you too!\n"
  | relay data => ofString "005 Someone else said: '" ++ data ++ ofString "'.\n"

/-- What is written: a literal, or the text that `snprintf (msg, 1024, …)` leaves. -/
def msg : Line → CString
  | helloThere => helloThere.text
  | bye => bye.text
  | shutdown => shutdown.text
  | hello h_name ipAddress => (hello h_name ipAddress).text.snprintf 1024
  | reply data => (reply data).text.snprintf 1024
  | relay data => (relay data).text.snprintf 1024

/-- The message without the newline at its end. -/
def row : Line → List UInt8
  | hello h_name ipAddress =>
      (ofString "001 Hello, there, \"").bytes ++ (h_name.bytes ++ (ofString "\" (").bytes ++
        (ofChars ipAddress.print).bytes ++ (ofString ")!").bytes)
  | helloThere => (ofString "001 Hello, there!").bytes
  | bye => (ofString "002 Bye, there!").bytes
  | shutdown => (ofString "003 Server shutting down immediately! (bye bye)").bytes
  | reply data =>
      (ofString "004 Well well well, '").bytes ++ (data.bytes ++ (ofString "' to you too!").bytes)
  | relay data =>
      (ofString "005 Someone else said: '").bytes ++ (data.bytes ++ (ofString "'.").bytes)

/-- The newline. -/
def newline : UInt8 := 10

theorem text_eq_row (line : Line) : line.text.bytes = line.row ++ [newline] := by
  cases line with
  | helloThere | bye | shutdown => rfl
  | hello h_name ipAddress | reply data | relay data =>
      simp only [text, row, CString.bytes_append, List.append_assoc]
      rfl

/-- Read the welcome of a resolved client: the address stands behind the last bracket. -/
def readHello (row : List UInt8) : Option Line := do
  let inside ← Field.unwrap (ofString "001 Hello, there, \"").bytes (ofString ")!").bytes row
  let (address, name) ← Field.cut 40 inside.reverse
  let h_name ← Field.unwrap [] (ofString "\" ").bytes name.reverse
  let ipAddress ← Address.read (address.reverse.map Char.ofUInt8)
  some (hello (CString.upTo h_name) ipAddress)

/-- Read a message without its newline. -/
def read (row : List UInt8) : Option Line :=
  if row = helloThere.row then some helloThere
  else if row = bye.row then some bye
  else if row = shutdown.row then some shutdown
  else
    match Field.unwrap (ofString "004 Well well well, '").bytes
        (ofString "' to you too!").bytes row with
    | some data => some (reply (CString.upTo data))
    | none =>
        match Field.unwrap (ofString "005 Someone else said: '").bytes
            (ofString "'.").bytes row with
        | some data => some (relay (CString.upTo data))
        | none => readHello row

/-- The bytes of a printed address. -/
theorem bytes_print (ipAddress : Address) :
    (ofChars ipAddress.print).bytes = ipAddress.print.map Char.toUInt8 :=
  CString.bytes_ofChars fun _ => Address.ascii_of_mem_print

/-- A printed address comes back from its bytes. -/
theorem ofUInt8_print (ipAddress : Address) :
    (ofChars ipAddress.print).bytes.map Char.ofUInt8 = ipAddress.print := by
  rw [bytes_print, CString.map_ofUInt8 fun _ member => (Address.ascii_of_mem_print member).1]

/-- The text that `sprintf` leaves in `ipaddr` stays inside it, and tells the address. -/
theorem ipaddr_fits_and_tells (ipAddress : Address) :
    (ofChars ipAddress.print).length + 1 ≤ 22 ∧
      Address.read ((ofChars ipAddress.print).bytes.map Char.ofUInt8) = some ipAddress := by
  constructor
  · rw [CString.length, bytes_print, List.length_map]
    exact ipAddress.length_print_lt
  · rw [ofUInt8_print]
    exact ipAddress.read_print

/-- There is no other symbol in a printed address. -/
theorem not_mem_bytes_print {symbol : Char} (ascii : symbol.toNat < 128)
    (digit : symbol.isDigit = false) (sign : symbol ≠ '-') (dot : symbol ≠ '.')
    (ipAddress : Address) : symbol.toUInt8 ∉ (ofChars ipAddress.print).bytes := by
  rw [bytes_print]
  intro member
  obtain ⟨c, printed, same⟩ := List.mem_map.mp member
  have equal : c = symbol := by
    rw [← CString.ofUInt8_toUInt8 (Address.ascii_of_mem_print printed).1, same,
      CString.ofUInt8_toUInt8 ascii]
  exact Address.not_mem_print digit sign dot ipAddress (equal ▸ printed)

/-- The welcome of a resolved client is read back. -/
theorem readHello_row (h_name : CString) (ipAddress : Address) :
    readHello (hello h_name ipAddress).row = some (hello h_name ipAddress) := by
  have between : (h_name.bytes ++ (ofString "\" (").bytes ++
      (ofChars ipAddress.print).bytes).reverse =
        (ofChars ipAddress.print).bytes.reverse ++
          40 :: (h_name.bytes ++ (ofString "\" ").bytes).reverse := by
    simp only [List.reverse_append, List.append_assoc]
    rfl
  have absent : 40 ∉ (ofChars ipAddress.print).bytes.reverse := by
    rw [List.mem_reverse]
    exact not_mem_bytes_print (show '('.toNat < 128 by decide) rfl (by decide) (by decide) _
  have name := Field.unwrap_wrap [] h_name.bytes (ofString "\" ").bytes
  rw [List.nil_append] at name
  unfold readHello row
  rw [Field.unwrap_wrap, Option.bind_eq_bind, Option.bind_some, between, Field.cut_append absent,
    Option.bind_eq_bind, Option.bind_some]
  simp only [List.reverse_reverse, name, ofUInt8_print, Address.read_print, Option.bind_eq_bind,
    Option.bind_some, CString.upTo_bytes]

/-- Messages are told apart by their first bytes. -/
theorem not_opens_of_take {opening row : List UInt8} (long : 17 ≤ opening.length)
    (other : row.take 17 ≠ opening.take 17) : ¬ opening <+: row := by
  rintro ⟨rest, rfl⟩
  exact other (List.take_append_of_le_length long)

theorem ne_of_take {first second : List UInt8} (other : first.take 17 ≠ second.take 17) :
    first ≠ second := fun same => other (congrArg _ same)

theorem take_reply (data : CString) :
    (reply data).row.take 17 = (ofString "004 Well well wel").bytes :=
  List.take_append_of_le_length (by decide)

theorem take_relay (data : CString) :
    (relay data).row.take 17 = (ofString "005 Someone else ").bytes :=
  List.take_append_of_le_length (by decide)

theorem take_hello (h_name : CString) (ipAddress : Address) :
    (hello h_name ipAddress).row.take 17 = (ofString "001 Hello, there,").bytes :=
  List.take_append_of_le_length (by decide)

/-- Every message is read back. -/
theorem read_row (line : Line) : read line.row = some line := by
  cases line with
  | helloThere | bye | shutdown => rfl
  | reply data =>
      unfold read
      rw [if_neg (ne_of_take (by rw [take_reply]; decide)),
        if_neg (ne_of_take (by rw [take_reply]; decide)),
        if_neg (ne_of_take (by rw [take_reply]; decide)), row, Field.unwrap_wrap]
      exact congrArg some (congrArg reply data.upTo_bytes)
  | relay data =>
      unfold read
      rw [if_neg (ne_of_take (by rw [take_relay]; decide)),
        if_neg (ne_of_take (by rw [take_relay]; decide)),
        if_neg (ne_of_take (by rw [take_relay]; decide)),
        Field.unwrap_of_other_opening (not_opens_of_take (by decide) (by rw [take_relay]; decide)),
        row, Field.unwrap_wrap]
      exact congrArg some (congrArg relay data.upTo_bytes)
  | hello h_name ipAddress =>
      unfold read
      rw [if_neg (ne_of_take (by rw [take_hello]; decide)),
        if_neg (ne_of_take (by rw [take_hello]; decide)),
        if_neg (ne_of_take (by rw [take_hello]; decide)),
        Field.unwrap_of_other_opening (not_opens_of_take (by decide) (by rw [take_hello]; decide)),
        Field.unwrap_of_other_opening (not_opens_of_take (by decide) (by rw [take_hello]; decide))]
      exact readHello_row h_name ipAddress

/-! ## A stream of messages -/

/-- Read the rows of a stream; after the last newline there must be nothing. -/
def readRows : List (List UInt8) → Option (List Line)
  | [] => none
  | [last] => if last = [] then some [] else none
  | row :: rest => (read row).bind fun line => (readRows rest).map (line :: ·)

/-- Read a stream. -/
def readAll (stream : List UInt8) : Option (List Line) := readRows (stream.splitOn newline)

/-- The formatted message fits into `msg`, which has 1024 bytes. -/
def Fits (line : Line) : Prop := line.text.length < 1024

instance : DecidablePred Fits := fun line => inferInstanceAs (Decidable (line.text.length < 1024))

/-- No newline but the one at the end. -/
def OneRow (line : Line) : Prop := newline ∉ line.row

/-- A message that fits is written whole, -/
theorem msg_of_fits {line : Line} (fits : line.Fits) : line.msg.bytes = line.row ++ [newline] := by
  rw [← text_eq_row]
  cases line with
  | helloThere | bye | shutdown => rfl
  | hello h_name ipAddress | reply data | relay data =>
      exact congrArg CString.bytes (CString.snprintf_of_lt fits)

/-- and any other without its newline. -/
theorem newline_not_mem_msg {line : Line} (cut : ¬ line.Fits) (oneRow : line.OneRow) :
    newline ∉ line.msg.bytes := by
  have long : 1024 ≤ (line.row ++ [newline]).length := by
    rw [← text_eq_row]
    exact not_lt.mp cut
  rw [List.length_append, List.length_singleton] at long
  have part : line.msg.bytes <+: line.row := by
    cases line with
    | helloThere | bye | shutdown => exact absurd (by decide) cut
    | hello h_name ipAddress | reply data | relay data =>
        change List.take 1023 (text _).bytes <+: _
        rw [text_eq_row, List.take_append_of_le_length (by omega)]
        exact List.take_prefix _ _
  exact fun inside => oneRow (part.subset inside)

theorem readRows_rows (lines : List Line) : readRows (lines.map row ++ [[]]) = some lines := by
  induction lines with
  | nil => rfl
  | cons line rest ih =>
      obtain ⟨next, later, same⟩ := List.exists_cons_of_ne_nil
        (List.append_ne_nil_of_right_ne_nil (rest.map row) (List.cons_ne_nil [] []))
      rw [List.map_cons, List.cons_append, same, readRows, read_row, ← same, ih]
      · rfl
      · exact List.cons_ne_nil next later

theorem length_of_readRows {rows : List (List UInt8)} {lines : List Line}
    (found : readRows rows = some lines) : rows.length = lines.length + 1 := by
  induction rows generalizing lines with
  | nil => cases found
  | cons row rest ih =>
      cases rest with
      | nil =>
          unfold readRows at found
          obtain ⟨_, rfl⟩ := Option.ite_none_right_eq_some.mp found |>.imp id Option.some_inj.mp
          rfl
      | cons next later =>
          rw [readRows, Option.bind_eq_some_iff] at found
          · obtain ⟨line, _, found⟩ := found
            obtain ⟨others, below, rfl⟩ := Option.map_eq_some_iff.mp found
            rw [List.length_cons, ih below, List.length_cons]
          · exact List.cons_ne_nil next later

/-- How many newlines arrive: one for each message that fits. -/
theorem count_newline {lines : List Line} (oneRow : ∀ line ∈ lines, line.OneRow) :
    (lines.flatMap fun line => line.msg.bytes).count newline =
      lines.countP fun line => line.Fits := by
  induction lines with
  | nil => rfl
  | cons line rest ih =>
      rw [List.forall_mem_cons] at oneRow
      rw [List.flatMap_cons, List.count_append, ih oneRow.2, List.countP_cons]
      by_cases fits : line.Fits
      · rw [msg_of_fits fits, List.count_append, List.count_eq_zero.mpr oneRow.1]
        simp [fits, Nat.add_comm]
      · rw [List.count_eq_zero.mpr (newline_not_mem_msg fits oneRow.1)]
        simp [fits]

/-- A client reads back the messages that were written to it exactly when all of
them have fitted into the buffer. -/
theorem readAll_msgs_iff {lines : List Line} (oneRow : ∀ line ∈ lines, line.OneRow) :
    readAll (lines.flatMap fun line => line.msg.bytes) = some lines ↔
      ∀ line ∈ lines, line.Fits := by
  constructor
  · intro found
    have counted := length_of_readRows found
    rw [Field.length_splitOn, count_newline oneRow, Nat.add_right_cancel_iff,
      List.countP_eq_length] at counted
    exact fun line member => of_decide_eq_true (counted line member)
  · intro fits
    have whole : (lines.flatMap fun line => line.msg.bytes) =
        (lines.map row).flatMap fun row => row ++ [newline] := by
      rw [List.flatMap_map]
      exact List.flatMap_congr fun line member => msg_of_fits (fits line member)
    have absent : ∀ whole ∈ lines.map row, newline ∉ whole := by
      intro whole member
      obtain ⟨line, listed, rfl⟩ := List.mem_map.mp member
      exact oneRow line listed
    rw [readAll, whole, Field.splitOn_flatMap absent, readRows_rows]

end Line

end MSrv
