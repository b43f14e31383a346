import MagicServer.Sample.Line

/-!
# The command line of the sample server

`parse_cmd` of `samplemain.cc`. The arguments are a sequence of options, some of
which take the next word as their value; the first word that begins no option
ends the program with a message about it.
-/

namespace MSrv

open CString (ofString ofChars)

/-- `MSRVTEST_PORTNO`. -/
def MSRVTEST_PORTNO : Int := 1234

/-- Application arguments. -/
structure TestArgs where
  daemonize : Bool := false
  /-- Log file to write to; `NULL` if none is given. -/
  logfile : Option CString := none
  portno : Int := MSRVTEST_PORTNO
  udp : Bool := false
  deriving DecidableEq

/-- `isspace` in the C locale. -/
def isspace (byte : UInt8) : Bool := byte = 0x20 || (0x09 ≤ byte && byte ≤ 0x0d)

/-- The number that the digits at the beginning of a text stand for; without digits zero. -/
def leadingDigits (bytes : List UInt8) : Nat :=
  Nat.ofDigitChars 10 ((bytes.map Char.ofUInt8).takeWhile Char.isDigit) 0

/-- `strtol (text, NULL, 10)` with a `long` of 64 bits. -/
def strtol (text : CString) : Int :=
  let number : Int :=
    match text.bytes.dropWhile isspace with
    | 0x2d :: rest => -leadingDigits rest
    | 0x2b :: rest => leadingDigits rest
    | rest => leadingDigits rest
  max (-2 ^ 63) (min number (2 ^ 63 - 1))

/-- `atoi`, which is `(int) strtol (text, NULL, 10)`. -/
def atoi (text : CString) : Int := (strtol text).bmod (2 ^ 32)

/-- What `parse_cmd` returns, the arguments it leaves and what it prints to `stderr`. -/
structure Parsed where
  result : Int
  args : TestArgs
  stderr : CString
  deriving DecidableEq

/-- The messages about a word that cannot be parsed. -/
def invalidArgument (program word : CString) : CString :=
  ofString "Invalid command line argument '" ++ word ++ ofString "'\nUsage: " ++ program ++
    ofString " [-d] [-udp] [-l <logfile>] [-p <portno>]\n"

/-- The loop of `parse_cmd` over the words from `argv[arg]` on. -/
def parse_cmd.loop (program : CString) : List CString → TestArgs → Parsed
  | [], args => ⟨0, args, ofString ""⟩
  | word :: rest, args =>
      if word = ofString "-d" then loop program rest { args with daemonize := true }
      else if word = ofString "-udp" then loop program rest { args with udp := true }
      else
        -- The other options take a value, `arg < argc-1`.
        match rest with
        | value :: rest =>
            if word = ofString "-l" then loop program rest { args with logfile := some value }
            else if word = ofString "-p" then
              loop program rest { args with portno := atoi value }
            else ⟨1, args, invalidArgument program word⟩
        | [] => ⟨1, args, invalidArgument program word⟩

/-- Parses command-line arguments. -/
def parse_cmd : List CString → TestArgs → Parsed
  | [], args => ⟨0, args, ofString ""⟩
  | program :: words, args => parse_cmd.loop program words args

/-! ## Sequences of options -/

/-- An option with its value. -/
inductive Setting where
  | daemonize
  | udp
  | logfile (name : CString)
  | portno (number : CString)
  deriving DecidableEq

namespace Setting

/-- How an option is written. -/
def words : Setting → List CString
  | daemonize => [ofString "-d"]
  | udp => [ofString "-udp"]
  | logfile name => [ofString "-l", name]
  | portno number => [ofString "-p", number]

/-- What it changes. -/
def set (args : TestArgs) : Setting → TestArgs
  | daemonize => { args with daemonize := true }
  | udp => { args with udp := true }
  | logfile name => { args with logfile := some name }
  | portno number => { args with portno := atoi number }

def logfile? : Setting → Option CString
  | logfile name => some name
  | daemonize | udp | portno _ => none

def portno? : Setting → Option CString
  | portno number => some number
  | daemonize | udp | logfile _ => none

/-- No option begins with these words. -/
def Ends (rest : List CString) : Prop := ∀ setting : Setting, ¬ setting.words <+: rest

end Setting

/-- The arguments that a sequence of options stands for: the last one of a kind counts. -/
def TestArgs.ofSettings (settings : List Setting) : TestArgs where
  daemonize := .daemonize ∈ settings
  logfile := (settings.filterMap Setting.logfile?).getLast?
  portno := (settings.filterMap Setting.portno?).getLast?.elim MSRVTEST_PORTNO atoi
  udp := .udp ∈ settings

/-- A further option. -/
theorem TestArgs.ofSettings_append (settings : List Setting) (setting : Setting) :
    ofSettings (settings ++ [setting]) = setting.set (ofSettings settings) := by
  cases setting <;> simp [ofSettings, Setting.set, Setting.logfile?, Setting.portno?]

theorem TestArgs.foldl_set (settings : List Setting) :
    settings.foldl Setting.set {} = ofSettings settings := by
  induction settings using List.reverseRecOn with
  | nil => rfl
  | append_singleton settings setting ih =>
      rw [List.foldl_append, ih, ofSettings_append]
      rfl

/-- What `parse_cmd` returns when the options end at `rest`. -/
def Parsed.ended (program : CString) (args : TestArgs) : List CString → Parsed
  | [] => ⟨0, args, ofString ""⟩
  | word :: _ => ⟨1, args, invalidArgument program word⟩

/-- The options without a value come first. -/
theorem loop_flag (program word : CString) (rest : List CString) (args : TestArgs) :
    (word = ofString "-d" → parse_cmd.loop program (word :: rest) args =
      parse_cmd.loop program rest { args with daemonize := true }) ∧
    (word = ofString "-udp" → parse_cmd.loop program (word :: rest) args =
      parse_cmd.loop program rest { args with udp := true }) := by
  rw [parse_cmd.loop.eq_def program (word :: rest)]
  constructor
  · exact fun same => if_pos same
  · rintro rfl
    exact (if_neg (by decide)).trans (if_pos rfl)

/-- An option is parsed and the loop goes on behind it. -/
theorem loop_words (program : CString) (setting : Setting) (rest : List CString)
    (args : TestArgs) :
    parse_cmd.loop program (setting.words ++ rest) args =
      parse_cmd.loop program rest (setting.set args) := by
  cases setting with
  | daemonize => exact (loop_flag program _ rest args).1 rfl
  | udp => exact (loop_flag program _ rest args).2 rfl
  | logfile name =>
      change parse_cmd.loop program (_ :: name :: rest) args = _
      rw [parse_cmd.loop, if_neg (by decide), if_neg (by decide), if_pos rfl]
      rfl
  | portno number =>
      change parse_cmd.loop program (_ :: number :: rest) args = _
      rw [parse_cmd.loop, if_neg (by decide), if_neg (by decide), if_neg (by decide), if_pos rfl]
      rfl

theorem loop_flatMap (program : CString) (settings : List Setting) (rest : List CString)
    (args : TestArgs) :
    parse_cmd.loop program (settings.flatMap Setting.words ++ rest) args =
      parse_cmd.loop program rest (settings.foldl Setting.set args) := by
  induction settings generalizing args with
  | nil => rfl
  | cons setting settings ih =>
      rw [List.flatMap_cons, List.append_assoc, loop_words, ih, List.foldl_cons]

/-- Where no option begins the loop ends. -/
theorem loop_of_ends (program : CString) {rest : List CString} (ends : Setting.Ends rest)
    (args : TestArgs) : parse_cmd.loop program rest args = .ended program args rest := by
  cases rest with
  | nil => rfl
  | cons word rest =>
      have first : word ≠ ofString "-d" := by
        rintro rfl
        exact ends .daemonize ⟨rest, rfl⟩
      have second : word ≠ ofString "-udp" := by
        rintro rfl
        exact ends .udp ⟨rest, rfl⟩
      cases rest with
      | nil =>
          rw [parse_cmd.loop, if_neg first, if_neg second]
          rfl
      | cons value rest =>
          have third : word ≠ ofString "-l" := by
            rintro rfl
            exact ends (.logfile value) ⟨rest, rfl⟩
          have fourth : word ≠ ofString "-p" := by
            rintro rfl
            exact ends (.portno value) ⟨rest, rfl⟩
          rw [parse_cmd.loop, if_neg first, if_neg second, if_neg third, if_neg fourth]
          rfl

/-- Words are a sequence of options and a rest at which no option begins. -/
theorem exists_settings (words : List CString) :
    ∃ (settings : List Setting) (rest : List CString),
      words = settings.flatMap Setting.words ++ rest ∧ Setting.Ends rest := by
  induction h : words.length using Nat.strong_induction_on generalizing words with
  | _ length ih =>
      by_cases none : Setting.Ends words
      · exact ⟨[], words, rfl, none⟩
      · obtain ⟨setting, later, rfl⟩ : ∃ setting : Setting, setting.words <+: words := by
          simpa [Setting.Ends] using none
        obtain ⟨settings, rest, rfl, ends⟩ := ih later.length (by
          rw [← h, List.length_append]
          cases setting <;> simp [Setting.words]) later rfl
        exact ⟨setting :: settings, rest, by rw [List.flatMap_cons, List.append_assoc], ends⟩

/-- The options are parsed up to where none begins. -/
theorem parse_cmd_of_ends (program : CString) (settings : List Setting) {rest : List CString}
    (ends : Setting.Ends rest) :
    parse_cmd (program :: (settings.flatMap Setting.words ++ rest)) {} =
      .ended program (.ofSettings settings) rest := by
  rw [parse_cmd, loop_flatMap, loop_of_ends program ends, TestArgs.foldl_set]

/-- The command line is the longest sequence of options at its beginning; it is
accepted if nothing is left, and otherwise the first word left is reported. -/
theorem parse_cmd_eq_iff {program : CString} {words : List CString} {parsed : Parsed} :
    parse_cmd (program :: words) {} = parsed ↔
      ∃ (settings : List Setting) (rest : List CString),
        words = settings.flatMap Setting.words ++ rest ∧ Setting.Ends rest ∧
          parsed = .ended program (.ofSettings settings) rest := by
  constructor
  · rintro rfl
    obtain ⟨settings, rest, rfl, ends⟩ := exists_settings words
    exact ⟨settings, rest, rfl, ends, parse_cmd_of_ends program settings ends⟩
  · rintro ⟨settings, rest, rfl, ends, rfl⟩
    exact parse_cmd_of_ends program settings ends

/-! ## Writing a command line -/

/-- The digits of a number are read up to their end. -/
theorem leadingDigits_toDigits (number : Nat) :
    leadingDigits ((Nat.toDigits 10 number).map Char.toUInt8) = number := by
  have digit : ∀ c ∈ Nat.toDigits 10 number, c.isDigit = true := fun c =>
    Nat.isDigit_of_mem_toDigits (by decide) (by decide)
  have ascii : ∀ c ∈ Nat.toDigits 10 number, c.toNat < 128 := fun c member => by
    have range : 48 ≤ c.toNat ∧ c.toNat ≤ 57 := Char.isDigit_iff_toNat.mp (digit c member)
    omega
  rw [leadingDigits, CString.map_ofUInt8 ascii, List.takeWhile_eq_self_iff.mpr digit,
    Nat.ofDigitChars_ten_toDigits]

/-- A number is printed in ASCII. -/
theorem bytes_number (number : Int) :
    (ofChars (Numeral.print 0 number)).bytes =
      (Numeral.print 0 number).map Char.toUInt8 := by
  refine CString.bytes_ofChars fun c member => ?_
  have plain : c.isDigit = true ∨ c = '-' := by
    by_contra other
    simp only [not_or, Bool.not_eq_true] at other
    exact Numeral.not_mem_print other.1 other.2 0 number member
  rcases plain with digit | rfl
  · have range : 48 ≤ c.toNat ∧ c.toNat ≤ 57 := Char.isDigit_iff_toNat.mp digit
    refine ⟨by omega, ?_⟩
    rintro rfl
    exact absurd digit (by decide)
  · decide

/-- A text that begins with a digit has no sign. -/
theorem strtol_of_digit {text : CString} {c : Char} {rest : List UInt8} (digit : c.isDigit = true)
    (opening : text.bytes = c.toUInt8 :: rest) :
    strtol text = max (-2 ^ 63) (min (leadingDigits (c.toUInt8 :: rest) : Int) (2 ^ 63 - 1)) := by
  have range : 48 ≤ c.toNat ∧ c.toNat ≤ 57 := Char.isDigit_iff_toNat.mp digit
  have value : c.toUInt8.toNat = c.toNat := by
    change c.val.toUInt8.toNat = c.toNat
    rw [UInt32.toNat_toUInt8]
    exact Nat.mod_eq_of_lt (by change c.toNat < 2 ^ 8; omega)
  generalize c.toUInt8 = byte at opening value
  have other {symbol : UInt8} (apart : symbol.toNat < 48) : byte ≠ symbol := by
    rintro rfl
    omega
  have letter : isspace byte = false := by
    have high : ¬ byte ≤ 0x0d := fun low => by
      have low : byte.toNat ≤ 13 := low
      omega
    simp only [isspace, other (show (0x20 : UInt8).toNat < 48 by decide), high, decide_false,
      Bool.and_false, Bool.or_false]
  unfold strtol
  rw [opening, List.dropWhile_cons_of_neg (by simp [letter])]
  split
  · next same => exact absurd (List.cons.inj same).1 (other (by decide))
  · next same => exact absurd (List.cons.inj same).1 (other (by decide))
  · rfl

/-- A printed `int` is read back. -/
theorem atoi_print {number : Int} (lower : -2 ^ 31 ≤ number) (upper : number < 2 ^ 31) :
    atoi (ofChars (Numeral.print 0 number)) = number := by
  have value : strtol (ofChars (Numeral.print 0 number)) = number := by
    have bytes := bytes_number number
    have back := leadingDigits_toDigits number.natAbs
    rw [Numeral.print] at bytes ⊢
    split_ifs at bytes ⊢ with negative
    · simp only [Nat.zero_sub, List.replicate_zero, List.nil_append, List.map_cons] at bytes ⊢
      unfold strtol
      rw [bytes, List.dropWhile_cons_of_neg (by decide)]
      change max (-2 ^ 63) (min (-(leadingDigits _ : Int)) (2 ^ 63 - 1)) = number
      rw [back]
      omega
    · simp only [Nat.zero_sub, List.replicate_zero, List.nil_append] at bytes ⊢
      have digit : ∀ c ∈ Nat.toDigits 10 number.natAbs, c.isDigit = true := fun c =>
        Nat.isDigit_of_mem_toDigits (by decide) (by decide)
      obtain ⟨c, rest, digits⟩ : ∃ c rest, Nat.toDigits 10 number.natAbs = c :: rest :=
        List.exists_cons_of_ne_nil Nat.toDigits_ne_nil
      rw [digits] at bytes back digit ⊢
      rw [strtol_of_digit (digit c List.mem_cons_self) bytes, ← List.map_cons, back]
      omega
  rw [atoi, value]
  exact Int.bmod_eq_of_le (by omega) (by omega)

namespace TestArgs

/-- A sequence of options that stands for the arguments. -/
def settings (args : TestArgs) : List Setting :=
  (if args.daemonize then [.daemonize] else []) ++
    (args.logfile.elim [] fun name => [.logfile name]) ++
    [.portno (ofChars (Numeral.print 0 args.portno))] ++ if args.udp then [.udp] else []

theorem ofSettings_settings {args : TestArgs} (lower : -2 ^ 31 ≤ args.portno)
    (upper : args.portno < 2 ^ 31) : ofSettings args.settings = args := by
  obtain ⟨daemonize, logfile, portno, udp⟩ := args
  have number := atoi_print lower upper
  rw [← foldl_set]
  cases daemonize <;> cases logfile <;> cases udp <;> simp [settings, Setting.set, number]

end TestArgs

/-- Whatever the arguments are, there is a command line for them. -/
theorem parse_cmd_settings (program : CString) {args : TestArgs} (lower : -2 ^ 31 ≤ args.portno)
    (upper : args.portno < 2 ^ 31) :
    parse_cmd (program :: args.settings.flatMap Setting.words) {} = ⟨0, args, ofString ""⟩ := by
  have none : Setting.Ends [] := fun setting within => by
    cases setting <;> exact absurd (List.prefix_nil.mp within) (List.cons_ne_nil _ _)
  have parsed := parse_cmd_of_ends program args.settings none
  rwa [List.append_nil, TestArgs.ofSettings_settings lower upper] at parsed

/-- A log file of the name `-d` does not make a daemon of the server. -/
theorem parse_cmd_settings_named :
    parse_cmd (ofString "sample" ::
        (TestArgs.settings ⟨false, some (ofString "-d"), -1, true⟩).flatMap Setting.words) {} =
      ⟨0, ⟨false, some (ofString "-d"), -1, true⟩, ofString ""⟩ :=
  parse_cmd_settings (ofString "sample") (by decide) (by decide)

end MSrv
