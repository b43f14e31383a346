import MagicServer.Log.Opening
import Mathlib.Data.List.Nodup

/-!
# The name of the log file

Who owns the strings that `strdup` makes, and which members have a value, from
each of the two constructors of `LogFile` to its destructor. The constructor for
a stream gives `mpFilename` no value.
-/

namespace MSrv.LogFile

variable {log log' : LogFile}

/-- How a log file is built, and whether the call of `fopen` inside succeeds. -/
inductive Construction where
  | ofStream (stream : Option LogStream)
  | ofFilename (filename : Option (List Char)) (fopen : Bool)

/-- Builds a log file where `leftover` stands in the place of `mpFilename`;
there is none when the constructor throws. -/
def Construction.construct (leftover : Option (List Char)) : Construction → Option LogFile
  | .ofStream stream => some ((raw leftover).ofStream stream)
  | .ofFilename filename fopen => (raw leftover).ofFilename filename fopen

/-- The members that a call reads have been given a value. `open()` reads
`mpLogStream` only when there is a name. -/
def Initialised (log : LogFile) : Call → Prop
  | .setFilename none => True
  | .setFilename (some _) => log.named
  | .openLog _ => log.named ∧ (log.mpFilename ≠ .null → log.streamed)
  | .close | .write .. | .message .. => log.streamed

/-- From the construction to the end of the destructor, nothing is read that has
no value, and what is released as a name is each result of `strdup`, once. -/
structure Clean (log : LogFile) (calls : List Call) (final : LogFile) : Prop where
  reads : machine.Steps Initialised log calls
  /-- The destructor reads the stream and the name. -/
  last_reads : final.streamed ∧ final.named
  once : ∀ number < final.destroy.names.length,
    final.destroy.released.count (.name number) = 1
  others : ∀ pointer ∈ final.destroy.released,
    ∃ number < final.destroy.names.length, pointer = .name number

/-- What a call leaves of the name when it only uses the stream. -/
structure KeepsName (log log' : LogFile) : Prop where
  mpFilename : log'.mpFilename = log.mpFilename
  named : log'.named = log.named
  names : log'.names = log.names
  released : log'.released = log.released
  streamed : log.streamed → log'.streamed

namespace KeepsName

theorem of_onlyWrites (only : OnlyWrites log log') : KeepsName log log' where
  mpFilename := only.mpFilename
  named := only.named
  names := only.names
  released := only.released
  streamed := only.streamed.trans

theorem refl (log : LogFile) : KeepsName log log := ⟨rfl, rfl, rfl, rfl, id⟩

theorem setStream (log : LogFile) (stream : Option LogStream) :
    KeepsName log (log.setStream stream) := ⟨rfl, rfl, rfl, rfl, fun _ => rfl⟩

theorem openLog (log : LogFile) (fopen : Bool) : KeepsName log (log.openLog fopen).2 := by
  rcases log.openLog_cases fopen with ⟨filename, -, -, opens⟩ | ⟨-, same⟩
  · rw [opens]
    exact setStream log _
  · rw [same]
    exact refl log

theorem close (log : LogFile) : KeepsName log log.close := by
  rw [close_eq]
  split_ifs
  · exact setStream log none
  · exact refl log

/-- Only `setFilename` with a name changes the name. -/
theorem step {call : Call} (other : ∀ filename, call ≠ .setFilename (some filename))
    (taken : machine.step log call = some log') : KeepsName log log' := by
  cases call with
  | setFilename filename =>
      cases filename with
      | none =>
          cases taken
          exact refl log
      | some filename => exact absurd rfl (other filename)
  | openLog fopen =>
      cases taken
      exact openLog log fopen
  | close =>
      cases taken
      exact close log
  | write data len written =>
      cases taken
      exact of_onlyWrites (.write log data len written)
  | message call outcome =>
      obtain ⟨_, returns⟩ := performed taken
      exact of_onlyWrites (.message returns)

end KeepsName

/-- The members have values, and the strings that `strdup` has made are the one
that `mpFilename` points to, which is the last, and those that have been
released. -/
structure Owned (log : LogFile) : Prop where
  named : log.named
  streamed : log.streamed
  current : ∃ last, log.mpFilename = .name last ∧ log.names.length = last + 1 ∧
    log.released = (List.range last).map .name

theorem KeepsName.owned (keeps : KeepsName log log') (owned : log.Owned) : log'.Owned := by
  obtain ⟨last, points, length, released⟩ := owned.current
  refine ⟨keeps.named.trans owned.named, keeps.streamed owned.streamed, last, ?_, ?_, ?_⟩
  · rw [keeps.mpFilename, points]
  · rw [keeps.names, length]
  · rw [keeps.released, released]

/-- A new name takes the place of the old one, which is released. -/
theorem Owned.setFilename (owned : log.Owned) (filename : List Char) :
    (log.setFilename (some filename)).2.Owned := by
  obtain ⟨last, points, length, released⟩ := owned.current
  rw [setFilename_eq]
  refine ⟨rfl, owned.streamed, last + 1, ?_, ?_, ?_⟩
  · rw [length]
  · rw [List.length_append, length, List.length_singleton]
  · rw [points, if_neg NamePointer.noConfusion, released, List.range_succ, List.map_append,
      List.map_singleton]

theorem Owned.step (owned : log.Owned) {call : Call}
    (taken : machine.step log call = some log') : log'.Owned := by
  by_cases naming : ∃ filename, call = .setFilename (some filename)
  · obtain ⟨filename, rfl⟩ := naming
    cases taken
    exact owned.setFilename filename
  · exact (KeepsName.step (not_exists.mp naming) taken).owned owned

/-- A log file that owns its name reads nothing without a value. -/
theorem Owned.initialised (owned : log.Owned) (call : Call) : log.Initialised call := by
  cases call with
  | setFilename filename =>
      cases filename with
      | none => trivial
      | some filename => exact owned.named
  | openLog fopen => exact ⟨owned.named, fun _ => owned.streamed⟩
  | close => exact owned.streamed
  | write data len written => exact owned.streamed
  | message call outcome => exact owned.streamed

/-- The destructor releases the last name. -/
theorem Owned.destroy (owned : log.Owned) :
    log.destroy.released = (List.range log.destroy.names.length).map .name := by
  have locked : log.lock.Owned := (KeepsName.of_onlyWrites (.lock log)).owned owned
  have closed : log.lock.close.Owned := (KeepsName.close log.lock).owned locked
  obtain ⟨last, points, length, released⟩ := closed.current
  change (log.lock.close.delete log.lock.close.mpFilename).unlock.released =
    (List.range (log.lock.close.delete log.lock.close.mpFilename).unlock.names.length).map .name
  rw [points]
  change log.lock.close.released ++ [.name last] =
    (List.range log.lock.close.names.length).map .name
  rw [released, length, List.range_succ, List.map_append, List.map_singleton]

/-- The constructor for a name leaves a log file that owns it. -/
theorem owned_ofFilename {leftover filename : Option (List Char)} {fopen : Bool}
    (built : (raw leftover).ofFilename filename fopen = some log) : log.Owned := by
  cases filename with
  | none => cases built
  | some filename =>
      rw [ofFilename_eq_some built]
      exact ⟨rfl, rfl, 0, rfl, rfl, rfl⟩

/-- Without a name of its own, a log file gets none from calls that read nothing
without a value. -/
theorem step_unnamed (unnamed : log.named = false) {call : Call}
    (initialised : log.Initialised call) (taken : machine.step log call = some log') :
    log'.named = false := by
  rw [(KeepsName.step _ taken).named, unnamed]
  rintro filename rfl
  have named : log.named := initialised
  rw [unnamed] at named
  cases named

/-- What the owner of its name does is clean. -/
theorem Owned.clean (owned : log.Owned) {calls : List Call} {final : LogFile}
    (ran : machine.run log calls = some final) : Clean log calls final := by
  have kept : final.Owned := by
    apply machine.run_invariant Owned _ owned (machine.steps_true _ _) ran
    exact fun _ _ _ owned _ taken => owned.step taken
  have reads : machine.Steps Initialised log calls := by
    apply machine.steps_mono _ _ owned (machine.steps_true _ _)
    · exact fun _ _ _ owned _ taken => owned.step taken
    · exact fun _ call _ owned _ _ => owned.initialised call
  refine ⟨reads, ⟨kept.streamed, kept.named⟩, fun number less => ?_, fun pointer released => ?_⟩
  · rw [kept.destroy]
    apply List.count_eq_one_of_mem
    · exact List.nodup_range.map fun _ _ same => NamePointer.name.inj same
    · exact List.mem_map_of_mem (List.mem_range.mpr less)
  · rw [kept.destroy] at released
    obtain ⟨number, less, rfl⟩ := List.mem_map.mp released
    exact ⟨number, List.mem_range.mp less, rfl⟩

/-- Where `mpFilename` has no value at the start, the destructor reads none or a
call before it does. -/
theorem not_clean_of_unnamed (unnamed : log.named = false) {calls : List Call} {final : LogFile}
    (ran : machine.run log calls = some final) : ¬ Clean log calls final := by
  intro clean
  have still : final.named = false := by
    apply machine.run_invariant (fun log => log.named = false) _ unnamed clean.reads ran
    exact fun _ _ _ unnamed initialised taken => step_unnamed unnamed initialised taken
  have named := clean.last_reads.2
  rw [still] at named
  cases named

/-- A run from a constructor to the destructor is clean exactly when the log file
has been built from a name. -/
theorem clean_iff_filename {construction : Construction} {leftover : Option (List Char)}
    {calls : List Call} {final : LogFile} (built : construction.construct leftover = some log)
    (ran : machine.run log calls = some final) :
    Clean log calls final ↔ ∃ filename fopen, construction = .ofFilename filename fopen := by
  cases construction with
  | ofStream stream =>
      apply iff_of_false
      · cases built
        exact not_clean_of_unnamed rfl ran
      · rintro ⟨filename, fopen, ⟨⟩⟩
  | ofFilename filename fopen =>
      apply iff_of_true _ ⟨filename, fopen, rfl⟩
      exact (owned_ofFilename built).clean ran

/-- A log in the files `a` and then `b`, whose two names are released. -/
theorem clean_from_a_to_b : ∃ log final,
    Construction.construct none (.ofFilename (some ['a']) true) = some log ∧
      machine.run log [.setFilename (some ['b']), .close, .openLog true] = some final ∧
      final.destroy.released = [.name 0, .name 1] ∧
      Clean log [.setFilename (some ['b']), .close, .openLog true] final := by
  obtain ⟨log, built⟩ : ∃ log,
      Construction.construct none (.ofFilename (some ['a']) true) = some log := ⟨_, rfl⟩
  obtain ⟨final, ran⟩ : ∃ final,
      machine.run log [.setFilename (some ['b']), .close, .openLog true] = some final := ⟨_, rfl⟩
  refine ⟨log, final, built, ran, ?_, (clean_iff_filename built ran).mpr ⟨_, _, rfl⟩⟩
  cases built
  cases ran
  rfl

/-- A log on the standard output, built where an address stands in the place of
`mpFilename`: the destructor releases that address. -/
theorem stdout_releases_leftover : ∃ log,
    Construction.construct (some ['x']) (.ofStream (some .stdout)) = some log ∧
      machine.run log [] = some log ∧ log.destroy.released = [.junk ['x']] ∧
      ¬ Clean log [] log := by
  refine ⟨_, rfl, rfl, rfl, fun clean => ?_⟩
  exact absurd clean.last_reads.2 (by decide)

end MSrv.LogFile
