import MagicServer.Log.Lines
import Mathlib.Algebra.Order.BigOperators.Group.List

/-!
# Reading the log back

When no thread is in `message()`, the log splits into the lines of the calls
that have returned 0, and every field of a line but the month is the one of its
call. The month is one less, so the log gives back its calls only as long as
there are none.
-/

namespace MSrv

namespace Logging

variable {threads : Nat} {logging final : Logging threads} {actions : List (Action threads)}

/-- The log splits into one line for each call, in some order, and each line
reads as what its call is meant to say. -/
def RoundTrips (logging : Logging threads) : Prop :=
  ∃ (text : List Char) (order : List LogCall) (lines : List (List Char)),
    logging.mpLogStream = some text ∧ order.Perm logging.called ∧
      text.splitOn '\n' = lines ++ [[]] ∧
      lines.map LogRecord.parse = order.map fun call => some call.record

/-- A run in which all writes succeed keeps the lines whole. -/
theorem orderly_of_run (clean : ∀ action ∈ actions, Clean action)
    (ran : (machine threads).run (opened threads) actions = some final) : final.Orderly := by
  have steps := ((machine threads).steps_iff_forall ran).mpr clean
  refine (machine threads).run_invariant Orderly ?_ orderly_opened steps ran
  intro state action next orderly clean taken
  exact orderly.step (step_cases clean taken)

/-- With no thread in `message()`, every call has returned. -/
theorem Orderly.perm (orderly : logging.Orderly) (idle : ∀ t, logging.pc t = .idle) :
    (logging.returned.map Prod.fst).Perm logging.called := by
  rw [List.perm_iff_count]
  intro call
  have nobody : underWay call logging.pc = 0 :=
    Threads.total_eq_zero _ fun t => by rw [idle t]; rfl
  rw [orderly.counted call, nobody, Nat.add_zero]

theorem written_sublist : logging.written.Sublist (logging.returned.map Prod.fst) :=
  List.filter_sublist.map Prod.fst

theorem Orderly.written_plain (orderly : logging.Orderly) (idle : ∀ t, logging.pc t = .idle)
    {call : LogCall} (member : call ∈ logging.written) : call.Plain :=
  orderly.plain call ((orderly.perm idle).mem_iff.mp (written_sublist.subset member))

/-- The log is the lines of the calls that have returned 0. -/
theorem Orderly.splitOn (orderly : logging.Orderly) (idle : ∀ t, logging.pc t = .idle) :
    ∃ text, logging.mpLogStream = some text ∧
      text.splitOn '\n' = logging.written.map LogCall.line ++ [[]] := by
  have nothing : logging.tail = [] := by
    unfold tail
    cases logging.mThreadLock.owner with
    | none => rfl
    | some holder => simp only [idle holder, MessagePc.added]
  have plain : ∀ line ∈ logging.written.map LogCall.line, '\n' ∉ line := by
    rw [List.forall_mem_map]
    exact fun call member => LogCall.newline_not_mem_line (orderly.written_plain idle member)
  refine ⟨_, orderly.stream, ?_⟩
  rw [nothing, List.append_nil, ← Field.splitOn_flatMap plain, List.flatMap_map]

/-- Every line says what its call gave, with the month counted from 0. -/
theorem Orderly.parse_written (orderly : logging.Orderly) (idle : ∀ t, logging.pc t = .idle) :
    (logging.written.map LogCall.line).map LogRecord.parse =
      logging.written.map fun call => some { call.record with month := call.time.tm_mon } := by
  rw [List.map_map]
  apply List.map_congr_left
  intro call member
  exact LogCall.parse_line (orderly.written_plain idle member)

/-- The months of the lines add up to less than the months of the calls, so the
log gives back no call. -/
theorem Orderly.called_eq_nil (orderly : logging.Orderly) (idle : ∀ t, logging.pc t = .idle)
    (trips : logging.RoundTrips) : logging.called = [] := by
  obtain ⟨text, order, lines, stream, perm, split, parsed⟩ := trips
  obtain ⟨text', stream', split'⟩ := orderly.splitOn idle
  cases stream.symm.trans stream'
  obtain rfl := List.append_cancel_right (split.symm.trans split')
  rw [orderly.parse_written idle] at parsed
  have months := congrArg (fun records => (records.map fun record =>
    (record.map LogRecord.month).getD 0).sum) parsed
  simp only [List.map_map, Function.comp_def, Option.map_some, Option.getD_some,
    LogCall.record] at months
  have fewer : (logging.written.map fun call => call.time.tm_mon).sum ≤
      ((logging.returned.map Prod.fst).map fun call => call.time.tm_mon).sum := by
    apply (written_sublist.map _).sum_le_sum
    intro month member
    obtain ⟨call, _, rfl⟩ := List.mem_map.mp member
    exact call.time.mon_range.1
  rw [(((orderly.perm idle).trans perm.symm).map _).sum_eq] at fewer
  have more : (order.map fun call => call.time.tm_mon + 1).sum =
      (order.map fun call => call.time.tm_mon).sum + order.length := by
    simp only [List.sum_map_add, List.map_const', List.sum_replicate, nsmul_eq_mul, mul_one]
  have none_made : order.length = 0 := by omega
  rw [perm.length_eq] at none_made
  exact List.eq_nil_of_length_eq_zero none_made

theorem Orderly.roundTrips_iff_called (orderly : logging.Orderly)
    (idle : ∀ t, logging.pc t = .idle) : logging.RoundTrips ↔ logging.called = [] := by
  constructor
  · exact orderly.called_eq_nil idle
  · intro none_made
    obtain ⟨text, stream, split⟩ := orderly.splitOn idle
    have nothing : logging.written = [] := by
      have returned := orderly.perm idle
      rw [none_made, List.perm_nil] at returned
      exact List.sublist_nil.mp (returned ▸ written_sublist)
    exact ⟨text, [], [], stream, by rw [none_made], by rw [split, nothing]; rfl, rfl⟩

/-- No call is forgotten. -/
theorem Step.called_ne_nil {next : Logging threads} (step : Step logging next)
    (made : logging.called ≠ []) : next.called ≠ [] := by
  cases step with
  | call => exact List.append_ne_nil_of_left_ne_nil made _
  | _ => exact made

/-- Nothing happens on the log before the first call, and no call is forgotten. -/
theorem called_eq_nil_iff (clean : ∀ action ∈ actions, Clean action)
    (ran : (machine threads).run (opened threads) actions = some final) :
    final.called = [] ↔ ∀ action ∈ actions, ∀ t call, action ≠ .call t call := by
  have steps := ((machine threads).steps_iff_forall ran).mpr clean
  rw [← (machine threads).steps_iff_forall ran]
  refine (machine threads).law_iff_steps
    (fun logging => (∀ t, logging.pc t = .idle) ∧ logging.called = [])
    (fun logging => logging.called ≠ []) ?_ ?_ ?_ (fun _ kept => kept.2) (fun _ made => made)
    ⟨fun _ => rfl, rfl⟩ steps ran
  · rintro logging action next ⟨idle, _⟩ _ other taken
    change logging.step action = some next at taken
    cases action with
    | call t call => exact absurd rfl (other t call)
    | _ => simp only [step, idle, reduceCtorEq] at taken
  · rintro logging action next ⟨idle, _⟩ _ entered taken
    push Not at entered
    obtain ⟨t, call, rfl⟩ := entered
    change logging.step (.call t call) = some next at taken
    simp only [step, idle, Option.some.injEq] at taken
    subst taken
    exact List.append_ne_nil_of_right_ne_nil _ (List.cons_ne_nil _ _)
  · intro logging action next made clean taken
    exact (step_cases clean taken).called_ne_nil made

/-- **Reading the log back.** With any threads and any interleaving in which all
writes succeed, the log of a run that ends with no thread in `message()` gives
back the calls exactly when none has been made: every line names the month
before the one of its call. -/
theorem roundTrips_iff (clean : ∀ action ∈ actions, Clean action)
    (ran : (machine threads).run (opened threads) actions = some final)
    (idle : ∀ t, final.pc t = .idle) :
    final.RoundTrips ↔ ∀ action ∈ actions, ∀ t call, action ≠ .call t call := by
  rw [(orderly_of_run clean ran).roundTrips_iff_called idle, called_eq_nil_iff clean ran]

/-- A message on the fifteenth of March. -/
def ides : LogCall where
  modulename := "TEST".toList
  fatality := 4
  errno := -1001
  message := some "Beware".toList
  time :=
    { tm_sec := 7
      tm_min := 5
      tm_hour := 9
      tm_mday := 15
      tm_mon := 2
      tm_year := 108
      sec_range := by decide
      min_range := by decide
      hour_range := by decide
      mday_range := by decide
      mon_range := by decide }

/-- A thread makes one call, and every write succeeds. -/
def oneCall (t : Fin threads) : List (Action threads) :=
  [.call t ides, .lock t, .test t, .write t .written, .write t .written, .write t .written,
    .write t .written, .unlock t]

theorem roundTrips_iff_oneCall : ∃ final, (machine 1).run (opened 1) (oneCall 0) = some final ∧
    (final.RoundTrips ↔ ∀ action ∈ oneCall (0 : Fin 1), ∀ t call, action ≠ .call t call) :=
  ⟨_, rfl, roundTrips_iff (by decide) rfl (by decide)⟩

/-- The message of the fifteenth of March is logged in February. -/
theorem march_logged_in_february : ∃ final, (machine 1).run (opened 1) (oneCall 0) = some final ∧
    (∀ t, final.pc t = .idle) ∧
    final.mpLogStream = some "2008/02/15 09:05:07 TEST WARNING 1001: Beware\n".toList ∧
    ¬ final.RoundTrips := by
  refine ⟨_, rfl, by decide, by decide, ?_⟩
  intro trips
  have clean : ∀ action ∈ oneCall (0 : Fin 1), Clean action := by decide
  cases (orderly_of_run clean rfl).called_eq_nil (by decide) trips

end Logging

end MSrv
