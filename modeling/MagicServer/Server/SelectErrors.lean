import Mathlib.Data.List.Induction
import MagicServer.Server.Listen

/-!
# Failures of select

How `errorcount` follows the results of `select()` over whole runs of `listen()`.
A ready descriptor resets it at the end of the dispatch loop, a timeout does not.
-/

namespace MSrv.SelectErrors

/-- What a call of `select()` comes back with. -/
inductive Outcome where
  | failed
  | timeout
  | ready
  deriving DecidableEq

inductive Action where
  | listen (action : Listening.Action)
  /-- The handler, or a thread other than the listener's, changes the server. -/
  | others (server : ServerListener)

/-- The loop of `listen()`, with anything done to the server meanwhile. -/
def machine (remove : Removal) : Machine Listening Action where
  step listening
    | .listen action => (Listening.machine remove).step listening action
    | .others server => some { listening with server := server }

/-- No event and no other thread asks for shutdown with this action. -/
def Quiet (listening : Listening) : Action → Prop
  | .listen .startShutdown => False
  | .listen (.returned result) =>
      result = MSRVERR_SHUTDOWN_EVENT → ∀ request, listening.pc ≠ .handling request .timeout
  | .listen _ => True
  | .others server => server.mShutdownStatus = false

/-- The outcome of `select()`, when the action is its return. -/
def Action.outcome? : Action → Option Outcome
  | .listen .selectFailed => some .failed
  | .listen .selectTimeout => some .timeout
  | .listen (.selectReady _) => some .ready
  | _ => none

/-- The outcomes of the calls of `select()`, in order. -/
def outcomes (actions : List Action) : List Outcome := actions.filterMap Action.outcome?

/-! ## Failures in a history of outcomes -/

/-- The count of failures after one more outcome. -/
def tally (errors : Nat) : Outcome → Nat
  | .failed => errors + 1
  | .timeout => errors
  | .ready => 0

/-- The failures since the last outcome with a ready descriptor. -/
def failures (history : List Outcome) : Nat := history.foldl tally 0

/-- The last `n` calls of `select()` have all failed. -/
def LastFailed (n : Nat) (history : List Outcome) : Prop :=
  List.replicate n .failed <:+ history

instance (n : Nat) (history : List Outcome) : Decidable (LastFailed n history) :=
  inferInstanceAs (Decidable (_ <:+ _))

/-- A stretch without a ready descriptor, up to the last call, begins with a
failure and has `n` of them, and a timeout among them. -/
def SplitByTimeout (n : Nat) (history : List Outcome) : Prop :=
  ∃ before stretch, history = before ++ .failed :: stretch ∧ .ready ∉ stretch ∧
    stretch.count .failed + 1 = n ∧ .timeout ∈ stretch

theorem failures_concat (history : List Outcome) (outcome : Outcome) :
    failures (history ++ [outcome]) = tally (failures history) outcome := by
  rw [failures, List.foldl_append]
  rfl

/-- More than `n` failures are a stretch that begins with the failure before the
last `n` of them. -/
theorem lt_failures_iff {history : List Outcome} {n : Nat} : n < failures history ↔
    ∃ before stretch, history = before ++ .failed :: stretch ∧ .ready ∉ stretch ∧
      stretch.count .failed = n := by
  induction history using List.reverseRecOn generalizing n with
  | nil =>
      apply iff_of_false (Nat.not_lt_zero n)
      rintro ⟨before, stretch, whole, _⟩
      exact List.cons_ne_nil _ _ (List.append_eq_nil_iff.mp whole.symm).2
  | append_singleton history outcome ih =>
      rw [failures_concat]
      constructor
      · intro more
        cases outcome with
        | ready => exact absurd more (Nat.not_lt_zero n)
        | timeout =>
            obtain ⟨before, stretch, rfl, unready, count⟩ := ih.mp more
            refine ⟨before, stretch ++ [.timeout], by simp, by simp [unready], ?_⟩
            rw [List.count_append, count]
            rfl
        | failed =>
            cases n with
            | zero => exact ⟨history, [], rfl, List.not_mem_nil, rfl⟩
            | succ n =>
                obtain ⟨before, stretch, rfl, unready, count⟩ := ih.mp (Nat.lt_of_succ_lt_succ more)
                refine ⟨before, stretch ++ [.failed], by simp, by simp [unready], ?_⟩
                rw [List.count_append, count]
                rfl
      · rintro ⟨before, stretch, whole, unready, count⟩
        induction stretch using List.reverseRecOn with
        | nil =>
            obtain ⟨rfl, same⟩ := List.append_inj' whole rfl
            cases same
            rw [← count]
            exact Nat.succ_pos _
        | append_singleton stretch last _ =>
            rw [← List.cons_append, ← List.append_assoc] at whole
            obtain ⟨rfl, same⟩ := List.append_inj' whole rfl
            cases same
            rw [List.mem_append, not_or] at unready
            have earlier := ih.mpr ⟨before, stretch, rfl, unready.1, rfl⟩
            rw [List.count_append] at count
            subst count
            cases outcome with
            | ready => exact absurd (List.mem_singleton_self _) unready.2
            | timeout => exact earlier
            | failed => exact Nat.succ_lt_succ earlier

/-- Failures that are the last outcomes have been counted. -/
theorem LastFailed.lt_failures {history : List Outcome} {n : Nat}
    (last : LastFailed (n + 1) history) : n < failures history := by
  obtain ⟨before, rfl⟩ := last
  refine lt_failures_iff.mpr ⟨before, List.replicate n .failed, rfl, ?_, List.count_replicate_self⟩
  simp

/-- A stretch that begins with a failure and has `n` more of them without a
timeout is the last failures. -/
theorem lastFailed_of_no_timeout {before stretch : List Outcome} (unready : .ready ∉ stretch)
    (steady : .timeout ∉ stretch) :
    LastFailed (stretch.count .failed + 1) (before ++ .failed :: stretch) := by
  have all : stretch = List.replicate stretch.length .failed := by
    apply List.eq_replicate_of_mem
    intro outcome member
    cases outcome with
    | failed => rfl
    | timeout => exact absurd member steady
    | ready => exact absurd member unready
  have count : stretch.count .failed = stretch.length := by
    conv_lhs => rw [all]
    exact List.count_replicate_self
  refine ⟨before, ?_⟩
  rw [count, List.replicate_succ, ← all]

/-- With a timeout among them, failures are not the last outcomes. -/
theorem SplitByTimeout.not_lastFailed {history : List Outcome} {n : Nat}
    (split : SplitByTimeout n history) : ¬ LastFailed n history := by
  obtain ⟨before, stretch, rfl, unready, rfl, timeout⟩ := split
  intro last
  have room : stretch.count .failed < stretch.length := by
    apply lt_of_le_of_ne List.count_le_length
    intro full
    cases List.count_eq_length.mp full .timeout timeout
  have within : List.replicate (stretch.count .failed + 1) .failed <:+ stretch := by
    apply List.suffix_of_suffix_length_le last ⟨before ++ [.failed], by simp⟩
    rw [List.length_replicate]
    exact room
  have counted := within.sublist.count_le Outcome.failed
  rw [List.count_replicate_self] at counted
  exact absurd counted (Nat.not_succ_le_self _)

/-- The count is that of the last failures unless a timeout splits them. -/
theorem lt_failures_iff_lastFailed_iff (history : List Outcome) (n : Nat) :
    (n < failures history ↔ LastFailed (n + 1) history) ↔ ¬ SplitByTimeout (n + 1) history := by
  constructor
  · rintro law split
    obtain ⟨before, stretch, whole, unready, count, _⟩ := id split
    exact split.not_lastFailed
      (law.mp (lt_failures_iff.mpr ⟨before, stretch, whole, unready, Nat.succ.inj count⟩))
  · intro together
    refine ⟨fun more => ?_, LastFailed.lt_failures⟩
    obtain ⟨before, stretch, rfl, unready, rfl⟩ := lt_failures_iff.mp more
    apply lastFailed_of_no_timeout unready
    intro timeout
    exact together ⟨before, stretch, rfl, unready, rfl, timeout⟩

/-! ## What a step does to the error count -/

/-- `select()` has found a ready descriptor in this iteration, and its dispatch
loop has not ended. -/
def found : ListenPc → Bool
  | .dispatching _ _ | .handling _ (.dispatch _ _ _ _) => true
  | .building | .selecting _ | .handling _ .timeout | .checking | .left => false

/-- The error count as it will be when the iteration is over. -/
def errors (listening : Listening) : Nat :=
  if found listening.pc then 0 else listening.errorcount

section Steps

variable {remove : Removal} {listening next : Listening}

theorem errors_of_found (here : found listening.pc = true) : errors listening = 0 := if_pos here

theorem errors_of_not_found (here : found listening.pc = false) :
    errors listening = listening.errorcount := by
  unfold errors
  rw [here]
  rfl

theorem errors_afterTimeout (listening : Listening) (result : MSrvResult) :
    errors (listening.afterTimeout result) = listening.errorcount := by
  unfold Listening.afterTimeout
  split <;> rfl

theorem errors_pass_timeout (remove : Removal) (listening : Listening)
    (arrived : Option Request × ServerListener) :
    errors (listening.pass remove .timeout arrived) = listening.errorcount := by
  obtain ⟨_ | request, server⟩ := arrived
  · exact errors_afterTimeout { listening with server := server } 0
  · rfl

theorem errors_pass_dispatch (remove : Removal) (listening : Listening) (ready : List Int) (i : Nat)
    (fd : Int) (lost : Bool) (arrived : Option Request × ServerListener) :
    errors (listening.pass remove (.dispatch ready i fd lost) arrived) = 0 := by
  obtain ⟨_ | request, server⟩ := arrived
  · exact errors_of_found rfl
  · exact errors_of_found rfl

theorem errors_afterHandler (remove : Removal) {request : Request} {resume : Resume}
    (result : MSrvResult) (here : listening.pc = .handling request resume) :
    errors (listening.afterHandler remove result resume) = errors listening := by
  cases resume with
  | dispatch ready i fd lost =>
      have before : errors listening = 0 := errors_of_found (by rw [here]; rfl)
      rw [before]
      exact errors_of_found rfl
  | timeout =>
      have kept : errors listening = listening.errorcount :=
        errors_of_not_found (by rw [here]; rfl)
      rw [kept]
      exact errors_afterTimeout listening result

/-- The return of `timeoutEvent()` sets the shutdown status only if it asks for
shutdown. -/
theorem status_afterTimeout {result : MSrvResult} (quiet : result ≠ MSRVERR_SHUTDOWN_EVENT) :
    (listening.afterTimeout result).server.mShutdownStatus =
      listening.server.mShutdownStatus := by
  unfold Listening.afterTimeout
  rw [if_neg quiet]
  rfl

theorem status_pass (remove : Removal) (listening : Listening) (resume : Resume)
    (arrived : Option Request × ServerListener) :
    (listening.pass remove resume arrived).server.mShutdownStatus = arrived.2.mShutdownStatus := by
  obtain ⟨_ | request, server⟩ := arrived
  · cases resume with
    | timeout => exact status_afterTimeout (by decide)
    | dispatch ready i fd lost => exact server.descriptorEventEnd_mShutdownStatus remove fd lost
  · rfl

theorem status_afterHandler (remove : Removal) {request : Request} {resume : Resume}
    {result : MSrvResult} (here : listening.pc = .handling request resume)
    (quiet : Quiet listening (.listen (.returned result))) :
    (listening.afterHandler remove result resume).server.mShutdownStatus =
      listening.server.mShutdownStatus := by
  cases resume with
  | timeout => exact status_afterTimeout fun asks => quiet asks request here
  | dispatch ready i fd lost =>
      exact listening.server.descriptorEventEnd_mShutdownStatus remove fd lost

/-- One step of `listen()` counts the outcome that it is, if it is one, and only
the tests at the end of an iteration set the shutdown status unasked. -/
theorem step_effect {action : Listening.Action}
    (taken : (Listening.machine remove).step listening action = some next) :
    errors next = (Action.outcome? (.listen action)).elim (errors listening)
        (tally (errors listening)) ∧
      (Quiet listening (.listen action) → action ≠ .check →
        next.server.mShutdownStatus = listening.server.mShutdownStatus) := by
  cases Listening.taken_of_step taken with
  | startShutdown => exact ⟨rfl, fun quiet _ => quiet.elim⟩
  | build here | selectFailed here | endDispatch here | skip here =>
      refine ⟨?_, fun _ _ => rfl⟩
      simp only [errors, here, found]
      rfl
  | selectTimeout here =>
      rw [errors_pass_timeout, errors, here, status_pass]
      exact ⟨rfl, fun _ _ => ServerListener.generate_mShutdownStatus ..⟩
  | selectReady => exact ⟨errors_of_found rfl, fun _ _ => rfl⟩
  | check here =>
      simp only [errors, here, found, Listening.go, Listening.shutDown]
      refine ⟨?_, fun _ other => absurd rfl other⟩
      split_ifs <;> rfl
  | event here _ _ event =>
      rw [errors_pass_dispatch, errors_of_found (by rw [here]; rfl), status_pass]
      exact ⟨rfl, fun _ _ => ServerListener.descriptorEvent_mShutdownStatus event⟩
  | returned result here =>
      exact ⟨errors_afterHandler remove result here, fun quiet _ =>
        status_afterHandler remove here quiet⟩

/-- The tests at the end of an iteration. -/
theorem check_effect (taken : (Listening.machine remove).step listening .check = some next)
    (running : listening.server.mShutdownStatus = false) :
    (next.server.mShutdownStatus = true ↔ MSRV_MAX_SELECT_ERROR_COUNT < errors listening) ∧
      (next.server.mShutdownStatus = true → next.pc = .left) := by
  cases Listening.taken_of_step taken with | check here => ?_
  simp only [errors, here, found, Listening.go, Listening.shutDown, gt_iff_lt,
    Bool.false_eq_true, if_false]
  by_cases many : MSRV_MAX_SELECT_ERROR_COUNT < listening.errorcount
  · simp only [many, if_true, iff_self, implies_true, and_self]
  · simp only [many, if_false, running, Bool.false_eq_true, false_implies, and_self]

/-- Nothing but a change from outside happens when the loop has been left. -/
theorem left_step {action : Listening.Action} (here : listening.pc = .left)
    (taken : (Listening.machine remove).step listening action = some next) :
    action = .startShutdown := by
  cases Listening.taken_of_step taken with
  | startShutdown => rfl
  | build there | selectFailed there | selectTimeout there | selectReady there
  | skip there | event there | endDispatch there | check there => cases here.symm.trans there
  | returned _ there => cases here.symm.trans there

end Steps

/-! ## Whole runs -/

/-- What holds in a run in which nothing asks for shutdown. -/
structure Holds (actions : List Action) (listening : Listening) : Prop where
  errors : errors listening = failures (outcomes actions)
  left : listening.server.mShutdownStatus = true → listening.pc = .left

theorem Holds.start {server : ServerListener} (running : server.mShutdownStatus = false) :
    Holds [] (Listening.start server) where
  errors := rfl
  left := by
    intro shut
    cases running.symm.trans shut

/-- The outcomes of a run and of one more action. -/
theorem outcomes_concat (actions : List Action) (action : Action) :
    outcomes (actions ++ [action]) = outcomes actions ++ action.outcome?.toList := by
  unfold outcomes
  rw [List.filterMap_append]
  cases outcome : action.outcome? with
  | none => rw [List.filterMap_cons_none outcome]; rfl
  | some _ => rw [List.filterMap_cons_some outcome]; rfl

theorem failures_outcomes_concat (actions : List Action) (action : Action) :
    failures (outcomes (actions ++ [action])) =
      action.outcome?.elim (failures (outcomes actions)) (tally (failures (outcomes actions))) := by
  rw [outcomes_concat]
  cases action.outcome? with
  | none => exact congrArg failures (List.append_nil _)
  | some outcome => exact failures_concat _ outcome

theorem Holds.step {remove : Removal} {earlier : List Action} {listening next : Listening}
    {action : Action} (holds : Holds earlier listening) (quiet : Quiet listening action)
    (taken : (machine remove).step listening action = some next) :
    Holds (earlier ++ [action]) next := by
  cases action with
  | others server =>
      cases taken
      constructor
      · rw [failures_outcomes_concat]
        exact holds.errors
      · intro shut
        cases quiet.symm.trans shut
  | listen action =>
      change (Listening.machine remove).step listening action = some next at taken
      obtain ⟨counted, kept⟩ := step_effect taken
      constructor
      · rw [failures_outcomes_concat, ← holds.errors]
        exact counted
      · cases status : listening.server.mShutdownStatus with
        | true =>
            cases left_step (holds.left status) taken
            exact quiet.elim
        | false =>
            by_cases checks : action = .check
            · subst checks
              exact (check_effect taken status).2
            · intro shut
              rw [kept quiet checks, status] at shut
              cases shut

theorem Holds.run {remove : Removal} {server : ServerListener}
    (running : server.mShutdownStatus = false) {actions : List Action} {final : Listening}
    (quiet : (machine remove).Steps Quiet (.start server) actions)
    (ran : (machine remove).run (.start server) actions = some final) : Holds actions final := by
  apply (machine remove).run_history Holds _ (.start running) quiet ran
  intro earlier listening action next holds
  exact holds.step

/-- The iteration that ends with `.check` starts shutdown exactly when the last
`MSRV_MAX_SELECT_ERROR_COUNT + 1` calls of `select()` have failed, except where a
timeout lies between failures that have added up to that number. -/
theorem startShutdown_iff_lastFailed_iff {remove : Removal} {server : ServerListener}
    {actions : List Action} {final : Listening} (running : server.mShutdownStatus = false)
    (quiet : (machine remove).Steps Quiet (.start server) actions)
    (ran : (machine remove).run (.start server) (actions ++ [.listen .check]) = some final) :
    (final.server.mShutdownStatus = true ↔
        LastFailed (MSRV_MAX_SELECT_ERROR_COUNT + 1) (outcomes actions)) ↔
      ¬ SplitByTimeout (MSRV_MAX_SELECT_ERROR_COUNT + 1) (outcomes actions) := by
  obtain ⟨listening, before, ended⟩ := (machine remove).run_append_eq_some.mp ran
  obtain ⟨next, taken, done⟩ := (machine remove).run_cons_eq_some.mp ended
  cases done
  change (Listening.machine remove).step listening .check = some final at taken
  have holds := Holds.run running quiet before
  have status : listening.server.mShutdownStatus = false := by
    cases status : listening.server.mShutdownStatus with
    | false => rfl
    | true => cases left_step (holds.left status) taken
  rw [(check_effect taken status).1, holds.errors]
  exact lt_failures_iff_lastFailed_iff _ _

/-- An iteration in which `select()` fails, up to its tests. -/
def failing : List Action := [.listen .build, .listen .selectFailed]

/-- One in which it times out, when no request is made of it. -/
def idle : List Action := [.listen .build, .listen .selectTimeout]

/-- Eleven failures one after another. -/
theorem startShutdown_iff_lastFailed_iff_eleven :
    ∃ final, (machine List.eraseIdx).run (.start .sample)
        ((List.replicate 10 (failing ++ [.listen .check])).flatten ++ failing ++
          [.listen .check]) = some final ∧
      ((final.server.mShutdownStatus = true ↔ LastFailed (MSRV_MAX_SELECT_ERROR_COUNT + 1)
          (outcomes ((List.replicate 10 (failing ++ [.listen .check])).flatten ++ failing))) ↔
        ¬ SplitByTimeout (MSRV_MAX_SELECT_ERROR_COUNT + 1)
          (outcomes ((List.replicate 10 (failing ++ [.listen .check])).flatten ++ failing))) := by
  obtain ⟨final, ran⟩ : ∃ final, (machine List.eraseIdx).run (.start .sample)
      ((List.replicate 10 (failing ++ [.listen .check])).flatten ++ failing ++
        [.listen .check]) = some final := ⟨_, rfl⟩
  refine ⟨final, ran, startShutdown_iff_lastFailed_iff rfl (Machine.steps_of_forall _ ?_) ran⟩
  intro action member listening
  simp only [failing, List.mem_append, List.mem_flatten, List.mem_replicate, List.mem_cons,
    List.not_mem_nil, or_false] at member
  rcases member with ⟨_, ⟨_, rfl⟩, member⟩ | rfl | rfl
  · simp only [List.cons_append, List.nil_append, List.mem_cons, List.not_mem_nil,
      or_false] at member
    rcases member with rfl | rfl | rfl <;> trivial
  · trivial
  · trivial

/-- A timeout between the tenth failure and the eleventh: shutdown is started,
and only the last call of `select()` has failed. -/
theorem shutdown_after_timeout :
    ∃ final, (machine List.eraseIdx).run (.start .sample)
        ((List.replicate 10 (failing ++ [.listen .check])).flatten ++ idle ++
          [.listen .check] ++ failing ++ [.listen .check]) = some final ∧
      outcomes ((List.replicate 10 (failing ++ [.listen .check])).flatten ++ idle ++
        [.listen .check] ++ failing) = List.replicate 10 .failed ++ [.timeout, .failed] ∧
      final.server.mShutdownStatus = true ∧
      ¬ LastFailed (MSRV_MAX_SELECT_ERROR_COUNT + 1)
        (outcomes ((List.replicate 10 (failing ++ [.listen .check])).flatten ++ idle ++
          [.listen .check] ++ failing)) :=
  ⟨{ (Listening.start .sample).shutDown with pc := .left, errorcount := 11 }, rfl, rfl, rfl,
    by decide⟩

end MSrv.SelectErrors
