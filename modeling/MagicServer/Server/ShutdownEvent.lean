import MagicServer.Server.SelectErrors

/-!
# Which answers of the handler end the listening

`listen()` with a `RequestHandler` in its own thread, from what the handler
returns for each request to the tests at the end of an iteration. Several
requests can be answered in one iteration, after one return of `select()`.
-/

namespace MSrv

/-- A `RequestHandler`: what each of its methods returns for a request. -/
structure RequestHandler where
  newConnection : Request → MSrvResult
  streamData : Request → MSrvResult
  datagram : Request → MSrvResult
  connectionLost : Request → MSrvResult
  shutdown : Request → MSrvResult
  timeout : Request → MSrvResult

namespace RequestHandler

/-- Processes requests: the switchboard of the methods. Its `default` branch is
for types that no request has. -/
def process (handler : RequestHandler) (pRequest : Request) : MSrvResult :=
  match pRequest.getType with
  | .newConnection => handler.newConnection pRequest
  | .streamData => handler.streamData pRequest
  | .datagram => handler.datagram pRequest
  | .connectionLost => handler.connectionLost pRequest
  | .shutdown => handler.shutdown pRequest
  | .timeout => handler.timeout pRequest

/-- A handler whose methods return the same for every request. -/
def always (result : MSrvResult) : RequestHandler where
  newConnection _ := result
  streamData _ := result
  datagram _ := result
  connectionLost _ := result
  shutdown _ := result
  timeout _ := result

end RequestHandler

namespace ServerListener

theorem generate_content {server : ServerListener} {type : RequestType} {socket : Int}
    {content : Request.Content} {request : Request}
    (made : (server.generate type socket content).1 = some request) :
    request.content = content := by
  have fst := server.generate_fst type socket content
  rw [made, Option.map_some] at fst
  split_ifs at fst
  exact Option.some_inj.mp fst

/-- No event on a descriptor is a timeout. -/
theorem descriptorEvent_ne_timeout {server : ServerListener} {fd : Int}
    {pDescriptorData : Option ConnectionId} {input : EventInput}
    {arrived : Option Request × ServerListener} {lost : Bool} {request : Request}
    (event : server.descriptorEvent fd pDescriptorData input = some (arrived, lost))
    (made : arrived.1 = some request) : request.getType ≠ .timeout := by
  unfold Request.getType
  cases arrival_of_event event with
  | refused | failed => cases made
  | accepted | streamData | datagram | connectionLost =>
      rw [generate_content made]
      exact RequestType.noConfusion

theorem timeoutEvent_eq_timeout {server : ServerListener} {request : Request}
    (made : server.timeoutEvent.1 = some request) : request.getType = .timeout := by
  unfold Request.getType
  rw [generate_content made]

end ServerListener

namespace Listening

/-- The request that `pass` leaves with the handler is the one that has been made. -/
theorem pass_handling {remove : Removal} {listening : Listening} {resume resume' : Resume}
    {arrived : Option Request × ServerListener} {request : Request}
    (handling : (listening.pass remove resume arrived).pc = .handling request resume') :
    arrived.1 = some request ∧ resume = resume' := by
  obtain ⟨_ | made, server⟩ := arrived
  · cases resume with
    | timeout =>
        rw [pass, (afterTimeout_quiet _ 0).1] at handling
        cases handling
    | dispatch => cases handling
  · cases handling
    exact ⟨rfl, rfl⟩

/-- The tests leave the loop, or go on with an unchanged listener. -/
theorem check_cases {remove : Removal} {listening next : Listening}
    (taken : Taken remove listening .check next) : listening.pc = .checking ∧
      ((next.pc = .left ∧ next.errorcount = listening.errorcount ∧
          (MSRV_MAX_SELECT_ERROR_COUNT < listening.errorcount ∨
            listening.server.mShutdownStatus = true)) ∨
        (next = listening.go .building ∧
          listening.errorcount ≤ MSRV_MAX_SELECT_ERROR_COUNT ∧
          listening.server.mShutdownStatus = false)) := by
  cases taken with | check here => ?_
  refine ⟨here, ?_⟩
  by_cases many : MSRV_MAX_SELECT_ERROR_COUNT < listening.errorcount
  · simp only [gt_iff_lt, if_pos many]
    exact Or.inl ⟨rfl, rfl, Or.inl many⟩
  · simp only [gt_iff_lt, if_neg many]
    cases shut : listening.server.mShutdownStatus with
    | true => exact Or.inl ⟨rfl, rfl, Or.inr rfl⟩
    | false => exact Or.inr ⟨rfl, not_lt.mp many, rfl⟩

end Listening

/-- The listener thread with what has asked it for shutdown. -/
structure Answering where
  listening : Listening
  /-- The types of the requests that the handler has answered with
  `MSRVERR_SHUTDOWN_EVENT` since the iteration began. -/
  answered : List RequestType
  /-- Some thread has called `startShutdown()`. -/
  started : Bool

namespace Answering

/-- `listen()` is called. -/
def start (server : ServerListener) : Answering where
  listening := .start server
  answered := []
  started := server.mShutdownStatus

inductive Action where
  /-- The listener thread goes on outside the handler, or a thread calls
  `startShutdown()`. -/
  | listen (action : Listening.Action)
  /-- The methods of `handler` have given the result. -/
  | returned (handler : RequestHandler)
  /-- The handler, or a thread other than the listener's, changes the server in
  anything but the shutdown status. -/
  | others (server : ServerListener)

/-- What the handler has asked for after one more request. -/
def answer (answered : List RequestType) (request : Request) (result : MSrvResult) :
    List RequestType :=
  if result = MSRVERR_SHUTDOWN_EVENT then request.getType :: answered else answered

/-- One step. -/
def step (remove : Removal) (answering : Answering) : Action → Option Answering
  | .listen (.returned _) => none
  | .listen .build =>
      (answering.listening.step remove .build).map fun next =>
        { answering with listening := next, answered := [] }
  | .listen .startShutdown =>
      (answering.listening.step remove .startShutdown).map fun next =>
        { answering with listening := next, started := true }
  | .listen action =>
      (answering.listening.step remove action).map fun next => { answering with listening := next }
  | .returned handler =>
      match answering.listening.pc with
      | .handling request _ =>
          (answering.listening.step remove (.returned (handler.process request))).map fun next =>
            { answering with
              listening := next
              answered := answer answering.answered request (handler.process request) }
      | _ => none
  | .others server =>
      if server.mShutdownStatus = answering.listening.server.mShutdownStatus then
        some { answering with listening := { answering.listening with server := server } }
      else none

/-- Every run of `listen()` with a handler in its thread is a run of this machine. -/
def machine (remove : Removal) : Machine Answering Action where
  step := step remove

/-- What the tests at the end of an iteration are for: an answer that asks for
shutdown makes the iteration the last one, and without any reason to end it is
not the last. -/
structure Heeds (answering next : Answering) : Prop where
  ends : answering.answered ≠ [] → next.listening.pc = .left
  goes_on : answering.answered = [] → answering.started = false →
    answering.listening.errorcount ≤ MSRV_MAX_SELECT_ERROR_COUNT →
    next.listening.pc = .building

instance (answering next : Answering) : Decidable (answering.Heeds next) :=
  decidable_of_iff
    ((answering.answered ≠ [] → next.listening.pc = .left) ∧
      (answering.answered = [] → answering.started = false →
        answering.listening.errorcount ≤ MSRV_MAX_SELECT_ERROR_COUNT →
        next.listening.pc = .building))
    ⟨fun both => ⟨both.1, both.2⟩, fun heeds => ⟨heeds.ends, heeds.goes_on⟩⟩

/-- The handler has asked for shutdown with another request than a `Timeout`. -/
def AskedByEvent (answering : Answering) : Prop :=
  ∃ type ∈ answering.answered, type ≠ .timeout

/-- The steps of the listener with its handler. -/
inductive Step (remove : Removal) (answering : Answering) : Action → Answering → Prop
  | build : answering.listening.pc = .building → Step remove answering (.listen .build)
      { answering with
        listening := answering.listening.go
          (.selecting (answering.listening.server.sockets.mDescriptors.map Descriptor.mFd))
        answered := [] }
  | startShutdown : Step remove answering (.listen .startShutdown)
      { answering with listening := answering.listening.shutDown, started := true }
  | listen {action : Listening.Action} {next : Listening} :
      Listening.Taken remove answering.listening action next → action ≠ .build →
      action ≠ .startShutdown → (∀ result, action ≠ .returned result) →
      Step remove answering (.listen action) { answering with listening := next }
  | returned {handler : RequestHandler} {request : Request} {resume : Resume} :
      answering.listening.pc = .handling request resume →
      Step remove answering (.returned handler)
        { answering with
          listening :=
            answering.listening.afterHandler remove (handler.process request) resume
          answered := answer answering.answered request (handler.process request) }
  | others {server : ServerListener} :
      server.mShutdownStatus = answering.listening.server.mShutdownStatus →
      Step remove answering (.others server)
        { answering with listening := { answering.listening with server := server } }

variable {remove : Removal} {answering next : Answering} {action : Action}

/-- The steps that are those of the listener thread alone. -/
theorem listen_cases {action : Listening.Action} (build : action ≠ .build)
    (started : action ≠ .startShutdown) (outside : ∀ result, action ≠ .returned result)
    (taken : answering.step remove (.listen action) = some next) :
    Step remove answering (.listen action) next := by
  have unfolded : (answering.listening.step remove action).map (fun next =>
      { answering with listening := next }) = some next := by
    cases action with
    | build => exact absurd rfl build
    | startShutdown => exact absurd rfl started
    | returned result => exact absurd rfl (outside result)
    | _ => exact taken
  obtain ⟨after, stepped, rfl⟩ := Option.map_eq_some_iff.mp unfolded
  exact .listen (Listening.taken_of_step stepped) build started outside

theorem step_cases (taken : (machine remove).step answering action = some next) :
    Step remove answering action next := by
  change answering.step remove action = some next at taken
  cases action with
  | listen action =>
      cases action with
      | returned result => cases taken
      | build =>
          obtain ⟨after, stepped, rfl⟩ := Option.map_eq_some_iff.mp taken
          cases Listening.taken_of_step stepped with | build here => exact .build here
      | startShutdown =>
          simp only [step, Listening.step, Option.map_some, Option.some.injEq] at taken
          subst taken
          exact .startShutdown
      | _ => exact listen_cases (by simp) (by simp) (by simp) taken
  | returned handler =>
      cases here : answering.listening.pc with
      | handling request resume =>
          simp only [step, here, Listening.step, Option.map_some, Option.some.injEq] at taken
          subst taken
          exact .returned here
      | _ => simp only [step, here, reduceCtorEq] at taken
  | others server =>
      obtain ⟨kept, rfl⟩ := Option.ite_some_none_eq_some.mp taken
      exact .others kept

/-! ## What an iteration has been asked -/

/-- `select()` has not returned, or the request of a timeout is with the handler. -/
def waiting : ListenPc → Bool
  | .selecting _ | .handling _ .timeout => true
  | .building | .dispatching _ _ | .handling _ (.dispatch _ _ _ _) | .checking | .left => false

theorem waiting_pass_dispatch (remove : Removal) (listening : Listening) (ready : List Int)
    (i : Nat) (fd : Int) (lost : Bool) (arrived : Option Request × ServerListener) :
    waiting (listening.pass remove (.dispatch ready i fd lost) arrived).pc = false := by
  obtain ⟨_ | request, server⟩ := arrived <;> rfl

/-- What holds in every state reached. -/
structure Holds (answering : Answering) : Prop where
  /-- Of the answers only that to a timeout sets the shutdown status. -/
  status : answering.listening.pc ≠ .left →
    (answering.listening.server.mShutdownStatus = true ↔
      answering.started = true ∨ .timeout ∈ answering.answered)
  /-- The answer to a timeout is the only one of its iteration. -/
  timeout : .timeout ∈ answering.answered → answering.answered = [.timeout] ∧
    (answering.listening.pc = .checking ∨ answering.listening.pc = .left)
  unanswered : waiting answering.listening.pc = true → answering.answered = []
  /-- An event is found by a call of `select()` that resets the error count. -/
  errors : answering.AskedByEvent → SelectErrors.errors answering.listening = 0
  resume : ∀ request resume, answering.listening.pc = .handling request resume →
    (request.getType = .timeout ↔ resume = .timeout)

theorem holds_start (server : ServerListener) : (start server).Holds where
  status _ := by
    simp only [start, List.not_mem_nil, or_false]
    rfl
  timeout asked := absurd asked List.not_mem_nil
  unanswered _ := rfl
  errors := by
    rintro ⟨type, asked, _⟩
    exact absurd asked List.not_mem_nil
  resume := nofun

/-- Outside the tests no timeout has been answered in the iteration. -/
theorem Holds.not_timeout (holds : answering.Holds) {pc : ListenPc}
    (here : answering.listening.pc = pc) (inside : pc ≠ .checking ∧ pc ≠ .left) :
    .timeout ∉ answering.answered := by
  intro asked
  rcases (holds.timeout asked).2 with testing | left
  · exact inside.1 (here.symm.trans testing)
  · exact inside.2 (here.symm.trans left)

/-- The listener goes on outside the tests, without an answer to anything. -/
theorem Holds.move (holds : answering.Holds) {after : Listening} {pc : ListenPc}
    (here : answering.listening.pc = pc) (inside : pc ≠ .checking ∧ pc ≠ .left)
    (status : after.server.mShutdownStatus = answering.listening.server.mShutdownStatus)
    (found : answering.answered = [] ∨
      (waiting after.pc = false ∧ SelectErrors.errors after = 0))
    (resume : ∀ request resume, after.pc = .handling request resume →
      (request.getType = .timeout ↔ resume = .timeout)) :
    Holds { answering with listening := after } where
  status _ := by
    rw [← holds.status (by rw [here]; exact inside.2), status]
  timeout asked := absurd asked (holds.not_timeout here inside)
  unanswered waits := by
    rcases found with none | ⟨busy, _⟩
    · exact none
    · cases busy.symm.trans waits
  errors := by
    rintro ⟨type, asked, _⟩
    rcases found with none | ⟨_, reset⟩
    · change type ∈ answering.answered at asked
      rw [none] at asked
      exact absurd asked List.not_mem_nil
    · exact reset
  resume := resume

/-- What the shutdown status is at the tests. -/
theorem Holds.status_checking (holds : answering.Holds)
    (here : answering.listening.pc = .checking) :
    answering.listening.server.mShutdownStatus = true ↔
      answering.started = true ∨ .timeout ∈ answering.answered :=
  holds.status (by rw [here]; nofun)

theorem Holds.errorcount (holds : answering.Holds) (here : answering.listening.pc = .checking)
    (asked : answering.AskedByEvent) : answering.listening.errorcount = 0 := by
  rw [← SelectErrors.errors_of_not_found (by rw [here]; rfl)]
  exact holds.errors asked

/-- The tests at the end of an iteration. -/
theorem Holds.check (holds : answering.Holds) {after : Listening}
    (taken : Listening.Taken remove answering.listening .check after) :
    Holds { answering with listening := after } := by
  obtain ⟨here, ⟨left, errorcount, _⟩ | ⟨rfl, _, running⟩⟩ := Listening.check_cases taken
  · constructor
    · intro inside
      exact absurd left inside
    · intro asked
      exact ⟨(holds.timeout asked).1, Or.inr left⟩
    · intro waits
      change waiting after.pc = true at waits
      rw [left] at waits
      cases waits
    · intro asked
      rw [SelectErrors.errors_of_not_found (by rw [left]; rfl), errorcount]
      exact holds.errorcount here asked
    · intro request resume handling
      cases left.symm.trans handling
  · have quiet : .timeout ∉ answering.answered := by
      intro asked
      have shut := (holds.status_checking here).mpr (Or.inr asked)
      cases running.symm.trans shut
    constructor
    · intro _
      exact holds.status_checking here
    · intro asked
      exact absurd asked quiet
    · nofun
    · intro asked
      exact holds.errorcount here asked
    · nofun

/-- A step of the listener thread alone. -/
theorem Holds.listen (holds : answering.Holds) {action : Listening.Action} {after : Listening}
    (taken : Listening.Taken remove answering.listening action after) (build : action ≠ .build)
    (started : action ≠ .startShutdown) (outside : ∀ result, action ≠ .returned result) :
    Holds { answering with listening := after } := by
  cases taken with
  | build => exact absurd rfl build
  | startShutdown => exact absurd rfl started
  | returned result => exact absurd rfl (outside result)
  | selectFailed here =>
      have none := holds.unanswered (by rw [here]; rfl)
      exact holds.move here ⟨nofun, nofun⟩ rfl (Or.inl none) nofun
  | selectTimeout here =>
      have none := holds.unanswered (by rw [here]; rfl)
      refine holds.move here ⟨nofun, nofun⟩ ?_ (Or.inl none) ?_
      · rw [SelectErrors.status_pass]
        exact ServerListener.generate_mShutdownStatus ..
      · intro request resume handling
        obtain ⟨made, rfl⟩ := Listening.pass_handling handling
        exact iff_of_true (ServerListener.timeoutEvent_eq_timeout made) rfl
  | selectReady here => exact holds.move here ⟨nofun, nofun⟩ rfl (Or.inr ⟨rfl, rfl⟩) nofun
  | skip here => exact holds.move here ⟨nofun, nofun⟩ rfl (Or.inr ⟨rfl, rfl⟩) nofun
  | event here _ _ event =>
      refine holds.move here ⟨nofun, nofun⟩ ?_ (Or.inr ⟨?_, ?_⟩) ?_
      · rw [SelectErrors.status_pass]
        exact ServerListener.descriptorEvent_mShutdownStatus event
      · exact waiting_pass_dispatch ..
      · exact SelectErrors.errors_pass_dispatch ..
      · intro request resume handling
        obtain ⟨made, rfl⟩ := Listening.pass_handling handling
        exact iff_of_false (ServerListener.descriptorEvent_ne_timeout event made) nofun
  | endDispatch here => exact holds.move here ⟨nofun, nofun⟩ rfl (Or.inr ⟨rfl, rfl⟩) nofun
  | check here => exact holds.check (.check here : Listening.Taken remove _ _ _)

/-- The handler has answered a timeout. -/
theorem Holds.timeout_returned (holds : answering.Holds) {request : Request}
    (here : answering.listening.pc = .handling request .timeout) (result : MSrvResult) :
    Holds
      { answering with
        listening := answering.listening.afterTimeout result
        answered := answer answering.answered request result } := by
  have none := holds.unanswered (by rw [here]; rfl)
  have kind := (holds.resume request .timeout here).mpr rfl
  by_cases asks : result = MSRVERR_SHUTDOWN_EVENT
  · simp only [answer, Listening.afterTimeout, if_pos asks, none, kind]
    constructor
    · intro _
      exact iff_of_true rfl (Or.inr (List.mem_singleton_self _))
    · intro _
      exact ⟨rfl, Or.inl rfl⟩
    · nofun
    · rintro ⟨type, asked, other⟩
      exact absurd (List.mem_singleton.mp asked) other
    · nofun
  · simp only [answer, if_neg asks]
    refine holds.move here ⟨nofun, nofun⟩ (SelectErrors.status_afterTimeout asks)
      (Or.inl none) ?_
    intro request resume handling
    cases (answering.listening.afterTimeout_quiet result).1.symm.trans handling

/-- The handler has answered an event on a descriptor. -/
theorem Holds.event_returned (holds : answering.Holds) {request : Request} {ready : List Int}
    {i : Nat} {fd : Int} {lost : Bool}
    (here : answering.listening.pc = .handling request (.dispatch ready i fd lost))
    (result : MSrvResult) :
    Holds
      { answering with
        listening := answering.listening.afterEvent remove ready i fd lost
        answered := answer answering.answered request result } := by
  have inside : answering.listening.pc ≠ .left := by
    rw [here]
    nofun
  have quiet := holds.not_timeout here ⟨nofun, nofun⟩
  have kept := answering.listening.server.descriptorEventEnd_mShutdownStatus remove fd lost
  have still : ∀ {answered : List RequestType}, .timeout ∉ answered → Holds
      { answering with
        listening := answering.listening.afterEvent remove ready i fd lost
        answered := answered } := by
    intro answered none
    constructor
    · intro _
      rw [or_iff_left none]
      have status := holds.status inside
      rw [or_iff_left quiet, ← kept] at status
      exact status
    · intro asked
      exact absurd asked none
    · nofun
    · intro _
      exact SelectErrors.errors_of_found rfl
    · nofun
  apply still
  unfold answer
  split_ifs
  · have kind : request.getType ≠ .timeout := by
      intro same
      cases (holds.resume request _ here).mp same
    exact List.not_mem_cons_of_ne_of_not_mem kind.symm quiet
  · exact quiet

/-- The handler has returned. -/
theorem Holds.returned (holds : answering.Holds) {handler : RequestHandler} {request : Request}
    {resume : Resume} (here : answering.listening.pc = .handling request resume) :
    Holds
      { answering with
        listening := answering.listening.afterHandler remove (handler.process request) resume
        answered := answer answering.answered request (handler.process request) } := by
  cases resume with
  | timeout => exact holds.timeout_returned here _
  | dispatch ready i fd lost => exact holds.event_returned here _

theorem Holds.step (holds : answering.Holds)
    (taken : (machine remove).step answering action = some next) : next.Holds := by
  cases step_cases taken with
  | build here =>
      have quiet := holds.not_timeout here ⟨nofun, nofun⟩
      have status := holds.status (by rw [here]; nofun)
      constructor
      · intro _
        rw [or_iff_left quiet] at status
        exact status.trans (or_iff_left List.not_mem_nil).symm
      · intro asked
        exact absurd asked List.not_mem_nil
      · intro _
        rfl
      · rintro ⟨type, asked, _⟩
        exact absurd asked List.not_mem_nil
      · nofun
  | startShutdown =>
      constructor
      · intro _
        exact iff_of_true rfl (Or.inl rfl)
      · exact holds.timeout
      · exact holds.unanswered
      · exact holds.errors
      · exact holds.resume
  | listen moved build started outside => exact holds.listen moved build started outside
  | returned here => exact holds.returned here
  | others kept =>
      constructor
      · intro inside
        exact (congrArg (· = true) kept).to_iff.trans (holds.status inside)
      · exact holds.timeout
      · exact holds.unanswered
      · exact holds.errors
      · exact holds.resume

theorem Holds.run {server : ServerListener} {actions : List Action}
    (ran : (machine remove).run (start server) actions = some answering) : answering.Holds :=
  (machine remove).run_invariant Holds (fun _ _ _ holds _ => holds.step) (holds_start server)
    ((machine remove).steps_true _ _) ran

/-- The shutdown that the tests find, in an iteration whose answers they do not
all look at. -/
theorem Holds.started_of_asked (holds : answering.Holds)
    (here : answering.listening.pc = .checking) (asked : answering.AskedByEvent)
    (shut : MSRV_MAX_SELECT_ERROR_COUNT < answering.listening.errorcount ∨
      answering.listening.server.mShutdownStatus = true) : answering.started = true := by
  rcases shut with many | status
  · rw [holds.errorcount here asked] at many
    exact absurd many (Nat.not_lt_zero _)
  · rcases (holds.status_checking here).mp status with started | timeout
    · exact started
    · obtain ⟨type, member, other⟩ := asked
      rw [(holds.timeout timeout).1] at member
      exact absurd (List.mem_singleton.mp member) other

/-- The tests at the end of an iteration heed the answers of the handler exactly
when no other request than a `Timeout` has been answered with
`MSRVERR_SHUTDOWN_EVENT` in the iteration, or some thread has called
`startShutdown()` as well. -/
theorem heeds_iff {server : ServerListener} {actions : List Action}
    (ran : (machine remove).run (start server) actions = some answering)
    (taken : (machine remove).step answering (.listen .check) = some next) :
    answering.Heeds next ↔ (answering.AskedByEvent → answering.started = true) := by
  have holds := Holds.run ran
  cases step_cases taken with | listen moved => ?_
  obtain ⟨here, ends⟩ := Listening.check_cases moved
  have status := holds.status_checking here
  constructor
  · intro heeds asked
    obtain ⟨type, member, _⟩ := id asked
    have left := heeds.ends (List.ne_nil_of_mem member)
    rcases ends with ⟨_, _, shut⟩ | ⟨rfl, _⟩
    · exact holds.started_of_asked here asked shut
    · cases left
  · intro heard
    rcases ends with ⟨left, _, shut⟩ | ⟨rfl, _, running⟩
    · refine ⟨fun _ => left, fun none idle few => ?_⟩
      rcases shut with many | shut
      · exact absurd few (not_le.mpr many)
      · rcases status.mp shut with started | timeout
        · cases idle.symm.trans started
        · rw [none] at timeout
          exact absurd timeout List.not_mem_nil
    · refine ⟨fun answered => ?_, fun _ _ _ => rfl⟩
      have quiet : ¬ (answering.started = true ∨ .timeout ∈ answering.answered) := by
        rw [← status, running]
        exact Bool.false_ne_true
      obtain ⟨type, member⟩ := List.exists_mem_of_ne_nil _ answered
      refine absurd (Or.inl (heard ⟨type, member, ?_⟩)) quiet
      rintro rfl
      exact quiet (Or.inr member)

/-- A handler that asks for shutdown when it is told of a timeout, on a listener
that has set the mask for it. -/
def timeoutRun : List Action :=
  [.listen .build, .listen .selectTimeout, .returned (.always MSRVERR_SHUTDOWN_EVENT)]

theorem heeds_iff_timeout : ∃ answering next,
    (machine List.eraseIdx).run (start (ServerListener.sample.setRequestMask 0x3f))
      timeoutRun = some answering ∧
    (machine List.eraseIdx).step answering (.listen .check) = some next ∧
    (answering.Heeds next ↔ (answering.AskedByEvent → answering.started = true)) :=
  ⟨_, _, rfl, rfl,
    @heeds_iff _ _ _ (ServerListener.sample.setRequestMask 0x3f) timeoutRun rfl rfl⟩

/-- A client connects, and the handler asks for shutdown when it is told so. -/
def connectRun : List Action :=
  [.listen .build, .listen (.selectReady [3]), .listen (.event (.accepted 4)),
    .returned (.always MSRVERR_SHUTDOWN_EVENT), .listen .skip, .listen .endDispatch]

/-- The listener goes on all the same. -/
theorem unheeded : ∃ answering next,
    (machine List.eraseIdx).run (start .sample) connectRun = some answering ∧
    (machine List.eraseIdx).step answering (.listen .check) = some next ∧
    answering.answered = [.newConnection] ∧ next.listening.pc = .building ∧
    ¬ answering.Heeds next := by
  refine ⟨_, _, rfl, rfl, rfl, rfl, fun heeds => ?_⟩
  exact absurd (heeds.ends nofun) nofun

end Answering

end MSrv
