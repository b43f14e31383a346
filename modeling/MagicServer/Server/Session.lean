import MagicServer.Server.Consistency

/-!
# What the handler sees of a Connection

Of every Connection the handler is to see one session: that it is new, then the
data that arrives, then at most once that it is lost, and nothing after that or
after the Connection has been closed. The law is stated of the trace; an
automaton that reads the trace of one Connection carries it through the runs of
the listener thread.
-/

namespace MSrv

/-- The requests of a trace that are about a Connection. -/
def requestsAbout (c : ConnectionId) (trace : List Happening) : List Request :=
  trace.filterMap fun
    | .passed request _ => if request.connection? = some c then some request else none
    | .closed _ => none

/-- What follows once a Connection is known: data, at least one byte at a time,
and at the end perhaps that it is lost. -/
def Continues (c : ConnectionId) (requests : List Request) : Prop :=
  ∃ data lost, requests = data ++ lost ∧
    (∀ request ∈ data, ∃ bytes, request.content = .streamData (some c) bytes ∧ bytes ≠ []) ∧
    (lost = [] ∨ ∃ request, lost = [request] ∧ request.content = .connectionLost (some c))

/-- The law of a session. -/
structure Lawful (c : ConnectionId) (trace : List Happening) : Prop where
  order : ∃ new later, requestsAbout c trace = new :: later ∧
    new.content = .newConnection (some c) ∧ Continues c later
  closed : ∀ before after, trace = before ++ .closed c :: after → requestsAbout c after = []
  socket : ∀ request socket, .passed request socket ∈ trace → request.connection? = some c →
    socket = some request.mSocket

/-- How far the session of a Connection is. -/
inductive Session where
  | absent
  | connected
  | ended
  deriving DecidableEq

namespace Session

/-- The automaton of one session; it refuses what the law forbids. -/
def step (c : ConnectionId) (session : Session) : Happening → Option Session
  | .passed request socket =>
      if request.connection? = some c then
        if socket = some request.mSocket then
          match session, request.content with
          | .absent, .newConnection _ => some .connected
          | .connected, .streamData _ bytes => if bytes = [] then none else some .connected
          | .connected, .connectionLost _ => some .ended
          | _, _ => none
        else none
      else some session
  | .closed other =>
      if other = c then match session with
        | .absent => none
        | .connected | .ended => some .ended
      else some session

def machine (c : ConnectionId) : Machine Session Happening where
  step := step c

variable {c : ConnectionId} {session next : Session} {trace : List Happening}

/-- The moves of the automaton. -/
inductive Move (c : ConnectionId) : Session → Happening → Session → Prop
  | other {session : Session} {request : Request} {socket : Option Int} :
      request.connection? ≠ some c → Move c session (.passed request socket) session
  | new {request : Request} : request.content = .newConnection (some c) →
      Move c .absent (.passed request (some request.mSocket)) .connected
  | data {request : Request} {bytes : List UInt8} :
      request.content = .streamData (some c) bytes → bytes ≠ [] →
      Move c .connected (.passed request (some request.mSocket)) .connected
  | lost {request : Request} : request.content = .connectionLost (some c) →
      Move c .connected (.passed request (some request.mSocket)) .ended
  | closed {session : Session} : session ≠ .absent → Move c session (.closed c) .ended
  | otherClosed {session : Session} {other : ConnectionId} : other ≠ c →
      Move c session (.closed other) session

theorem Move.step {happening : Happening} (move : Move c session happening next) :
    (machine c).step session happening = some next := by
  cases move with
  | other apart => simp only [machine, Session.step, if_neg apart]
  | new content =>
      simp only [machine, Session.step, Request.connection?, content, ↓reduceIte]
  | data content some_bytes =>
      simp only [machine, Session.step, Request.connection?, content, ↓reduceIte, some_bytes]
  | lost content =>
      simp only [machine, Session.step, Request.connection?, content, ↓reduceIte]
  | closed known =>
      cases session with
      | absent => exact absurd rfl known
      | connected | ended => simp only [machine, Session.step, ↓reduceIte]
  | otherClosed apart => simp only [machine, Session.step, if_neg apart]

/-- A step of the automaton is one of its moves. -/
theorem move_of_step {happening : Happening}
    (taken : (machine c).step session happening = some next) : Move c session happening next := by
  cases happening with
  | passed request socket =>
      by_cases about : request.connection? = some c
      · simp only [machine, Session.step, if_pos about, Option.ite_none_right_eq_some] at taken
        obtain ⟨rfl, taken⟩ := taken
        -- What the class of the request points to is the Connection it is about.
        have pointer : ∀ {content : Request.Content} {owner : Option ConnectionId},
            request.content = content → request.connection? = owner → owner = some c :=
          fun _ owner => owner ▸ about
        split at taken
        · next owner content =>
            cases taken
            obtain rfl := pointer content (by rw [Request.connection?, content])
            exact .new content
        · next owner bytes content =>
            simp only [Option.ite_none_left_eq_some, Option.some.injEq] at taken
            obtain ⟨some_bytes, rfl⟩ := taken
            obtain rfl := pointer content (by rw [Request.connection?, content])
            exact .data content some_bytes
        · next owner content =>
            cases taken
            obtain rfl := pointer content (by rw [Request.connection?, content])
            exact .lost content
        · cases taken
      · simp only [machine, Session.step, if_neg about, Option.some.injEq] at taken
        subst taken
        exact .other about
  | closed other =>
      by_cases same : other = c
      · subst same
        cases session with
        | absent => simp only [machine, Session.step, ↓reduceIte, reduceCtorEq] at taken
        | connected | ended =>
            simp only [machine, Session.step, ↓reduceIte, Option.some.injEq] at taken
            subst taken
            exact .closed nofun
      · simp only [machine, Session.step, if_neg same, Option.some.injEq] at taken
        subst taken
        exact .otherClosed same

/-- A request that is about the Connection heads the requests about it. -/
theorem requestsAbout_cons_self {request : Request} {socket : Option Int}
    (about : request.connection? = some c) :
    requestsAbout c (.passed request socket :: trace) = request :: requestsAbout c trace := by
  unfold requestsAbout
  rw [List.filterMap_cons]
  simp only [about, ↓reduceIte]

theorem requestsAbout_cons_other {request : Request} {socket : Option Int}
    (apart : request.connection? ≠ some c) :
    requestsAbout c (.passed request socket :: trace) = requestsAbout c trace := by
  unfold requestsAbout
  rw [List.filterMap_cons]
  simp only [apart, ↓reduceIte]

@[simp] theorem requestsAbout_cons_closed {other : ConnectionId} :
    requestsAbout c (.closed other :: trace) = requestsAbout c trace := rfl

/-- After the end of a session there is no request about its Connection. -/
theorem requestsAbout_of_ended (accepts : (machine c).run .ended trace = some next) :
    requestsAbout c trace = [] := by
  induction trace with
  | nil => rfl
  | cons happening rest ih =>
      obtain ⟨middle, taken, onward⟩ := (machine c).run_cons_eq_some.mp accepts
      cases move_of_step taken with
      | other apart => rw [requestsAbout_cons_other apart, ih onward]
      | closed | otherClosed => rw [requestsAbout_cons_closed, ih onward]

/-- A session that has begun goes on with data and at most one loss. -/
theorem continues_of_connected (accepts : (machine c).run .connected trace = some next) :
    Continues c (requestsAbout c trace) := by
  induction trace with
  | nil => exact ⟨[], [], rfl, nofun, Or.inl rfl⟩
  | cons happening rest ih =>
      obtain ⟨middle, taken, onward⟩ := (machine c).run_cons_eq_some.mp accepts
      cases move_of_step taken with
      | other apart =>
          rw [requestsAbout_cons_other apart]
          exact ih onward
      | otherClosed => exact ih onward
      | closed =>
          rw [requestsAbout_cons_closed, requestsAbout_of_ended onward]
          exact ⟨[], [], rfl, nofun, Or.inl rfl⟩
      | @data request bytes content some_bytes =>
          obtain ⟨data, lost, whole, blocks, ending⟩ := ih onward
          rw [requestsAbout_cons_self (by rw [Request.connection?, content]), whole]
          refine ⟨request :: data, lost, rfl, fun other member => ?_, ending⟩
          rcases List.mem_cons.mp member with rfl | later
          · exact ⟨bytes, content, some_bytes⟩
          · exact blocks other later
      | @lost request content =>
          rw [requestsAbout_cons_self (by rw [Request.connection?, content]),
            requestsAbout_of_ended onward]
          exact ⟨[], [request], rfl, nofun, Or.inr ⟨request, rfl, content⟩⟩

/-- A session that has begun began with the new Connection. -/
theorem order_of_absent (accepts : (machine c).run .absent trace = some next)
    (known : next ≠ .absent) : ∃ new later, requestsAbout c trace = new :: later ∧
      new.content = .newConnection (some c) ∧ Continues c later := by
  induction trace with
  | nil =>
      cases accepts
      exact absurd rfl known
  | cons happening rest ih =>
      obtain ⟨middle, taken, onward⟩ := (machine c).run_cons_eq_some.mp accepts
      cases move_of_step taken with
      | other apart =>
          rw [requestsAbout_cons_other apart]
          exact ih onward
      | otherClosed => exact ih onward
      | closed impossible => exact absurd rfl impossible
      | @new request content =>
          rw [requestsAbout_cons_self (by rw [Request.connection?, content])]
          exact ⟨request, _, rfl, content, continues_of_connected onward⟩

/-- The trace of an accepted session is lawful. -/
theorem lawful_of_run (accepts : (machine c).run .absent trace = some next)
    (known : next ≠ .absent) : Lawful c trace where
  order := order_of_absent accepts known
  closed before after whole := by
    rw [whole, (machine c).run_append_eq_some] at accepts
    obtain ⟨middle, _, onward⟩ := accepts
    obtain ⟨closed, taken, onward⟩ := (machine c).run_cons_eq_some.mp onward
    cases move_of_step taken with
    | closed => exact requestsAbout_of_ended onward
    | otherClosed apart => exact absurd rfl apart
  socket request socket member about := by
    obtain ⟨before, after, whole⟩ := List.append_of_mem member
    rw [whole, (machine c).run_append_eq_some] at accepts
    obtain ⟨middle, _, onward⟩ := accepts
    obtain ⟨later, taken, _⟩ := (machine c).run_cons_eq_some.mp onward
    cases move_of_step taken with
    | other apart => exact absurd about apart
    | new | data | lost => rfl

end Session

namespace Serving

/-- The handler is being told that the Connection is lost. -/
def Losing (serving : Serving) (c : ConnectionId) : Prop :=
  ∃ request resume, serving.listening.pc = .handling request resume ∧
    request.content = .connectionLost (some c)

/-- That the loss is the content of the request can be read off. -/
theorem losing_iff {serving : Serving} {c : ConnectionId} : serving.Losing c ↔
    serving.listening.pc.request?.map Request.content = some (.connectionLost (some c)) := by
  unfold Losing
  cases serving.listening.pc with
  | handling request resume =>
      simp only [ListenPc.handling.injEq, ListenPc.request?, Option.map_some, Option.some.injEq]
      constructor
      · rintro ⟨_, _, ⟨rfl, rfl⟩, content⟩
        exact content
      · exact fun content => ⟨request, resume, ⟨rfl, rfl⟩, content⟩
  | _ => exact iff_of_false (fun ⟨_, _, handling, _⟩ => nomatch handling) nofun

instance (serving : Serving) (c : ConnectionId) : Decidable (serving.Losing c) :=
  decidable_of_iff _ losing_iff.symm

/-- The Connection has an entry in the table. -/
def Listed (serving : Serving) (c : ConnectionId) : Prop :=
  ∃ entry ∈ serving.table, entry.mpData = some c

/-- What the trace says of a Connection: a session that has begun when the
Connection has been created, and in which data may arrive while it has an entry. -/
structure Follows (serving : Serving) (c : ConnectionId) (session : Session) : Prop where
  ran : (Session.machine c).run .absent serving.trace = some session
  absent : session = .absent ↔ serving.sockets.created ≤ c
  listed : serving.Listed c → session = .connected ∨ serving.Losing c

/-- The agreement of the stores with a session for every Connection. -/
structure Tracked (serving : Serving) : Prop where
  consistent : serving.Consistent
  new : serving.listening.server.generates .newConnection = true
  sessions : ∀ c, ∃ session, serving.Follows c session

/-- A handler closes a Connection with number 0, which `close()` takes for a
Connection without a socket, only while it is told that this Connection is lost. -/
def ClosesNumbered (serving : Serving) : Action → Prop
  | .close c => serving.sockets.acceptedAs c ≠ 0 ∨ serving.Losing c
  | .listen _ | .returned _ => True

variable {serving next : Serving} {action : Action} {c : ConnectionId} {session : Session}

/-- Outside the handler of its loss a Connection with an entry is connected. -/
theorem Follows.connected (follows : serving.Follows c session) (listed : serving.Listed c)
    (outside : serving.listening.pc.request? = none) : session = .connected := by
  apply (follows.listed listed).resolve_right
  rintro ⟨request, resume, handling, _⟩
  rw [handling] at outside
  cases outside

/-- The trace grows by happenings that the session goes along with. -/
theorem Follows.extend (follows : serving.Follows c session) (more : List Happening)
    {session' : Session} (trace : next.trace = serving.trace ++ more)
    (onward : (Session.machine c).run session more = some session')
    (absent : session' = .absent ↔ next.sockets.created ≤ c)
    (listed : next.Listed c → session' = .connected ∨ next.Losing c) :
    next.Follows c session' where
  ran := by
    rw [trace]
    exact (Session.machine c).run_append_eq_some.mpr ⟨session, follows.ran, onward⟩
  absent := absent
  listed := listed

/-- A step outside the handler that neither accepts a client nor passes on a request. -/
theorem Follows.quiet (follows : serving.Follows c session) {after : Listening}
    (sockets : after.server.sockets = serving.sockets)
    (outside : serving.listening.pc.request? = none) (away : after.pc.request? = none) :
    Follows
      { serving with
        listening := after
        trace := serving.trace ++ passedOn serving.listening after } c session := by
  refine follows.extend [] ?_ rfl ?_ fun ⟨entry, member, data⟩ => ?_
  · unfold passedOn
    rw [outside, away]
  · rw [follows.absent, Serving.sockets, Serving.sockets, sockets, Serving.sockets]
  · left
    refine follows.connected ⟨entry, ?_, data⟩ outside
    rwa [table, Serving.sockets, sockets] at member

/-- A request that is passed on, as the step leaves the Connection it is about. -/
theorem Follows.passed (follows : serving.Follows c session) {after : Listening}
    {request : Request} {resume : Resume} {session' : Session}
    (outside : serving.listening.pc.request? = none) (inside : after.pc = .handling request resume)
    (move : Session.Move c session
      (.passed request (request.connection?.map after.server.sockets.socket)) session')
    (absent : session' = .absent ↔ after.server.sockets.created ≤ c)
    (listed : (∃ entry ∈ after.server.sockets.mDescriptors, entry.mpData = some c) →
      session' = .connected ∨ request.content = .connectionLost (some c)) :
    Follows
      { serving with
        listening := after
        trace := serving.trace ++ passedOn serving.listening after } c session' := by
  refine follows.extend [_] ?_
    ((Session.machine c).run_cons_eq_some.mpr ⟨session', move.step, rfl⟩) absent fun entry => ?_
  · unfold passedOn
    rw [outside, inside]
    rfl
  · exact (listed entry).imp_right fun content => ⟨request, resume, inside, content⟩

/-- A client is accepted, and the handler is told of the new Connection. -/
theorem Tracked.newConnection (tracked : serving.Tracked) {after : Listening} {request : Request}
    {resume : Resume} (outside : serving.listening.pc.request? = none)
    (inside : after.pc = .handling request resume)
    (content : request.content = .newConnection (some serving.sockets.created))
    (sockets : after.server.sockets = serving.sockets.addClient request.mSocket)
    (c : ConnectionId) : ∃ session, Follows
      { serving with
        listening := after
        trace := serving.trace ++ passedOn serving.listening after } c session := by
  obtain ⟨session, follows⟩ := tracked.sessions c
  have about : request.connection? = some serving.sockets.created := by
    rw [Request.connection?, content]
  by_cases new : c = serving.sockets.created
  · subst new
    obtain rfl := follows.absent.mpr le_rfl
    refine ⟨.connected, follows.passed outside inside ?_ ?_ fun _ => Or.inl rfl⟩
    · rw [about, Option.map_some, sockets, Sockets.addClient_socket_created]
      exact .new content
    · rw [sockets]
      exact iff_of_false nofun (Nat.not_succ_le_self _)
  · refine ⟨session, follows.passed outside inside (.other fun same => new ?_) ?_ ?_⟩
    · exact (Option.some_inj.mp (about.symm.trans same)).symm
    · rw [sockets]
      change session = .absent ↔ serving.sockets.created + 1 ≤ c
      rw [follows.absent, Nat.succ_le_iff]
      exact ⟨fun uncreated => lt_of_le_of_ne uncreated (Ne.symm new), le_of_lt⟩
    · rintro ⟨entry, member, data⟩
      rw [sockets] at member
      rcases Sockets.mem_addClient.mp member with earlier | rfl
      · exact Or.inl (follows.connected ⟨entry, earlier, data⟩ outside)
      · exact absurd (Option.some_inj.mp data).symm new

/-- A request from the entry of a client is about the Connection of the entry,
which is connected and still has the number that the request carries. -/
theorem Tracked.fromEntry (tracked : serving.Tracked) {after : Listening} (request : Request)
    {resume : Resume} {i : Nat} {entry : Descriptor} {later : Session}
    (outside : serving.listening.pc.request? = none)
    (inside : after.pc = .handling request resume)
    (sockets : after.server.sockets = serving.sockets)
    (found : serving.listening.server.sockets.mDescriptors[i]? = some entry)
    (client : entry.mFd ≠ serving.listening.server.mSocket)
    (about : request.connection? = entry.mpData) (number : request.mSocket = entry.mFd)
    (move : ∀ owner, entry.mpData = some owner →
      Session.Move owner .connected (.passed request (some request.mSocket)) later)
    (known : later ≠ .absent)
    (ending : ∀ owner, entry.mpData = some owner →
      later = .connected ∨ request.content = .connectionLost (some owner))
    (c : ConnectionId) : ∃ session, Follows
      { serving with
        listening := after
        trace := serving.trace ++ passedOn serving.listening after } c session := by
  obtain ⟨session, follows⟩ := tracked.sessions c
  have member : entry ∈ serving.table := List.mem_of_getElem? found
  obtain ⟨owner, data, live, same_number⟩ := tracked.consistent.client member client
  rw [data] at about
  by_cases same : owner = c
  · subst same
    obtain rfl := follows.connected ⟨entry, member, data⟩ outside
    refine ⟨later, follows.passed outside inside ?_ ?_ fun _ => ending owner data⟩
    · rw [about, Option.map_some, sockets, same_number, ← number]
      exact move owner data
    · rw [sockets]
      exact iff_of_false known (not_le.mpr live.1)
  · refine ⟨session,
      follows.passed outside inside (.other fun other => same ?_) ?_ fun listed => ?_⟩
    · exact Option.some_inj.mp (about.symm.trans other)
    · rw [sockets]
      exact follows.absent
    · rw [sockets] at listed
      exact Or.inl (follows.connected listed outside)

/-- The steps outside the handler. -/
theorem Tracked.listen (tracked : serving.Tracked) {inner : Listening.Action} {after : Listening}
    (step : Listening.Step List.eraseIdx serving.listening inner after)
    (outside : ∀ result, inner ≠ .returned result) (c : ConnectionId) :
    ∃ session, Follows
      { serving with
        listening := after
        trace := serving.trace ++ passedOn serving.listening after } c session := by
  have consistent := tracked.consistent
  obtain ⟨session, follows⟩ := tracked.sessions c
  cases step with
  | quiet before away sockets => exact ⟨session, follows.quiet sockets before away⟩
  | startShutdown =>
      refine ⟨session, follows.extend [] ?_ rfl follows.absent follows.listed⟩
      change serving.trace ++ passedOn serving.listening serving.listening.shutDown = _
      rw [passedOn, show serving.listening.shutDown.pc = serving.listening.pc from rfl]
      cases serving.listening.pc.request? <;> rfl
  | timeout here =>
      have before : serving.listening.pc.request? = none := congrArg ListenPc.request? here
      exact ⟨session, follows.passed before rfl (.other nofun) follows.absent
        fun listed => Or.inl (follows.connected listed before)⟩
  | connected _ _ _ ignored =>
      rw [tracked.new] at ignored
      cases ignored
  | newConnection here =>
      exact tracked.newConnection (congrArg ListenPc.request? here) rfl rfl rfl c
  | @streamData ready i entry _ dynbuffer here found _ _ client some_data =>
      refine tracked.fromEntry
        ⟨serving.listening.server.requests, entry.mFd, .streamData entry.mpData dynbuffer⟩
        (congrArg ListenPc.request? here) rfl ?_ found client rfl rfl
        (fun owner data => .data (by rw [data]) some_data) nofun (fun _ _ => Or.inl rfl) c
      rfl
  | datagram _ _ _ protocol =>
      rw [consistent.protocol] at protocol
      cases protocol
  | @connectionLost ready i entry _ here found _ stream =>
      refine tracked.fromEntry
        ⟨serving.listening.server.requests, entry.mFd, .connectionLost entry.mpData⟩
        (congrArg ListenPc.request? here) rfl ?_ found
        (fun same => stream ⟨same, consistent.protocol⟩) rfl rfl
        (fun owner data => .lost (by rw [data])) nofun (fun _ data => Or.inr (by rw [data])) c
      rfl
  | dropped _ _ _ ignored =>
      rw [consistent.lost] at ignored
      cases ignored
  | returned result => exact absurd rfl (outside result)

/-- A handler closes a Connection. -/
theorem Tracked.close (tracked : serving.Tracked) {closed : ConnectionId}
    (live : serving.Live closed)
    (numbered : serving.sockets.acceptedAs closed ≠ 0 ∨ serving.Losing closed)
    (c : ConnectionId) : ∃ session, Follows
      { serving.withSockets (serving.sockets.close List.eraseIdx closed).2 with
        trace := serving.trace ++ [.closed closed] } c session := by
  have consistent := tracked.consistent
  obtain ⟨session, follows⟩ := tracked.sessions c
  have created : (serving.sockets.close List.eraseIdx closed).2.created =
      serving.sockets.created := (Sockets.close_numbers List.eraseIdx _ _).1
  -- An entry that is left was there before, and is not that of the closed Connection.
  have left : ∀ {entry}, entry ∈ (serving.sockets.close List.eraseIdx closed).2.mDescriptors →
      entry.mpData = some c → entry ∈ serving.table ∧ (c = closed → serving.Losing c) := by
    intro entry member data
    by_cases open_socket : serving.sockets.socket closed = 0
    · rw [Sockets.close_of_closed _ open_socket] at member
      refine ⟨member, ?_⟩
      rintro rfl
      refine numbered.resolve_left fun nonzero => nonzero ?_
      rw [← (consistent.sound.number member data).2, ← (consistent.live entry member c data).2,
        open_socket]
    · rw [Sockets.close_of_open open_socket] at member
      obtain ⟨listed, different⟩ := (Keyed.mem_erase consistent.sound.distinct).mp member
      refine ⟨listed, ?_⟩
      rintro rfl
      exact absurd (consistent.live entry listed c data).2.symm different
  by_cases same : closed = c
  · subst same
    have known : session ≠ .absent := fun absent =>
      (follows.absent.mp absent).not_gt live.1
    refine ⟨.ended, follows.extend [_] rfl
      ((Session.machine closed).run_cons_eq_some.mpr ⟨_, (Session.Move.closed known).step, rfl⟩)
      (iff_of_false nofun fun uncreated => ?_) fun ⟨entry, member, data⟩ => ?_⟩
    · exact absurd live.1 (not_lt.mpr (created ▸ uncreated))
    · exact Or.inr ((left member data).2 rfl)
  · refine ⟨session, follows.extend [_] rfl
      ((Session.machine c).run_cons_eq_some.mpr ⟨_, (Session.Move.otherClosed same).step, rfl⟩)
      ?_ fun ⟨entry, member, data⟩ => ?_⟩
    · change session = .absent ↔ (serving.sockets.close List.eraseIdx closed).2.created ≤ c
      rw [created]
      exact follows.absent
    · exact follows.listed ⟨entry, (left member data).1, data⟩

/-- When the handler returns, entries of the table are left, but none of the Connection
that was lost. -/
theorem Consistent.returned_table (consistent : serving.Consistent) {request : Request}
    {resume : Resume} (result : MSrvResult)
    (handling : serving.listening.pc = .handling request resume) :
    ∀ entry ∈ ((serving.deleteRequest List.eraseIdx request).listening.afterHandler
      List.eraseIdx result resume).server.sockets.mDescriptors,
      entry ∈ serving.table ∧ ∀ c, entry.mpData = some c → ¬ serving.Losing c := by
  have lost : ∀ c, serving.Losing c → request.content = .connectionLost (some c) := by
    rintro c ⟨other, resume', here, content⟩
    cases handling.symm.trans here
    exact content
  intro entry member
  rcases consistent.pending request resume handling with
    ⟨c, ready, i, content, live, rfl, _⟩ | ⟨other, stays⟩
  · rw [deleteRequest_of_lost content, Listening.afterHandler, Listening.afterEvent_lost] at member
    obtain ⟨kept, different⟩ := (Keyed.mem_erase (consistent.sound.close c).distinct).mp member
    have listed : entry ∈ serving.table := (close_sublist serving.sockets c).subset kept
    refine ⟨listed, fun c' data losing => ?_⟩
    cases content.symm.trans (lost c' losing)
    exact different (consistent.sound.number listed data).2
  · rw [deleteRequest_of_ne_lost other] at member
    refine ⟨?_, fun c data losing => other _ (lost c losing)⟩
    obtain ⟨_, ⟨_, sockets⟩ | ⟨ready, i, fd, removing, _⟩⟩ :=
      Listening.afterHandler_cases List.eraseIdx serving.listening result resume
    · rwa [sockets] at member
    · exact absurd removing (stays ready i fd)

/-- The handler returns. -/
theorem Tracked.returned (tracked : serving.Tracked) {request : Request} {resume : Resume}
    {result : MSrvResult} (handling : serving.listening.pc = .handling request resume)
    (taken : (machine List.eraseIdx).step serving (.returned result) = some next)
    (c : ConnectionId) : ∃ session, next.Follows c session := by
  have consistent := tracked.consistent
  obtain ⟨session, follows⟩ := tracked.sessions c
  have created : next.sockets.created = serving.sockets.created := by
    rcases numbers_step taken with ⟨same, _⟩ | ⟨clientsocket, impossible, _⟩
    · exact same
    · cases impossible
  have left := consistent.returned_table result handling
  cases step_cases taken with
  | @returned request resume result here =>
      cases handling.symm.trans here
      have trace : (serving.deleteRequest List.eraseIdx request).trace = serving.trace := by
        unfold deleteRequest
        split <;> rfl
      refine ⟨session, follows.extend [] (trace.trans (List.append_nil _).symm) rfl ?_ ?_⟩
      · rw [created]
        exact follows.absent
      · rintro ⟨entry, member, data⟩
        obtain ⟨listed, other⟩ := left entry member
        exact Or.inl ((follows.listed ⟨entry, listed, data⟩).resolve_right (other c data))

/-- What a listener makes of a request is kept by every step. -/
theorem generates_step (taken : (machine List.eraseIdx).step serving action = some next)
    (type : RequestType) : next.listening.server.generates type =
      serving.listening.server.generates type := by
  refine ServerListener.generates_of_config ?_ type
  have deleted : ∀ request, (serving.deleteRequest List.eraseIdx request).listening.server.config =
      serving.listening.server.config := by
    intro request
    unfold deleteRequest
    split <;> rfl
  cases step_cases taken with
  | listen step => exact step.config
  | close => rfl
  | @returned request =>
      exact (Listening.afterHandler_config ..).trans (deleted request)

/-- Every step that meets the condition keeps a session for every Connection. -/
theorem Tracked.step (tracked : serving.Tracked) (numbered : serving.ClosesNumbered action)
    (taken : (machine List.eraseIdx).step serving action = some next) : next.Tracked where
  consistent := tracked.consistent.step taken
  new := (generates_step taken _).trans tracked.new
  sessions c := by
    cases step_cases taken with
    | listen step outside => exact tracked.listen step outside c
    | close handling live => exact tracked.close live numbered c
    | returned result handling => exact tracked.returned handling taken c

/-- `listen()` is called on a listener that has been bound. -/
theorem tracked_start {flags : Nat} {calls : BindCalls} {server : ServerListener}
    (bound : ServerListener.construct.bind .TCP flags calls = (0, server)) :
    (start server).Tracked := by
  have consistent : server.generates .connectionLost = true → (start server).Consistent :=
    consistent_start (show (ServerListener.construct.setRequestMask
      ServerListener.defaultMask).bind .TCP flags calls = _ from bound)
  obtain ⟨_, rfl⟩ := ServerListener.bind_eq_zero bound
  refine ⟨consistent (by decide : ServerListener.construct.generates .connectionLost = true),
    (by decide : ServerListener.construct.generates .newConnection = true),
    fun c => ⟨.absent, rfl, iff_of_true rfl (Nat.zero_le c), ?_⟩⟩
  rintro ⟨entry, member, data⟩
  rw [List.mem_singleton.mp member] at data
  cases data

/-- In every run of a TCP listener with the default mask in which no handler
closes a Connection with number 0 that it is not being told is lost, every
Connection has a lawful session. -/
theorem lawful_of_closesNumbered (flags : Nat) (calls : BindCalls) {server : ServerListener}
    (bound : ServerListener.construct.bind .TCP flags calls = (0, server))
    (actions : List Action)
    (numbered : (machine List.eraseIdx).Steps ClosesNumbered (start server) actions)
    (ran : (machine List.eraseIdx).run (start server) actions = some serving) :
    ∀ c < serving.sockets.created, Lawful c serving.trace := by
  intro c created
  have tracked := (machine List.eraseIdx).run_invariant Tracked
    (fun _ _ _ tracked numbered taken => tracked.step numbered taken)
    (tracked_start bound) numbered ran
  obtain ⟨session, follows⟩ := tracked.sessions c
  exact Session.lawful_of_run follows.ran fun absent =>
    (follows.absent.mp absent).not_gt created

/-- A client comes, and its handler closes the Connection. -/
theorem lawful_of_closesNumbered_run :
    ∃ serving, (machine List.eraseIdx).run (start ServerListener.sample)
        [.listen .build, .listen (.selectReady [3]), .listen (.event (.accepted 5)),
          .close 0] = some serving ∧
      serving.trace = [.passed ⟨0, 5, .newConnection (some 0)⟩ (some 5), .closed 0] ∧
      ∀ c < serving.sockets.created, Lawful c serving.trace := by
  refine ⟨_, rfl, rfl, lawful_of_closesNumbered 0 ⟨3, 0, 0, 0⟩
    (show _ = (0, ServerListener.sample) from rfl)
    [.listen .build, .listen (.selectReady [3]), .listen (.event (.accepted 5)), .close 0] ?_ rfl⟩
  repeat rw [Machine.steps_cons _ rfl]
  exact ⟨trivial, trivial, trivial, Or.inl (show (5 : Int) ≠ 0 by decide), trivial⟩

/-- A client gets descriptor number 0, its handler closes the Connection, and the
data that arrives is passed to the handler all the same. -/
theorem unlawful_after_close_zero :
    ∃ serving, (machine List.eraseIdx).run (start ServerListener.sample)
        [.listen .build, .listen (.selectReady [3]), .listen (.event (.accepted 0)), .close 0,
          .returned 0, .listen .skip, .listen .endDispatch, .listen .check, .listen .build,
          .listen (.selectReady [0]), .listen .skip,
          .listen (.event (.reads [.block [104]]))] = some serving ∧
      0 < serving.sockets.created ∧ ¬ Lawful 0 serving.trace := by
  refine ⟨_, rfl, Nat.zero_lt_one, fun lawful => ?_⟩
  have nothing := lawful.closed [.passed ⟨0, 0, .newConnection (some 0)⟩ (some 0)]
    [.passed ⟨1, 0, .streamData (some 0) [104]⟩ (some 0)] rfl
  cases nothing

end Serving

end MSrv
