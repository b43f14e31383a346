import MagicServer.Sample.Room

/-!
# The sample server keeps the room

The sample server shows the room in every state of a run exactly when the entry
of each Connection that leaves is removed without losing another.
-/

namespace MSrv

namespace Chat

open CString (ofString)

variable {world : World} {remove : Removal} {chat next : Chat} {room : Room}
  {deaf : List ConnectionId} {c : ConnectionId} {fd : Int} {request : Request} {resume : Resume}
  {result : MSrvResult}

/-! ## Writing to members -/

/-- A write to the socket of an entry reaches its client. -/
theorem write_listed (settled : chat.serving.Settled) (listed : ⟨fd, some c⟩ ∈ chat.serving.table)
    (other : Chat) (same : other.serving = chat.serving) (msg : CString) :
    other.write deaf fd msg = other.hears deaf [c] msg := by
  apply write_client
  unfold sockets
  rw [same]
  exact (settled.consistent.entry listed).2.2.2.1

/-- A loop over the connections that writes to some of them. -/
theorem forEach_visits (settled : chat.serving.Settled) {body : Chat → ConnectionId → Chat}
    {kept : ConnectionId → Bool} {msg : CString}
    (each : ∀ (other : Chat) c, other.serving = chat.serving →
      body other c = if kept c then other.write deaf (chat.sockets.socket c) msg else other) :
    chat.forEach body chat.visits =
      some (chat.hears deaf (chat.serving.members.filter kept) msg) := by
  obtain ⟨visits, nodup, _⟩ := settled.consistent.visits settled.numbered
  rw [show chat.visits = chat.serving.members.map some from visits]
  refine forEach_hears (fun other same c member => ?_) (fun c member => ?_) nodup
  all_goals have listed := settled.consistent.listed_of_mem member
  · rw [each other c same, ← write_listed settled listed other same]
    rfl
  · exact (settled.consistent.entry listed).1

/-- All but the sender of a message are the members with another socket. -/
theorem others (settled : chat.serving.Settled) (listed : ⟨fd, some c⟩ ∈ chat.serving.table) :
    chat.serving.members.filter (fun other => chat.sockets.socket other ≠ fd) =
      chat.serving.members.erase c := by
  obtain ⟨_, nodup, _⟩ := settled.consistent.visits settled.numbered
  rw [nodup.erase_eq_filter]
  refine List.filter_congr fun other member => ?_
  have own : chat.sockets.socket other = fd ↔ other = c := by
    constructor
    · intro same
      have there := settled.consistent.listed_of_mem member
      rw [show chat.serving.sockets.socket other = fd from same] at there
      have entry := settled.consistent.entry_eq there listed rfl
      exact Option.some_inj.mp (congrArg Descriptor.mpData entry)
    · intro same
      rw [same]
      exact (settled.consistent.entry listed).2.1
  rw [Bool.eq_iff_iff, decide_eq_true_iff, bne_iff_ne]
  exact not_congr own

/-- The loop that passes a message on. -/
theorem forEach_others (settled : chat.serving.Settled)
    (listed : ⟨fd, some c⟩ ∈ chat.serving.table) (msg : CString) :
    chat.forEach (fun chat c =>
        if chat.sockets.socket c ≠ fd then chat.write deaf (chat.sockets.socket c) msg else chat)
      chat.visits = some (chat.hears deaf (chat.serving.members.erase c) msg) := by
  rw [← others settled listed]
  refine forEach_visits settled fun other c same => ?_
  unfold sockets
  rw [same]
  simp only [decide_eq_true_eq]

/-- The loop that passes a farewell on. -/
theorem forEach_members (settled : chat.serving.Settled) (msg : CString) :
    chat.forEach (fun chat c => chat.write deaf (chat.sockets.socket c) msg) chat.visits =
      some (chat.hears deaf chat.serving.members msg) := by
  conv_rhs => rw [← List.filter_true chat.serving.members]
  refine forEach_visits settled fun other c same => ?_
  unfold sockets
  rw [same, if_pos rfl]

/-! ## What the handler does with a request -/

section Process

variable (world : World) (remove : Removal) (deaf : List ConnectionId)

/-- A new client is welcomed. -/
theorem process_newConnection (settled : chat.serving.Settled) (echoes : chat.Echoes room)
    (content : request.content = .newConnection (some c))
    (listed : ⟨request.mSocket, some c⟩ ∈ chat.serving.table) :
    ∃ middle, MyHandler.process world remove deaf chat request = some (0, middle) ∧
      middle.serving = chat.serving ∧ middle.Echoes (room.tell deaf [c] (world.welcome c)) := by
  have live := (settled.consistent.entry listed).1
  have found : chat.connection (some c) = some c := if_pos live
  unfold MyHandler.process World.welcome
  simp only [content, MyHandler.processNewConnection, found, Option.bind_eq_bind,
    Option.bind_some]
  cases world.host c with
  | found h_name =>
      refine ⟨_, rfl, ?_⟩
      rw [write_listed settled listed chat rfl]
      exact ⟨rfl, echoes.tell⟩
  | failed h_errno reason =>
      refine ⟨_, rfl, ?_⟩
      rw [write_listed settled listed (chat.message _) rfl]
      exact ⟨rfl, (echoes.message _).tell⟩

/-- A loss is noted in the log, -/
theorem process_connectionLost (echoes : chat.Echoes room) {data : Option ConnectionId}
    (content : request.content = .connectionLost data) :
    ∃ middle, MyHandler.process world remove deaf chat request = some (0, middle) ∧
      middle.serving = chat.serving ∧ middle.Echoes room := by
  unfold MyHandler.process
  rw [content]
  exact ⟨_, rfl, rfl, echoes.message _⟩

/-- and so is a timeout. -/
theorem process_timeout (echoes : chat.Echoes room) (content : request.content = .timeout) :
    ∃ middle, MyHandler.process world remove deaf chat request = some (0, middle) ∧
      middle.serving = chat.serving ∧ middle.Echoes room := by
  unfold MyHandler.process
  rw [content]
  exact ⟨_, rfl, rfl, echoes.message _⟩

/-- What the handler has done when somebody has said something: it has asked for
the shutdown, or closed the Connection, or answered and passed the words on. -/
inductive Answered (chat : Chat) (room : Room) (c : ConnectionId) (data : CString)
    (middle : Chat) : Prop
  | shutdown : data = ofString "shutdown" → middle.serving = chat.startShutdown.serving →
      middle.Echoes { room with closing := true } → Answered chat room c data middle
  | quit : data ≠ ofString "shutdown" → data = ofString "quit" →
      (Serving.machine remove).step chat.serving (.close c) = some middle.serving →
      middle.Echoes (room.tell deaf [c] .bye) → Answered chat room c data middle
  | relay : data ≠ ofString "shutdown" → data ≠ ofString "quit" →
      middle.serving = chat.serving →
      middle.Echoes ((room.tell deaf [c] (.reply data)).tell deaf (chat.serving.members.erase c)
        (.relay data)) → Answered chat room c data middle

/-- Data without a control byte is read beyond its end. -/
theorem process_streamData_none {data : Option ConnectionId} {mpData : List UInt8}
    (content : request.content = .streamData data mpData)
    (unread : CString.read (MyHandler.cut world.signed mpData) = none) :
    MyHandler.process world remove deaf chat request = none := by
  unfold MyHandler.process
  simp only [content, MyHandler.processData, unread, Option.bind_eq_bind, Option.bind_none]

/-- Other data is a command, or it is answered and passed on. -/
theorem process_streamData (settled : chat.serving.Settled) (echoes : chat.Echoes room)
    (handling : chat.serving.listening.pc = .handling request resume)
    {mpData : List UInt8} {data : CString}
    (content : request.content = .streamData (some c) mpData)
    (listed : ⟨request.mSocket, some c⟩ ∈ chat.serving.table)
    (read : CString.read (MyHandler.cut world.signed mpData) = some data) :
    ∃ result middle, MyHandler.process world remove deaf chat request = some (result, middle) ∧
      Answered remove deaf chat room c data middle := by
  have live := (settled.consistent.entry listed).1
  have type : request.getType = .streamData := by
    unfold Request.getType
    rw [content]
  have found : chat.connection request.connection? = some c := by
    unfold Request.connection?
    rw [content]
    exact if_pos live
  unfold MyHandler.process
  simp only [content, MyHandler.processData, read, type, found,
    write_listed settled listed chat rfl, true_and, Option.bind_eq_bind, Option.bind_some]
  by_cases shutdown : data = ofString "shutdown"
  · rw [if_pos shutdown]
    exact ⟨_, _, rfl, .shutdown shutdown rfl
      ⟨echoes.received, echoes.astray, fun _ => rfl⟩⟩
  rw [if_neg shutdown]
  by_cases quit : data = ofString "quit"
  · obtain ⟨serving, closed⟩ : ∃ serving,
        (Serving.machine remove).step chat.serving (.close c) = some serving := by
      refine ⟨_, if_pos ⟨?_, live⟩⟩
      rw [handling]
      rfl
    have closes : (chat.hears deaf [c] Line.bye.msg).close remove c =
        some ((chat.sockets.close remove c).1,
          { chat.hears deaf [c] Line.bye.msg with serving := serving }) :=
      congrArg (Option.map _) closed
    rw [if_pos quit, closes]
    refine ⟨_, _, rfl, .quit shutdown quit closed ?_⟩
    exact (echoes.tell.onward (Serving.status_step closed)).message _
  · have replied : (chat.hears deaf [c] (Line.reply data).msg).serving.Settled := settled
    rw [if_neg quit, forEach_others replied listed]
    exact ⟨_, _, rfl, .relay shutdown quit rfl (echoes.tell.tell.message _)⟩

end Process

/-! ## One step -/

/-- What a step of the server leaves: the clients have heard what was said in the
room, and the members are those of the room exactly when no other was lost. -/
structure Follows (world : World) (chat : Chat) (action : Action) (next : Chat) (room : Room) :
    Prop where
  echoes : next.Echoes room
  members : next.serving.members = room.members ↔ chat.KeepsOthers world action
  settled : chat.KeepsOthers world action → next.serving.Settled

/-- Nobody leaves in the step. -/
theorem keepsOthers_of_stays {action : Action}
    (stays : (chat.event world action).bind Room.Event.leaver = none) :
    chat.KeepsOthers world action := by
  intro c left
  rw [stays] at left
  cases left

/-- One member leaves in the step. -/
theorem keepsOthers_of_leaves {action : Action}
    (leaves : (chat.event world action).bind Room.Event.leaver = some c) :
    chat.KeepsOthers world action ↔ chat.sockets.KeepsOthers (chat.sockets.socket c) := by
  unfold KeepsOthers
  rw [leaves]
  simp only [Option.mem_def, Option.some.injEq, forall_eq']

theorem follows_of_stays {action : Action}
    (stays : (chat.event world action).bind Room.Event.leaver = none)
    (echoes : next.Echoes room) (members : next.serving.members = room.members)
    (settled : next.serving.Settled) : Follows world chat action next room :=
  ⟨echoes, iff_of_true members (keepsOthers_of_stays stays), fun _ => settled⟩

/-- The thread goes on outside the handler. -/
theorem follows_listen (settled : chat.serving.Settled) (shows : chat.Shows room)
    {action : Listening.Action} (nonzero : chat.AcceptsNonzero (.listen action))
    (taken : chat.step world Array.written (.listen action) = some next) :
    Follows world chat (.listen action) next
      (room.follow (chat.event world (.listen action))) := by
  obtain ⟨_, taken⟩ := Option.ite_none_left_eq_some.mp taken
  obtain ⟨serving, stepped, rfl⟩ := Option.map_eq_some_iff.mp taken
  obtain ⟨settled', members⟩ := settled.listen nonzero stepped
  have echoes := shows.toEchoes.onward (Serving.status_step
    (show (Serving.machine Array.written).step _ _ = _ from stepped))
  cases accepted : action.accepted? with
  | none =>
      have quiet : chat.event world (.listen action) = none := by
        simp only [event, accepted, Option.map_none]
      rw [quiet]
      rw [accepted, Option.elim_none, List.append_nil] at members
      exact follows_of_stays (by rw [quiet]; rfl) echoes (members.trans shows.members) settled'
  | some clientsocket =>
      have joins : chat.event world (.listen action) = some (.joins chat.sockets.created) := by
        simp only [event, accepted, Option.map_some]
      rw [joins]
      rw [accepted, Option.elim_some, shows.members] at members
      exact follows_of_stays (by rw [joins]; rfl)
        ⟨echoes.received, echoes.astray, echoes.closing⟩ members settled'

/-- The request for the shutdown is passed to the handler. -/
theorem follows_farewell (settled : chat.serving.Settled) (shows : chat.Shows room)
    (taken : chat.step world Array.written (.farewell deaf) = some next) :
    Follows world chat (.farewell deaf) next
      (room.follow (chat.event world (.farewell deaf))) := by
  obtain ⟨_, taken⟩ := Option.ite_none_right_eq_some.mp taken
  have quiet : (chat.message (ofString "Server is shutting down.")).serving.Settled := settled
  have told : ((chat.message (ofString "Server is shutting down.")).hears deaf room.members
      Line.shutdown.msg).Echoes (room.tell deaf room.members .shutdown) :=
    (shows.toEchoes.message _).tell
  rw [MyHandler.processShutdown, forEach_members quiet] at taken
  obtain rfl := Option.some_inj.mp taken
  rw [show (chat.message _).serving.members = room.members from shows.members]
  exact follows_of_stays rfl ⟨told.received, told.astray, told.closing⟩ shows.members settled

section Handle

variable {middle : Chat} {serving : Serving} {mpData : List UInt8} {data : CString}

/-- A request is handled by the handler, which then returns to the thread. -/
theorem handled (taken : chat.step world remove (.handle deaf) = some next) :
    ∃ request resume result middle serving,
      chat.serving.listening.pc = .handling request resume ∧
        MyHandler.process world remove deaf chat request = some (result, middle) ∧
        (Serving.machine remove).step middle.serving (.returned result) = some serving ∧
        next = { middle with serving := serving } := by
  cases handling : chat.serving.listening.pc with
  | handling request resume =>
      simp only [step, handling, Option.bind_eq_bind, Option.bind_eq_some_iff] at taken
      obtain ⟨⟨result, middle⟩, processed, serving, returned, same⟩ := taken
      exact ⟨request, resume, result, middle, serving, rfl, processed, returned,
        (Option.some_inj.mp same).symm⟩
  | _ => simp only [step, handling, reduceCtorEq] at taken

/-- The event that a request is. -/
theorem event_handle (world : World) (deaf : List ConnectionId)
    (handling : chat.serving.listening.pc = .handling request resume) :
    chat.event world (.handle deaf) =
      match request.content with
      | .newConnection (some c) => some (.welcomed deaf c (world.welcome c))
      | .streamData (some c) mpData =>
          (CString.read (MyHandler.cut world.signed mpData)).map fun data => .speaks deaf c data
      | .connectionLost (some c) => some (.leaves c)
      | _ => none := by
  simp only [event, content?, handling, ListenPc.request?, Option.map_some]
  cases request.content with
  | newConnection data | connectionLost data | streamData data _ => cases data <;> rfl
  | datagram | shutdown | timeout => rfl

/-- The handler has closed nothing, and has not been told of a loss. -/
theorem follows_returned (settled : middle.serving.Settled)
    (handling : middle.serving.listening.pc = .handling request resume)
    (other : ∀ data, request.content ≠ .connectionLost data)
    (stays : (chat.event world (.handle deaf)).bind Room.Event.leaver = none)
    (echoes : middle.Echoes room) (members : middle.serving.members = room.members)
    (returned : (Serving.machine Array.written).step middle.serving (.returned result) =
      some serving) :
    Follows world chat (.handle deaf) { middle with serving := serving } room := by
  obtain ⟨settled', same⟩ := settled.returned handling other returned
  exact follows_of_stays stays (echoes.onward (Serving.status_step returned))
    (same.trans members) settled'

/-- A member has gone, with or without the others. -/
theorem follows_left (shows : chat.Shows room)
    (leaves : (chat.event world (.handle deaf)).bind Room.Event.leaver = some c)
    {after : Room} (left : after.members = room.members.erase c) (echoes : middle.Echoes after)
    (number : chat.sockets.socket c = fd)
    (gone : (serving.members = chat.serving.members.erase c ↔ chat.sockets.KeepsOthers fd) ∧
      (chat.sockets.KeepsOthers fd → serving.Settled))
    (returned : (Serving.machine Array.written).step middle.serving (.returned result) =
      some serving) :
    Follows world chat (.handle deaf) { middle with serving := serving } after := by
  have keeps := keepsOthers_of_leaves leaves
  rw [number] at keeps
  refine ⟨echoes.onward (Serving.status_step returned), ?_, fun kept => gone.2 (keeps.mp kept)⟩
  rw [keeps, left, ← shows.members]
  exact gone.1

/-- Somebody has said something. -/
theorem follows_speaks (settled : chat.serving.Settled) (shows : chat.Shows room)
    (handling : chat.serving.listening.pc = .handling request resume)
    (content : request.content = .streamData (some c) mpData)
    (listed : ⟨request.mSocket, some c⟩ ∈ chat.serving.table)
    (spoken : chat.event world (.handle deaf) = some (.speaks deaf c data))
    (answered : Answered Array.written deaf chat room c data middle)
    (returned : (Serving.machine Array.written).step middle.serving (.returned result) =
      some serving) :
    Follows world chat (.handle deaf) { middle with serving := serving }
      (room.after (.speaks deaf c data)) := by
  have other : ∀ data, request.content ≠ .connectionLost data := by
    rw [content]
    exact fun _ => nofun
  have leaver : (chat.event world (.handle deaf)).bind Room.Event.leaver =
      if data = ofString "quit" then some c else none := congrArg (Option.bind · _) spoken
  cases answered with
  | shutdown word same echoes =>
      have noQuit : data ≠ ofString "quit" := by
        rw [word]
        decide
      have asked : chat.startShutdown.serving.Settled :=
        ⟨settled.consistent.frame rfl rfl rfl settled.consistent.pending, settled.numbered,
          settled.head, settled.handles⟩
      rw [if_neg noQuit] at leaver
      rw [Room.after, if_pos word]
      have place : middle.serving.listening.pc = .handling request resume :=
        (congrArg (fun serving => serving.listening.pc) same).trans handling
      rw [← same] at asked
      refine follows_returned asked place other leaver echoes ?_ returned
      exact (congrArg Serving.members same).trans shows.members
  | quit noShutdown word closed echoes =>
      rw [if_pos word] at leaver
      rw [Room.after, if_neg noShutdown, if_pos word]
      exact follows_left shows leaver rfl ⟨echoes.received, echoes.astray, echoes.closing⟩
        (settled.consistent.entry listed).2.1
        (settled.closed handling other listed closed returned) returned
  | relay noShutdown noQuit same echoes =>
      rw [if_neg noQuit] at leaver
      rw [Room.after, if_neg noShutdown, if_neg noQuit, ← shows.members]
      rw [← same] at settled handling
      refine follows_returned settled handling other leaver echoes ?_ returned
      exact (congrArg Serving.members same).trans shows.members

/-- The handler handles a request. -/
theorem follows_handle (settled : chat.serving.Settled) (shows : chat.Shows room)
    (taken : chat.step world Array.written (.handle deaf) = some next) :
    Follows world chat (.handle deaf) next (room.follow (chat.event world (.handle deaf))) := by
  obtain ⟨request, resume, result, middle, serving, handling, processed, returned, rfl⟩ :=
    handled taken
  have told := event_handle world deaf handling
  cases settled.handles request resume handling with
  | timeout content =>
      obtain ⟨_, effect, same, echoes⟩ :=
        process_timeout world Array.written deaf shows.toEchoes content
      cases effect.symm.trans processed
      rw [content] at told
      rw [← same] at settled handling
      rw [told]
      refine follows_returned settled handling (fun data => ?_) (by rw [told]; rfl) echoes
        ((congrArg Serving.members same).trans shows.members) returned
      rw [content]
      exact nofun
  | newConnection content listed =>
      obtain ⟨_, effect, same, echoes⟩ :=
        process_newConnection world Array.written deaf settled shows.toEchoes content listed
      cases effect.symm.trans processed
      rw [content] at told
      rw [← same] at settled handling
      rw [told]
      refine follows_returned settled handling (fun data => ?_) (by rw [told]; rfl) echoes
        ((congrArg Serving.members same).trans shows.members) returned
      rw [content]
      exact nofun
  | @streamData c mpData content listed =>
      rw [content] at told
      cases read : CString.read (MyHandler.cut world.signed mpData) with
      | none =>
          cases (process_streamData_none world Array.written deaf content read).symm.trans
            processed
      | some data =>
          obtain ⟨_, _, effect, answered⟩ := process_streamData world Array.written deaf settled
            shows.toEchoes handling content listed read
          cases effect.symm.trans processed
          have told := told.trans (congrArg (Option.map _) read)
          rw [told]
          exact follows_speaks settled shows handling content listed told answered returned
  | connectionLost content listed =>
      obtain ⟨_, effect, same, echoes⟩ :=
        process_connectionLost world Array.written deaf shows.toEchoes content
      cases effect.symm.trans processed
      rw [content] at told
      have lost := settled.lost handling content listed (same ▸ returned)
      rw [told]
      exact follows_left shows (by rw [told]; rfl) rfl
        ⟨echoes.received, echoes.astray, echoes.closing⟩ (settled.consistent.entry listed).2.1
        lost returned

end Handle

/-- Every step of the server is an event in the room, or none. -/
theorem follows_step (settled : chat.serving.Settled) (shows : chat.Shows room) {action : Action}
    (nonzero : chat.AcceptsNonzero action)
    (taken : chat.step world Array.written action = some next) :
    Follows world chat action next (room.follow (chat.event world action)) := by
  cases action with
  | listen action => exact follows_listen settled shows nonzero taken
  | handle deaf => exact follows_handle settled shows taken
  | farewell deaf => exact follows_farewell settled shows taken

/-! ## Every run -/

/-- The server shows the room, and its thread has done nothing with the request
that it may have been passed. -/
structure Keeps (chat : Chat) (room : Room) : Prop where
  settled : chat.serving.Settled
  shows : chat.Shows room

theorem Keeps.step (keeps : chat.Keeps room) {action : Action}
    (nonzero : chat.AcceptsNonzero action) (others : chat.KeepsOthers world action)
    (taken : chat.step world Array.written action = some next) :
    next.Keeps (room.follow (chat.event world action)) := by
  have follows := follows_step keeps.settled keeps.shows nonzero taken
  exact ⟨follows.settled others, follows.echoes, follows.members.mpr others⟩

section Runs

variable {flags : Nat} {calls : BindCalls} {server : ServerListener}
  (bound : (ServerListener.construct.setRequestMask MyHandler.requestMask).bind .TCP flags calls =
    (0, server))

include bound in
/-- Before anybody has come the room is empty. -/
theorem keeps_start : (start server).Keeps .empty := by
  have lost : server.generates .connectionLost = true := by
    obtain ⟨_, rfl⟩ := ServerListener.bind_eq_zero bound
    change (MyHandler.requestMask &&& RequestType.connectionLost.bit != 0) = true
    decide
  refine ⟨Serving.settled_start bound lost, ⟨fun _ => rfl, rfl, fun closing => ?_⟩, ?_⟩
  · cases closing
  · obtain ⟨_, rfl⟩ := ServerListener.bind_eq_zero bound
    rfl

include bound in
/-- In a run in which every removal keeps the others, the server keeps the room. -/
theorem keeps_of_run {actions : List Action}
    (nonzero : (watched world Array.written).Steps (fun state => state.1.AcceptsNonzero)
      (start server, .empty) actions)
    (others : (watched world Array.written).Steps (fun state => state.1.KeepsOthers world)
      (start server, .empty) actions)
    (ran : (watched world Array.written).run (start server, .empty) actions = some (chat, room)) :
    chat.Keeps room := by
  refine (watched world Array.written).run_invariant (fun state => state.1.Keeps state.2)
    (fun state action next keeps met taken => ?_) (keeps_start bound)
    ((watched world Array.written).steps_and nonzero others) ran
  obtain ⟨stepped, same⟩ := watched_step.mp taken
  rw [same]
  exact keeps.step met.1 met.2 stepped

include bound in
/-- In such a run the handler has a result for every request but one with data in
which there is no control byte, beyond which it reads on. -/
theorem handle_iff_of_run {actions : List Action}
    (nonzero : (watched world Array.written).Steps (fun state => state.1.AcceptsNonzero)
      (start server, .empty) actions)
    (others : (watched world Array.written).Steps (fun state => state.1.KeepsOthers world)
      (start server, .empty) actions)
    (ran : (watched world Array.written).run (start server, .empty) actions = some (chat, room))
    (handling : chat.serving.listening.pc = .handling request resume)
    (deaf : List ConnectionId) :
    (∃ next, chat.step world Array.written (.handle deaf) = some next) ↔
      ∀ mrpConn mpData, request.content = .streamData mrpConn mpData →
        ∃ byte ∈ mpData, MyHandler.Control world.signed byte := by
  have keeps := keeps_of_run bound nonzero others ran
  have onward : ∀ {result middle},
      MyHandler.process world Array.written deaf chat request = some (result, middle) →
      middle.serving.listening.pc = .handling request resume →
        ∃ next, chat.step world Array.written (.handle deaf) = some next := by
    intro result middle processed place
    obtain ⟨serving, returned⟩ := Serving.returns Array.written place result
    refine ⟨{ middle with serving := serving }, ?_⟩
    change middle.serving.step Array.written (.returned result) = some serving at returned
    simp only [step, handling, processed, returned, Option.bind_eq_bind, Option.bind_some]
  constructor
  · rintro ⟨next, taken⟩ mrpConn mpData content
    obtain ⟨_, _, _, middle, _, handling', processed, _⟩ := handled taken
    cases handling.symm.trans handling'
    rw [← MyHandler.read_cut]
    by_contra unread
    rw [process_streamData_none world Array.written deaf content
      (Option.not_isSome_iff_eq_none.mp unread)] at processed
    cases processed
  · intro cuts
    cases keeps.settled.handles request resume handling with
    | timeout content =>
        obtain ⟨_, processed, same, _⟩ :=
          process_timeout world Array.written deaf keeps.shows.toEchoes content
        exact onward processed (by rw [same]; exact handling)
    | newConnection content listed =>
        obtain ⟨_, processed, same, _⟩ := process_newConnection world Array.written deaf
          keeps.settled keeps.shows.toEchoes content listed
        exact onward processed (by rw [same]; exact handling)
    | connectionLost content listed =>
        obtain ⟨_, processed, same, _⟩ :=
          process_connectionLost world Array.written deaf keeps.shows.toEchoes content
        exact onward processed (by rw [same]; exact handling)
    | streamData content listed =>
        obtain ⟨data, read⟩ := Option.isSome_iff_exists.mp
          ((MyHandler.read_cut world.signed _).mpr (cuts _ _ content))
        obtain ⟨_, _, processed, answered⟩ := process_streamData world Array.written deaf
          keeps.settled keeps.shows.toEchoes handling content listed read
        refine onward processed ?_
        cases answered with
        | shutdown _ same | relay _ _ same =>
            exact (congrArg (fun serving => serving.listening.pc) same).trans handling
        | quit _ _ closed => exact (Serving.pc_close closed).trans handling

end Runs

/-! ## Concrete runs -/

/-- The steps in which a client comes to a number of others. -/
def coming (clientsocket : Int) (others : Nat) : List Action :=
  [.listen .build, .listen (.selectReady [3]), .listen (.event (.accepted clientsocket)),
    .handle []] ++ List.replicate (others + 1) (.listen .skip) ++
    [.listen .endDispatch, .listen .check]

/-- The steps in which data arrives from one of the clients. -/
def speaking (fd : Int) (before : Nat) (data : String) : List Action :=
  [.listen .build, .listen (.selectReady [fd])] ++ List.replicate before (.listen .skip) ++
    [.listen (.event (.reads [.block (ofString data).bytes])), .handle []]

theorem bind_sample : (ServerListener.construct.setRequestMask MyHandler.requestMask).bind .TCP 0
    ⟨3, 0, 0, 0⟩ = (0, .sample) := rfl

/-- A word without a newline is read beyond its end. -/
theorem handle_iff_of_run_newline :
    ∃ chat room, (watched .sample Array.written).run (start .sample, .empty)
        ((coming 5 0 ++ speaking 5 1 "hi").dropLast) = some (chat, room) ∧
      ¬ ∃ next, chat.step .sample Array.written (.handle []) = some next := by
  have place : (((watched .sample Array.written).run (start .sample, .empty)
      ((coming 5 0 ++ speaking 5 1 "hi").dropLast)).map fun final =>
        final.1.serving.listening.pc) = some (.handling
          ⟨1, 5, .streamData (some 0) (ofString "hi").bytes⟩ (.dispatch [5] 1 5 false)) := by
    decide +kernel
  obtain ⟨⟨chat, room⟩, ran, handling⟩ := Option.map_eq_some_iff.mp place
  refine ⟨chat, room, ran, ?_⟩
  rw [handle_iff_of_run bind_sample (by decide +kernel) (by decide +kernel) ran handling []]
  intro cuts
  have cut := cuts _ _ rfl
  revert cut
  decide

end Chat

end MSrv
