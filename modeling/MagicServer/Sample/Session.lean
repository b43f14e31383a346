import MagicServer.Sample.Refinement

/-!
# What a client hears

The stream of one client of the sample server over a whole run. It can be read
back where every message has fitted into its buffer; it is a welcome, what has
been said in the room, and at most one farewell; and all who stay in the room
hear the same words in the same order.
-/

namespace MSrv

open CString (ofString)

namespace Line

/-- What somebody has said, in a message that tells of it. -/
def word : Line → Option CString
  | reply data | relay data => some data
  | hello _ _ | helloThere | bye | shutdown => none

/-- The messages to one client. -/
inductive Session (welcome : Line) : List Line → Prop
  | silent : Session welcome []
  | talking {talk : List Line} : (∀ line ∈ talk, line.word.isSome) →
      Session welcome (welcome :: talk)
  | ended {talk : List Line} {last : Line} : (∀ line ∈ talk, line.word.isSome) →
      last = bye ∨ last = shutdown → Session welcome (welcome :: talk ++ [last])

theorem newline_not_mem_print (ipAddress : Address) :
    newline ∉ (CString.ofChars ipAddress.print).bytes :=
  not_mem_bytes_print (show '\n'.toNat < 128 by decide) rfl (by decide) (by decide) ipAddress

/-- A welcome has one row if the host name has. -/
theorem oneRow_hello {h_name : CString} (name : newline ∉ h_name.bytes) (ipAddress : Address) :
    (hello h_name ipAddress).OneRow := by
  simp only [OneRow, row, List.mem_append, not_or]
  exact ⟨by decide, ⟨⟨name, by decide⟩, newline_not_mem_print ipAddress⟩, by decide⟩

/-- So have the messages about data without a newline. -/
theorem oneRow_word {data : CString} (clean : newline ∉ data.bytes) :
    (reply data).OneRow ∧ (relay data).OneRow := by
  simp only [OneRow, row, List.mem_append, not_or]
  exact ⟨⟨by decide, clean, by decide⟩, by decide, clean, by decide⟩

/-- A word of at most 988 bytes leaves room for the rest of the message in `msg`. -/
theorem fits_of_word {line : Line} {data : CString} (told : line.word = some data)
    (short : data.length ≤ 988) : line.Fits := by
  have size : data.bytes.length ≤ 988 := short
  cases line with
  | hello | helloThere | bye | shutdown => cases told
  | reply said | relay said =>
      cases told
      unfold Fits CString.length
      rw [text_eq_row]
      simp only [row, List.length_append, List.length_singleton]
      have around : (ofString "004 Well well well, '").bytes.length = 21 ∧
          (ofString "' to you too!").bytes.length = 13 ∧
          (ofString "005 Someone else said: '").bytes.length = 24 ∧
          (ofString "'.").bytes.length = 2 := by decide
      omega

end Line

/-- There is no newline in a host name. -/
def World.CleanHosts (world : World) : Prop :=
  ∀ c h_name, world.host c = .found h_name → Line.newline ∉ h_name.bytes

namespace Room

variable {room : Room} {deaf audience : List ConnectionId} {line : Line} {c : ConnectionId}

/-- Everything that has been heard has one row. -/
def OneRow (room : Room) : Prop := ∀ c, ∀ line ∈ room.heard c, line.OneRow

theorem OneRow.tell (oneRow : room.OneRow) (fresh : line.OneRow) :
    (room.tell deaf audience line).OneRow := by
  intro c other member
  change other ∈ if _ then _ else _ at member
  split at member
  · rcases List.mem_append.mp member with earlier | now
    · exact oneRow c other earlier
    · exact List.mem_singleton.mp now ▸ fresh
  · exact oneRow c other member

/-- The word that an event passes on; a command is none. -/
def Event.word? : Event → Option CString
  | .speaks _ _ data =>
      if data = ofString "shutdown" ∨ data = ofString "quit" then none else some data
  | .joins _ | .welcomed _ _ _ | .leaves _ | .closes _ => none

/-- Whoever is not in the audience hears what it has heard. -/
theorem tell_of_not_mem (absent : c ∉ audience) :
    (room.tell deaf audience line).heard c = room.heard c := if_neg fun both => absent both.1

/-- Whoever is and can hear, hears the line. -/
theorem tell_of_mem (member : c ∈ audience) (hearing : c ∉ deaf) :
    (room.tell deaf audience line).heard c = room.heard c ++ [line] := if_pos ⟨member, hearing⟩

end Room

namespace Chat

variable {world : World} {chat next : Chat} {room : Room} {action : Action} {c : ConnectionId}

/-! ## Reading the stream -/

/-- What is said in a step of the server has one row. -/
theorem oneRow_follow (hosts : world.CleanHosts) (oneRow : room.OneRow) :
    (room.follow (chat.event world action)).OneRow := by
  have happened := happens world chat action
  generalize chat.event world action = event at happened ⊢
  cases happened with
  | nothing | joins | leaves => exact oneRow
  | closes => exact oneRow.tell (show Line.newline ∉ Line.shutdown.row by decide)
  | @welcomed deaf c =>
      refine oneRow.tell ?_
      unfold World.welcome
      split
      · next h_name found => exact Line.oneRow_hello (hosts c h_name found) _
      · exact show Line.newline ∉ Line.helloThere.row by decide
  | @speaks deaf c mpData data _ read =>
      have clean : Line.newline ∉ data.bytes := fun inside =>
        MyHandler.not_control_of_read read _ inside (Or.inl (by decide))
      obtain ⟨reply, relay⟩ := Line.oneRow_word clean
      change (room.after _).OneRow
      rw [Room.after]
      split_ifs
      · exact oneRow
      · exact oneRow.tell (show Line.newline ∉ Line.bye.row by decide)
      · exact (oneRow.tell reply).tell relay

section Runs

variable {flags : Nat} {calls : BindCalls} {server : ServerListener}
  (bound : (ServerListener.construct.setRequestMask MyHandler.requestMask).bind .TCP flags calls =
    (0, server))

end Runs

/-! ## Who hears what is said -/

/-- The members of the room that is shown are distinct. -/
theorem Keeps.nodup (keeps : chat.Keeps room) : room.members.Nodup := by
  rw [← keeps.shows.members]
  exact (keeps.settled.consistent.visits keeps.settled.numbered).2.1

/-- A welcome tells of no word. -/
theorem word_welcome (world : World) (c : ConnectionId) : (world.welcome c).word = none := by
  unfold World.welcome
  split <;> rfl

/-- Whoever is in the room before and after a step hears the word that is said in
it, once, and no other. -/
theorem heard_follow (keeps : chat.Keeps room) (member : c ∈ room.members)
    (stays : c ∈ (room.follow (chat.event world action)).members) (hearing : c ∉ action.deaf) :
    ∃ lines, (room.follow (chat.event world action)).heard c = room.heard c ++ lines ∧
      lines.filterMap Line.word = ((chat.event world action).bind Room.Event.word?).toList := by
  have happened := happens world chat action
  generalize chat.event world action = event at happened stays ⊢
  cases happened with
  | nothing | joins | leaves => exact ⟨[], (List.append_nil _).symm, rfl⟩
  | closes => exact ⟨[.shutdown], Room.tell_of_mem member hearing, rfl⟩
  | @welcomed deaf other =>
      by_cases same : c = other
      · subst same
        refine ⟨[world.welcome c], Room.tell_of_mem (List.mem_singleton_self c) hearing, ?_⟩
        rw [List.filterMap_cons_none (word_welcome world c)]
        rfl
      · refine ⟨[], ?_, rfl⟩
        rw [List.append_nil]
        exact Room.tell_of_not_mem (mt List.mem_singleton.mp same)
  | @speaks deaf other mpData data =>
      change c ∉ deaf at hearing
      change c ∈ (room.after _).members at stays
      change ∃ lines, (room.after _).heard c = _ ∧
        _ = (Room.Event.word? (.speaks deaf other data)).toList
      rw [Room.after] at stays ⊢
      rw [Room.Event.word?]
      by_cases shutdown : data = ofString "shutdown"
      · rw [if_pos shutdown, if_pos (Or.inl shutdown)]
        exact ⟨[], (List.append_nil _).symm, rfl⟩
      by_cases quit : data = ofString "quit"
      · rw [if_neg shutdown, if_pos quit] at stays
        have apart : c ≠ other := fun same => keeps.nodup.not_mem_erase (same ▸ stays)
        rw [if_neg shutdown, if_pos quit, if_pos (Or.inr quit)]
        refine ⟨[], ?_, rfl⟩
        rw [List.append_nil]
        exact Room.tell_of_not_mem (mt List.mem_singleton.mp apart)
      rw [if_neg shutdown, if_neg quit, if_neg (not_or.mpr ⟨shutdown, quit⟩)]
      by_cases same : c = other
      · subst same
        refine ⟨[.reply data], ?_, rfl⟩
        rw [Room.tell_of_not_mem keeps.nodup.not_mem_erase]
        exact Room.tell_of_mem (List.mem_singleton_self c) hearing
      · refine ⟨[.relay data], ?_, rfl⟩
        rw [Room.tell_of_mem ((List.mem_erase_of_ne same).mpr member) hearing,
          Room.tell_of_not_mem (mt List.mem_singleton.mp same)]

/-- There is one sequence of words that all who stay in the room hear. -/
theorem heard_run {actions : List Action} {final : Chat} {after : Room} (keeps : chat.Keeps room)
    (nonzero : (watched world Array.written).Steps (fun state => state.1.AcceptsNonzero)
      (chat, room) actions)
    (others : (watched world Array.written).Steps (fun state => state.1.KeepsOthers world)
      (chat, room) actions)
    (ran : (watched world Array.written).run (chat, room) actions = some (final, after)) :
    ∃ words, ∀ c, (∀ action ∈ actions, c ∉ action.deaf) →
      (watched world Array.written).Always (fun state => c ∈ state.1.serving.members)
        (chat, room) actions →
      ∃ lines, after.heard c = room.heard c ++ lines ∧ lines.filterMap Line.word = words := by
  induction actions generalizing chat room with
  | nil =>
      cases ran
      exact ⟨[], fun c _ _ => ⟨[], (List.append_nil _).symm, rfl⟩⟩
  | cons action rest ih =>
      obtain ⟨⟨next, beside⟩, taken, onward⟩ :=
        (watched world Array.written).run_cons_eq_some.mp ran
      obtain ⟨accepts, nonzero⟩ := nonzero _ taken
      obtain ⟨leaves, others⟩ := others _ taken
      obtain ⟨stepped, rfl⟩ := watched_step.mp taken
      have keeps' := keeps.step accepts leaves stepped
      obtain ⟨words, hears⟩ := ih keeps' nonzero others onward
      refine ⟨((chat.event world action).bind Room.Event.word?).toList ++ words,
        fun c hearing always => ?_⟩
      obtain ⟨here, later⟩ := ((watched world Array.written).always_cons taken).mp always
      have there := later [] _ List.nil_prefix rfl
      have stays : c ∈ (room.follow (chat.event world action)).members :=
        keeps'.shows.members ▸ there
      obtain ⟨first, heard, word⟩ := heard_follow keeps (keeps.shows.members ▸ here) stays
        (hearing action List.mem_cons_self)
      obtain ⟨second, heard', words'⟩ := hears c
        (fun action member => hearing action (List.mem_cons_of_mem _ member)) later
      refine ⟨first ++ second, ?_, ?_⟩
      · rw [heard', heard, List.append_assoc]
      · rw [List.filterMap_append, word, words']

section Runs

variable {flags : Nat} {calls : BindCalls} {server : ServerListener}
  (bound : (ServerListener.construct.setRequestMask MyHandler.requestMask).bind .TCP flags calls =
    (0, server))

end Runs

/-! ## The session of a client -/

/-- What a client hears changes nothing in the server. -/
theorem write_server (chat : Chat) (deaf : List ConnectionId) (fd : Int) (msg : CString) :
    (chat.write deaf fd msg).serving = chat.serving ∧
      (chat.write deaf fd msg).told = chat.told := by
  unfold write
  split
  · split <;> exact ⟨rfl, rfl⟩
  · exact ⟨rfl, rfl⟩
  · exact ⟨rfl, rfl⟩

/-- Nor do the loops over the connections. -/
theorem forEach_server {body : Chat → ConnectionId → Chat}
    (each : ∀ (chat : Chat) c, (body chat c).serving = chat.serving ∧
      (body chat c).told = chat.told)
    {conns : List (Option ConnectionId)} (looped : chat.forEach body conns = some next) :
    next.serving = chat.serving ∧ next.told = chat.told := by
  induction conns generalizing chat with
  | nil =>
      cases looped
      exact ⟨rfl, rfl⟩
  | cons pConn rest ih =>
      obtain ⟨c, _, onward⟩ := Option.bind_eq_some_iff.mp looped
      obtain ⟨serving, told⟩ := ih onward
      exact ⟨serving.trans (each chat c).1, told.trans (each chat c).2⟩

/-- What the handler can do to the server. -/
inductive Touched (remove : Removal) (chat middle : Chat) : Prop
  | not : middle.serving = chat.serving → Touched remove chat middle
  | startShutdown : middle.serving = chat.startShutdown.serving → Touched remove chat middle
  | close (c : ConnectionId) :
      (Serving.machine remove).step chat.serving (.close c) = some middle.serving →
      Touched remove chat middle

/-- The handler does nothing else to the server. -/
theorem touched_of_process {remove : Removal} {deaf : List ConnectionId} {request : Request}
    {result : MSrvResult}
    (processed : MyHandler.process world remove deaf chat request = some (result, next)) :
    Touched remove chat next ∧ next.told = chat.told := by
  unfold MyHandler.process at processed
  cases content : request.content with
  | newConnection mrpConn =>
      simp only [content, MyHandler.processNewConnection, Option.bind_eq_bind,
        Option.bind_eq_some_iff] at processed
      obtain ⟨c, _, processed⟩ := processed
      split at processed
      all_goals
        obtain ⟨_, rfl⟩ := Prod.mk.inj (Option.some_inj.mp processed)
        exact (write_server ..).imp .not id
  | connectionLost | timeout =>
      rw [content] at processed
      obtain ⟨_, rfl⟩ := Prod.mk.inj (Option.some_inj.mp processed)
      exact ⟨.not rfl, rfl⟩
  | shutdown =>
      simp only [content, MyHandler.processShutdown, Option.bind_eq_bind,
        Option.bind_eq_some_iff] at processed
      obtain ⟨after, looped, processed⟩ := processed
      obtain ⟨_, rfl⟩ := Prod.mk.inj (Option.some_inj.mp processed)
      have quiet := forEach_server (fun chat c => write_server chat deaf _ _) looped
      exact quiet.imp .not id
  | streamData mrpConn mpData | datagram mpData =>
      simp only [content, MyHandler.processData, Option.bind_eq_bind,
        Option.bind_eq_some_iff] at processed
      obtain ⟨data, _, processed⟩ := processed
      split at processed
      · obtain ⟨_, rfl⟩ := Prod.mk.inj (Option.some_inj.mp processed)
        exact ⟨.startShutdown rfl, rfl⟩
      split at processed
      · obtain ⟨c, _, processed⟩ := Option.bind_eq_some_iff.mp processed
        obtain ⟨_, closed, processed⟩ := Option.bind_eq_some_iff.mp processed
        obtain ⟨serving, stepped, rfl⟩ := Option.map_eq_some_iff.mp closed
        obtain ⟨_, rfl⟩ := Prod.mk.inj (Option.some_inj.mp processed)
        obtain ⟨quiet, told⟩ := write_server chat deaf request.mSocket Line.bye.msg
        rw [quiet] at stepped
        exact ⟨.close c stepped, told⟩
      · obtain ⟨relayed, looped, processed⟩ := Option.bind_eq_some_iff.mp processed
        obtain ⟨_, rfl⟩ := Prod.mk.inj (Option.some_inj.mp processed)
        obtain ⟨quiet, told⟩ := write_server chat deaf request.mSocket (Line.reply data).msg
        have loop := forEach_server (fun chat c => by
          split
          · exact write_server ..
          · exact ⟨rfl, rfl⟩) looped
        exact ⟨.not (loop.1.trans quiet), loop.2.trans told⟩

/-- When the handler has returned, it is told of nothing, and neither the
Connections nor the configuration have changed. -/
theorem returned_handle {deaf : List ConnectionId}
    (taken : chat.step world Array.written (.handle deaf) = some next) :
    next.sockets.created = chat.sockets.created ∧ next.content? = none ∧
      next.told = chat.told ∧ next.server.config = chat.server.config := by
  obtain ⟨request, resume, result, middle, serving, handling, processed, returned, rfl⟩ :=
    handled taken
  obtain ⟨touched, told⟩ := touched_of_process processed
  have before : middle.sockets.created = chat.sockets.created ∧
      middle.server.config = chat.server.config := by
    unfold sockets Chat.server
    cases touched with
    | not same => exact same ▸ ⟨rfl, rfl⟩
    | startShutdown same => exact same ▸ ⟨rfl, rfl⟩
    | close c closed => exact ⟨Serving.created_step closed nofun, Serving.config_step closed⟩
  refine ⟨(Serving.created_step returned nofun).trans before.1, ?_, told,
    (Serving.config_step returned).trans before.2⟩
  exact congrArg (Option.map _) (Serving.request?_returned returned)

/-- The server keeps the room, tells the handler of new Connections, and does
nothing more when it has passed the request for the shutdown on. -/
structure Hosts (chat : Chat) (room : Room) : Prop where
  keeps : chat.Keeps room
  masked : chat.server.generates .newConnection = true
  told : chat.told = true → chat.serving.listening.pc = .left

/-- A member has been created. -/
theorem Keeps.created (keeps : chat.Keeps room) (member : c ∈ room.members) :
    c < chat.sockets.created := by
  rw [← keeps.shows.members] at member
  exact (keeps.settled.consistent.entry (keeps.settled.consistent.listed_of_mem member)).1.1

/-- The handler is told of members. -/
theorem Keeps.subject (keeps : chat.Keeps room) {content : Request.Content}
    (told : chat.content? = some content)
    (about : content = .newConnection (some c) ∨ ∃ mpData, content = .streamData (some c) mpData) :
    c ∈ room.members := by
  obtain ⟨request, handled, rfl⟩ := Option.map_eq_some_iff.mp told
  rw [← keeps.shows.members]
  cases handling : chat.serving.listening.pc with
  | handling request' resume =>
      rw [handling] at handled
      cases handled
      cases keeps.settled.handles request resume handling with
      | newConnection content listed | streamData content listed =>
          rw [content] at about
          rcases about with same | ⟨_, same⟩ <;> cases same
          exact (keeps.settled.consistent.entry listed).2.2.2.2
      | connectionLost content | timeout content =>
          rw [content] at about
          rcases about with same | ⟨_, same⟩ <;> cases same
  | _ =>
      rw [handling] at handled
      cases handled

/-- Whoever is not in the room hears nothing. -/
theorem heard_of_absent (keeps : chat.Keeps room) (absent : c ∉ room.members) :
    (room.follow (chat.event world action)).heard c = room.heard c := by
  have happened := happens world chat action
  generalize chat.event world action = event at happened ⊢
  cases happened with
  | nothing | joins | leaves => rfl
  | closes => exact Room.tell_of_not_mem absent
  | @welcomed deaf other told =>
      have member := keeps.subject told (Or.inl rfl)
      exact Room.tell_of_not_mem fun same => absent (List.mem_singleton.mp same ▸ member)
  | @speaks deaf other mpData data told =>
      have member := keeps.subject told (Or.inr ⟨_, rfl⟩)
      have apart : c ∉ [other] := fun same => absent (List.mem_singleton.mp same ▸ member)
      change (room.after _).heard c = _
      rw [Room.after]
      split_ifs
      · rfl
      · exact Room.tell_of_not_mem apart
      · rw [Room.tell_of_not_mem fun inside => absent (List.mem_of_mem_erase inside)]
        exact Room.tell_of_not_mem apart

/-- Where a client is in its session. -/
inductive Stage (world : World) (chat : Chat) (room : Room) (c : ConnectionId) : Prop
  | coming : chat.sockets.created ≤ c → room.heard c = [] → Stage world chat room c
  | awaited : c < chat.sockets.created → chat.content? = some (.newConnection (some c)) →
      room.heard c = [] → Stage world chat room c
  | talking {talk : List Line} : c < chat.sockets.created →
      chat.content? ≠ some (.newConnection (some c)) → (∀ line ∈ talk, line.word.isSome) →
      room.heard c = world.welcome c :: talk → Stage world chat room c
  | ended {talk : List Line} {last : Line} : c < chat.sockets.created →
      chat.content? ≠ some (.newConnection (some c)) → chat.told = true ∨ c ∉ room.members →
      (∀ line ∈ talk, line.word.isSome) → last = .bye ∨ last = .shutdown →
      room.heard c = world.welcome c :: talk ++ [last] → Stage world chat room c

/-- Outside the handler clients come, and their requests with them. -/
theorem Stage.listen (hosts : chat.Hosts room) (stage : Stage world chat room c)
    {inner : Listening.Action} (taken : chat.step world Array.written (.listen inner) = some next) :
    Stage world next (room.follow (chat.event world (.listen inner))) c := by
  obtain ⟨running, taken⟩ := Option.ite_none_left_eq_some.mp taken
  obtain ⟨serving, stepped, rfl⟩ := Option.map_eq_some_iff.mp taken
  have step : (Serving.machine Array.written).step chat.serving (.listen inner) = some serving :=
    stepped
  obtain ⟨outside, after, effect, rfl⟩ := Serving.listened stepped
  have sockets := effect.sockets outside hosts.keeps.settled.consistent.lost
  have inside : ∀ {content}, chat.content? = some content →
      chat.serving.listening.pc.request?.isSome := by
    intro content told
    obtain ⟨request, handled, _⟩ := Option.map_eq_some_iff.mp told
    rw [handled]
    rfl
  have awaits : c < chat.sockets.created →
      chat.content? ≠ some (.newConnection (some c)) →
        after.pc.request?.map Request.content ≠ some (.newConnection (some c)) := by
    intro earlier other awaited
    cases Serving.step_cases step with
    | listen step =>
        rcases step.awaits outside awaited with same | created
        · rw [same] at awaited
          exact other awaited
        · exact earlier.ne created
  rw [event_listen]
  cases accepted : inner.accepted? with
  | none =>
      rw [accepted, Option.elim_none] at sockets
      have created := congrArg Sockets.created sockets
      cases stage with
      | coming later silent => exact .coming (created.trans_le later) silent
      | awaited earlier told silent =>
          have place := (effect.pc_of_handling outside (inside told)).1
          refine .awaited (earlier.trans_eq created.symm) ?_ silent
          exact (congrArg (fun pc => (ListenPc.request? pc).map Request.content) place).trans told
      | talking earlier other talk heard =>
          exact .talking (earlier.trans_eq created.symm) (awaits earlier other) talk heard
      | ended earlier other gone talk last heard =>
          exact .ended (earlier.trans_eq created.symm) (awaits earlier other) gone talk last heard
  | some clientsocket =>
      rw [accepted, Option.elim_some] at sockets
      have created : after.server.sockets.created = chat.sockets.created + 1 :=
        congrArg Sockets.created sockets
      have more : ∀ {c}, c < chat.sockets.created → c < after.server.sockets.created := by
        omega
      cases stage with
      | coming later silent =>
          rcases later.eq_or_lt with rfl | later
          · exact .awaited ((Nat.lt_succ_self _).trans_eq created.symm)
              (effect.awaits_of_accepted hosts.masked accepted) silent
          · exact .coming (created.trans_le later) silent
      | awaited earlier told silent =>
          exact nomatch accepted.symm.trans (effect.pc_of_handling outside (inside told)).2
      | talking earlier other talk heard =>
          exact .talking (more earlier) (awaits earlier other) talk heard
      | ended earlier other gone talk last heard =>
          refine .ended (more earlier) (awaits earlier other) (gone.imp_right ?_) talk last heard
          intro absent member
          rcases List.mem_append.mp member with there | now
          · exact absent there
          · exact earlier.ne (List.mem_singleton.mp now)

/-- Nor does anybody come in by what the handler does. -/
theorem absent_handle {deaf : List ConnectionId} (absent : c ∉ room.members) :
    c ∉ (room.follow (chat.event world (.handle deaf))).members := by
  have happened := happens world chat (.handle deaf)
  generalize chat.event world (.handle deaf) = event at happened ⊢
  cases happened with
  | nothing | welcomed => exact absent
  | leaves => exact fun member => absent (List.mem_of_mem_erase member)
  | @speaks _ other mpData data =>
      change c ∉ (room.after (.speaks deaf other data)).members
      rw [Room.after]
      split_ifs
      · exact absent
      · exact fun member => absent (List.mem_of_mem_erase member)
      · exact absent

/-- Telling somebody a word adds the word or nothing. -/
theorem tell_talk {deaf audience : List ConnectionId} {line : Line} (word : line.word.isSome)
    {talk : List Line} {welcome : Line} (talks : ∀ line ∈ talk, line.word.isSome)
    (heard : room.heard c = welcome :: talk) :
    ∃ talk', (∀ line ∈ talk', line.word.isSome) ∧
      (room.tell deaf audience line).heard c = welcome :: talk' := by
  by_cases hears : c ∈ audience ∧ c ∉ deaf
  · refine ⟨talk ++ [line], fun other member => ?_, ?_⟩
    · rcases List.mem_append.mp member with earlier | now
      · exact talks other earlier
      · exact List.mem_singleton.mp now ▸ word
    · rw [Room.tell_of_mem hears.1 hears.2, heard]
      rfl
  · exact ⟨talk, talks, (if_neg hears).trans heard⟩

/-- The handler welcomes a client, passes words on to it, and says good-bye to it. -/
theorem Stage.handle (hosts : chat.Hosts room) (stage : Stage world chat room c)
    {deaf : List ConnectionId} (hearing : c ∉ deaf)
    (taken : chat.step world Array.written (.handle deaf) = some next) :
    Stage world next (room.follow (chat.event world (.handle deaf))) c := by
  obtain ⟨created, quiet, told, _⟩ := returned_handle taken
  have nothing : next.content? ≠ some (.newConnection (some c)) := by
    rw [quiet]
    exact (Option.some_ne_none _).symm
  have after : ∀ {c}, c < chat.sockets.created → c < next.sockets.created :=
    fun earlier => earlier.trans_eq created.symm
  cases stage with
  | coming later silent =>
      refine .coming (created.trans_le later) ?_
      rw [heard_of_absent hosts.keeps fun member => (hosts.keeps.created member).not_ge later]
      exact silent
  | awaited earlier awaits silent =>
      have welcomed : chat.event world (.handle deaf) =
          some (.welcomed deaf c (world.welcome c)) := by
        simp only [event, awaits]
      refine .talking (after earlier) nothing (List.forall_mem_nil _) ?_
      rw [welcomed]
      refine (Room.tell_of_mem (List.mem_singleton_self c) hearing).trans ?_
      rw [silent]
      rfl
  | ended earlier other gone talk last heard =>
      rcases gone with ended | absent
      · obtain ⟨request, resume, _, _, _, handling, _⟩ := handled taken
        cases handling.symm.trans (hosts.told ended)
      · refine .ended (after earlier) nothing (Or.inr (absent_handle absent)) talk last ?_
        rw [heard_of_absent hosts.keeps absent]
        exact heard
  | @talking talk earlier other talks heard =>
      have happened := happens world chat (.handle deaf)
      generalize chat.event world (.handle deaf) = event at happened ⊢
      cases happened with
      | nothing | leaves => exact .talking (after earlier) nothing talks heard
      | @welcomed _ somebody awaited =>
          have apart : c ∉ [somebody] := fun same =>
            other (List.mem_singleton.mp same ▸ awaited)
          exact .talking (after earlier) nothing talks ((Room.tell_of_not_mem apart).trans heard)
      | @speaks _ somebody mpData data said =>
          change Stage world next (room.after (.speaks deaf somebody data)) c
          rw [Room.after]
          split_ifs
          · exact .talking (after earlier) nothing talks heard
          · by_cases same : c = somebody
            · subst same
              refine .ended (after earlier) nothing (Or.inr hosts.keeps.nodup.not_mem_erase) talks
                (Or.inl rfl) ?_
              refine (Room.tell_of_mem (List.mem_singleton_self c) hearing).trans ?_
              rw [heard]
            · refine .talking (after earlier) nothing talks ?_
              exact (Room.tell_of_not_mem (mt List.mem_singleton.mp same)).trans heard
          · obtain ⟨_, talks, heard⟩ :=
              tell_talk (show (Line.reply data).word.isSome from rfl) talks heard
            obtain ⟨_, talks, heard⟩ :=
              tell_talk (show (Line.relay data).word.isSome from rfl) talks heard
            exact .talking (after earlier) nothing talks heard

/-- The request for the shutdown is passed on once, from outside the loop. -/
theorem passed_farewell {deaf : List ConnectionId}
    (taken : chat.step world Array.written (.farewell deaf) = some next) :
    chat.serving.listening.pc = .left ∧ chat.told = false ∧ next.serving = chat.serving ∧
      next.told = true := by
  obtain ⟨⟨left, running, _⟩, taken⟩ := Option.ite_none_right_eq_some.mp taken
  obtain ⟨⟨result, after⟩, processed, taken⟩ := Option.bind_eq_some_iff.mp taken
  obtain ⟨relayed, looped, processed⟩ := Option.bind_eq_some_iff.mp processed
  obtain ⟨_, rfl⟩ := Prod.mk.inj (Option.some_inj.mp processed)
  obtain rfl := Option.some_inj.mp taken
  exact ⟨left, running, (forEach_server (fun chat c => write_server chat deaf _ _) looped).1, rfl⟩

/-- At the end the clients that are still there are told. -/
theorem Stage.farewell (hosts : chat.Hosts room) (stage : Stage world chat room c)
    {deaf : List ConnectionId} (hearing : c ∉ deaf)
    (taken : chat.step world Array.written (.farewell deaf) = some next) :
    Stage world next (room.follow (chat.event world (.farewell deaf))) c := by
  obtain ⟨left, running, same, told⟩ := passed_farewell taken
  have quiet : ∀ {content}, chat.content? ≠ some content := by
    intro content said
    unfold content? at said
    rw [left] at said
    cases said
  have content : next.content? = chat.content? :=
    congrArg (fun serving => serving.listening.pc.request?.map Request.content) same
  have nothing : next.content? ≠ some (.newConnection (some c)) := by
    rw [content]
    exact quiet
  have created : next.sockets.created = chat.sockets.created :=
    congrArg (fun serving => serving.sockets.created) same
  change Stage world next (room.tell deaf room.members .shutdown) c
  cases stage with
  | coming later silent =>
      refine .coming (created.trans_le later) ?_
      rw [Room.tell_of_not_mem fun member => (hosts.keeps.created member).not_ge later]
      exact silent
  | awaited _ awaits => exact absurd awaits quiet
  | talking earlier other talks heard =>
      have earlier := earlier.trans_eq created.symm
      by_cases member : c ∈ room.members
      · refine .ended earlier nothing (Or.inl told) talks (Or.inr rfl) ?_
        rw [Room.tell_of_mem member hearing, heard]
      · exact .talking earlier nothing talks ((Room.tell_of_not_mem member).trans heard)
  | ended earlier other gone talks last heard =>
      have absent : c ∉ room.members := by
        rcases gone with ended | absent
        · exact nomatch running.symm.trans ended
        · exact absent
      exact .ended (earlier.trans_eq created.symm) nothing (Or.inr absent) talks last
        ((Room.tell_of_not_mem absent).trans heard)

/-- What ties the server to the room and to the sessions survives every step. -/
theorem Hosts.step (hosts : chat.Hosts room) (nonzero : chat.AcceptsNonzero action)
    (others : chat.KeepsOthers world action)
    (taken : chat.step world Array.written action = some next) :
    next.Hosts (room.follow (chat.event world action)) := by
  have keeps := hosts.keeps.step nonzero others taken
  have masked : next.server.config = chat.server.config →
      next.server.generates .newConnection = true := fun config =>
    (ServerListener.generates_of_config config _).trans hosts.masked
  cases action with
  | listen inner =>
      obtain ⟨running, taken⟩ := Option.ite_none_left_eq_some.mp taken
      obtain ⟨serving, stepped, rfl⟩ := Option.map_eq_some_iff.mp taken
      have step : (Serving.machine Array.written).step chat.serving (.listen inner) =
        some serving := stepped
      exact ⟨keeps, masked (Serving.config_step step), fun ended => absurd ended running⟩
  | handle deaf =>
      obtain ⟨_, _, told, config⟩ := returned_handle taken
      obtain ⟨request, resume, _, _, _, handling, _⟩ := handled taken
      refine ⟨keeps, masked config, fun ended => ?_⟩
      exact nomatch handling.symm.trans (hosts.told (told.symm.trans ended))
  | farewell deaf =>
      obtain ⟨left, _, same, _⟩ := passed_farewell taken
      refine ⟨keeps, masked ?_, fun _ => ?_⟩
      · exact congrArg (fun serving => serving.listening.server.config) same
      · exact (congrArg (fun serving => serving.listening.pc) same).trans left

section Runs

variable {flags : Nat} {calls : BindCalls} {server : ServerListener}
  (bound : (ServerListener.construct.setRequestMask MyHandler.requestMask).bind .TCP flags calls =
    (0, server))

end Runs

/-! ## Concrete runs -/

theorem run_coming : ((watched .sample Array.written).run (start .sample, .empty)
    (coming 5 0 ++ coming 6 1)).isSome := by decide +kernel

end Chat

end MSrv
