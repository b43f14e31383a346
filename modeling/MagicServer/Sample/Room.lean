import MagicServer.Sample.Handler
import MagicServer.Server.Members

/-!
# The room that the sample server keeps

What the sample server is for, without sockets: a room in which whoever says
something gets an answer and all other members hear it. The bytes that arrive at
a client are the lines that it hears in the room.
-/

namespace MSrv

/-- The members in the order in which they came, and what each has heard. -/
structure Room where
  members : List ConnectionId
  heard : ConnectionId → List Line
  /-- Somebody has asked for the end. -/
  closing : Bool

namespace Room

/-- The room before anybody has come. -/
def empty : Room := ⟨[], fun _ => [], false⟩

inductive Event where
  | joins (c : ConnectionId)
  | welcomed (deaf : List ConnectionId) (c : ConnectionId) (welcome : Line)
  | speaks (deaf : List ConnectionId) (c : ConnectionId) (data : CString)
  | leaves (c : ConnectionId)
  | closes (deaf : List ConnectionId)
  deriving DecidableEq

/-- All of the audience but the deaf hear the line. -/
def tell (room : Room) (deaf audience : List ConnectionId) (line : Line) : Room :=
  { room with
    heard := fun c =>
      if c ∈ audience ∧ c ∉ deaf then room.heard c ++ [line] else room.heard c }

def after (room : Room) : Event → Room
  | .joins c => { room with members := room.members ++ [c] }
  | .welcomed deaf c welcome => room.tell deaf [c] welcome
  | .speaks deaf c data =>
      if data = CString.ofString "shutdown" then { room with closing := true }
      else if data = CString.ofString "quit" then
        { room.tell deaf [c] .bye with members := room.members.erase c }
      else (room.tell deaf [c] (.reply data)).tell deaf (room.members.erase c) (.relay data)
  | .leaves c => { room with members := room.members.erase c }
  | .closes deaf => room.tell deaf room.members .shutdown

/-- The room after a step that may be an event. -/
def follow (room : Room) : Option Event → Room
  | none => room
  | some event => room.after event

/-- The member that an event makes leave. -/
def Event.leaver : Event → Option ConnectionId
  | .speaks _ c data => if data = CString.ofString "quit" then some c else none
  | .leaves c => some c
  | .joins _ | .welcomed _ _ _ | .closes _ => none

end Room

/-- How a client is welcomed. -/
def World.welcome (world : World) (c : ConnectionId) : Line :=
  match world.host c with
  | .found h_name => .hello h_name (world.address c)
  | .failed _ _ => .helloThere

namespace Chat

/-- What the request says that is with the handler. -/
def content? (chat : Chat) : Option Request.Content :=
  chat.serving.listening.pc.request?.map Request.content

/-- What a step of the server is in the room. -/
def event (world : World) (chat : Chat) : Action → Option Room.Event
  | .listen action => action.accepted?.map fun _ => .joins chat.sockets.created
  | .handle deaf =>
      match chat.content? with
      | some (.newConnection (some c)) => some (.welcomed deaf c (world.welcome c))
      | some (.streamData (some c) mpData) =>
          (CString.read (MyHandler.cut world.signed mpData)).map fun data => .speaks deaf c data
      | some (.connectionLost (some c)) => some (.leaves c)
      | _ => none
  | .farewell deaf => some (.closes deaf)

theorem event_listen (world : World) (chat : Chat) (action : Listening.Action) :
    chat.event world (.listen action) =
      action.accepted?.map fun _ => .joins chat.sockets.created := rfl

/-- What can happen in the room in a step. -/
inductive Happens (world : World) (chat : Chat) : Action → Option Room.Event → Prop
  | nothing {action : Action} : Happens world chat action none
  | joins {action : Listening.Action} {clientsocket : Int} :
      action.accepted? = some clientsocket →
      Happens world chat (.listen action) (some (.joins chat.sockets.created))
  | welcomed {deaf : List ConnectionId} {c : ConnectionId} :
      chat.content? = some (.newConnection (some c)) →
      Happens world chat (.handle deaf) (some (.welcomed deaf c (world.welcome c)))
  | speaks {deaf : List ConnectionId} {c : ConnectionId} {mpData : List UInt8} {data : CString} :
      chat.content? = some (.streamData (some c) mpData) →
      CString.read (MyHandler.cut world.signed mpData) = some data →
      Happens world chat (.handle deaf) (some (.speaks deaf c data))
  | leaves {deaf : List ConnectionId} {c : ConnectionId} :
      chat.content? = some (.connectionLost (some c)) →
      Happens world chat (.handle deaf) (some (.leaves c))
  | closes {deaf : List ConnectionId} : Happens world chat (.farewell deaf) (some (.closes deaf))

theorem happens (world : World) (chat : Chat) (action : Action) :
    Happens world chat action (chat.event world action) := by
  cases action with
  | farewell deaf => exact .closes
  | listen action =>
      rw [event_listen]
      cases accepted : action.accepted? with
      | none => exact .nothing
      | some clientsocket => exact .joins accepted
  | handle deaf =>
      simp only [event]
      split
      · next told => exact .welcomed told
      · next mpData told =>
          cases read : CString.read (MyHandler.cut world.signed mpData) with
          | none => exact .nothing
          | some data => exact .speaks told read
      · next told => exact .leaves told
      · exact .nothing

/-- The server, and beside it the room in which the same happens. -/
def watched (world : World) (remove : Removal) : Machine (Chat × Room) Action where
  step state action := (state.1.step world remove action).map fun next =>
    (next, state.2.follow (state.1.event world action))

theorem watched_step {world : World} {remove : Removal} {chat next : Chat} {room after : Room}
    {action : Action} : (watched world remove).step (chat, room) action = some (next, after) ↔
      chat.step world remove action = some next ∧
        after = room.follow (chat.event world action) := by
  simp only [watched, Option.map_eq_some_iff, Prod.mk.injEq]
  constructor
  · rintro ⟨_, taken, rfl, rfl⟩
    exact ⟨taken, rfl⟩
  · rintro ⟨taken, rfl⟩
    exact ⟨next, taken, rfl, rfl⟩

/-- The entry of a Connection that leaves is removed without losing another. -/
def KeepsOthers (world : World) (chat : Chat) (action : Action) : Prop :=
  ∀ c ∈ (chat.event world action).bind Room.Event.leaver,
    chat.sockets.KeepsOthers (chat.sockets.socket c)

instance (world : World) (chat : Chat) : DecidablePred (chat.KeepsOthers world) := fun action =>
  inferInstanceAs (Decidable (∀ c ∈ (chat.event world action).bind Room.Event.leaver,
    chat.sockets.KeepsOthers (chat.sockets.socket c)))

/-- `::accept` returns no number 0. -/
def AcceptsNonzero (chat : Chat) : Action → Prop
  | .listen action => chat.serving.AcceptsNonzero (.listen action)
  | .handle _ | .farewell _ => True

instance (chat : Chat) : DecidablePred chat.AcceptsNonzero
  | .listen (.event (.accepted clientsocket)) => inferInstanceAs (Decidable (clientsocket ≠ 0))
  | .listen (.event (.reads _)) | .listen .build | .listen .selectFailed
  | .listen .selectTimeout | .listen (.selectReady _) | .listen .skip | .listen (.returned _)
  | .listen .endDispatch | .listen .check | .listen .startShutdown
  | .handle _ | .farewell _ => isTrue trivial

/-- What has arrived at a client is what it has heard in the room, and nothing has
been written elsewhere. -/
structure Echoes (chat : Chat) (room : Room) : Prop where
  received : ∀ c, chat.received c = (room.heard c).flatMap fun line => line.msg.bytes
  astray : chat.astray = []
  closing : room.closing → chat.server.mShutdownStatus = true

/-- And the members of the room are the Connections in the table. -/
structure Shows (chat : Chat) (room : Room) : Prop extends chat.Echoes room where
  members : chat.serving.members = room.members

/-- All of the audience but the deaf receive the message. -/
def hears (chat : Chat) (deaf audience : List ConnectionId) (msg : CString) : Chat :=
  { chat with
    received := fun c =>
      if c ∈ audience ∧ c ∉ deaf then chat.received c ++ msg.bytes else chat.received c }

variable {chat : Chat} {room : Room} {deaf audience : List ConnectionId} {line : Line}
  {msg : CString} {fd : Int} {c : ConnectionId}

/-- What the audience receives, it hears. -/
theorem Echoes.tell (echoes : chat.Echoes room) :
    (chat.hears deaf audience line.msg).Echoes (room.tell deaf audience line) where
  received c := by
    change (if _ then _ else _) = List.flatMap _ (if _ then _ else _)
    split
    · rw [echoes.received, List.flatMap_append, List.flatMap_singleton]
    · exact echoes.received c
  astray := echoes.astray
  closing := echoes.closing

/-- The log is not in the room. -/
theorem Echoes.message (echoes : chat.Echoes room) (text : CString) :
    (chat.message text).Echoes room := ⟨echoes.received, echoes.astray, echoes.closing⟩

/-- Nor is the place of the thread, or the table. -/
theorem Echoes.onward (echoes : chat.Echoes room) {serving : Serving}
    (status : chat.server.mShutdownStatus = true →
      serving.listening.server.mShutdownStatus = true) :
    Echoes { chat with serving := serving } room :=
  ⟨echoes.received, echoes.astray, fun closing => status (echoes.closing closing)⟩

/-! ## Writing to several clients -/

/-- A write to the socket of a client reaches that client. -/
theorem write_client (file : chat.sockets.fds fd = some (.client c)) :
    chat.write deaf fd msg = chat.hears deaf [c] msg := by
  unfold write hears
  rw [file]
  by_cases lost : c ∈ deaf
  · have nobody : ∀ other, ¬ (other ∈ [c] ∧ other ∉ deaf) := by
      intro other ⟨same, hearing⟩
      exact hearing (List.mem_singleton.mp same ▸ lost)
    simp only [lost, nobody, if_true, if_false]
  · simp only [lost, if_false, Chat.mk.injEq, and_true, true_and]
    funext other
    by_cases same : other = c
    · subst same
      simp only [Function.update_self, List.mem_singleton, lost, not_false_eq_true, and_self,
        if_true]
    · simp only [Function.update_of_ne same, List.mem_singleton, same, false_and, if_false]

@[simp] theorem hears_nil : chat.hears deaf [] msg = chat := by
  unfold hears
  simp only [List.not_mem_nil, false_and, if_false]

/-- Two audiences that have nobody in common are one. -/
theorem hears_append {first second : List ConnectionId} (apart : ∀ c ∈ first, c ∉ second) :
    (chat.hears deaf first msg).hears deaf second msg = chat.hears deaf (first ++ second) msg := by
  simp only [hears, Chat.mk.injEq, and_true, true_and]
  funext c
  by_cases here : c ∈ first
  · simp only [here, apart c here, false_and, if_false, List.mem_append, true_or, true_and]
  · simp only [here, false_and, if_false, List.mem_append, false_or]

/-- A loop that writes to some of the members reaches these. -/
theorem forEach_hears {body : Chat → ConnectionId → Chat} {kept : ConnectionId → Bool}
    (each : ∀ other : Chat, other.serving = chat.serving → ∀ c ∈ audience,
      body other c = if kept c then other.hears deaf [c] msg else other)
    (live : ∀ c ∈ audience, chat.serving.Live c) (nodup : audience.Nodup) :
    chat.forEach body (audience.map some) =
      some (chat.hears deaf (audience.filter kept) msg) := by
  induction audience generalizing chat with
  | nil =>
      rw [List.filter_nil, hears_nil]
      rfl
  | cons c rest ih =>
      obtain ⟨absent, nodup⟩ := List.nodup_cons.mp nodup
      have found : chat.connection (some c) = some c := if_pos (live c List.mem_cons_self)
      have onward : ∀ other : Chat, other.serving = chat.serving →
          other.forEach body (rest.map some) = some (other.hears deaf (rest.filter kept) msg) := by
        intro other same
        refine ih (fun another same' c member => ?_) (fun c member => ?_) nodup
        · exact each another (same'.trans same) c (List.mem_cons_of_mem _ member)
        · rw [same]
          exact live c (List.mem_cons_of_mem _ member)
      rw [List.map_cons, forEach, found, Option.bind_eq_bind, Option.bind_some,
        each chat rfl c List.mem_cons_self]
      cases keep : kept c with
      | true =>
          have apart : ∀ other ∈ [c], other ∉ rest.filter kept := by
            intro other same member
            rw [List.mem_singleton.mp same] at member
            exact absent (List.mem_of_mem_filter member)
          rw [if_pos rfl, onward (chat.hears deaf [c] msg) rfl, hears_append apart,
            List.filter_cons_of_pos keep]
          rfl
      | false =>
          rw [if_neg nofun, onward chat rfl, List.filter_cons_of_neg (Bool.eq_false_iff.mp keep)]

end Chat

end MSrv
