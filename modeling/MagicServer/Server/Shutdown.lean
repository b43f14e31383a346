import MagicServer.Server.Close
import MagicServer.Server.Session

/-!
# From the call of `listen()` to its return

A whole run of `listen()` with a handler in the listener thread that closes
Connections in both ways, `Connection::close` and `ServerListener::close`, and
with `shutdown()` at its end. The run records which Connection objects are
deleted. Only the destructor of a `ConnectionLostRequest` deletes one, so every
Connection is deleted once if and only if none of them goes without a request
for its loss.
-/

namespace MSrv

namespace ServerListener

/-- Closes a client connection. `mThreadLock` counts how often the thread holds
the lock of the listener. -/
def close (remove : Removal) (server : ServerListener) (mThreadLock : Nat) :
    Option ConnectionId → MSrvResult × ServerListener × Nat
  | none => (MSRVERR_NULL_ARGUMENT, server, mThreadLock)
  | some pConn =>
      -- lock (), close (), and lock () again
      (0, { server with sockets := (server.sockets.close remove pConn).2 }, mThreadLock + 1 + 1)

/-- The loop of `shutdown()` over the connections that the iterator gives it. -/
def closeAll (remove : Removal) (server : ServerListener) (mThreadLock : Nat) :
    List (Option ConnectionId) → ServerListener × Nat
  | [] => (server, mThreadLock)
  | connection :: rest =>
      let (_, server, mThreadLock) := server.close remove mThreadLock connection
      server.closeAll remove mThreadLock rest

/-- What `shutdown()` does after the handler has been told, and what is left of
`listen()`: it closes any descriptors still open. -/
def shutdownEnd (remove : Removal) (server : ServerListener) (mThreadLock : Nat) :
    ServerListener × Nat :=
  let (server, mThreadLock) := server.closeAll remove mThreadLock
    ((ConnIter.create server).visits server.sockets.mDescriptors.length)
  let sockets := (server.sockets.closeFd server.mSocket).removeDescriptor remove server.mSocket
  let closed :=
    sockets.2.mDescriptors.foldl (fun closed entry => closed.closeFd entry.mFd) sockets.2
  ({ server with sockets := closed }, mThreadLock)

end ServerListener

/-- How far a call of `listen()` is. -/
inductive ServicePhase where
  | listening
  /-- The handler has the request that `shutdown()` has made. -/
  | shuttingDown
  | returned
  deriving DecidableEq

/-- The listener thread in a call of `listen()`. -/
structure Service where
  serving : Serving
  phase : ServicePhase
  /-- How often the thread holds `mThreadLock` of the listener. -/
  mThreadLock : Nat
  /-- The Connection objects deleted so far. -/
  deletions : List ConnectionId

namespace Service

/-- `listen()` is called on a listener without Connections. -/
def start (server : ServerListener) : Service where
  serving := .start server
  phase := .listening
  mThreadLock := 0
  deletions := []

inductive Action where
  /-- The thread goes on in the loop, or its handler returns to it. -/
  | serve (action : Serving.Action)
  /-- The handler calls `Connection::close`. -/
  | connectionClose (c : ConnectionId)
  /-- The handler calls `ServerListener::close`. -/
  | listenerClose (pConn : Option ConnectionId)
  /-- `shutdown()` is called. -/
  | shutdown
  /-- The handler returns to `shutdown()`, and `listen()` returns. -/
  | finish
  deriving DecidableEq

def server (service : Service) : ServerListener := service.serving.listening.server

def sockets (service : Service) : Sockets := service.serving.sockets

/-- The same thread with the listener as a call of it leaves it. -/
def withServer (service : Service) (after : ServerListener × Nat) : Service :=
  { service with
    serving :=
      { service.serving with listening := { service.serving.listening with server := after.1 } }
    mThreadLock := after.2 }

/-- The handler is running. -/
def InHandler (service : Service) : Prop :=
  service.phase = .shuttingDown ∨
    (service.phase = .listening ∧ service.serving.listening.pc.request?.isSome)

instance (service : Service) : Decidable service.InHandler := instDecidableOr

/-- `mThreadLock` of the listener after a step of its thread: the dispatch loop
runs with the lock held. -/
def lockAfter (mThreadLock : Nat) : Serving.Action → Nat
  | .listen (.selectReady _) => mThreadLock + 1
  | .listen .endDispatch => mThreadLock - 1
  | _ => mThreadLock

/-- The Connection that goes with a request that is deleted. -/
def deletes (request : Request) : List ConnectionId :=
  match request.content with
  | .connectionLost (some c) => [c]
  | _ => []

/-- The Connections that a step of the thread deletes, with the request that the
handler has had. -/
def deletedBy (service : Service) : Serving.Action → List ConnectionId
  | .returned _ => (service.serving.listening.pc.request?.map deletes).getD []
  | _ => []

/-- `shutdown()` passes its request to the handler. -/
def passOn (service : Service) (request : Request) (server : ServerListener) : Service :=
  let told := service.withServer (server, service.mThreadLock)
  { told with
    serving := { told.serving with trace := told.serving.trace ++ [.passed request none] }
    phase := .shuttingDown }

/-- One step of the thread. -/
def step (remove : Removal) (service : Service) : Action → Option Service
  | .serve (.close _) => none
  | .serve action =>
      if service.phase = .listening then
        (service.serving.step remove action).map fun next =>
          { service with
            serving := next
            mThreadLock := lockAfter service.mThreadLock action
            deletions := service.deletions ++ service.deletedBy action }
      else none
  | .connectionClose c =>
      if service.InHandler ∧ service.serving.Live c then
        some (service.withServer
          ({ service.server with sockets := (service.sockets.close remove c).2 },
            service.mThreadLock))
      else none
  | .listenerClose pConn =>
      if service.InHandler ∧ ∀ c ∈ pConn, service.serving.Live c then
        some (service.withServer (service.server.close remove service.mThreadLock pConn).2)
      else none
  | .shutdown =>
      if service.phase = .listening ∧ service.serving.listening.pc = .left then
        match service.server.generate .shutdown (-1) .shutdown with
        | (some request, server) => some (service.passOn request server)
        | (none, server) =>
            some
              { service.withServer (server.shutdownEnd remove service.mThreadLock) with
                phase := .returned }
      else none
  | .finish =>
      if service.phase = .shuttingDown then
        some
          { service.withServer (service.server.shutdownEnd remove service.mThreadLock) with
            phase := .returned }
      else none

/-- Every call of `listen()` is a run of this machine. -/
def machine (remove : Removal) : Machine Service Action where
  step := step remove

end Service

/-! ## The loop, as long as no Connection goes without a request for its loss -/

/-- The steps outside the handler are the same for every removal, but for the
end of a stream of which no request tells. -/
theorem Listening.Step.anyRemoval {remove other : Removal} {listening next : Listening}
    {action : Listening.Action} (step : Step remove listening action next)
    (outside : ∀ result, action ≠ .returned result)
    (lost : listening.server.generates .connectionLost = true) :
    Step other listening action next := by
  cases step with
  | quiet before away sockets requests config => exact .quiet before away sockets requests config
  | startShutdown => exact .startShutdown
  | timeout here => exact .timeout here
  | connected here nonneg free ignored => exact .connected here nonneg free ignored
  | newConnection here nonneg free => exact .newConnection here nonneg free
  | streamData here listed set protocol client some_data =>
      exact .streamData here listed set protocol client some_data
  | datagram here listed set protocol some_data =>
      exact .datagram here listed set protocol some_data
  | connectionLost here listed set client => exact .connectionLost here listed set client
  | dropped _ _ _ ignored =>
      rw [lost] at ignored
      cases ignored
  | returned result => exact absurd rfl (outside result)

/-- A step outside the handler begins outside it or leaves the thread where it
is, and the sockets are what they were, or with a new client, or without an entry. -/
theorem Listening.Step.changes {remove : Removal} {listening next : Listening}
    {action : Listening.Action} (step : Step remove listening action next)
    (outside : ∀ result, action ≠ .returned result) :
    (listening.pc.request? = none ∨ next.pc = listening.pc) ∧
      (next.server.sockets = listening.server.sockets ∨
        (∃ clientsocket,
          next.server.sockets = listening.server.sockets.addClient clientsocket) ∨
        (listening.server.generates .connectionLost = false ∧
          ∃ fd, next.server.sockets =
            (listening.server.sockets.removeDescriptor remove fd).2)) := by
  cases step with
  | quiet before _ sockets => exact ⟨Or.inl before, Or.inl sockets⟩
  | startShutdown => exact ⟨Or.inr rfl, Or.inl rfl⟩
  | timeout here | streamData here | datagram here | connectionLost here =>
      exact ⟨Or.inl (congrArg ListenPc.request? here), Or.inl rfl⟩
  | connected here | newConnection here =>
      exact ⟨Or.inl (congrArg ListenPc.request? here), Or.inr (Or.inl ⟨_, rfl⟩)⟩
  | dropped here _ _ ignored =>
      exact ⟨Or.inl (congrArg ListenPc.request? here), Or.inr (Or.inr ⟨ignored, _, rfl⟩)⟩
  | returned result => exact absurd rfl (outside result)

/-- A loss of which a step tells the handler is that of an entry. -/
theorem Listening.Step.told {remove : Removal} {listening next : Listening}
    {action : Listening.Action} (step : Step remove listening action next)
    (outside : ∀ result, action ≠ .returned result) {request : Request} {resume : Resume}
    {data : Option ConnectionId} (handling : next.pc = .handling request resume)
    (content : request.content = .connectionLost data) :
    next.pc = listening.pc ∨
      ∃ entry ∈ listening.server.sockets.mDescriptors, entry.mpData = data := by
  cases step with
  | quiet _ away =>
      rw [handling] at away
      cases away
  | startShutdown => exact Or.inl rfl
  | timeout | newConnection | streamData | datagram =>
      cases handling
      cases content
  | @connectionLost _ _ entry _ _ listed =>
      cases handling
      cases content
      exact Or.inr ⟨entry, List.mem_of_getElem? listed, rfl⟩
  | connected | dropped => cases handling
  | returned result => exact absurd rfl (outside result)

namespace Serving

/-- The server socket stands first, and every Connection that exists has an
entry or is the one whose loss the handler is being told of. -/
structure Attached (serving : Serving) : Prop where
  consistent : serving.Consistent
  head : serving.table.head? = some ⟨serving.listening.server.mSocket, none⟩
  listed : ∀ c, serving.Live c → serving.Listed c ∨ serving.Losing c

variable {serving : Serving} {c : ConnectionId}

/-- While the thread stays where it is the handler is being told of the same loss. -/
theorem Losing.stays {next : Serving} (losing : serving.Losing c)
    (same : next.listening.pc = serving.listening.pc) : next.Losing c := by
  obtain ⟨request, resume, handling, content⟩ := losing
  exact ⟨request, resume, same.trans handling, content⟩

theorem Losing.inside (losing : serving.Losing c) : serving.listening.pc.request? ≠ none := by
  obtain ⟨request, resume, handling, _⟩ := losing
  rw [handling]
  exact nofun

/-- A step outside the handler leaves no Connection without an entry. -/
theorem Attached.listen (attached : serving.Attached) {inner : Listening.Action}
    {after : Listening} {trace : List Happening}
    (step : Listening.Step Array.written serving.listening inner after)
    (outside : ∀ result, inner ≠ .returned result) :
    Attached { serving with listening := after, trace := trace } := by
  have erasing : Listening.Step List.eraseIdx serving.listening inner after :=
    step.anyRemoval outside attached.consistent.lost
  have server := ServerListener.mSocket_of_config step.config
  obtain ⟨place, sockets⟩ := step.changes outside
  have stays : ∀ {c}, serving.Losing c →
      Losing { serving with listening := after, trace := trace } c :=
    fun losing => losing.stays (place.resolve_left losing.inside)
  refine ⟨attached.consistent.listen erasing outside, ?_, ?_⟩
  · change after.server.sockets.mDescriptors.head? = some ⟨after.server.mSocket, none⟩
    rw [server]
    rcases sockets with same | ⟨clientsocket, added⟩ | ⟨ignored, _⟩
    · rw [same]
      exact attached.head
    · rw [added]
      exact Sockets.head?_addClient attached.head
    · rw [attached.consistent.lost] at ignored
      cases ignored
  · rintro c ⟨created, alive⟩
    change c < after.server.sockets.created at created
    change (∃ entry ∈ after.server.sockets.mDescriptors, entry.mpData = some c) ∨ _
    rcases sockets with same | ⟨clientsocket, added⟩ | ⟨ignored, _⟩
    · rw [same] at created ⊢
      exact (attached.listed c ⟨created, alive⟩).imp_right stays
    · rw [added] at created ⊢
      rcases Nat.lt_succ_iff_lt_or_eq.mp created with earlier | rfl
      · rcases attached.listed c ⟨earlier, alive⟩ with ⟨entry, member, data⟩ | losing
        · exact Or.inl ⟨entry, Sockets.mem_addClient.mpr (Or.inl member), data⟩
        · exact Or.inr (stays losing)
      · exact Or.inl ⟨_, Sockets.mem_addClient.mpr (Or.inr rfl), rfl⟩
    · rw [attached.consistent.lost] at ignored
      cases ignored

/-- `close` erases one entry when it keeps the others. -/
theorem close_of_keepsOthers {sockets : Sockets}
    (keeps : sockets.socket c = 0 ∨ sockets.KeepsOthers (sockets.socket c)) :
    sockets.close Array.written c = sockets.close List.eraseIdx c := by
  unfold Sockets.close
  split_ifs with closed
  · rfl
  · rw [Closers.removeDescriptor_of_keepsOthers (keeps.resolve_left closed)]

/-- So does what is left of an event at which a stream has ended. -/
theorem afterEvent_of_keepsOthers {listening : Listening} {ready : List Int} {i : Nat} {fd : Int}
    (keeps : listening.server.sockets.KeepsOthers fd) :
    listening.afterEvent Array.written ready i fd true =
      listening.afterEvent List.eraseIdx ready i fd true := by
  unfold Listening.afterEvent ServerListener.descriptorEventEnd
  rw [if_pos rfl, if_pos rfl, Closers.removeDescriptor_of_keepsOthers keeps]

/-- The handler closes the Connection of whose loss it is being told, or one
that has no socket. -/
theorem Attached.close (attached : serving.Attached) (live : serving.Live c)
    (safe : serving.sockets.socket c = 0 ∨
      (serving.Losing c ∧ serving.sockets.KeepsOthers (serving.sockets.socket c))) :
    (serving.withSockets (serving.sockets.close Array.written c).2).Attached := by
  rw [close_of_keepsOthers (safe.imp_right And.right)]
  have consistent := attached.consistent.close live
  by_cases closed : serving.sockets.socket c = 0
  · rw [Sockets.close_of_closed _ closed]
    exact attached
  obtain ⟨losing, _⟩ := safe.resolve_left closed
  have left : ∀ {entry}, entry ∈ serving.table → entry.mFd ≠ serving.sockets.socket c →
      entry ∈ (serving.sockets.close List.eraseIdx c).2.mDescriptors := by
    intro entry member different
    rw [Sockets.close_of_open closed]
    exact (Keyed.mem_erase attached.consistent.sound.distinct).mpr ⟨member, different⟩
  refine ⟨consistent, ?_, ?_⟩
  · change (serving.sockets.close List.eraseIdx c).2.mDescriptors.head? =
      some ⟨serving.listening.server.mSocket, none⟩
    rw [Sockets.close_of_open closed]
    refine Keyed.head?_erase attached.head fun same => ?_
    have same_entry := attached.consistent.entry_eq attached.consistent.server
      (attached.consistent.listed c live closed) same
    exact absurd (congrArg Descriptor.mpData same_entry) nofun
  · rintro c' ⟨created, alive⟩
    rw [show (serving.withSockets _).sockets.created = serving.sockets.created from
      (Sockets.close_numbers ..).1] at created
    by_cases same : c' = c
    · rw [same]
      exact Or.inr (losing.stays rfl)
    · rcases attached.listed c' ⟨created, alive⟩ with ⟨entry, member, data⟩ | other
      · refine Or.inl ⟨entry, left member fun number => same ?_, data⟩
        have owner := (attached.consistent.owner_iff live closed member).mpr number
        exact Option.some_inj.mp (data.symm.trans owner)
      · exact Or.inr (other.stays rfl)

/-- The Connection of a lost stream is destroyed, and its entry goes. -/
theorem Attached.destroy (attached : serving.Attached) {request : Request} {ready : List Int}
    {i : Nat} {fd : Int}
    (handling : serving.listening.pc = .handling request (.dispatch ready i fd true))
    (content : request.content = .connectionLost (some c))
    (keeps : serving.sockets.KeepsOthers fd) :
    Attached
      { serving with
        listening := serving.listening.afterEvent Array.written ready i fd true
        destroyed := Function.update serving.destroyed c true } := by
  have consistent := attached.consistent
  rcases consistent.pending request _ handling with
    ⟨c', ready', i', content', live, resumed, owner⟩ | ⟨other, _⟩
  swap
  · exact absurd content (other _)
  cases content.symm.trans content'
  cases resumed
  rw [afterEvent_of_keepsOthers keeps]
  refine ⟨consistent.destroy live owner, ?_, ?_⟩
  · rw [Listening.afterEvent_lost]
    refine Keyed.head?_erase attached.head fun same => ?_
    exact absurd (owner _ consistent.server same) nofun
  · rintro c' ⟨created, alive⟩
    rw [Listening.afterEvent_lost] at created ⊢
    change Function.update serving.destroyed c true c' = false at alive
    have apart : c' ≠ c := by
      rintro rfl
      rw [Function.update_self] at alive
      cases alive
    rw [Function.update_of_ne apart] at alive
    rcases attached.listed c' ⟨created, alive⟩ with ⟨entry, member, data⟩ | losing
    · refine Or.inl ⟨entry, (Keyed.mem_erase consistent.sound.distinct).mpr
        ⟨member, fun number => apart ?_⟩, data⟩
      exact Option.some_inj.mp (data.symm.trans (owner entry member number))
    · obtain ⟨request', resume', handling', content'⟩ := losing
      cases handling.symm.trans handling'
      cases content.symm.trans content'
      exact absurd rfl apart

/-- What the handler leaves behind when it returns. -/
theorem Attached.returned (attached : serving.Attached) {request : Request} {resume : Resume}
    (result : MSrvResult) (handling : serving.listening.pc = .handling request resume)
    (keeps : ∀ ready i fd, resume = .dispatch ready i fd true → serving.sockets.KeepsOthers fd) :
    Attached
      { serving.deleteRequest Array.written request with
        listening := (serving.deleteRequest Array.written request).listening.afterHandler
          Array.written result resume } := by
  have consistent := attached.consistent
  rcases consistent.pending request resume handling with
    ⟨c, ready, i, content, live, rfl, _⟩ | ⟨other, stays⟩
  · have keeps := keeps ready i _ rfl
    rw [deleteRequest_of_lost content]
    by_cases closed : serving.sockets.socket c = 0
    · rw [Sockets.close_of_closed _ closed]
      exact attached.destroy handling content keeps
    · have number := (consistent.sound.socket c live.1).resolve_right closed
      have losing : serving.Losing c := ⟨request, _, handling, content⟩
      have after := attached.close live (Or.inr ⟨losing, number ▸ keeps⟩)
      apply after.destroy handling content
      rw [← number]
      exact Closers.keepsOthers_close consistent.sound closed
  · rw [deleteRequest_of_ne_lost other]
    have after := consistent.returned result handling
    rw [deleteRequest_of_ne_lost other] at after
    have quiet : serving.listening.afterHandler Array.written result resume =
        serving.listening.afterHandler List.eraseIdx result resume := by
      cases resume with
      | timeout => rfl
      | dispatch ready i fd lost =>
          cases lost with
          | false => rfl
          | true => exact absurd rfl (stays ready i fd)
    rw [quiet]
    have server := ServerListener.mSocket_of_config
      (Listening.afterHandler_config List.eraseIdx serving.listening result resume)
    obtain ⟨_, ⟨_, same⟩ | ⟨ready, i, fd, removing, _⟩⟩ :=
      Listening.afterHandler_cases List.eraseIdx serving.listening result resume
    swap
    · exact absurd removing (stays ready i fd)
    refine ⟨after, ?_, ?_⟩
    · rw [Serving.table, Serving.sockets, same, server]
      exact attached.head
    · rintro c ⟨created, alive⟩
      change (∃ entry ∈ (serving.listening.afterHandler List.eraseIdx result
        resume).server.sockets.mDescriptors, entry.mpData = some c) ∨ _
      rw [Serving.sockets, same] at created
      rw [same]
      refine Or.inl ((attached.listed c ⟨created, alive⟩).resolve_right ?_)
      rintro ⟨request', resume', handling', content⟩
      cases handling.symm.trans handling'
      exact other _ content

/-- A removal that does not keep the other entries leaves a Connection without its own. -/
theorem Attached.loses (attached : serving.Attached) {fd : Int}
    (drops : ¬ serving.sockets.KeepsOthers fd) :
    ∃ c, serving.Live c ∧ serving.sockets.acceptedAs c ≠ fd ∧
      (serving.sockets.removeDescriptor Array.written fd).2.Unlisted c := by
  have consistent := attached.consistent
  obtain ⟨entry, member, apart, client, lost⟩ :=
    Closers.lost_of_not_keepsOthers consistent.sound attached.head drops
  cases data : entry.mpData with
  | none => exact absurd (consistent.nulls entry member data) client
  | some c =>
      obtain ⟨created, number⟩ := consistent.sound.number member data
      refine ⟨c, ⟨created, (consistent.live entry member c data).1⟩, number ▸ apart,
        fun other left owner => lost other left ?_⟩
      have listed := (Closers.removeDescriptor_sublist _ _).subset left
      exact (consistent.sound.number listed owner).2.trans number.symm

/-- The return of the handler creates no Connection and adds no entry. -/
theorem returned_sockets (serving : Serving) (request : Request) (resume : Resume)
    (result : MSrvResult) :
    let listening := (serving.deleteRequest Array.written request).listening.afterHandler
      Array.written result resume
    listening.pc.request? = none ∧
      listening.server.sockets.created = serving.sockets.created ∧
      listening.server.sockets.mDescriptors.Sublist serving.sockets.mDescriptors := by
  have deleted : (serving.deleteRequest Array.written request).sockets.created =
        serving.sockets.created ∧
      (serving.deleteRequest Array.written request).sockets.mDescriptors.Sublist
        serving.sockets.mDescriptors := by
    unfold deleteRequest
    split
    · exact ⟨(Sockets.close_numbers ..).1, Closers.close_sublist ..⟩
    · exact ⟨rfl, List.Sublist.refl _⟩
  obtain ⟨away, ⟨_, same⟩ | ⟨_, _, fd, _, removed⟩⟩ := Listening.afterHandler_cases Array.written
    (serving.deleteRequest Array.written request).listening result resume
  · refine ⟨away, ?_⟩
    rw [same]
    exact deleted
  · refine ⟨away, ?_⟩
    rw [removed]
    exact ⟨Sockets.removeDescriptor_created.trans deleted.1,
      (Closers.removeDescriptor_sublist _ _).trans deleted.2⟩

/-- A close that the loss does not call for, or that takes the entry of another
Connection, leaves a Connection without an entry and without a request for its loss. -/
theorem Attached.close_loses (attached : serving.Attached) (live : serving.Live c)
    (opened : serving.sockets.socket c ≠ 0)
    (wrong : ¬ serving.Losing c ∨ ¬ serving.sockets.KeepsOthers (serving.sockets.socket c)) :
    ∃ c', serving.Live c' ∧ (serving.sockets.close Array.written c).2.Unlisted c' ∧
      ¬ serving.Losing c' := by
  have closed := @Sockets.close_of_ne_zero Array.written _ _ opened
  by_cases losing : serving.Losing c
  · obtain ⟨c', live', apart, unlisted⟩ := attached.loses (wrong.resolve_left (not_not.mpr losing))
    refine ⟨c', live', ?_, fun told => ?_⟩
    · rw [closed]
      exact unlisted
    · obtain ⟨request, resume, handling, content⟩ := losing
      obtain ⟨request', resume', handling', content'⟩ := told
      cases handling.symm.trans handling'
      cases content.symm.trans content'
      exact apart ((attached.consistent.sound.socket c live.1).resolve_right opened).symm
  · refine ⟨c, live, ?_, losing⟩
    rw [closed]
    intro entry left data
    have member := (Closers.removeDescriptor_sublist _ _).subset left
    exact Closers.ne_of_mem_removeDescriptor attached.consistent.sound left
      (attached.consistent.live entry member c data).2.symm

/-- A removal after the handler has returned that takes the entry of another
Connection leaves that one without an entry, and it is not the one destroyed. -/
theorem Attached.returned_loses (attached : serving.Attached) {request : Request}
    {ready : List Int} {i : Nat} {fd : Int}
    (handling : serving.listening.pc = .handling request (.dispatch ready i fd true))
    (drops : ¬ serving.sockets.KeepsOthers fd) :
    ∃ c, serving.Live c ∧ request.content ≠ .connectionLost (some c) ∧
      ((serving.deleteRequest Array.written request).sockets.removeDescriptor
        Array.written fd).2.Unlisted c := by
  obtain ⟨c, live, apart, unlisted⟩ := attached.loses drops
  rcases attached.consistent.pending request _ handling with
    ⟨owner, _, _, content, live', resumed, _⟩ | ⟨_, stays⟩
  · cases resumed
    refine ⟨c, live, fun told => ?_, fun entry member => unlisted entry ?_⟩
    · cases content.symm.trans told
      exact apart rfl
    · rw [Serving.deleteRequest_of_lost content] at member
      by_cases closed : serving.sockets.socket owner = 0
      · rwa [Sockets.close_of_closed _ closed] at member
      · have number := (attached.consistent.sound.socket owner live'.1).resolve_right closed
        have earlier := (Closers.removeDescriptor_sublist
          (serving.sockets.close Array.written owner).2 _).subset member
        rw [Sockets.close_of_ne_zero closed, number] at earlier
        exact earlier
  · exact absurd rfl (stays ready i fd)

end Serving

namespace Service

/-! ## What one step can do -/

/-- The steps of the thread, by what becomes of the Connections. -/
inductive Step (remove : Removal) (service : Service) : Action → Service → Prop
  | serve {action : Serving.Action} {next : Serving} : service.phase = .listening →
      Serving.Step remove service.serving action next → (∀ c, action ≠ .close c) →
      Step remove service (.serve action)
        { service with
          serving := next
          mThreadLock := lockAfter service.mThreadLock action
          deletions := service.deletions ++ service.deletedBy action }
  | close {action : Action} {c : ConnectionId} (mThreadLock : Nat) :
      action = .connectionClose c ∨ action = .listenerClose (some c) →
      service.InHandler → service.serving.Live c →
      Step remove service action
        (service.withServer
          ({ service.server with sockets := (service.sockets.close remove c).2 }, mThreadLock))
  | closeNull : Step remove service (.listenerClose none) service
  /-- From `shutdown()` on the listener watches nothing and deletes nothing. -/
  | ending {action : Action} {next : Service} :
      (action = .shutdown ∧ service.phase = .listening ∧ service.serving.listening.pc = .left) ∨
        (action = .finish ∧ service.phase = .shuttingDown) →
      next.phase ≠ .listening → next.serving.destroyed = service.serving.destroyed →
      next.sockets.created = service.sockets.created → next.deletions = service.deletions →
      Step remove service action next

variable {remove : Removal} {service next : Service} {action : Action}

/-- The end of `shutdown()` creates no Connection. -/
theorem shutdownEnd_created (remove : Removal) (server : ServerListener) (mThreadLock : Nat) :
    (server.shutdownEnd remove mThreadLock).1.sockets.created = server.sockets.created := by
  have all : ∀ (connections : List (Option ConnectionId)) (server : ServerListener)
      (mThreadLock : Nat), (server.closeAll remove mThreadLock connections).1.sockets.created =
        server.sockets.created := by
    intro connections
    induction connections with
    | nil => exact fun _ _ => rfl
    | cons connection rest ih =>
        intro server mThreadLock
        rw [ServerListener.closeAll]
        apply (ih _ _).trans
        cases connection with
        | none => rfl
        | some c => exact (Sockets.close_numbers remove server.sockets c).1
  have fds : ∀ (entries : List Descriptor) (sockets : Sockets),
      (entries.foldl (fun closed entry => closed.closeFd entry.mFd) sockets).created =
        sockets.created := by
    intro entries
    induction entries with
    | nil => exact fun _ => rfl
    | cons entry rest ih => exact fun sockets => ih _
  refine (fds _ _).trans (Sockets.removeDescriptor_created.trans ?_)
  exact all _ _ _

/-- `shutdown()` and `listen()` return when the handler has been told. -/
theorem step_finish (here : service.phase = .shuttingDown) :
    (machine remove).step service .finish =
      some
        { service.withServer (service.server.shutdownEnd remove service.mThreadLock) with
          phase := .returned } := if_pos here

theorem step_cases (taken : (machine remove).step service action = some next) :
    Step remove service action next := by
  change service.step remove action = some next at taken
  cases action with
  | serve action =>
      by_cases closes : ∃ c, action = .close c
      · obtain ⟨c, rfl⟩ := closes
        cases taken
      have other : ∀ c, action ≠ .close c := fun c same => closes ⟨c, same⟩
      have unfolded : (if service.phase = .listening then
          (service.serving.step remove action).map fun next =>
            { service with
              serving := next
              mThreadLock := lockAfter service.mThreadLock action
              deletions := service.deletions ++ service.deletedBy action }
          else none) = some next := by
        cases action with
        | close c => exact absurd rfl (other c)
        | _ => exact taken
      rw [Option.ite_none_right_eq_some, Option.map_eq_some_iff] at unfolded
      obtain ⟨listening, after, stepped, rfl⟩ := unfolded
      exact .serve listening (Serving.step_cases stepped) other
  | connectionClose c =>
      simp only [step, Option.ite_none_right_eq_some, Option.some.injEq] at taken
      obtain ⟨⟨inside, live⟩, rfl⟩ := taken
      exact .close _ (Or.inl rfl) inside live
  | listenerClose pConn =>
      simp only [step, Option.ite_none_right_eq_some, Option.some.injEq] at taken
      obtain ⟨⟨inside, live⟩, rfl⟩ := taken
      cases pConn with
      | none => exact .closeNull
      | some c => exact .close _ (Or.inr rfl) inside (live c rfl)
  | shutdown =>
      simp only [step, Option.ite_none_right_eq_some] at taken
      obtain ⟨before, taken⟩ := taken
      unfold ServerListener.generate at taken
      split_ifs at taken <;> cases taken
      · exact .ending (Or.inl ⟨rfl, before⟩) nofun rfl rfl rfl
      · exact .ending (Or.inl ⟨rfl, before⟩) nofun rfl (shutdownEnd_created ..) rfl
  | finish =>
      simp only [step, Option.ite_none_right_eq_some, Option.some.injEq] at taken
      obtain ⟨before, rfl⟩ := taken
      exact .ending (Or.inr ⟨rfl, before⟩) nofun rfl (shutdownEnd_created ..) rfl

/-- The handler closes a Connection only when it is told of its loss, no removal
takes other entries away, and no client is left when `shutdown()` is called. -/
def LosesNone (service : Service) : Action → Prop
  | .connectionClose c | .listenerClose (some c) =>
      service.sockets.socket c = 0 ∨
        (service.serving.Losing c ∧ service.sockets.KeepsOthers (service.sockets.socket c))
  | .serve (.returned _) =>
      ∀ fd ∈ service.serving.listening.removal?, service.sockets.KeepsOthers fd
  | .shutdown => ∀ entry ∈ service.sockets.mDescriptors, entry.mpData = none
  | .serve (.listen _) | .serve (.close _) | .listenerClose none | .finish => True

instance (service : Service) : DecidablePred service.LosesNone
  | .connectionClose _ | .listenerClose (some _) => inferInstanceAs (Decidable (_ ∨ _ ∧ _))
  | .serve (.returned _) => inferInstanceAs (Decidable (∀ fd ∈ _, _))
  | .shutdown => inferInstanceAs (Decidable (∀ entry ∈ _, _))
  | .serve (.listen _) | .serve (.close _) | .listenerClose none | .finish =>
      inferInstanceAs (Decidable True)

/-- As long as the loop runs no Connection is without a request for its loss to
come, and after it no Connection is left. -/
structure Keeping (service : Service) : Prop where
  counts : ∀ c, service.deletions.count c = if service.serving.destroyed c then 1 else 0
  attached : service.phase = .listening → service.serving.Attached
  ended : service.phase ≠ .listening → ∀ c, ¬ service.serving.Live c

/-- A Connection that nothing will delete. -/
structure Abandoned (service : Service) (c : ConnectionId) : Prop where
  live : service.serving.Live c
  undeleted : c ∉ service.deletions
  unlisted : service.phase = .listening → service.sockets.Unlisted c ∧ ¬ service.serving.Losing c

theorem mem_deletes {request : Request} {c : ConnectionId} :
    c ∈ deletes request ↔ request.content = .connectionLost (some c) := by
  unfold deletes
  split
  · next owner content =>
      rw [List.mem_singleton, content, Request.Content.connectionLost.injEq, Option.some_inj]
      exact eq_comm
  · next other => exact iff_of_false List.not_mem_nil (other c)

theorem nodup_deletes (request : Request) : (deletes request).Nodup := by
  unfold deletes
  split
  · exact List.nodup_singleton _
  · exact List.nodup_nil

/-- The Connection of a request that is deleted is destroyed. -/
theorem deleteRequest_destroyed (serving : Serving) (request : Request) (c : ConnectionId) :
    (serving.deleteRequest remove request).destroyed c =
      if c ∈ deletes request then true else serving.destroyed c := by
  split_ifs with lost
  · rw [Serving.deleteRequest_of_lost (mem_deletes.mp lost)]
    exact Function.update_self ..
  · unfold Serving.deleteRequest
    split
    · next owner content =>
        refine Function.update_of_ne (fun same => lost (mem_deletes.mpr ?_)) ..
        rw [content, same]
    · rfl

/-- A Connection that is not being lost is not deleted with the request. -/
theorem not_mem_deletes {serving : Serving} {request : Request} {resume : Resume}
    {c : ConnectionId} (handling : serving.listening.pc = .handling request resume)
    (other : ¬ serving.Losing c) : c ∉ deletes request :=
  fun lost => other ⟨request, resume, handling, mem_deletes.mp lost⟩

/-- An abandoned Connection stays so. -/
theorem Abandoned.step {c : ConnectionId} (abandoned : service.Abandoned c)
    (taken : (machine Array.written).step service action = some next) : next.Abandoned c := by
  obtain ⟨⟨created, alive⟩, undeleted, unlisted⟩ := abandoned
  cases step_cases taken with
  | closeNull => exact ⟨⟨created, alive⟩, undeleted, unlisted⟩
  | close =>
      refine ⟨⟨?_, alive⟩, undeleted, fun listening => ⟨fun entry member => ?_, ?_⟩⟩
      · exact (Sockets.close_numbers ..).1.symm ▸ created
      · exact (unlisted listening).1 entry ((Closers.close_sublist ..).subset member)
      · exact fun losing => (unlisted listening).2 (losing.stays rfl)
  | ending _ phase destroyed created' deletions =>
      refine ⟨⟨?_, ?_⟩, ?_, fun listening => absurd listening phase⟩
      · exact created'.symm ▸ created
      · rwa [destroyed]
      · rwa [deletions]
  | serve listening step other =>
      obtain ⟨absent, kept⟩ := unlisted listening
      cases step with
      | close => exact absurd rfl (other _)
      | returned result handling =>
          obtain ⟨away, created', fewer⟩ := Serving.returned_sockets service.serving _ _ result
          have lost := not_mem_deletes handling kept
          refine ⟨⟨?_, ?_⟩, ?_, fun _ => ⟨fun entry member => ?_, fun losing => ?_⟩⟩
          · exact created'.symm ▸ created
          · exact (deleteRequest_destroyed ..).trans ((if_neg lost).trans alive)
          · simp only [deletedBy, handling, ListenPc.request?, Option.map_some, Option.getD_some,
              List.mem_append, undeleted, lost, or_self, not_false_eq_true]
          · exact absent entry (fewer.subset member)
          · exact losing.inside away
      | listen step outside =>
          obtain ⟨place, sockets⟩ := step.changes outside
          refine ⟨⟨?_, alive⟩, ?_, fun _ => ⟨?_, fun losing => ?_⟩⟩
          · change c < (Listening.server _).sockets.created
            rcases sockets with same | ⟨clientsocket, added⟩ | ⟨_, fd, removed⟩
            · rwa [same]
            · rw [added]
              exact created.trans (Nat.lt_succ_self _)
            · rwa [removed, Sockets.removeDescriptor_created]
          · simpa only [deletedBy, List.append_nil] using undeleted
          · change (Listening.server _).sockets.Unlisted c
            rcases sockets with same | ⟨clientsocket, added⟩ | ⟨_, fd, removed⟩
            · rwa [same]
            · rw [added]
              intro entry member
              rcases Sockets.mem_addClient.mp member with earlier | rfl
              · exact absent entry earlier
              · exact fun same => created.ne' (Option.some_inj.mp same)
            · rw [removed]
              exact fun entry member =>
                absent entry ((Closers.removeDescriptor_sublist _ _).subset member)
          · obtain ⟨request, resume, handling, content⟩ := losing
            rcases step.told outside handling content with same | ⟨entry, member, data⟩
            · exact kept ⟨request, resume, same.symm.trans handling, content⟩
            · exact absent entry member data

/-- A step that loses none keeps every Connection in the hands of the loop. -/
theorem Keeping.step (keeping : service.Keeping) (none_lost : service.LosesNone action)
    (taken : (machine Array.written).step service action = some next) : next.Keeping := by
  cases step_cases taken with
  | closeNull => exact keeping
  | @close _ c lock closes inside live =>
      have safe : service.sockets.socket c = 0 ∨
          (service.serving.Losing c ∧ service.sockets.KeepsOthers (service.sockets.socket c)) := by
        rcases closes with rfl | rfl <;> exact none_lost
      by_cases listening : service.phase = .listening
      · exact ⟨keeping.counts, fun _ => (keeping.attached listening).close live safe,
          fun other => absurd listening other⟩
      · exact absurd live (keeping.ended listening c)
  | ending before phase destroyed created deletions =>
      have live : ∀ c, next.serving.Live c ↔ service.serving.Live c := by
        intro c
        unfold Serving.Live
        rw [destroyed, show next.serving.sockets.created = _ from created]
        rfl
      refine ⟨?_, fun listening => absurd listening phase, fun _ c => ?_⟩
      · rw [deletions, destroyed]
        exact keeping.counts
      · rw [live]
        rcases before with ⟨rfl, listening, left⟩ | ⟨_, shuttingDown⟩
        · intro alive
          rcases (keeping.attached listening).listed c alive with ⟨entry, member, data⟩ | losing
          · cases (none_lost entry member).symm.trans data
          · exact losing.inside (congrArg ListenPc.request? left)
        · exact keeping.ended (by rw [shuttingDown]; exact nofun) c
  | serve listening step other =>
      have attached := keeping.attached listening
      cases step with
      | close => exact absurd rfl (other _)
      | listen step outside =>
          refine ⟨?_, fun _ => attached.listen step outside, fun other => absurd listening other⟩
          simpa only [deletedBy, List.append_nil] using keeping.counts
      | @returned request resume result handling =>
          have safe : ∀ ready i fd, resume = .dispatch ready i fd true →
              service.serving.sockets.KeepsOthers fd := by
            rintro ready i fd rfl
            exact none_lost fd (by rw [Listening.removal?, handling]; rfl)
          refine ⟨fun c => ?_, fun _ => attached.returned result handling safe,
            fun other => absurd listening other⟩
          simp only [deletedBy, handling, ListenPc.request?, Option.map_some, Option.getD_some,
            List.count_append, keeping.counts, deleteRequest_destroyed]
          by_cases lost : c ∈ deletes request
          · have alive : service.serving.destroyed c = false := by
              rcases attached.consistent.pending request resume handling with
                ⟨c', _, _, content, live, _⟩ | ⟨other, _⟩
              · cases content.symm.trans (mem_deletes.mp lost)
                exact live.2
              · exact absurd (mem_deletes.mp lost) (other _)
            rw [if_pos lost, alive, List.count_eq_one_of_mem (nodup_deletes request) lost]
            rfl
          · rw [if_neg lost, List.count_eq_zero_of_not_mem lost, add_zero]

/-- A Connection that has not been destroyed has not been deleted. -/
theorem Keeping.undeleted (keeping : service.Keeping) {c : ConnectionId}
    (live : service.serving.Live c) : c ∉ service.deletions := by
  apply List.count_eq_zero.mp
  rw [keeping.counts, live.2]
  rfl

/-- Any other step abandons a Connection. -/
theorem Keeping.abandons (keeping : service.Keeping) (lost : ¬ service.LosesNone action)
    (taken : (machine Array.written).step service action = some next) :
    ∃ c, next.Abandoned c := by
  cases step_cases taken with
  | closeNull => exact absurd trivial lost
  | @close _ c lock closes inside live =>
      have wrong : ¬ (service.sockets.socket c = 0 ∨ (service.serving.Losing c ∧
          service.sockets.KeepsOthers (service.sockets.socket c))) := by
        rcases closes with rfl | rfl <;> exact lost
      rw [not_or, not_and_or] at wrong
      have listening : service.phase = .listening := by
        by_contra other
        exact keeping.ended other c live
      obtain ⟨c', live', unlisted, untold⟩ :=
        (keeping.attached listening).close_loses live wrong.1 wrong.2
      have created := (Sockets.close_numbers Array.written service.sockets c).1
      exact ⟨c', ⟨created.symm ▸ live'.1, live'.2⟩, keeping.undeleted live',
        fun _ => ⟨unlisted, fun told => untold (told.stays rfl)⟩⟩
  | ending before phase destroyed created deletions =>
      rcases before with ⟨rfl, listening, _⟩ | ⟨rfl, _⟩
      · have attached := keeping.attached listening
        unfold LosesNone at lost
        push Not at lost
        obtain ⟨entry, member, data⟩ := lost
        obtain ⟨c, data⟩ := Option.ne_none_iff_exists'.mp data
        have live : service.serving.Live c :=
          ⟨(attached.consistent.sound.number member data).1,
            (attached.consistent.live entry member c data).1⟩
        refine ⟨c, ⟨?_, ?_⟩, ?_, fun listening => absurd listening phase⟩
        · exact created.symm ▸ live.1
        · rw [destroyed]
          exact live.2
        · rw [deletions]
          exact keeping.undeleted live
      · exact absurd trivial lost
  | serve listening step other =>
      have attached := keeping.attached listening
      cases step with
      | close => exact absurd rfl (other _)
      | listen => exact absurd trivial lost
      | @returned request resume result handling =>
          unfold LosesNone at lost
          push Not at lost
          obtain ⟨fd, removal, drops⟩ := lost
          obtain ⟨ready, i, rfl⟩ : ∃ ready i, resume = .dispatch ready i fd true := by
            rw [Option.mem_def, Listening.removal?, handling] at removal
            split at removal
            · next same =>
                cases same
                cases removal
                exact ⟨_, _, rfl⟩
            · cases removal
          obtain ⟨c, live, untold, unlisted⟩ := attached.returned_loses handling drops
          have kept : c ∉ deletes request := untold ∘ mem_deletes.mp
          obtain ⟨away, created, _⟩ := Serving.returned_sockets service.serving request
            (.dispatch ready i fd true) result
          refine ⟨c, ⟨created.symm ▸ live.1, ?_⟩, ?_,
            fun _ => ⟨unlisted, fun losing => losing.inside away⟩⟩
          · exact (deleteRequest_destroyed ..).trans ((if_neg kept).trans live.2)
          · simp only [deletedBy, handling, ListenPc.request?, Option.map_some, Option.getD_some,
              List.mem_append, keeping.undeleted live, kept, or_self, not_false_eq_true]

theorem keeping_start {flags : Nat} {calls : BindCalls} {server : ServerListener}
    (bound : ServerListener.construct.bind .TCP flags calls = (0, server)) :
    (start server).Keeping where
  counts _ := rfl
  attached _ := by
    have default_mask : (ServerListener.construct.setRequestMask ServerListener.defaultMask).bind
        .TCP flags calls = (0, server) := bound
    obtain ⟨_, rfl⟩ := ServerListener.bind_eq_zero bound
    have lost : (ServerListener.defaultMask &&& RequestType.connectionLost.bit != 0) = true := by
      decide
    exact ⟨Serving.consistent_start default_mask lost, rfl,
      fun c live => absurd live.1 (Nat.not_lt_zero c)⟩
  ended other := absurd rfl other

/-- When `listen()` has returned, every Connection has been deleted exactly once
if and only if no step of the run has lost one. -/
theorem deletedOnce_iff {flags : Nat} {calls : BindCalls} {server : ServerListener}
    (bound : ServerListener.construct.bind .TCP flags calls = (0, server))
    (actions : List Action) {final : Service}
    (ran : (machine Array.written).run (start server) actions = some final)
    (returned : final.phase = .returned) :
    (∀ c < final.sockets.created, final.deletions.count c = 1) ↔
      (machine Array.written).Steps LosesNone (start server) actions := by
  have outcome := (machine Array.written).kept_or_broken Keeping
      (fun service => ∃ c, service.Abandoned c)
    (fun _ _ _ keeping _ none_lost taken => keeping.step none_lost taken)
    (fun _ _ _ keeping _ lost taken => keeping.abandons lost taken)
    (fun _ _ _ ⟨c, abandoned⟩ _ taken => ⟨c, abandoned.step taken⟩)
    (keeping_start bound) (Machine.steps_true ..) ran
  rcases outcome with ⟨steps, keeping⟩ | ⟨violated, c, abandoned⟩
  · refine iff_of_true (fun c created => ?_) steps
    have gone : final.serving.destroyed c = true := by
      by_contra alive
      refine keeping.ended ?_ c ⟨created, Bool.eq_false_iff.mpr alive⟩
      rw [returned]
      exact nofun
    rw [keeping.counts, gone]
    rfl
  · refine iff_of_false (fun once => ?_) violated
    have undeleted := List.count_eq_zero_of_not_mem abandoned.undeleted
    rw [once c abandoned.live.1] at undeleted
    cases undeleted

/-- A client connects and its stream ends, and then the listener is shut down. -/
theorem deletedOnce_iff_run :
    ∃ final, (machine Array.written).run (start ServerListener.sample)
        [.serve (.listen .build), .serve (.listen (.selectReady [3])),
          .serve (.listen (.event (.accepted 5))), .serve (.returned 0), .serve (.listen .skip),
          .serve (.listen .endDispatch), .serve (.listen .check), .serve (.listen .build),
          .serve (.listen (.selectReady [5])), .serve (.listen .skip),
          .serve (.listen (.event (.reads [.block []]))), .serve (.returned 0),
          .serve (.listen .startShutdown), .serve (.listen .endDispatch), .serve (.listen .check),
          .shutdown, .finish] = some final ∧ final.sockets.created = 1 ∧
      ∀ c < final.sockets.created, final.deletions.count c = 1 := by
  obtain ⟨told, ran, phase, created⟩ : ∃ told, (machine Array.written).run
      (start ServerListener.sample)
      [.serve (.listen .build), .serve (.listen (.selectReady [3])),
        .serve (.listen (.event (.accepted 5))), .serve (.returned 0), .serve (.listen .skip),
        .serve (.listen .endDispatch), .serve (.listen .check), .serve (.listen .build),
        .serve (.listen (.selectReady [5])), .serve (.listen .skip),
        .serve (.listen (.event (.reads [.block []]))), .serve (.returned 0),
        .serve (.listen .startShutdown), .serve (.listen .endDispatch), .serve (.listen .check),
        .shutdown] = some told ∧ told.phase = .shuttingDown ∧ told.sockets.created = 1 :=
    ⟨_, rfl, rfl, rfl⟩
  have finished := (machine Array.written).run_concat ran (step_finish phase)
  refine ⟨_, finished, (shutdownEnd_created ..).trans created, (deletedOnce_iff
    (show ServerListener.construct.bind .TCP 0 ⟨3, 0, 0, 0⟩ = (0, ServerListener.sample) from rfl)
    _ finished rfl).mpr ?_⟩
  rw [Machine.steps_append _ ran]
  exact ⟨by decide, (Machine.steps_cons _ (step_finish phase)).mpr ⟨trivial, trivial⟩⟩

/-- The handler closes Connection 0 with `ServerListener::close`, and Connection
1 is still open when the listener is shut down: neither is ever deleted. -/
theorem not_deletedOnce_closed :
    ∃ final, (machine Array.written).run (start ServerListener.sample)
        [.serve (.listen .build), .serve (.listen (.selectReady [3])),
          .serve (.listen (.event (.accepted 5))), .listenerClose (some 0), .serve (.returned 0),
          .serve (.listen .endDispatch), .serve (.listen .check), .serve (.listen .build),
          .serve (.listen (.selectReady [3])), .serve (.listen (.event (.accepted 5))),
          .serve (.returned 0), .serve (.listen .startShutdown), .serve (.listen .skip),
          .serve (.listen .endDispatch), .serve (.listen .check), .shutdown, .finish] = some final ∧
      final.phase = .returned ∧ final.sockets.created = 2 ∧ final.deletions = [] ∧
      ¬ ∀ c < final.sockets.created, final.deletions.count c = 1 := by
  obtain ⟨told, ran, phase, created, deletions⟩ : ∃ told, (machine Array.written).run
      (start ServerListener.sample)
      [.serve (.listen .build), .serve (.listen (.selectReady [3])),
        .serve (.listen (.event (.accepted 5))), .listenerClose (some 0), .serve (.returned 0),
        .serve (.listen .endDispatch), .serve (.listen .check), .serve (.listen .build),
        .serve (.listen (.selectReady [3])), .serve (.listen (.event (.accepted 5))),
        .serve (.returned 0), .serve (.listen .startShutdown), .serve (.listen .skip),
        .serve (.listen .endDispatch), .serve (.listen .check), .shutdown] = some told ∧
      told.phase = .shuttingDown ∧ told.sockets.created = 2 ∧ told.deletions = [] :=
    ⟨_, rfl, rfl, rfl, rfl⟩
  have created := (shutdownEnd_created Array.written told.server told.mThreadLock).trans created
  refine ⟨_, (machine Array.written).run_concat ran (step_finish phase), rfl, created, deletions,
    fun once => ?_⟩
  have never := once 0 (lt_of_lt_of_eq Nat.two_pos created.symm)
  change told.deletions.count 0 = 1 at never
  rw [deletions] at never
  cases never

end Service

end MSrv
