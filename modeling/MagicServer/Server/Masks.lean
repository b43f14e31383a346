import MagicServer.Server.Close
import MagicServer.Server.Read
import MagicServer.Server.Serving

/-!
# What the request mask decides

The listener with the request handler as it is by default: each of its methods
returns 0, and the switchboard destroys the request. Two such listeners that
differ in their masks and get the same events do the same to their sockets,
except at the end of a stream, whose Connection is destroyed by the request for
it.
-/

namespace MSrv

/-- What an event does before the handler is called, whatever the mask: the
sockets, and whether a stream has ended. -/
def ServerListener.happens (server : ServerListener) (fd : Int) :
    EventInput → Option (Sockets × Bool)
  | .accepted clientsocket =>
      if fd = server.mSocket ∧ server.mProtocol = .TCP then
        if clientsocket < 0 then some (server.sockets, false)
        else if server.sockets.fds clientsocket = none then
          some (server.sockets.addClient clientsocket, false)
        else none
      else none
  | .reads results =>
      if fd = server.mSocket ∧ server.mProtocol = .TCP then none
      else
        (readLoop [] results).map fun (dynbuffer, readcount) =>
          (server.sockets, decide (dynbuffer = [] ∧ readcount = 0))

namespace ServerListener

variable {server : ServerListener} {fd : Int} {pDescriptorData : Option ConnectionId}
  {input : EventInput} {arrived : Option Request × ServerListener} {lost : Bool}

/-- A request that is made is counted. -/
theorem generate_snd (server : ServerListener) (type : RequestType) (socket : Int)
    (content : Request.Content) :
    ∃ requests, (server.generate type socket content).2 = { server with requests := requests } := by
  unfold generate
  split
  · exact ⟨_, rfl⟩
  · exact ⟨_, rfl⟩

/-- A request that is no loss when it is made is none in the hands of the handler. -/
theorem generate_ne_lost (server : ServerListener) (type : RequestType) (socket : Int)
    {content : Request.Content} (other : ∀ data, content ≠ .connectionLost data) :
    ∀ request ∈ (server.generate type socket content).1,
      ∀ data, request.content ≠ .connectionLost data := by
  intro request made data
  have fst := server.generate_fst type socket content
  rw [made, Option.map_some] at fst
  split_ifs at fst
  rw [Option.some_inj.mp fst]
  exact other data

/-- The mask of a listener decides which request it makes of an event, and nothing else. -/
theorem descriptorEvent_happens
    (event : server.descriptorEvent fd pDescriptorData input = some (arrived, lost)) :
    server.happens fd input = some (arrived.2.sockets, lost) ∧
      (∃ requests, arrived.2 =
        { server with sockets := arrived.2.sockets, requests := requests }) ∧
      if lost then
        arrived.1.map Request.content =
          if server.generates .connectionLost then some (.connectionLost pDescriptorData) else none
      else ∀ request ∈ arrived.1, ∀ data, request.content ≠ .connectionLost data := by
  cases arrival_of_event event with
  | refused client negative =>
      refine ⟨?_, ⟨server.requests, rfl⟩, by simp⟩
      rw [happens, if_pos client, if_pos negative]
  | @accepted clientsocket client nonneg free =>
      obtain ⟨requests, snd⟩ := generate_snd
        { server with sockets := server.sockets.addClient clientsocket }
        .newConnection clientsocket (.newConnection (some server.sockets.created))
      rw [snd]
      refine ⟨?_, ⟨requests, rfl⟩, generate_ne_lost _ _ _ (by simp)⟩
      rw [happens, if_pos client, if_neg (not_lt.mpr nonneg), if_pos free]
  | @streamData results dynbuffer readcount protocol other ended some_data =>
      obtain ⟨requests, snd⟩ :=
        server.generate_snd .streamData fd (.streamData pDescriptorData dynbuffer)
      rw [snd]
      refine ⟨?_, ⟨requests, rfl⟩, generate_ne_lost _ _ _ (by simp)⟩
      simp only [happens, other, false_and, if_false, ended, Option.map_some, some_data,
        decide_false]
  | @datagram results dynbuffer readcount protocol ended some_data =>
      obtain ⟨requests, snd⟩ := server.generate_snd .datagram fd (.datagram dynbuffer)
      rw [snd]
      refine ⟨?_, ⟨requests, rfl⟩, generate_ne_lost _ _ _ (by simp)⟩
      simp only [happens, protocol, reduceCtorEq, and_false, false_and, if_false, ended,
        Option.map_some, some_data, decide_false]
  | connectionLost client ended =>
      obtain ⟨requests, snd⟩ :=
        server.generate_snd .connectionLost fd (.connectionLost pDescriptorData)
      rw [snd]
      refine ⟨?_, ⟨requests, rfl⟩, server.generate_fst ..⟩
      simp only [happens, if_neg client, ended, Option.map_some, and_self, decide_true]
  | failed client ended unfinished =>
      refine ⟨?_, ⟨server.requests, rfl⟩, by simp⟩
      simp only [happens, if_neg client, ended, Option.map_some, unfinished, and_false,
        decide_false]

/-- A call that gathers nothing and ends with 0 has made a single read. -/
theorem ended_at_once {results : List ReadResult} (ended : readLoop [] results = some ([], 0)) :
    results = [.block []] := by
  have call := oneCall_of_readLoop ended
  obtain ⟨readcount, loop⟩ := call.readLoop
  rw [ended, Option.some_inj, Prod.mk.injEq] at loop
  rcases call.bytes_cases with some_bytes | first | failed
  · exact absurd loop.1.symm some_bytes
  · exact first
  · rw [failed] at ended
    cases ended

/-- An event accepts a client, or ends a stream, or leaves the sockets as they are. -/
theorem happens_cases {sockets : Sockets}
    (happened : server.happens fd input = some (sockets, lost)) :
    (lost = false ∧ (sockets = server.sockets ∨ ∃ clientsocket,
        server.sockets.fds clientsocket = none ∧
          sockets = server.sockets.addClient clientsocket)) ∨
      (lost = true ∧ sockets = server.sockets ∧ input = .reads [.block []] ∧
        ¬ (fd = server.mSocket ∧ server.mProtocol = .TCP)) := by
  cases input with
  | accepted clientsocket =>
      simp only [happens, Option.ite_none_right_eq_some] at happened
      obtain ⟨_, happened⟩ := happened
      split_ifs at happened with negative free
      · cases happened
        exact Or.inl ⟨rfl, Or.inl rfl⟩
      · cases happened
        exact Or.inl ⟨rfl, Or.inr ⟨clientsocket, free, rfl⟩⟩
  | reads results =>
      simp only [happens, Option.ite_none_left_eq_some, Option.map_eq_some_iff] at happened
      obtain ⟨client, ⟨dynbuffer, readcount⟩, ended, outcome⟩ := happened
      cases outcome
      by_cases empty : dynbuffer = [] ∧ readcount = 0
      · obtain ⟨rfl, rfl⟩ := empty
        exact Or.inr ⟨decide_eq_true ⟨rfl, rfl⟩, rfl, congrArg _ (ended_at_once ended), client⟩
      · exact Or.inl ⟨decide_eq_false empty, Or.inl rfl⟩

/-- A first read of 0 bytes is the end of the stream. -/
theorem happens_end {sockets : Sockets}
    (happened : server.happens fd (.reads [.block []]) = some (sockets, lost)) : lost = true := by
  simp only [happens, Option.ite_none_left_eq_some, Option.map_eq_some_iff] at happened
  obtain ⟨_, ⟨dynbuffer, readcount⟩, ended, outcome⟩ := happened
  cases ended
  cases outcome
  rfl

end ServerListener

namespace Listening

/-- The same thread of a listener that makes no requests and has made none. -/
def blank (listening : Listening) : Listening :=
  { listening with server := { listening.server with mRequestMask := 0, requests := 0 } }

/-- It passes nothing on when `select()` has timed out. -/
theorem blank_timeout {remove : Removal} {listening : Listening} {fdset : List Int}
    (here : listening.pc = .selecting fdset) :
    listening.blank.step remove .selectTimeout = some (listening.afterTimeout 0).blank := by
  have mask : listening.blank.server.generates .timeout = false := by
    simp only [ServerListener.generates, blank, Nat.zero_and, bne_self_eq_false]
  have silent : listening.blank.server.timeoutEvent = (none, listening.blank.server) := by
    rw [ServerListener.timeoutEvent, ServerListener.generate, mask]
    rfl
  have waiting : listening.blank.pc = .selecting fdset := here
  simp only [step, waiting, silent]
  rfl

/-- The steps that make no request are the same whatever the mask. -/
theorem step_blank {remove : Removal} {listening after : Listening} {action : Action}
    (other : ∀ input, action ≠ .event input) (untimed : action ≠ .selectTimeout)
    (inside : ∀ result, action ≠ .returned result) (outside : listening.pc.request? = none)
    (stepped : listening.step remove action = some after) :
    listening.blank.step remove action = some after.blank ∧
      after.server.sockets = listening.server.sockets ∧ after.pc.request? = none := by
  cases taken_of_step stepped with
  | event => exact absurd rfl (other _)
  | selectTimeout => exact absurd rfl untimed
  | returned result => exact absurd rfl (inside result)
  | startShutdown => exact ⟨rfl, rfl, outside⟩
  | build here | selectFailed here =>
      refine ⟨?_, rfl, rfl⟩
      simp only [step, blank, here, go]
  | selectReady here guard | endDispatch here guard =>
      refine ⟨?_, rfl, rfl⟩
      simp only [step, blank, here, if_pos guard, go]
  | skip here listed guard =>
      refine ⟨?_, rfl, rfl⟩
      simp only [step, blank, here, listed, Option.bind_eq_bind, Option.bind_some, if_neg guard, go]
  | check here =>
      by_cases errors : listening.errorcount > MSRV_MAX_SELECT_ERROR_COUNT
      · refine ⟨?_, ?_, ?_⟩ <;>
          simp only [step, blank, here, if_pos errors, go, shutDown, ↓reduceIte, ListenPc.request?]
      · cases status : listening.server.mShutdownStatus <;>
          (refine ⟨?_, ?_, ?_⟩ <;>
            simp only [step, blank, here, if_neg errors, go, status, Bool.false_eq_true, ↓reduceIte,
              ListenPc.request?])

end Listening

namespace Serving

/-- The default handler, when a request has been passed to it: it returns 0. -/
def handled (remove : Removal) (serving : Serving) : Option Serving :=
  match serving.listening.pc with
  | .handling _ _ => serving.step remove (.returned 0)
  | _ => some serving

/-- The listener thread with the default handler. -/
def byDefault (remove : Removal) : Machine Serving Listening.Action where
  step serving action := (serving.step remove (.listen action)).bind (handled remove)

/-- The same listener with another request mask. -/
def setRequestMask (serving : Serving) (mask : Nat) : Serving :=
  { serving with
    listening :=
      { serving.listening with server := serving.listening.server.setRequestMask mask } }

/-- What is left of a listener when its mask and its requests are forgotten. -/
def core (serving : Serving) : Serving :=
  { serving with listening := serving.listening.blank, trace := [] }

/-- An event has taken place at an entry: a stream that has ended loses its
Connection, when there is a request for it, and then its entry. -/
def settle (remove : Removal) (serving : Serving) (ready : List Int) (i : Nat) (entry : Descriptor)
    (sockets : Sockets) (lost : Bool) : Serving :=
  let before := serving.withSockets sockets
  let deleted :=
    if lost ∧ serving.listening.server.generates .connectionLost then
      before.deleteRequest remove ⟨0, entry.mFd, .connectionLost entry.mpData⟩
    else before
  { deleted with listening := deleted.listening.afterEvent remove ready i entry.mFd lost }

variable {remove : Removal} {serving next : Serving} {action : Listening.Action}

/-- Of a request that is destroyed only the content counts. -/
theorem deleteRequest_congr {request other : Request} (content : request.content = other.content) :
    serving.deleteRequest remove request = serving.deleteRequest remove other := by
  unfold deleteRequest
  rw [content]

theorem handled_of_handling {request : Request} {resume : Resume}
    (here : serving.listening.pc = .handling request resume)
    (returned : handled remove serving = some next) :
    next =
      { serving.deleteRequest remove request with
        listening :=
          (serving.deleteRequest remove request).listening.afterHandler remove 0 resume } := by
  unfold handled at returned
  rw [here] at returned
  cases step_cases (show (machine remove).step serving (.returned 0) = some next from returned) with
  | returned _ there =>
      cases here.symm.trans there
      rfl

theorem handled_of_outside (outside : serving.listening.pc.request? = none)
    (returned : handled remove serving = some next) : next = serving := by
  unfold handled at returned
  split at returned
  · next here =>
      rw [here] at outside
      cases outside
  · exact (Option.some_inj.mp returned).symm

/-- What becomes of an event with the default handler. -/
theorem byDefault_event {input : EventInput}
    (taken : (byDefault remove).step serving (.event input) = some next) :
    ∃ ready i entry sockets lost, serving.listening.pc = .dispatching ready i ∧
      serving.sockets.mDescriptors[i]? = some entry ∧ entry.mFd ∈ ready ∧
      serving.listening.server.happens entry.mFd input = some (sockets, lost) ∧
      next.core = (serving.settle remove ready i entry sockets lost).core := by
  obtain ⟨middle, stepped, handled⟩ := Option.bind_eq_some_iff.mp taken
  obtain ⟨after, listened, rfl⟩ := Option.map_eq_some_iff.mp stepped
  cases Listening.taken_of_step listened with
    | @event ready i entry _ arrived lost here listed set event => ?_
  obtain ⟨happens, ⟨requests, server⟩, made⟩ := ServerListener.descriptorEvent_happens event
  refine ⟨ready, i, entry, arrived.2.sockets, lost, here, listed, set, happens, ?_⟩
  obtain ⟨request, after⟩ := arrived
  simp only at server made handled ⊢
  generalize after.sockets = sockets at server
  subst server
  cases request with
  | none =>
      have unmade :
          ¬ (lost = true ∧ serving.listening.server.generates .connectionLost = true) := by
        rintro ⟨rfl, generates⟩
        rw [generates] at made
        cases made
      cases handled
      rw [settle, if_neg unmade]
      cases lost <;> rfl
  | some request =>
      rw [handled_of_handling rfl handled]
      cases lost with
      | true =>
          simp only [↓reduceIte, Option.map_some] at made
          split_ifs at made with generates
          have content : request.content =
              (⟨0, entry.mFd, .connectionLost entry.mpData⟩ : Request).content :=
            Option.some_inj.mp made
          rw [settle, if_pos ⟨rfl, generates⟩, deleteRequest_congr content]
          cases entry.mpData <;> rfl
      | false =>
          rw [settle, if_neg (by simp), deleteRequest_of_ne_lost (made request rfl)]
          rfl

/-- What any other step does, it does whatever the mask and the memory are. -/
theorem byDefault_other (remove' : Removal) (other : ∀ input, action ≠ .event input)
    (outside : serving.listening.pc.request? = none)
    (taken : (byDefault remove).step serving action = some next) :
    serving.core.listening.step remove' action = some next.core.listening ∧
      next.listening.pc.request? = none ∧ next.sockets = serving.sockets ∧
        next.destroyed = serving.destroyed := by
  obtain ⟨middle, stepped, handled⟩ := Option.bind_eq_some_iff.mp taken
  by_cases returned : ∃ result, action = .returned result
  · obtain ⟨result, rfl⟩ := returned
    cases stepped
  rw [Listening.step_removal remove' remove other fun result same => returned ⟨result, same⟩]
  have unfolded : (serving.listening.step remove action).map (fun next =>
      { serving with
        listening := next
        trace := serving.trace ++ passedOn serving.listening next }) = some middle := by
    cases action with
    | returned result => exact absurd ⟨result, rfl⟩ returned
    | _ => exact stepped
  obtain ⟨after, listened, rfl⟩ := Option.map_eq_some_iff.mp unfolded
  by_cases timeout : action = .selectTimeout
  · subst timeout
    cases Listening.taken_of_step listened with | selectTimeout here => ?_
    have blank : serving.core.listening.step remove .selectTimeout =
        some (serving.listening.afterTimeout 0).blank := Listening.blank_timeout here
    rw [blank]
    unfold ServerListener.timeoutEvent ServerListener.generate at handled
    split_ifs at handled
    · rw [handled_of_handling rfl handled]
      exact ⟨rfl, rfl, rfl, rfl⟩
    · cases handled
      exact ⟨rfl, rfl, rfl, rfl⟩
  · obtain ⟨blank, sockets, away⟩ := Listening.step_blank other timeout
      (fun result same => returned ⟨result, same⟩) outside listened
    have done : next = _ := (handled_of_outside away handled)
    subst done
    exact ⟨blank, away, sockets, rfl⟩

/-! ## What stands in the memory -/

/-- The entry of a stream that has ended is at a position whose removal from the array
leaves all other entries. -/
def KeepsEntries (serving : Serving) : Listening.Action → Prop
  | .event (.reads [.block []]) => ∀ entry ∈ serving.listening.entry?,
      serving.sockets.KeepsOthers entry.mFd
  | _ => True

instance (serving : Serving) : DecidablePred serving.KeepsEntries := fun action => by
  unfold KeepsEntries
  split <;> infer_instance

variable {memory : List Descriptor → Nat → Nat → Descriptor}

/-- The end of an entry's turn reads nothing that has not been written. -/
theorem afterEvent_inMemory {listening : Listening} {fd : Int} {lost : Bool}
    (keeps : lost = true → listening.server.sockets.KeepsOthers fd) (ready : List Int) (i : Nat) :
    listening.afterEvent (.inMemory memory) ready i fd lost =
      listening.afterEvent Array.written ready i fd lost := by
  cases lost with
  | false => rfl
  | true =>
      unfold Listening.afterEvent ServerListener.descriptorEventEnd
      rw [Closers.removeDescriptor_inMemory memory (keeps rfl)]

/-- Neither does a `Connection::close()`. -/
theorem close_inMemory {sockets : Sockets} {c : ConnectionId}
    (keeps : sockets.socket c ≠ 0 → sockets.KeepsOthers (sockets.socket c)) :
    sockets.close (.inMemory memory) c = sockets.close Array.written c := by
  unfold Sockets.close
  split_ifs with closed
  · rfl
  · rw [Closers.removeDescriptor_inMemory memory (keeps closed)]

/-- The end of a stream whose entry goes alone is the same whatever stands in the memory. -/
theorem settle_inMemory (sound : serving.sockets.Sound) {ready : List Int} {i : Nat}
    {entry : Descriptor} {sockets : Sockets} {lost : Bool}
    (listed : entry ∈ serving.sockets.mDescriptors)
    (keeps : lost = true → serving.sockets.KeepsOthers entry.mFd)
    (same : lost = true → sockets = serving.sockets) :
    serving.settle (.inMemory memory) ready i entry sockets lost =
      serving.settle Array.written ready i entry sockets lost := by
  cases lost with
  | false => rfl
  | true =>
      have keeps := keeps rfl
      have alone : (⟨serving.listening.afterEvent (.inMemory memory) ready i entry.mFd true,
          serving.destroyed, serving.trace⟩ : Serving) =
          ⟨serving.listening.afterEvent Array.written ready i entry.mFd true,
            serving.destroyed, serving.trace⟩ := by
        rw [afterEvent_inMemory fun _ => keeps]
      rw [same rfl]
      unfold settle
      split_ifs with told
      · cases data : entry.mpData with
        | none => exact alone
        | some c =>
            -- The socket of the Connection is that of the entry, or has been closed.
            have number : serving.sockets.socket c ≠ 0 →
                serving.sockets.socket c = entry.mFd := fun opened =>
              ((sound.socket c (sound.number listed data).1).resolve_right opened).trans
                (sound.number listed data).2.symm
            have closes : serving.sockets.close (.inMemory memory) c =
                serving.sockets.close Array.written c :=
              close_inMemory fun opened => (number opened).symm ▸ keeps
            have gone : (serving.sockets.close Array.written c).2.KeepsOthers entry.mFd := by
              by_cases opened : serving.sockets.socket c = 0
              · rwa [Sockets.close_of_closed _ opened]
              · rw [← number opened]
                exact Closers.keepsOthers_close sound opened
            simp only [deleteRequest, withSockets, Serving.sockets] at closes gone ⊢
            rw [closes, afterEvent_inMemory fun _ => gone]
      · exact alone

/-! ## The sockets of a run -/

/-- What one step of the listener thread does to the sockets, with the default handler. -/
inductive Change (serving next : Serving) : Prop
  | none : next.sockets = serving.sockets → next.destroyed = serving.destroyed →
      Change serving next
  | accepted {clientsocket : Int} : serving.sockets.fds clientsocket = Option.none →
      next.sockets = serving.sockets.addClient clientsocket →
      next.destroyed = serving.destroyed → Change serving next
  /-- A stream has ended, without a request for it. -/
  | ended {entry : Descriptor} : entry ∈ serving.sockets.mDescriptors →
      next.sockets = (serving.sockets.removeDescriptor Array.written entry.mFd).2 →
      next.destroyed = serving.destroyed → Change serving next
  /-- A stream has ended, and the request for it has been destroyed. -/
  | lost {entry : Descriptor} {c : ConnectionId} : entry ∈ serving.sockets.mDescriptors →
      entry.mpData = some c →
      next.sockets =
        ((serving.sockets.close Array.written c).2.removeDescriptor Array.written entry.mFd).2 →
      next.destroyed = Function.update serving.destroyed c true → Change serving next

/-- What the default handler keeps of a TCP listener. -/
structure Tidy (serving : Serving) : Prop where
  outside : serving.listening.pc.request? = none
  protocol : serving.listening.server.mProtocol = .TCP
  sound : serving.sockets.Sound
  nulls : ∀ entry ∈ serving.sockets.mDescriptors, entry.mpData = none →
    entry.mFd = serving.listening.server.mSocket
  live : ∀ entry ∈ serving.sockets.mDescriptors, ∀ c, entry.mpData = some c →
    serving.destroyed c = false
  fresh : ∀ c, serving.sockets.created ≤ c → serving.destroyed c = false

/-- A Connection that exists without an entry, so that no event will be about it. -/
structure Leaked (serving : Serving) (c : ConnectionId) : Prop where
  live : serving.Live c
  unlisted : serving.sockets.Unlisted c

/-- No step changes the server socket, the protocol or the mask. -/
theorem byDefault_config (taken : (byDefault remove).step serving action = some next) :
    next.listening.server.config = serving.listening.server.config := by
  obtain ⟨middle, stepped, returned⟩ := Option.bind_eq_some_iff.mp taken
  have first : middle.listening.server.config = serving.listening.server.config := by
    cases step_cases (show (machine remove).step serving (.listen action) = some middle from
      stepped) with
    | listen step => exact step.config
  rw [← first]
  cases here : middle.listening.pc with
  | handling request resume =>
      have deleted : (middle.deleteRequest remove request).listening.server.config =
          middle.listening.server.config := by
        unfold deleteRequest
        split <;> rfl
      rw [handled_of_handling here returned, ← deleted]
      exact Listening.afterHandler_config ..
  | _ => rw [handled_of_outside (congrArg ListenPc.request? here) returned]

/-- Listeners with the same core have the same sockets and have destroyed the same Connections. -/
theorem of_core {other : Serving} (same : serving.core = other.core) :
    serving.listening.pc = other.listening.pc ∧ serving.sockets = other.sockets ∧
      serving.destroyed = other.destroyed :=
  ⟨congrArg (fun core => core.listening.pc) same, congrArg (fun core => core.sockets) same,
    congrArg (fun core => core.destroyed) same⟩

/-- What becomes of an event is the same whatever stands in the memory, when no
removal takes other entries along. -/
theorem Tidy.event (tidy : serving.Tidy) {input : EventInput}
    (keeps : serving.KeepsEntries (.event input))
    (taken : (byDefault (.inMemory memory)).step serving (.event input) = some next) :
    ∃ ready i entry sockets lost, serving.listening.pc = .dispatching ready i ∧
      serving.sockets.mDescriptors[i]? = some entry ∧
      serving.listening.server.happens entry.mFd input = some (sockets, lost) ∧
      next.core = (serving.settle Array.written ready i entry sockets lost).core := by
  obtain ⟨ready, i, entry, sockets, lost, here, listed, set, happened, core⟩ :=
    byDefault_event taken
  refine ⟨ready, i, entry, sockets, lost, here, listed, happened, ?_⟩
  have found : serving.listening.entry? = some entry :=
    Listening.entry?_eq_some.mpr ⟨ready, i, here, listed, set⟩
  have ends : lost = true → input = .reads [.block []] ∧ sockets = serving.sockets := by
    rintro rfl
    rcases ServerListener.happens_cases happened with ⟨impossible, _⟩ | ⟨_, same, ended, _⟩
    · cases impossible
    · exact ⟨ended, same⟩
  rw [core, settle_inMemory tidy.sound (List.mem_of_getElem? listed) (fun told => ?_)
    fun told => (ends told).2]
  obtain ⟨rfl, _⟩ := ends told
  exact keeps entry found

/-- A step of a tidy listener. -/
theorem Tidy.change (tidy : serving.Tidy) (keeps : serving.KeepsEntries action)
    (taken : (byDefault (.inMemory memory)).step serving action = some next) :
    Change serving next ∧ next.listening.pc.request? = none := by
  by_cases event : ∃ input, action = .event input
  · obtain ⟨input, rfl⟩ := event
    obtain ⟨ready, i, entry, sockets, lost, here, listed, happened, core⟩ :=
      tidy.event keeps taken
    obtain ⟨pc, sockets', destroyed⟩ := of_core core
    have member := List.mem_of_getElem? listed
    rcases ServerListener.happens_cases happened with
      ⟨rfl, rfl | ⟨clientsocket, free, rfl⟩⟩ | ⟨rfl, rfl, _, client⟩
    · exact ⟨.none sockets' destroyed, congrArg ListenPc.request? pc⟩
    · exact ⟨.accepted free sockets' destroyed, congrArg ListenPc.request? pc⟩
    · cases generates : serving.listening.server.generates .connectionLost with
      | false =>
          have unmade : ¬ (true = true ∧
              serving.listening.server.generates .connectionLost = true) := by
            rw [generates]
            exact nofun
          rw [settle, if_neg unmade] at sockets' destroyed pc
          exact ⟨.ended member sockets' destroyed, congrArg ListenPc.request? pc⟩
      | true =>
          rw [settle, if_pos ⟨rfl, generates⟩] at sockets' destroyed pc
          cases data : entry.mpData with
          | none => exact absurd ⟨tidy.nulls entry member data, tidy.protocol⟩ client
          | some c =>
              rw [data] at sockets' destroyed pc
              exact ⟨.lost member data sockets' destroyed, congrArg ListenPc.request? pc⟩
  · obtain ⟨_, away, sockets, destroyed⟩ :=
      byDefault_other Array.written (fun input same => event ⟨input, same⟩) tidy.outside taken
    exact ⟨.none sockets destroyed, away⟩

/-- A Connection that is destroyed has no entry left. -/
theorem Tidy.unlisted_of_lost (tidy : serving.Tidy) {entry : Descriptor} {c : ConnectionId}
    (listed : entry ∈ serving.sockets.mDescriptors) (data : entry.mpData = some c)
    {sockets : Sockets} (sound : sockets.Sound)
    (fewer : sockets.mDescriptors.Sublist serving.sockets.mDescriptors) :
    (sockets.removeDescriptor Array.written entry.mFd).2.Unlisted c := by
  intro other left owner
  have different := Closers.ne_of_mem_removeDescriptor sound left
  have member := fewer.subset ((Closers.removeDescriptor_sublist _ _).subset left)
  obtain ⟨_, number⟩ := tidy.sound.number member owner
  exact different (number.trans (tidy.sound.number listed data).2.symm)

/-- A step that adds no entry and destroys no Connection that keeps one. -/
theorem Tidy.fewer (tidy : serving.Tidy) (away : next.listening.pc.request? = none)
    (config : next.listening.server.config = serving.listening.server.config)
    (sound : next.sockets.Sound)
    (left : ∀ entry ∈ next.sockets.mDescriptors, entry ∈ serving.sockets.mDescriptors)
    (created : next.sockets.created = serving.sockets.created)
    (destroyed : ∀ c, next.destroyed c = serving.destroyed c ∨
      (c < serving.sockets.created ∧ next.sockets.Unlisted c)) : next.Tidy := by
  simp only [ServerListener.config, Prod.mk.injEq] at config
  obtain ⟨mSocket, protocol, _⟩ := config
  refine ⟨away, protocol.trans tidy.protocol, sound, fun entry member => ?_,
    fun entry member c data => ?_, fun c uncreated => ?_⟩
  · rw [mSocket]
    exact tidy.nulls entry (left entry member)
  · rcases destroyed c with same | ⟨_, unlisted⟩
    · exact same.trans (tidy.live entry (left entry member) c data)
    · exact absurd data (unlisted entry member)
  · rw [created] at uncreated
    rcases destroyed c with same | ⟨earlier, _⟩
    · exact same.trans (tidy.fresh c uncreated)
    · exact absurd earlier uncreated.not_gt

/-- Every step keeps a TCP listener tidy. -/
theorem Tidy.step (tidy : serving.Tidy) (keeps : serving.KeepsEntries action)
    (taken : (byDefault (.inMemory memory)).step serving action = some next) : next.Tidy := by
  have config := byDefault_config taken
  obtain ⟨change, away⟩ := tidy.change keeps taken
  cases change with
  | none sockets destroyed =>
      refine tidy.fewer away config ?_ ?_ ?_ fun c => Or.inl (congrFun destroyed c)
      all_goals rw [sockets]
      · exact tidy.sound
      · exact fun entry member => member
  | ended listed sockets destroyed =>
      refine tidy.fewer away config ?_ ?_ ?_ fun c => Or.inl (congrFun destroyed c)
      all_goals rw [sockets]
      · exact Closers.sound_removeDescriptor tidy.sound _
      · exact fun entry member => (Closers.removeDescriptor_sublist _ _).subset member
      · exact Sockets.removeDescriptor_created
  | @lost entry c listed data sockets destroyed =>
      have closed := Closers.sound_close tidy.sound c
      have fewer := Closers.close_sublist serving.sockets c
      refine tidy.fewer away config ?_ ?_ ?_ fun c' => ?_
      · rw [sockets]
        exact Closers.sound_removeDescriptor closed _
      · rw [sockets]
        exact fun other member =>
          fewer.subset ((Closers.removeDescriptor_sublist _ _).subset member)
      · rw [sockets, Sockets.removeDescriptor_created]
        exact (Sockets.close_numbers ..).1
      · by_cases same : c' = c
        · rw [same, sockets]
          exact Or.inr ⟨(tidy.sound.number listed data).1,
            tidy.unlisted_of_lost listed data closed fewer⟩
        · rw [destroyed]
          exact Or.inl (Function.update_of_ne same ..)
  | accepted free sockets destroyed =>
      simp only [ServerListener.config, Prod.mk.injEq] at config
      obtain ⟨mSocket, protocol, _⟩ := config
      refine ⟨away, protocol.trans tidy.protocol, ?_, fun entry member data => ?_,
        fun entry member c data => ?_, fun c uncreated => ?_⟩
      · rw [sockets]
        exact tidy.sound.addClient free
      · rw [mSocket]
        rw [sockets] at member
        rcases Sockets.mem_addClient.mp member with earlier | rfl
        · exact tidy.nulls entry earlier data
        · cases data
      · rw [destroyed]
        rw [sockets] at member
        rcases Sockets.mem_addClient.mp member with earlier | rfl
        · exact tidy.live entry earlier c data
        · cases data
          exact tidy.fresh _ le_rfl
      · rw [destroyed]
        rw [sockets] at uncreated
        exact tidy.fresh c ((Nat.le_succ _).trans uncreated)

/-- A Connection that has been destroyed stays so. -/
theorem Tidy.gone (tidy : serving.Tidy) {c : ConnectionId} (gone : serving.destroyed c = true)
    (keeps : serving.KeepsEntries action)
    (taken : (byDefault (.inMemory memory)).step serving action = some next) :
    next.destroyed c = true := by
  obtain ⟨change, _⟩ := tidy.change keeps taken
  cases change with
  | none _ destroyed | accepted _ _ destroyed | ended _ _ destroyed => rwa [destroyed]
  | lost _ _ _ destroyed =>
      rw [destroyed, Function.update_apply]
      split_ifs
      · rfl
      · exact gone

/-- A leaked Connection stays leaked. -/
theorem Tidy.leaked (tidy : serving.Tidy) {c : ConnectionId} (leaked : serving.Leaked c)
    (keeps : serving.KeepsEntries action)
    (taken : (byDefault (.inMemory memory)).step serving action = some next) : next.Leaked c := by
  obtain ⟨⟨created, alive⟩, unlisted⟩ := leaked
  obtain ⟨change, _⟩ := tidy.change keeps taken
  cases change with
  | none sockets destroyed =>
      refine ⟨⟨?_, ?_⟩, ?_⟩
      · rwa [sockets]
      · rwa [destroyed]
      · rwa [sockets]
  | accepted _ sockets destroyed =>
      refine ⟨⟨?_, ?_⟩, fun entry member => ?_⟩
      · rw [sockets]
        exact created.trans (Nat.lt_succ_self _)
      · rwa [destroyed]
      · rw [sockets] at member
        rcases Sockets.mem_addClient.mp member with earlier | rfl
        · exact unlisted entry earlier
        · exact fun same => created.ne' (Option.some_inj.mp same)
  | ended _ sockets destroyed =>
      refine ⟨⟨?_, ?_⟩, fun entry member => ?_⟩
      · rwa [sockets, Sockets.removeDescriptor_created]
      · rwa [destroyed]
      · rw [sockets] at member
        exact unlisted entry ((Closers.removeDescriptor_sublist _ _).subset member)
  | @lost entry other listed data sockets destroyed =>
      have apart : c ≠ other := by
        rintro rfl
        exact unlisted entry listed data
      refine ⟨⟨?_, ?_⟩, fun entry member => ?_⟩
      · rwa [sockets, Sockets.removeDescriptor_created, (Sockets.close_numbers ..).1]
      · rwa [destroyed, Function.update_of_ne apart]
      · rw [sockets] at member
        exact unlisted entry ((Closers.close_sublist ..).subset
          ((Closers.removeDescriptor_sublist _ _).subset member))

/-- At the end of a stream its Connection is destroyed, or leaked when the mask
allows no request for it. -/
theorem Tidy.ends (tidy : serving.Tidy)
    (keeps : serving.KeepsEntries (.event (.reads [.block []])))
    (taken : (byDefault (.inMemory memory)).step serving (.event (.reads [.block []])) =
      some next) :
    ∃ ready i entry c, serving.listening.pc = .dispatching ready i ∧
      serving.sockets.mDescriptors[i]? = some entry ∧ entry.mpData = some c ∧
      if serving.listening.server.generates .connectionLost then next.destroyed c = true
      else next.Leaked c := by
  obtain ⟨ready, i, entry, sockets, lost, here, listed, happened, core⟩ := tidy.event keeps taken
  obtain ⟨_, sockets', destroyed⟩ := of_core core
  have member := List.mem_of_getElem? listed
  obtain rfl := ServerListener.happens_end happened
  rcases ServerListener.happens_cases happened with ⟨impossible, _⟩ | ⟨_, rfl, _, client⟩
  · cases impossible
  cases data : entry.mpData with
  | none => exact absurd ⟨tidy.nulls entry member data, tidy.protocol⟩ client
  | some c =>
      refine ⟨ready, i, entry, c, here, listed, data, ?_⟩
      split_ifs with generates
      · rw [destroyed, settle, if_pos ⟨rfl, generates⟩, data]
        exact Function.update_self ..
      · rw [settle, if_neg fun both => generates both.2] at sockets' destroyed
        have removed : next.sockets =
            (serving.sockets.removeDescriptor Array.written entry.mFd).2 := sockets'
        refine ⟨⟨?_, ?_⟩, ?_⟩
        · rw [removed, Sockets.removeDescriptor_created]
          exact (tidy.sound.number member data).1
        · exact (congrFun destroyed c).trans (tidy.live entry member c data)
        · rw [removed]
          exact tidy.unlisted_of_lost member data tidy.sound (List.Sublist.refl _)

/-! ## Two masks -/

/-- The same table, the same open sockets of clients and the same Connections. -/
structure SameSockets (first second : Serving) : Prop where
  mDescriptors : first.sockets.mDescriptors = second.sockets.mDescriptors
  clients : ∀ fd, (∃ c, first.sockets.fds fd = some (.client c)) ↔
    ∃ c, second.sockets.fds fd = some (.client c)
  live : ∀ c, first.Live c ↔ second.Live c

variable {memory' : List Descriptor → Nat → Nat → Descriptor}

/-- Two tidy listeners that differ in what they say to their handlers only. -/
structure Beside (lost lost' : Bool) (both : Serving × Serving) : Prop where
  first : both.1.Tidy
  second : both.2.Tidy
  core : both.1.core = both.2.core
  generates : both.1.listening.server.generates .connectionLost = lost
  generates' : both.2.listening.server.generates .connectionLost = lost'

/-- A Connection that one of them has destroyed and the other has leaked. -/
structure Apart (both : Serving × Serving) : Prop where
  first : both.1.Tidy
  second : both.2.Tidy
  leaked : ∃ c, (both.1.destroyed c = true ∧ both.2.Leaked c) ∨
    (both.2.destroyed c = true ∧ both.1.Leaked c)

theorem sameSockets_of_core {first second : Serving} (same : first.core = second.core) :
    SameSockets first second := by
  obtain ⟨_, sockets, destroyed⟩ := of_core same
  refine ⟨?_, fun fd => ?_, fun c => ?_⟩
  · rw [sockets]
  · rw [sockets]
  · rw [Live, Live, sockets, destroyed]

theorem Apart.differ {both : Serving × Serving} (apart : Apart both) :
    ¬ SameSockets both.1 both.2 := by
  intro same
  obtain ⟨c, ⟨gone, leaked⟩ | ⟨gone, leaked⟩⟩ := apart.leaked
  · have alive := ((same.live c).mpr leaked.live).2
    rw [gone] at alive
    cases alive
  · have alive := ((same.live c).mp leaked.live).2
    rw [gone] at alive
    cases alive

theorem Apart.step {both after : Serving × Serving} (apart : Apart both)
    (keeps : both.1.KeepsEntries action ∧ both.2.KeepsEntries action)
    (taken : ((byDefault (.inMemory memory)).pair (byDefault (.inMemory memory'))).step both
      action = some after) : Apart after := by
  obtain ⟨taken, taken'⟩ := Machine.pair_step_eq_some.mp taken
  refine ⟨apart.first.step keeps.1 taken, apart.second.step keeps.2 taken', ?_⟩
  obtain ⟨c, ⟨gone, leaked⟩ | ⟨gone, leaked⟩⟩ := apart.leaked
  · exact ⟨c, Or.inl ⟨apart.first.gone gone keeps.1 taken,
      apart.second.leaked leaked keeps.2 taken'⟩⟩
  · exact ⟨c, Or.inr ⟨apart.second.gone gone keeps.2 taken',
      apart.first.leaked leaked keeps.1 taken⟩⟩

/-- What an event does is settled by the core, and by whether a loss is told. -/
theorem settle_core {other : Serving} {ready : List Int} {i : Nat} {entry : Descriptor}
    {sockets : Sockets} {lost : Bool} (same : serving.core = other.core)
    (agree : lost = true → serving.listening.server.generates .connectionLost =
      other.listening.server.generates .connectionLost) :
    (serving.settle remove ready i entry sockets lost).core =
      (other.settle remove ready i entry sockets lost).core := by
  obtain ⟨⟨⟨sockets', mSocket, protocol, mask, status, requests⟩, pc, errors⟩, destroyed, trace⟩ :=
    serving
  obtain ⟨⟨⟨_, _, _, mask', _, requests'⟩, _, _⟩, _, trace'⟩ := other
  simp only [core, Listening.blank, Serving.mk.injEq, Listening.mk.injEq,
    ServerListener.mk.injEq] at same
  obtain ⟨⟨⟨rfl, rfl, rfl, _, rfl, _⟩, rfl, rfl⟩, rfl, _⟩ := same
  cases lost with
  | false => rfl
  | true =>
      unfold settle
      rw [agree rfl]
      split_ifs
      · cases entry.mpData <;> rfl
      · rfl

/-- As long as no stream ends of which only one of them tells, the two do the same. -/
theorem Beside.step {lost lost' : Bool} {both after : Serving × Serving}
    (beside : Beside lost lost' both)
    (keeps : both.1.KeepsEntries action ∧ both.2.KeepsEntries action)
    (agree : lost = lost' ∨ action ≠ .event (.reads [.block []]))
    (taken : ((byDefault (.inMemory memory)).pair (byDefault (.inMemory memory'))).step both
      action = some after) : Beside lost lost' after := by
  obtain ⟨first, second⟩ := both
  obtain ⟨first', second'⟩ := after
  obtain ⟨taken, taken'⟩ := Machine.pair_step_eq_some.mp taken
  refine ⟨beside.first.step keeps.1 taken, beside.second.step keeps.2 taken', ?_,
    (ServerListener.generates_of_config (byDefault_config taken) _).trans beside.generates,
    (ServerListener.generates_of_config (byDefault_config taken') _).trans beside.generates'⟩
  obtain ⟨pc, sockets, destroyed⟩ := of_core beside.core
  by_cases event : ∃ input, action = .event input
  · obtain ⟨input, rfl⟩ := event
    obtain ⟨ready, i, entry, after, ended, here, listed, happened, core⟩ :=
      beside.first.event keeps.1 taken
    obtain ⟨ready', i', entry', after', ended', here', listed', happened', core'⟩ :=
      beside.second.event keeps.2 taken'
    cases here.symm.trans (pc.trans here')
    rw [sockets] at listed
    cases listed.symm.trans listed'
    have event : first.listening.server.happens entry.mFd input =
        second.listening.server.happens entry.mFd input :=
      congrArg (fun core => core.listening.server.happens entry.mFd input) beside.core
    rw [event] at happened
    cases happened.symm.trans happened'
    rw [core, core']
    refine settle_core beside.core fun ended => ?_
    rcases ServerListener.happens_cases happened with ⟨quiet, _⟩ | ⟨_, _, rfl, _⟩
    · rw [ended] at quiet
      cases quiet
    · rw [beside.generates, beside.generates']
      exact agree.resolve_right (absurd rfl)
  · have other : ∀ input, action ≠ .event input := fun input same => event ⟨input, same⟩
    obtain ⟨stepped, _, _, gone⟩ := byDefault_other Array.written other beside.first.outside taken
    obtain ⟨stepped', _, _, gone'⟩ :=
      byDefault_other Array.written other beside.second.outside taken'
    rw [beside.core] at stepped
    have listening : first'.core.listening = second'.core.listening :=
      Option.some_inj.mp (stepped.symm.trans stepped')
    have destroyed' : first'.core.destroyed = second'.core.destroyed :=
      gone.trans (destroyed.trans gone'.symm)
    calc first'.core = ⟨first'.core.listening, first'.core.destroyed, []⟩ := rfl
      _ = ⟨second'.core.listening, second'.core.destroyed, []⟩ := by rw [listening, destroyed']
      _ = second'.core := rfl

/-- A stream ends of which only one of them tells. -/
theorem Beside.apart {lost lost' : Bool} {both after : Serving × Serving}
    (beside : Beside lost lost' both)
    (keeps : both.1.KeepsEntries action ∧ both.2.KeepsEntries action)
    (differ : ¬ (lost = lost' ∨ action ≠ .event (.reads [.block []])))
    (taken : ((byDefault (.inMemory memory)).pair (byDefault (.inMemory memory'))).step both
      action = some after) : Apart after := by
  obtain ⟨first, second⟩ := both
  obtain ⟨first', second'⟩ := after
  obtain ⟨taken, taken'⟩ := Machine.pair_step_eq_some.mp taken
  rw [not_or, not_not] at differ
  obtain ⟨masks, rfl⟩ := differ
  refine ⟨beside.first.step keeps.1 taken, beside.second.step keeps.2 taken', ?_⟩
  obtain ⟨pc, sockets, _⟩ := of_core beside.core
  obtain ⟨ready, i, entry, c, here, listed, data, outcome⟩ := beside.first.ends keeps.1 taken
  obtain ⟨ready', i', entry', c', here', listed', data', outcome'⟩ :=
    beside.second.ends keeps.2 taken'
  cases here.symm.trans (pc.trans here')
  rw [sockets] at listed
  cases listed.symm.trans listed'
  cases data.symm.trans data'
  rw [beside.generates] at outcome
  rw [beside.generates'] at outcome'
  cases lost with
  | true =>
      obtain rfl : lost' = false := Bool.eq_false_iff.mpr fun same => masks same.symm
      exact ⟨c, Or.inl ⟨outcome, outcome'⟩⟩
  | false =>
      obtain rfl : lost' = true := Bool.eq_true_of_not_eq_false fun same => masks same.symm
      exact ⟨c, Or.inr ⟨outcome', outcome⟩⟩

/-- A bound listener is tidy when `listen()` is called. -/
theorem tidy_start {mask flags : Nat} {calls : BindCalls} {server : ServerListener}
    (bound : (ServerListener.construct.setRequestMask mask).bind .TCP flags calls = (0, server)) :
    (start server).Tidy := by
  obtain ⟨_, rfl⟩ := ServerListener.bind_eq_zero bound
  refine ⟨rfl, rfl, Sockets.sound_addServer _, fun entry member _ => ?_,
    fun entry member c data => ?_, fun _ _ => rfl⟩
  · rw [List.mem_singleton.mp member]
    rfl
  · rw [List.mem_singleton.mp member] at data
    cases data

theorem Tidy.setRequestMask (tidy : serving.Tidy) (mask : Nat) :
    (serving.setRequestMask mask).Tidy :=
  ⟨tidy.outside, tidy.protocol, tidy.sound, tidy.nulls, tidy.live, tidy.fresh⟩

/-- Two runs of a TCP listener with the default handler, from one state and with
the same events, that differ in their masks only and in what stands in the memory:
where every stream that ends loses its own entry alone, they end with the same
sockets if and only if the masks agree on `ConnectionLost` or no stream has ended. -/
theorem sameSockets_iff {mask flags : Nat} {calls : BindCalls} {server : ServerListener}
    (bound : (ServerListener.construct.setRequestMask mask).bind .TCP flags calls = (0, server))
    (past : List Listening.Action) {serving : Serving}
    (reached : (byDefault (.inMemory memory)).run (start server) past = some serving)
    (kept : (byDefault (.inMemory memory)).Steps KeepsEntries (start server) past)
    (first second : Nat) (actions : List Listening.Action) {final final' : Serving}
    (ran : (byDefault (.inMemory memory)).run (serving.setRequestMask first) actions = some final)
    (ran' : (byDefault (.inMemory memory')).run (serving.setRequestMask second) actions =
      some final')
    (keeps : (byDefault (.inMemory memory)).Steps KeepsEntries (serving.setRequestMask first)
      actions)
    (keeps' : (byDefault (.inMemory memory')).Steps KeepsEntries (serving.setRequestMask second)
      actions) :
    SameSockets final final' ↔
      (server.setRequestMask first).generates .connectionLost =
          (server.setRequestMask second).generates .connectionLost ∨
        .event (.reads [.block []]) ∉ actions := by
  have tidy : serving.Tidy := (byDefault (.inMemory memory)).run_invariant Tidy
    (fun _ _ _ tidy keeps taken => tidy.step keeps taken) (tidy_start bound) kept reached
  have both := Machine.pair_run ran ran'
  have steps : ((byDefault (.inMemory memory)).pair (byDefault (.inMemory memory'))).Steps
      (fun _ action => (server.setRequestMask first).generates .connectionLost =
          (server.setRequestMask second).generates .connectionLost ∨
        action ≠ .event (.reads [.block []]))
      (serving.setRequestMask first, serving.setRequestMask second) actions ↔
        (server.setRequestMask first).generates .connectionLost =
            (server.setRequestMask second).generates .connectionLost ∨
          .event (.reads [.block []]) ∉ actions := by
    rw [Machine.steps_iff_forall _ both]
    simp only [forall_or_left, ← List.forall_mem_ne']
  rw [← steps]
  have alike : ∀ both, Beside ((server.setRequestMask first).generates .connectionLost)
      ((server.setRequestMask second).generates .connectionLost) both →
        SameSockets both.1 both.2 := fun _ beside => sameSockets_of_core beside.core
  have ending := Machine.law_iff_steps _ _ Apart
    (fun _ _ _ beside keeps agree => beside.step keeps agree)
    (fun _ _ _ beside keeps differ => beside.apart keeps differ)
    (fun _ _ _ apart keeps => apart.step keeps) alike (fun _ => Apart.differ)
    ⟨tidy.setRequestMask first, tidy.setRequestMask second, rfl, rfl, rfl⟩
    (Machine.pair_steps keeps keeps') both
  exact ending

/-- A memory for concrete runs. -/
def zeroed (_ : List Descriptor) (_ _ : Nat) : Descriptor := ⟨0, none⟩

/-- With and without the requests for new clients, the end of a stream does the same. -/
theorem sameSockets_iff_run :
    ∃ final final', (byDefault (.inMemory zeroed)).run
        ((start ServerListener.sample).setRequestMask ServerListener.defaultMask)
        [.build, .selectReady [3], .event (.accepted 5), .skip, .endDispatch, .check, .build,
          .selectReady [5], .skip, .event (.reads [.block []])] = some final ∧
      (byDefault (.inMemory zeroed)).run
        ((start ServerListener.sample).setRequestMask RequestType.connectionLost.bit)
        [.build, .selectReady [3], .event (.accepted 5), .skip, .endDispatch, .check, .build,
          .selectReady [5], .skip, .event (.reads [.block []])] = some final' ∧
      SameSockets final final' :=
  ⟨_, _, rfl, rfl, (@sameSockets_iff zeroed zeroed _ _ _ _
    (show (ServerListener.construct.setRequestMask ServerListener.defaultMask).bind .TCP 0
      ⟨3, 0, 0, 0⟩ = (0, ServerListener.sample) from rfl)
    [] _ rfl trivial ServerListener.defaultMask RequestType.connectionLost.bit
    [.build, .selectReady [3], .event (.accepted 5), .skip, .endDispatch, .check, .build,
      .selectReady [5], .skip, .event (.reads [.block []])] _ _ rfl rfl (by decide)
    (by decide)).mpr (Or.inl rfl)⟩

/-- The stream of Connection 0 ends. With a mask of 0 its entry goes, but its
socket stays open and nothing destroys it. -/
theorem not_sameSockets_masked :
    ∃ final final', (byDefault (.inMemory zeroed)).run
        ((start ServerListener.sample).setRequestMask ServerListener.defaultMask)
        [.build, .selectReady [3], .event (.accepted 5), .skip, .endDispatch, .check, .build,
          .selectReady [5], .skip, .event (.reads [.block []])] = some final ∧
      (byDefault (.inMemory zeroed)).run ((start ServerListener.sample).setRequestMask 0)
        [.build, .selectReady [3], .event (.accepted 5), .skip, .endDispatch, .check, .build,
          .selectReady [5], .skip, .event (.reads [.block []])] = some final' ∧
      final.sockets.fds 5 = none ∧ ¬ final.Live 0 ∧
      final'.sockets.fds 5 = some (.client 0) ∧ final'.Live 0 ∧
      ¬ SameSockets final final' := by
  refine ⟨_, _, rfl, rfl, rfl, fun live => ?_, rfl, ⟨by decide, rfl⟩, fun same => ?_⟩
  · cases live.2
  · obtain ⟨c, opened⟩ := (same.clients 5).mpr ⟨0, rfl⟩
    cases opened

end Serving

end MSrv
