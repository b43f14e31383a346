import MagicServer.Server.Consistency
import MagicServer.Server.Shutdown

/-!
# Who is connected

The Connections that have an entry in the table of the listener: what an iterator
visits, when one more comes, and how one of them goes. As long as every removal
keeps the others, the thread goes on with the array as it would with a list.
-/

namespace MSrv

namespace Listening

/-- The number of the client that is accepted. -/
def Action.accepted? : Action → Option Int
  | .event (.accepted clientsocket) => if clientsocket < 0 then none else some clientsocket
  | _ => none

variable {remove : Removal} {listening next : Listening} {action : Action}

/-- Outside the handler the sockets change when a client is accepted, and only then. -/
theorem Taken.sockets (taken : Taken remove listening action next)
    (outside : ∀ result, action ≠ .returned result)
    (lost : listening.server.generates .connectionLost = true) :
    next.server.sockets =
      action.accepted?.elim listening.server.sockets listening.server.sockets.addClient := by
  cases taken with
  | build | selectFailed | selectReady | skip | endDispatch | startShutdown => rfl
  | check =>
      simp only [Action.accepted?, go, shutDown, Option.elim_none]
      split_ifs <;> rfl
  | selectTimeout =>
      unfold ServerListener.timeoutEvent ServerListener.generate
      split
      · rfl
      · exact (listening.afterTimeout_quiet 0).2.1
  | returned result => exact absurd rfl (outside result)
  | event _ _ _ event =>
      cases ServerListener.arrival_of_event event with
      | refused _ negative => simp only [Action.accepted?, if_pos negative, Option.elim_none]; rfl
      | accepted _ nonneg =>
          simp only [Action.accepted?, if_neg (not_lt.mpr nonneg), Option.elim_some]
          unfold ServerListener.generate
          split <;> rfl
      | streamData | datagram =>
          unfold ServerListener.generate
          split <;> rfl
      | connectionLost =>
          unfold ServerListener.generate
          rw [if_pos lost]
          rfl
      | failed => rfl

/-- The shutdown status stays set. -/
theorem Taken.status (taken : Taken remove listening action next)
    (shut : listening.server.mShutdownStatus = true) : next.server.mShutdownStatus = true := by
  have timeout : ∀ (listening : Listening) result, listening.server.mShutdownStatus = true →
      (listening.afterTimeout result).server.mShutdownStatus = true := by
    intro listening result shut
    unfold afterTimeout
    split
    · rfl
    · exact shut
  have event : ∀ (listening : Listening) ready i fd lost,
      listening.server.mShutdownStatus = true →
        (listening.afterEvent remove ready i fd lost).server.mShutdownStatus = true :=
    fun listening _ _ fd lost shut =>
      (listening.server.descriptorEventEnd_mShutdownStatus remove fd lost).trans shut
  have passed : ∀ resume (arrived : Option Request × ServerListener),
      arrived.2.mShutdownStatus = true →
        (listening.pass remove resume arrived).server.mShutdownStatus = true := by
    intro resume arrived shut
    obtain ⟨_ | request, server⟩ := arrived
    · cases resume with
      | timeout => exact timeout _ 0 shut
      | dispatch ready i fd lost => exact event _ ready i fd lost shut
    · exact shut
  cases taken with
  | build | selectFailed | selectReady | skip | endDispatch => exact shut
  | startShutdown => rfl
  | check =>
      simp only [go, shutDown]
      split
      · rfl
      · exact shut
  | selectTimeout =>
      exact passed _ _ ((ServerListener.generate_mShutdownStatus ..).trans shut)
  | event _ _ _ arrived =>
      exact passed _ _ ((ServerListener.descriptorEvent_mShutdownStatus arrived).trans shut)
  | @returned _ resume result =>
      cases resume with
      | timeout => exact timeout _ result shut
      | dispatch ready i fd lost => exact event _ ready i fd lost shut

/-- While the handler has a request, only `startShutdown()` is called outside it. -/
theorem Taken.pc_of_handling (taken : Taken remove listening action next)
    (outside : ∀ result, action ≠ .returned result) (inside : listening.pc.request?.isSome) :
    next.pc = listening.pc ∧ action.accepted? = none := by
  cases taken with
  | startShutdown => exact ⟨rfl, rfl⟩
  | returned result => exact absurd rfl (outside result)
  | build here | selectFailed here | selectTimeout here | selectReady here | skip here
  | endDispatch here | check here | event here =>
      rw [here] at inside
      cases inside

/-- The handler is told of a new Connection in the step that accepts it, -/
theorem Taken.awaits_of_accepted (taken : Taken remove listening action next)
    (masked : listening.server.generates .newConnection = true) {clientsocket : Int}
    (accepted : action.accepted? = some clientsocket) :
    next.pc.request?.map Request.content =
      some (.newConnection (some listening.server.sockets.created)) := by
  cases taken with
  | event here listed set event =>
      cases ServerListener.arrival_of_event event with
      | refused _ negative =>
          rw [Action.accepted?, if_pos negative] at accepted
          cases accepted
      | accepted _ nonneg free =>
          unfold ServerListener.generate
          split
          · rfl
          · next ignored => exact absurd masked ignored
      | _ => cases accepted
  | _ => cases accepted

/-- and in no other. -/
theorem Step.awaits (step : Step remove listening action next)
    (outside : ∀ result, action ≠ .returned result) {c : ConnectionId}
    (awaits : next.pc.request?.map Request.content = some (.newConnection (some c))) :
    next.pc = listening.pc ∨ c = listening.server.sockets.created := by
  cases step with
  | quiet _ away =>
      rw [away] at awaits
      cases awaits
  | startShutdown => exact Or.inl rfl
  | newConnection =>
      cases awaits
      exact Or.inr rfl
  | returned result => exact absurd rfl (outside result)
  | _ => cases awaits

/-- Outside the handler no entry is removed, so that the removal does not matter. -/
theorem step_removal_of_generates (remove other : Removal)
    (outside : ∀ result, action ≠ .returned result)
    (lost : listening.server.generates .connectionLost = true) :
    listening.step remove action = listening.step other action := by
  by_cases event : ∃ input, action = .event input
  · obtain ⟨input, rfl⟩ := event
    cases here : listening.pc with
    | dispatching ready i =>
        simp only [step, here]
        refine bind_congr fun entry => ite_congr rfl (fun _ => ?_) fun _ => rfl
        cases event : listening.server.descriptorEvent entry.mFd entry.mpData input with
        | none => rfl
        | some found =>
            obtain ⟨arrived, ended⟩ := found
            cases ServerListener.arrival_of_event event with
            | refused | failed => rfl
            | accepted | streamData | datagram =>
                unfold ServerListener.generate
                split <;> rfl
            | connectionLost =>
                unfold ServerListener.generate
                rw [if_pos lost]
                rfl
    | _ => simp only [step, here]
  · exact step_removal remove other (fun input same => event ⟨input, same⟩) outside

end Listening

/-- A number without an entry is not found, and nothing is removed. -/
theorem Sockets.removeDescriptor_of_unlisted {remove : Removal} {sockets : Sockets} {fd : Int}
    (unlisted : ∀ entry ∈ sockets.mDescriptors, entry.mFd ≠ fd) :
    (sockets.removeDescriptor remove fd).2 = sockets := by
  unfold removeDescriptor
  rw [List.findIdx?_eq_none_iff.mpr fun entry member => decide_eq_false (unlisted entry member)]

namespace Serving

/-- The Connections that have an entry, in the order of the table. -/
def members (serving : Serving) : List ConnectionId := serving.table.filterMap Descriptor.mpData

variable {serving next : Serving} {c : ConnectionId} {fd : Int} {action : Action}

/-- An iterator visits the members. -/
theorem Consistent.visits (consistent : serving.Consistent) (numbered : serving.Numbered) :
    ConnIter.visits serving.table.length (.create serving.listening.server) =
        serving.members.map some ∧
      serving.members.Nodup ∧
      ∀ c, c ∈ serving.members ↔ serving.Live c ∧ serving.sockets.socket c ≠ 0 := by
  obtain ⟨visited, visits, entries, nodup, mem⟩ := (consistent.inOrder numbered).iterated
  have clients : serving.members = (serving.table.filter fun entry =>
      entry.mFd ≠ serving.listening.server.mSocket).filterMap Descriptor.mpData := by
    rw [List.filterMap_filter]
    refine List.filterMap_congr fun entry member => ?_
    by_cases server : entry.mFd = serving.listening.server.mSocket
    · rw [consistent.entry_eq member consistent.server server]
      simp
    · simp [server]
  have same : serving.members = visited := by
    have back : (visited.map some).filterMap id = visited := by
      rw [List.filterMap_map]
      exact List.filterMap_some
    rw [clients, ← back, entries, List.filterMap_map]
    rfl
  rw [same]
  exact ⟨visits, nodup, mem⟩

/-- What the entry of a Connection tells. -/
theorem Consistent.entry (consistent : serving.Consistent)
    (listed : ⟨fd, some c⟩ ∈ serving.table) :
    serving.Live c ∧ serving.sockets.socket c = fd ∧ serving.sockets.acceptedAs c = fd ∧
      serving.sockets.fds fd = some (.client c) ∧ c ∈ serving.members := by
  obtain ⟨alive, number⟩ := consistent.live _ listed c rfl
  obtain ⟨created, accepted⟩ := consistent.sound.number listed rfl
  exact ⟨⟨created, alive⟩, number, accepted.symm,
    consistent.sound.entries _ listed, List.mem_filterMap.mpr ⟨_, listed, rfl⟩⟩

/-- A member has an entry. -/
theorem Consistent.listed_of_mem (consistent : serving.Consistent) (member : c ∈ serving.members) :
    ⟨serving.sockets.socket c, some c⟩ ∈ serving.table := by
  obtain ⟨⟨fd, data⟩, listed, owner⟩ := List.mem_filterMap.mp member
  change data = some c at owner
  subst owner
  rw [(consistent.entry listed).2.1]
  exact listed

/-! ## The removal of a member -/

/-- What is left when the entry of a member is erased. -/
theorem Consistent.erase_members (consistent : serving.Consistent) (numbered : serving.Numbered)
    (listed : ⟨fd, some c⟩ ∈ serving.table) :
    (Keyed.erase Descriptor.mFd serving.table fd).filterMap Descriptor.mpData =
      serving.members.erase c := by
  obtain ⟨_, nodup, _⟩ := consistent.visits numbered
  have erased : Keyed.erase Descriptor.mFd serving.table fd =
      serving.table.filter fun entry => entry.mFd ≠ fd :=
    Keyed.erase_eq_filter consistent.sound.distinct
  rw [erased, nodup.erase_eq_filter, members, List.filterMap_filter, List.filter_filterMap]
  refine List.filterMap_congr fun entry member => ?_
  cases data : entry.mpData with
  | none => simp
  | some other =>
      have owner : other = c ↔ entry.mFd = fd := by
        constructor
        · intro same
          rw [(consistent.sound.number member data).2, same]
          exact ((consistent.entry listed).2.2.1)
        · intro number
          rw [consistent.entry_eq member listed number] at data
          exact Option.some_inj.mp data.symm
      simp only [Option.filter_some, bne_iff_ne, ne_eq, owner, decide_not, Bool.not_eq_true',
        decide_eq_false_iff_not]

/-- The removal of its entry makes a Connection leave the members, and no other,
exactly when it keeps the others. -/
theorem Consistent.written_members_iff (consistent : serving.Consistent)
    (numbered : serving.Numbered)
    (head : serving.table.head? = some ⟨serving.listening.server.mSocket, none⟩)
    (listed : ⟨fd, some c⟩ ∈ serving.table) :
    (serving.sockets.removeDescriptor Array.written fd).2.mDescriptors.filterMap
        Descriptor.mpData = serving.members.erase c ↔ serving.sockets.KeepsOthers fd := by
  constructor
  · intro left
    by_contra drops
    obtain ⟨⟨number, data⟩, member, other, away, gone⟩ :=
      Closers.lost_of_not_keepsOthers consistent.sound head drops
    cases data with
    | none => exact away (consistent.nulls _ member rfl)
    | some lost =>
        obtain ⟨_, _, accepted, _, inside⟩ := consistent.entry member
        have apart : lost ≠ c := by
          intro same
          subst same
          exact other (accepted.symm.trans (consistent.entry listed).2.2.1)
        rw [← List.mem_erase_of_ne apart, ← left, List.mem_filterMap] at inside
        obtain ⟨entry, remains, owner⟩ := inside
        have before := (Closers.removeDescriptor_sublist serving.sockets fd).subset remains
        exact gone entry remains ((consistent.sound.number before owner).2.trans accepted)
  · intro keeps
    rw [Closers.removeDescriptor_of_keepsOthers keeps, Sockets.removeDescriptor_eraseIdx]
    exact consistent.erase_members numbered listed

/-- Every removal in the step keeps the others. -/
def KeepsOthers (serving : Serving) : Action → Prop
  | .listen _ => True
  | .close c =>
      serving.sockets.socket c = 0 ∨ serving.sockets.KeepsOthers (serving.sockets.socket c)
  | .returned _ => ∀ request resume c, serving.listening.pc = .handling request resume →
      request.content = .connectionLost (some c) →
        serving.sockets.KeepsOthers (serving.sockets.acceptedAs c)

/-- Then the thread goes on with the array as with a list. -/
theorem Consistent.step_written (consistent : serving.Consistent)
    (keeps : serving.KeepsOthers action) :
    (machine Array.written).step serving action = (machine List.eraseIdx).step serving action := by
  change serving.step Array.written action = serving.step List.eraseIdx action
  cases action with
  | listen action =>
      have same : (∀ result, action ≠ .returned result) →
          serving.listening.step Array.written action =
            serving.listening.step List.eraseIdx action :=
        fun outside => Listening.step_removal_of_generates _ _ outside consistent.lost
      cases action with
      | returned | startShutdown => rfl
      | _ => exact congrArg (Option.map _) (same fun _ returned => by cases returned)
  | close c => simp only [Serving.step, close_of_keepsOthers keeps]
  | returned result =>
      cases here : serving.listening.pc with
      | handling request resume =>
          simp only [Serving.step, here]
          rcases consistent.pending request resume here with
            ⟨c, ready, i, content, live, rfl, _⟩ | ⟨other, stays⟩
          · have closed : serving.sockets.close Array.written c =
                serving.sockets.close List.eraseIdx c := by
              apply close_of_keepsOthers
              rcases consistent.sound.socket c live.1 with number | closed
              · rw [number]
                exact Or.inr (keeps request _ c here content)
              · exact Or.inl closed
            have gone : (serving.sockets.close List.eraseIdx c).2.KeepsOthers
                (serving.sockets.acceptedAs c) := by
              rw [← closed]
              by_cases zero : serving.sockets.socket c = 0
              · rw [Sockets.close_of_closed _ zero]
                exact keeps request _ c here content
              · rw [← (consistent.sound.socket c live.1).resolve_right zero]
                exact Closers.keepsOthers_close consistent.sound zero
            rw [deleteRequest_of_lost content, deleteRequest_of_lost content, closed]
            simp only [Listening.step, withSockets, here]
            rw [Listening.afterHandler, Listening.afterHandler, afterEvent_of_keepsOthers gone]
          · rw [deleteRequest_of_ne_lost other, deleteRequest_of_ne_lost other]
            simp only [Listening.step, here]
            cases resume with
            | timeout => rfl
            | dispatch ready i fd lost =>
                cases lost with
                | false => rfl
                | true => exact absurd rfl (stays ready i fd)
      | _ => simp only [Serving.step, here]

/-! ## The steps of the thread -/

/-- A step outside the handler is a step of `listen()`. -/
theorem listened {remove : Removal} {action : Listening.Action}
    (taken : serving.step remove (.listen action) = some next) :
    (∀ result, action ≠ .returned result) ∧
      ∃ after, Listening.Taken remove serving.listening action after ∧
        next =
          { serving with
            listening := after
            trace := serving.trace ++ passedOn serving.listening after } := by
  have outside : ∀ result, action ≠ .returned result := by
    intro result same
    subst same
    cases taken
  refine ⟨outside, ?_⟩
  have unfolded : (serving.listening.step remove action).map (fun after =>
      { serving with
        listening := after
        trace := serving.trace ++ passedOn serving.listening after }) = some next := by
    cases action with
    | returned result => exact absurd rfl (outside result)
    | _ => exact taken
  obtain ⟨after, stepped, rfl⟩ := Option.map_eq_some_iff.mp unfolded
  exact ⟨after, Listening.taken_of_step stepped, rfl⟩

/-- The shutdown status stays set. -/
theorem status_step {remove : Removal} (taken : (machine remove).step serving action = some next)
    (shut : serving.listening.server.mShutdownStatus = true) :
    next.listening.server.mShutdownStatus = true := by
  cases step_cases taken with
  | listen step outside =>
      obtain ⟨_, after, taken, same⟩ := listened taken
      cases same
      exact taken.status shut
  | close => exact shut
  | @returned request resume result handling =>
      have deleted : (serving.deleteRequest remove request).listening.server.mShutdownStatus =
          true := by
        unfold deleteRequest
        split <;> exact shut
      exact Listening.Taken.status (.returned result
        ((deleteRequest_pc remove serving request).trans handling)) deleted

/-- Connections are created outside the handler only. -/
theorem created_step {remove : Removal} (taken : (machine remove).step serving action = some next)
    (inside : ∀ inner, action ≠ .listen inner) :
    next.sockets.created = serving.sockets.created := by
  cases step_cases taken with
  | listen => exact absurd rfl (inside _)
  | close => exact (Sockets.close_numbers remove _ _).1
  | @returned request resume result handling =>
      have deleted : (serving.deleteRequest remove request).sockets.created =
          serving.sockets.created := by
        unfold deleteRequest
        split
        · exact (Sockets.close_numbers remove _ _).1
        · rfl
      obtain ⟨_, ⟨_, same⟩ | ⟨_, _, _, _, removed⟩⟩ := Listening.afterHandler_cases remove
        (serving.deleteRequest remove request).listening result resume
      · exact (congrArg Sockets.created same).trans deleted
      · exact (congrArg Sockets.created removed).trans
          (Sockets.removeDescriptor_created.trans deleted)

/-- A request about a Connection is about one that has an entry, and comes from
the socket that the entry is for. -/
inductive Addressed (table : List Descriptor) (request : Request) : Prop
  | newConnection {c : ConnectionId} : request.content = .newConnection (some c) →
      ⟨request.mSocket, some c⟩ ∈ table → Addressed table request
  | streamData {c : ConnectionId} {mpData : List UInt8} :
      request.content = .streamData (some c) mpData →
      ⟨request.mSocket, some c⟩ ∈ table → Addressed table request
  | connectionLost {c : ConnectionId} : request.content = .connectionLost (some c) →
      ⟨request.mSocket, some c⟩ ∈ table → Addressed table request
  | timeout : request.content = .timeout → Addressed table request

/-- The handler is told only of members. -/
def HandlesMembers (serving : Serving) : Prop :=
  ∀ request resume, serving.listening.pc = .handling request resume →
    Addressed serving.table request

/-- Every request that the thread passes on is about a member. -/
theorem Consistent.handlesMembers_listen (consistent : serving.Consistent)
    (handles : serving.HandlesMembers) {remove : Removal} {inner : Listening.Action}
    {after : Listening} {trace : List Happening}
    (step : Listening.Step remove serving.listening inner after)
    (outside : ∀ result, inner ≠ .returned result) :
    HandlesMembers { serving with listening := after, trace := trace } := by
  have client : ∀ {entry}, entry ∈ serving.table →
      entry.mFd ≠ serving.listening.server.mSocket →
        ∃ c, entry.mpData = some c ∧ ⟨entry.mFd, some c⟩ ∈ serving.table := by
    intro entry member different
    obtain ⟨c, data, _⟩ := consistent.client member different
    refine ⟨c, data, ?_⟩
    rwa [← data]
  intro request resume handling
  change after.pc = _ at handling
  cases step with
  | quiet _ away =>
      rw [handling] at away
      cases away
  | startShutdown => exact handles request resume handling
  | timeout =>
      cases handling
      exact .timeout rfl
  | connected => cases handling
  | newConnection =>
      cases handling
      exact .newConnection rfl (Sockets.mem_addClient.mpr (Or.inr rfl))
  | streamData _ listed _ _ different =>
      obtain ⟨c, data, member⟩ := client (List.mem_of_getElem? listed) different
      cases handling
      exact .streamData (congrArg (Request.Content.streamData · _) data) member
  | datagram _ _ _ protocol =>
      rw [consistent.protocol] at protocol
      cases protocol
  | connectionLost _ listed _ different =>
      obtain ⟨c, data, member⟩ := client (List.mem_of_getElem? listed)
        fun same => different ⟨same, consistent.protocol⟩
      cases handling
      exact .connectionLost (congrArg Request.Content.connectionLost data) member
  | dropped _ _ _ ignored =>
      rw [consistent.lost] at ignored
      cases ignored
  | returned result => exact absurd rfl (outside result)

section Returned

variable {request : Request} {resume : Resume} {result : MSrvResult}

/-- When the handler has returned, no request is with it. -/
theorem request?_returned {remove : Removal}
    (taken : (machine remove).step serving (.returned result) = some next) :
    next.listening.pc.request? = none := by
  cases step_cases taken with
  | returned => exact (Listening.afterHandler_cases remove _ result _).1

/-- While the handler closes a Connection the thread stays where it is. -/
theorem pc_close {remove : Removal}
    (closed : (machine remove).step serving (.close c) = some next) :
    next.listening.pc = serving.listening.pc := by
  cases step_cases closed with
  | close => rfl

/-- The handler may return from any request. -/
theorem returns (remove : Removal) (handling : serving.listening.pc = .handling request resume)
    (result : MSrvResult) :
    ∃ next, (machine remove).step serving (.returned result) = some next := by
  change ∃ next, serving.step remove (.returned result) = some next
  simp only [step, Listening.step, deleteRequest_pc, handling, Option.map_some, Option.some.injEq,
    exists_eq']

/-- After a request that is not about a lost stream the sockets are the same. -/
theorem returned_still {remove : Removal}
    (handling : serving.listening.pc = .handling request resume)
    (other : ∀ data, request.content ≠ .connectionLost data)
    (stays : ∀ ready i fd, resume ≠ .dispatch ready i fd true)
    (taken : (machine remove).step serving (.returned result) = some next) :
    next.sockets = serving.sockets := by
  cases step_cases taken with
  | returned result handling' =>
      cases handling.symm.trans handling'
      rw [deleteRequest_of_ne_lost other]
      obtain ⟨_, ⟨_, same⟩ | ⟨ready, i, fd, removing, _⟩⟩ :=
        Listening.afterHandler_cases remove serving.listening result resume
      · exact same
      · exact absurd removing (stays ready i fd)

/-- After a request about a lost stream its entry has been removed. -/
theorem Consistent.returned_lost (consistent : serving.Consistent) (numbered : serving.Numbered)
    (handling : serving.listening.pc = .handling request resume)
    (content : request.content = .connectionLost (some c))
    (listed : ⟨fd, some c⟩ ∈ serving.table)
    (taken : (machine Array.written).step serving (.returned result) = some next) :
    next.table = (serving.sockets.removeDescriptor Array.written fd).2.mDescriptors := by
  obtain ⟨_, number, accepted, _, member⟩ := consistent.entry listed
  have opened : serving.sockets.socket c ≠ 0 :=
    (((consistent.visits numbered).2.2 c).mp member).2
  cases step_cases taken with
  | returned result handling' =>
      cases handling.symm.trans handling'
      rcases consistent.pending request resume handling with
        ⟨c', ready, i, content', _, rfl, _⟩ | ⟨other, _⟩
      · cases content.symm.trans content'
        rw [deleteRequest_of_lost content, accepted, Sockets.close_of_ne_zero opened, number]
        refine (congrArg Sockets.mDescriptors (Sockets.removeDescriptor_of_unlisted ?_)).trans rfl
        exact fun entry left => Closers.ne_of_mem_removeDescriptor consistent.sound left
      · exact absurd content (other _)

end Returned

/-! ## A thread whose handler has done nothing yet -/

/-- Table, descriptors and Connections agree, the server socket stands first, no
Connection has number 0, and the handler is told only of members. -/
structure Settled (serving : Serving) : Prop where
  consistent : serving.Consistent
  numbered : serving.Numbered
  head : serving.table.head? = some ⟨serving.listening.server.mSocket, none⟩
  handles : serving.HandlesMembers

/-- A listener bound once is settled when `listen()` is called. -/
theorem settled_start {mask flags : Nat} {calls : BindCalls} {server : ServerListener}
    (bound : (ServerListener.construct.setRequestMask mask).bind .TCP flags calls = (0, server))
    (lost : server.generates .connectionLost = true) : (start server).Settled := by
  refine ⟨consistent_start bound lost, ?_, ?_, fun _ _ handling => nomatch handling⟩
  all_goals obtain ⟨_, rfl⟩ := ServerListener.bind_eq_zero bound
  · exact fun c created => absurd created (Nat.not_lt_zero _)
  · rfl

/-- Between two requests there is nothing to tell the handler of. -/
theorem Settled.of_outside (consistent : serving.Consistent) (numbered : serving.Numbered)
    (head : serving.table.head? = some ⟨serving.listening.server.mSocket, none⟩)
    (outside : serving.listening.pc.request? = none) : serving.Settled := by
  refine ⟨consistent, numbered, head, fun request resume handling => ?_⟩
  cases outside.symm.trans (congrArg ListenPc.request? handling)

/-- Outside the handler one member comes with each client that is accepted. -/
theorem Settled.listen (settled : serving.Settled) {inner : Listening.Action}
    (nonzero : serving.AcceptsNonzero (.listen inner))
    (taken : (machine Array.written).step serving (.listen inner) = some next) :
    next.Settled ∧ next.members =
      serving.members ++ inner.accepted?.elim [] fun _ => [serving.sockets.created] := by
  have keeps : serving.KeepsOthers (.listen inner) := trivial
  have erasing : (machine List.eraseIdx).step serving (.listen inner) = some next :=
    (settled.consistent.step_written keeps).symm.trans taken
  obtain ⟨outside, after, effect, rfl⟩ := listened taken
  have sockets := effect.sockets outside settled.consistent.lost
  have step : Listening.Step Array.written serving.listening inner after := by
    cases step_cases taken with
    | listen step => exact step
  have server := ServerListener.mSocket_of_config step.config
  refine ⟨⟨settled.consistent.step erasing, settled.numbered.step nonzero erasing, ?_,
    settled.consistent.handlesMembers_listen settled.handles step outside⟩, ?_⟩
  · change after.server.sockets.mDescriptors.head? = some ⟨after.server.mSocket, none⟩
    rw [server, sockets]
    cases inner.accepted? with
    | none => exact settled.head
    | some clientsocket => exact Sockets.head?_addClient settled.head
  · change after.server.sockets.mDescriptors.filterMap Descriptor.mpData = _
    rw [sockets]
    cases inner.accepted? with
    | none => exact (List.append_nil _).symm
    | some clientsocket => exact List.filterMap_append ..

/-- The server socket is not that of a member, and stays first when this one goes. -/
theorem Settled.head_written (settled : serving.Settled) (listed : ⟨fd, some c⟩ ∈ serving.table)
    (keeps : serving.sockets.KeepsOthers fd) :
    (serving.sockets.removeDescriptor Array.written fd).2.mDescriptors.head? =
      some ⟨serving.listening.server.mSocket, none⟩ := by
  rw [Closers.removeDescriptor_of_keepsOthers keeps, Sockets.removeDescriptor_eraseIdx]
  refine Keyed.head?_erase settled.head fun same => ?_
  have entry := settled.consistent.entry_eq settled.consistent.server listed same
  exact absurd (congrArg Descriptor.mpData entry) nofun

/-- The thread never changes the server socket, the protocol and the mask. -/
theorem config_step {remove : Removal}
    (taken : (machine remove).step serving action = some next) :
    next.listening.server.config = serving.listening.server.config := by
  cases step_cases taken with
  | listen step => exact step.config
  | close => rfl
  | @returned request resume result handling =>
      rw [Listening.afterHandler_config]
      unfold deleteRequest
      split <;> rfl

theorem mSocket_step {remove : Removal}
    (taken : (machine remove).step serving action = some next) :
    next.listening.server.mSocket = serving.listening.server.mSocket :=
  ServerListener.mSocket_of_config (config_step taken)

section Members

variable {request : Request} {resume : Resume} {result : MSrvResult} {middle : Serving}

/-- Except when it is told of a loss, the thread has no entry to remove afterwards. -/
theorem Consistent.stays (consistent : serving.Consistent)
    (handling : serving.listening.pc = .handling request resume)
    (other : ∀ data, request.content ≠ .connectionLost data) (ready : List Int) (i : Nat)
    (fd : Int) : resume ≠ .dispatch ready i fd true := by
  rcases consistent.pending request resume handling with ⟨_, _, _, content, _⟩ | ⟨_, stays⟩
  · exact absurd content (other _)
  · exact stays ready i fd

/-- The handler has been told of something else than a loss, and has closed no Connection. -/
theorem Settled.returned (settled : serving.Settled)
    (handling : serving.listening.pc = .handling request resume)
    (other : ∀ data, request.content ≠ .connectionLost data)
    (taken : (machine Array.written).step serving (.returned result) = some next) :
    next.Settled ∧ next.members = serving.members := by
  have keeps : serving.KeepsOthers (.returned result) := by
    intro request' resume' c handling' content
    cases handling.symm.trans handling'
    exact absurd content (other _)
  have erasing : (machine List.eraseIdx).step serving (.returned result) = some next :=
    (settled.consistent.step_written keeps).symm.trans taken
  have sockets := returned_still handling other (settled.consistent.stays handling other) taken
  have table : next.table = serving.table := congrArg Sockets.mDescriptors sockets
  refine ⟨.of_outside (settled.consistent.step erasing)
    (settled.numbered.step (by trivial) erasing) ?_ (request?_returned taken),
    congrArg (List.filterMap Descriptor.mpData) table⟩
  rw [table, mSocket_step taken]
  exact settled.head

/-- The handler has been told of the loss of a member. -/
theorem Settled.lost (settled : serving.Settled)
    (handling : serving.listening.pc = .handling request resume)
    (content : request.content = .connectionLost (some c))
    (listed : ⟨fd, some c⟩ ∈ serving.table)
    (taken : (machine Array.written).step serving (.returned result) = some next) :
    (next.members = serving.members.erase c ↔ serving.sockets.KeepsOthers fd) ∧
      (serving.sockets.KeepsOthers fd → next.Settled) := by
  have table := settled.consistent.returned_lost settled.numbered handling content listed taken
  constructor
  · unfold members
    rw [table]
    exact settled.consistent.written_members_iff settled.numbered settled.head listed
  · intro keeps
    have erasing : (machine List.eraseIdx).step serving (.returned result) = some next := by
      refine (settled.consistent.step_written ?_).symm.trans taken
      intro request' resume' c' handling' content'
      cases handling.symm.trans handling'
      cases content.symm.trans content'
      rwa [(settled.consistent.entry listed).2.2.1]
    refine .of_outside (settled.consistent.step erasing)
      (settled.numbered.step (by trivial) erasing) ?_ (request?_returned taken)
    rw [table, mSocket_step taken]
    exact settled.head_written listed keeps

/-- The handler has been told of something else than a loss, and has closed a member. -/
theorem Settled.closed (settled : serving.Settled)
    (handling : serving.listening.pc = .handling request resume)
    (other : ∀ data, request.content ≠ .connectionLost data)
    (listed : ⟨fd, some c⟩ ∈ serving.table)
    (closed : (machine Array.written).step serving (.close c) = some middle)
    (taken : (machine Array.written).step middle (.returned result) = some next) :
    (next.members = serving.members.erase c ↔ serving.sockets.KeepsOthers fd) ∧
      (serving.sockets.KeepsOthers fd → next.Settled) := by
  obtain ⟨_, number, _, _, member⟩ := settled.consistent.entry listed
  have opened : serving.sockets.socket c ≠ 0 :=
    (((settled.consistent.visits settled.numbered).2.2 c).mp member).2
  have place := (pc_close closed).trans handling
  have table : next.table =
      (serving.sockets.removeDescriptor Array.written fd).2.mDescriptors := by
    have still := returned_still place other (settled.consistent.stays handling other) taken
    refine (congrArg Sockets.mDescriptors still).trans ?_
    cases step_cases closed with
    | close =>
        change (serving.sockets.close Array.written c).2.mDescriptors = _
        rw [Sockets.close_of_ne_zero opened, number]
  constructor
  · unfold members
    rw [table]
    exact settled.consistent.written_members_iff settled.numbered settled.head listed
  · intro keeps
    have first : (machine List.eraseIdx).step serving (.close c) = some middle := by
      refine (settled.consistent.step_written ?_).symm.trans closed
      exact Or.inr (number.symm ▸ keeps)
    have consistent := settled.consistent.step first
    have second : (machine List.eraseIdx).step middle (.returned result) = some next := by
      refine (consistent.step_written ?_).symm.trans taken
      intro request' resume' c' handling' content'
      cases place.symm.trans handling'
      exact absurd content' (other _)
    refine .of_outside (consistent.step second)
      ((settled.numbered.step (by trivial) first).step (by trivial) second) ?_
      (request?_returned taken)
    rw [table, mSocket_step taken, mSocket_step closed]
    exact settled.head_written listed keeps

end Members

end Serving

end MSrv
