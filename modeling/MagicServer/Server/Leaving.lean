import MagicServer.Server.Masks
import MagicServer.Server.Members
import Mathlib.Algebra.Order.BigOperators.Group.List
import Mathlib.Algebra.Order.Ring.Nat

/-!
# How listen() comes to its end

After `startShutdown()` the loop of `listen()` goes on to the end of its
iteration. What is left of the iteration is bounded by the table: each entry
costs at most the event and the return of the handler, and only the server socket
makes the table longer. On the way the thread may have to wait for others: in the
handler, in a call of `accept` or `read`, and in a `select` without a time-out.
-/

namespace MSrv

/-- The removal makes no new entries and does not change their order. -/
def Removal.Drops (remove : Removal) : Prop := ∀ table i, (remove table i).Sublist table

theorem drops_eraseIdx : Removal.Drops List.eraseIdx := List.eraseIdx_sublist

/-- Nor does the removal of the array. -/
theorem drops_written : Removal.Drops Array.written := fun table i =>
  (Array.written_sublist table i).trans (drops_eraseIdx table i)

namespace Sockets

variable {remove : Removal} (drops : remove.Drops) (sockets : Sockets)
include drops

theorem removeDescriptor_sublist (fd : Int) :
    (sockets.removeDescriptor remove fd).2.mDescriptors.Sublist sockets.mDescriptors := by
  unfold removeDescriptor
  split
  · exact drops _ _
  · exact List.Sublist.refl _

theorem close_sublist (c : ConnectionId) :
    (sockets.close remove c).2.mDescriptors.Sublist sockets.mDescriptors := by
  unfold close
  split
  · exact List.Sublist.refl _
  · exact sockets.removeDescriptor_sublist drops _

end Sockets

namespace ServerListener

/-- What the turn of an entry can cost: its event and the return of the handler,
and at the server socket the same for the client that is accepted. -/
def turn (server : ServerListener) (entry : Descriptor) : Nat :=
  if entry.mFd = server.mSocket ∧ server.mProtocol = .TCP then 4 else 2

/-- What the turns from entry `i` on can cost. -/
def turns (server : ServerListener) (i : Nat) : Nat :=
  ((server.sockets.mDescriptors.drop i).map server.turn).sum

variable {server other : ServerListener}

theorem two_le_turn (server : ServerListener) (entry : Descriptor) : 2 ≤ server.turn entry := by
  unfold turn
  split <;> omega

theorem turn_of_config (same : other.config = server.config) : other.turn = server.turn := by
  funext entry
  unfold turn
  rw [mSocket_of_config same, protocol_of_config same]

/-- Where entries go, there is less to do. -/
theorem turns_le (same : other.config = server.config)
    (fewer : other.sockets.mDescriptors.Sublist server.sockets.mDescriptors) (i : Nat) :
    other.turns i ≤ server.turns i := by
  unfold turns
  rw [turn_of_config same]
  exact ((fewer.drop i).map server.turn).sum_le_sum fun _ _ => Nat.zero_le _

theorem turns_of_getElem? {i : Nat} {entry : Descriptor}
    (listed : server.sockets.mDescriptors[i]? = some entry) :
    server.turns i = server.turn entry + server.turns (i + 1) := by
  obtain ⟨inside, rfl⟩ := List.getElem?_eq_some_iff.mp listed
  unfold turns
  rw [List.drop_eq_getElem_cons inside, List.map_cons, List.sum_cons]

/-- How many entries the number of the server socket has. -/
def ownEntries (server : ServerListener) : Nat :=
  (server.sockets.mDescriptors.map Descriptor.mFd).count server.mSocket

/-- All turns together cost two steps for each entry and two more for the server socket. -/
theorem turns_le_length (server : ServerListener) (i : Nat) :
    server.turns i ≤ 2 * server.sockets.mDescriptors.length + 2 * server.ownEntries := by
  have all : (server.sockets.mDescriptors.map server.turn).sum ≤
      2 * server.sockets.mDescriptors.length + 2 * server.ownEntries := by
    unfold ownEntries
    induction server.sockets.mDescriptors with
    | nil => exact Nat.le_refl _
    | cons entry rest ih =>
        simp only [List.map_cons, List.sum_cons, List.length_cons, List.count_cons, beq_iff_eq,
          turn]
        split_ifs <;> omega
  exact (((List.drop_sublist i _).map server.turn).sum_le_sum fun _ _ => Nat.zero_le _).trans all

end ServerListener

/-- How many steps the thread can still take in the current iteration, and in the
next one where it is at the beginning of it. -/
def ListenPc.cost (turns : Nat → Nat) : ListenPc → Nat
  | .left => 0
  | .checking => 1
  | .handling _ .timeout => 2
  | .dispatching _ i => 2 + turns i
  | .handling _ (.dispatch _ i _ _) => 3 + turns (i + 1)
  | .selecting _ => 3 + turns 0
  | .building => 4 + turns 0

theorem ListenPc.cost_le {fewer turns : Nat → Nat} (le : ∀ i, fewer i ≤ turns i) (pc : ListenPc) :
    pc.cost fewer ≤ pc.cost turns := by
  cases pc with
  | left | checking => exact Nat.le_refl _
  | building | selecting => exact Nat.add_le_add_left (le 0) _
  | dispatching ready i => exact Nat.add_le_add_left (le i) _
  | handling request resume =>
      cases resume with
      | timeout => exact Nat.le_refl _
      | dispatch ready i => exact Nat.add_le_add_left (le (i + 1)) _

namespace Listening

/-- The steps that remain for the thread. -/
def remaining (listening : Listening) : Nat := listening.pc.cost listening.server.turns

variable {remove : Removal} {listening next : Listening} {action : Action}

theorem remaining_le (listening : Listening) :
    listening.remaining ≤ 2 * listening.server.sockets.mDescriptors.length +
      2 * listening.server.ownEntries + 4 := by
  refine (listening.pc.cost_le listening.server.turns_le_length).trans ?_
  generalize listening.pc = pc
  cases pc with
  | handling request resume => cases resume <;> simp only [ListenPc.cost] <;> omega
  | _ => simp only [ListenPc.cost]; omega

/-- The thread stays where it is and has fewer entries. -/
theorem remaining_le_of_fewer (pc : next.pc = listening.pc)
    (config : next.server.config = listening.server.config)
    (fewer : next.server.sockets.mDescriptors.Sublist listening.server.sockets.mDescriptors) :
    next.remaining ≤ listening.remaining := by
  unfold remaining
  rw [pc]
  exact ListenPc.cost_le (ServerListener.turns_le config fewer) _

/-- `timeoutEvent()` has returned. -/
theorem remaining_afterTimeout (listening : Listening) (result : MSrvResult) :
    (listening.afterTimeout result).remaining = 1 := by
  unfold remaining
  rw [(listening.afterTimeout_quiet result).1]
  rfl

/-- An entry has had its turn. -/
theorem remaining_afterEvent (drops : remove.Drops) (listening : Listening) (ready : List Int)
    (i : Nat) (fd : Int) (lost : Bool) :
    (listening.afterEvent remove ready i fd lost).remaining ≤
      2 + listening.server.turns (i + 1) := by
  refine Nat.add_le_add_left (ServerListener.turns_le
    (listening.server.descriptorEventEnd_config remove fd lost) ?_ (i + 1)) 2
  unfold ServerListener.descriptorEventEnd
  split
  · exact listening.server.sockets.removeDescriptor_sublist drops fd
  · exact List.Sublist.refl _

/-- The handler has returned. -/
theorem remaining_afterHandler (drops : remove.Drops) {request : Request} {resume : Resume}
    (here : listening.pc = .handling request resume) (result : MSrvResult) :
    (listening.afterHandler remove result resume).remaining < listening.remaining := by
  have before : listening.remaining =
      (ListenPc.handling request resume).cost listening.server.turns := by rw [remaining, here]
  rw [before]
  cases resume with
  | timeout =>
      rw [afterHandler, remaining_afterTimeout]
      exact Nat.lt_succ_self 1
  | dispatch ready i fd lost =>
      exact Nat.lt_of_le_of_lt (remaining_afterEvent drops listening ready i fd lost)
        (Nat.add_lt_add_right (Nat.lt_succ_self 2) _)

/-- What an event brings is passed on. -/
theorem remaining_pass (drops : remove.Drops) (listening : Listening) (ready : List Int) (i : Nat)
    (fd : Int) (lost : Bool) (arrived : Option Request × ServerListener) :
    (listening.pass remove (.dispatch ready i fd lost) arrived).remaining ≤
      3 + arrived.2.turns (i + 1) := by
  obtain ⟨request, server⟩ := arrived
  cases request with
  | none =>
      have after := remaining_afterEvent drops { listening with server := server } ready i fd lost
      exact after.trans (Nat.add_le_add_right (Nat.le_succ 2) _)
  | some request => exact Nat.le_refl _

end Listening

namespace ServerListener

variable {server other : ServerListener}

/-- Making a request adds no entry. -/
theorem generate_turns (server : ServerListener) (type : RequestType) (socket : Int)
    (content : Request.Content) :
    (server.generate type socket content).2.turns = server.turns := by
  unfold generate
  split <;> rfl

/-- The number of the server socket is its own: it is open, no Connection has it,
and at most one entry. -/
structure Alone (server : ServerListener) : Prop where
  nonzero : server.mSocket ≠ 0
  opened : server.sockets.fds server.mSocket ≠ none
  apart : ∀ c, server.sockets.socket c ≠ server.mSocket
  one : server.ownEntries ≤ 1

/-- A client that is accepted has a turn of its own. -/
theorem Alone.turns_addClient (alone : server.Alone) {clientsocket : Int}
    (free : server.sockets.fds clientsocket = none) {i : Nat}
    (inside : i ≤ server.sockets.mDescriptors.length) :
    { server with sockets := server.sockets.addClient clientsocket }.turns i =
      server.turns i + 2 := by
  have different : clientsocket ≠ server.mSocket := fun same => alone.opened (same ▸ free)
  have turn : server.turn ⟨clientsocket, some server.sockets.created⟩ = 2 :=
    if_neg fun own => different own.1
  unfold turns
  change (((server.sockets.mDescriptors ++ [_]).drop i).map server.turn).sum = _
  rw [List.drop_append_of_le_length inside, List.map_append, List.sum_append, List.map_singleton,
    List.sum_singleton, turn]

/-- Where entries go, the number stays its own. -/
theorem Alone.fewer (alone : server.Alone) (same : other.config = server.config)
    (still : other.sockets.fds server.mSocket ≠ none)
    (closed : ∀ c, other.sockets.socket c = server.sockets.socket c ∨ other.sockets.socket c = 0)
    (fewer : other.sockets.mDescriptors.Sublist server.sockets.mDescriptors) : other.Alone := by
  have number := mSocket_of_config same
  refine ⟨number ▸ alone.nonzero, number ▸ still, fun c => ?_, ?_⟩
  · rw [number]
    rcases closed c with kept | zero
    · rw [kept]
      exact alone.apart c
    · rw [zero]
      exact alone.nonzero.symm
  · unfold ownEntries
    rw [number]
    exact ((fewer.map _).count_le _).trans alone.one

theorem Alone.addClient (alone : server.Alone) {clientsocket : Int}
    (free : server.sockets.fds clientsocket = none) :
    { server with sockets := server.sockets.addClient clientsocket }.Alone := by
  have different : clientsocket ≠ server.mSocket := fun same => alone.opened (same ▸ free)
  refine ⟨alone.nonzero, ?_, fun c => ?_, ?_⟩
  · change (server.sockets.addClient clientsocket).fds server.mSocket ≠ none
    rw [Sockets.addClient_fds_of_ne different.symm]
    exact alone.opened
  · change Function.update server.sockets.socket _ _ c ≠ _
    by_cases new : c = server.sockets.created
    · rw [new, Function.update_self]
      exact different
    · rw [Function.update_of_ne new]
      exact alone.apart c
  · change ((server.sockets.mDescriptors ++ [_]).map Descriptor.mFd).count server.mSocket ≤ 1
    rw [List.map_append, List.count_append, List.map_singleton,
      List.count_singleton, if_neg (by simpa using different), Nat.add_zero]
    exact alone.one

/-- Closing a Connection leaves the server socket alone. -/
theorem Alone.close {remove : Removal} (drops : remove.Drops) (alone : server.Alone)
    (c : ConnectionId) :
    { server with sockets := (server.sockets.close remove c).2 }.Alone := by
  by_cases closed : server.sockets.socket c = 0
  · rw [Sockets.close_of_closed remove closed]
    exact alone
  refine alone.fewer rfl ?_ (fun d => ?_) (server.sockets.close_sublist drops c)
  · rw [Sockets.close_of_ne_zero closed]
    exact (Function.update_of_ne (alone.apart c).symm ..).trans_ne alone.opened
  · rw [Sockets.close_of_ne_zero closed]
    by_cases same : d = c
    · exact Or.inr (same ▸ Function.update_self ..)
    · exact Or.inl (Function.update_of_ne same ..)

end ServerListener

namespace Listening

variable {remove : Removal} {listening next : Listening} {action : Action}

/-- After `startShutdown()` every step of the thread brings it closer to the end. -/
theorem Taken.remaining_lt (drops : remove.Drops) (alone : listening.server.Alone)
    (shut : listening.server.mShutdownStatus = true) (advances : action ≠ .startShutdown)
    (taken : Taken remove listening action next) : next.remaining < listening.remaining := by
  have before {pc : ListenPc} (here : listening.pc = pc) :
      listening.remaining = pc.cost listening.server.turns := by rw [remaining, here]
  cases taken with
  | startShutdown => exact absurd rfl advances
  | build here =>
      rw [before here]
      exact Nat.add_lt_add_right (Nat.lt_succ_self 3) _
  | selectFailed here =>
      rw [before here]
      change 1 < 3 + listening.server.turns 0
      omega
  | selectTimeout here =>
      rw [before here]
      change (listening.pass remove .timeout listening.server.timeoutEvent).remaining <
        3 + listening.server.turns 0
      unfold ServerListener.timeoutEvent ServerListener.generate
      split
      · change 2 < 3 + listening.server.turns 0
        omega
      · change (listening.afterTimeout 0).remaining < _
        rw [remaining_afterTimeout]
        omega
  | selectReady here =>
      rw [before here]
      exact Nat.add_lt_add_right (Nat.lt_succ_self 2) _
  | @skip ready i entry here listed =>
      have turn := listening.server.two_le_turn entry
      rw [before here, ListenPc.cost, ServerListener.turns_of_getElem? listed]
      exact Nat.add_lt_add_left (Nat.lt_add_of_pos_left (Nat.lt_of_lt_of_le Nat.two_pos turn)) 2
  | endDispatch here =>
      rw [before here]
      change 1 < 2 + _
      omega
  | check here =>
      have ended : (if listening.errorcount > MSRV_MAX_SELECT_ERROR_COUNT then listening.shutDown
          else listening).server.mShutdownStatus = true := by
        split
        · rfl
        · exact shut
      rw [before here]
      unfold remaining go
      simp only [ended, ↓reduceIte]
      exact Nat.one_pos
  | returned result here => exact remaining_afterHandler drops here result
  | @event ready i entry input arrived lost here listed set event =>
      rw [before here, ListenPc.cost, ServerListener.turns_of_getElem? listed]
      have turn := listening.server.two_le_turn entry
      have passed := remaining_pass drops listening ready i entry.mFd lost arrived
      have inside : i + 1 ≤ listening.server.sockets.mDescriptors.length :=
        (List.getElem?_eq_some_iff.mp listed).1
      cases ServerListener.arrival_of_event event with
      | refused | failed =>
          have after := remaining_afterEvent drops listening ready i entry.mFd false
          exact Nat.lt_of_le_of_lt after (by omega)
      | accepted own nonneg free =>
          have double : listening.server.turn entry = 4 := if_pos own
          rw [ServerListener.generate_turns, alone.turns_addClient free inside] at passed
          omega
      | streamData | datagram | connectionLost =>
          rw [ServerListener.generate_turns] at passed
          omega

/-- The number of the server socket stays its own. -/
theorem Step.alone (drops : remove.Drops) (alone : listening.server.Alone)
    (step : Step remove listening action next) : next.server.Alone := by
  have lost : ∀ fd, Sockets.mDescriptors (listening.server.sockets.removeDescriptor remove fd).2
      |>.Sublist listening.server.sockets.mDescriptors :=
    listening.server.sockets.removeDescriptor_sublist drops
  have config := step.config
  cases step with
  | quiet _ _ sockets =>
      exact alone.fewer config (sockets ▸ alone.opened) (fun c => Or.inl (by rw [sockets]))
        (by rw [sockets])
  | startShutdown | timeout | streamData | datagram | connectionLost =>
      exact alone.fewer config alone.opened (fun c => Or.inl rfl) (List.Sublist.refl _)
  | connected here nonneg free => exact alone.addClient free
  | newConnection here nonneg free =>
      exact (alone.addClient free).fewer rfl (alone.addClient free).opened (fun c => Or.inl rfl)
        (List.Sublist.refl _)
  | @dropped ready i entry =>
      refine alone.fewer config ?_ (fun c => Or.inl ?_) (lost entry.mFd)
      · change (listening.server.sockets.removeDescriptor remove entry.mFd).2.fds _ ≠ none
        rw [Sockets.removeDescriptor_fds]
        exact alone.opened
      · exact congrFun Sockets.removeDescriptor_socket c
  | @returned request resume result here =>
      obtain ⟨_, ⟨_, sockets⟩ | ⟨ready, i, fd, _, sockets⟩⟩ :=
        afterHandler_cases remove listening result resume
      · exact alone.fewer config (sockets ▸ alone.opened) (fun c => Or.inl (by rw [sockets]))
          (by rw [sockets])
      · refine alone.fewer config ?_ (fun c => Or.inl ?_) (sockets ▸ lost fd)
        · rw [sockets, Sockets.removeDescriptor_fds]
          exact alone.opened
        · rw [sockets, Sockets.removeDescriptor_socket]

end Listening

namespace Serving

/-- A step of the thread itself: not `startShutdown()`, which any thread may call at
any time, and not what the handler does before it returns. -/
def Action.Advances : Action → Prop
  | .listen .startShutdown | .close _ => False
  | .listen _ | .returned _ => True

instance : DecidablePred Action.Advances
  | .listen .startShutdown | .close _ => isFalse id
  | .returned _ => isTrue trivial
  | .listen .build | .listen .selectFailed | .listen .selectTimeout | .listen (.selectReady _)
  | .listen .skip | .listen (.event _) | .listen (.returned _) | .listen .endDispatch
  | .listen .check => isTrue trivial

theorem advances_listen {action : Listening.Action} (other : action ≠ .startShutdown) :
    (Action.listen action).Advances := by
  cases action with
  | startShutdown => exact absurd rfl other
  | _ => trivial

variable {remove : Removal} {serving next : Serving} {action : Action} {c : ConnectionId}

/-- The destruction of a request leaves the server socket alone and brings nothing new. -/
theorem deleteRequest_alone (drops : remove.Drops) (alone : serving.listening.server.Alone)
    (request : Request) : (serving.deleteRequest remove request).listening.server.Alone ∧
      (serving.deleteRequest remove request).listening.remaining ≤ serving.listening.remaining := by
  unfold deleteRequest
  split
  · next c _ =>
      exact ⟨alone.close drops c,
        Listening.remaining_le_of_fewer rfl rfl (serving.sockets.close_sublist drops c)⟩
  · exact ⟨alone, Nat.le_refl _⟩

/-- Every step of the listener thread leaves the server socket alone. -/
theorem alone_step (drops : remove.Drops) (alone : serving.listening.server.Alone)
    (taken : (machine remove).step serving action = some next) : next.listening.server.Alone := by
  cases step_cases taken with
  | listen step => exact step.alone drops alone
  | close => exact alone.close drops _
  | @returned request resume result handling =>
      have moved := (deleteRequest_pc remove serving request).trans handling
      exact Listening.Step.alone drops (deleteRequest_alone drops alone request).1
        (.returned result moved)

/-- One step of the listener thread after `startShutdown()`. -/
theorem remaining_step (drops : remove.Drops) (alone : serving.listening.server.Alone)
    (shut : serving.listening.server.mShutdownStatus = true)
    (taken : (machine remove).step serving action = some next) :
    next.listening.remaining + (if action.Advances then 1 else 0) ≤
      serving.listening.remaining := by
  cases step_cases taken with
  | @listen action after step =>
      obtain ⟨_, after, effect, same⟩ := listened taken
      cases same
      by_cases advances : action = .startShutdown
      · subst advances
        cases effect
        exact Nat.le_refl _
      · rw [if_pos (advances_listen advances)]
        exact effect.remaining_lt drops alone shut advances
  | @close c =>
      exact Listening.remaining_le_of_fewer rfl rfl (serving.sockets.close_sublist drops c)
  | @returned request resume result handling =>
      have moved := (deleteRequest_pc remove serving request).trans handling
      exact Nat.le_trans (Listening.remaining_afterHandler drops moved result)
        (deleteRequest_alone drops alone request).2

/-! ## What stands in the memory -/

/-- Every removal in the step leaves the other entries. -/
def Spares (serving : Serving) : Action → Prop
  | .listen action => ∀ fd ∈ serving.listening.removes action, serving.sockets.KeepsOthers fd
  | .close c =>
      serving.sockets.socket c ≠ 0 → serving.sockets.KeepsOthers (serving.sockets.socket c)
  | .returned _ => ∀ request ∈ serving.listening.pc.request?,
      (∀ c ∈ Service.deletes request, serving.sockets.socket c ≠ 0 →
        serving.sockets.KeepsOthers (serving.sockets.socket c)) ∧
      ∀ fd ∈ serving.listening.removal?,
        (serving.deleteRequest Array.written request).sockets.KeepsOthers fd

instance (serving : Serving) : DecidablePred serving.Spares := fun action => by
  unfold Spares
  split <;> infer_instance

variable {memory : List Descriptor → Nat → Nat → Descriptor}

/-- A step of `listen()` that removes an entry alone reads nothing that has not been
written. -/
theorem listening_inMemory {listening : Listening} {action : Listening.Action}
    (spares : ∀ fd ∈ listening.removes action, listening.server.sockets.KeepsOthers fd)
    (outside : ∀ result, action ≠ .returned result) :
    listening.step (.inMemory memory) action = listening.step Array.written action := by
  by_cases event : ∃ input, action = .event input
  · obtain ⟨input, rfl⟩ := event
    cases here : listening.pc with
    | dispatching ready i =>
        cases listed : listening.server.sockets.mDescriptors[i]? with
        | none => simp only [Listening.step, here, listed, Option.bind_eq_bind, Option.bind_none]
        | some entry =>
            simp only [Listening.step, here, listed, Option.bind_eq_bind, Option.bind_some]
            refine ite_congr rfl (fun _ => ?_) fun _ => rfl
            cases event : listening.server.descriptorEvent entry.mFd entry.mpData input with
            | none => rfl
            | some found =>
                obtain ⟨arrived, lost⟩ := found
                cases ServerListener.arrival_of_event event with
                | refused | failed => rfl
                | accepted | streamData | datagram =>
                    unfold ServerListener.generate
                    split <;> rfl
                | connectionLost _ ended =>
                    cases ServerListener.ended_at_once ended
                    unfold ServerListener.generate
                    split_ifs with told
                    · rfl
                    · have removes : listening.removes (.event (.reads [.block []])) =
                          some entry.mFd := by
                        simp only [Listening.removes, here, listed, if_neg told, Option.map_some]
                      exact congrArg some (afterEvent_inMemory
                        (fun _ => spares entry.mFd removes) ready i)
    | _ => simp only [Listening.step, here]
  · exact Listening.step_removal _ _ (fun input same => event ⟨input, same⟩) outside

/-- Neither does the destruction of a request. -/
theorem deleteRequest_inMemory {request : Request}
    (spares : ∀ c ∈ Service.deletes request, serving.sockets.socket c ≠ 0 →
      serving.sockets.KeepsOthers (serving.sockets.socket c)) :
    serving.deleteRequest (.inMemory memory) request =
      serving.deleteRequest Array.written request := by
  unfold deleteRequest
  split
  · next c content =>
      have member : c ∈ Service.deletes request := by
        rw [Service.deletes, content]
        exact List.mem_singleton_self c
      rw [close_inMemory (spares c member)]
  · rfl

/-- The same holds of every step. -/
theorem step_inMemory (spares : serving.Spares action) :
    (machine (.inMemory memory)).step serving action =
      (machine Array.written).step serving action := by
  change serving.step _ action = serving.step _ action
  cases action with
  | listen action =>
      cases action with
      | returned | startShutdown => rfl
      | _ => exact congrArg (Option.map _) (listening_inMemory spares (by simp))
  | close c => simp only [step, close_inMemory spares]
  | returned result =>
      cases here : serving.listening.pc with
      | handling request resume =>
          obtain ⟨deletes, removes⟩ := spares request (by rw [here]; rfl)
          simp only [step, here, deleteRequest_inMemory deletes]
          have moved := (deleteRequest_pc Array.written serving request).trans here
          simp only [Listening.step, moved]
          cases resume with
          | timeout => rfl
          | dispatch ready i fd lost =>
              have keeps (ended : lost = true) : Sockets.KeepsOthers
                  (serving.deleteRequest Array.written request).sockets fd := by
                subst ended
                exact removes fd (by rw [Listening.removal?, here]; rfl)
              rw [Listening.afterHandler, Listening.afterHandler, afterEvent_inMemory keeps]
      | _ => simp only [step, here]

/-- The server socket of a listener that has been bound is alone. -/
theorem alone_start {mask flags : Nat} {protocol : Protocol} {calls : BindCalls}
    {server : ServerListener}
    (bound : (ServerListener.construct.setRequestMask mask).bind protocol flags calls =
      (0, server)) : server.Alone := by
  obtain ⟨positive, rfl⟩ := ServerListener.bind_eq_zero bound
  refine ⟨positive.ne', ?_, fun _ => positive.ne, ?_⟩
  · exact ne_of_eq_of_ne (Function.update_self ..) (Option.some_ne_none _)
  · exact List.count_le_length

end Serving

/-! ## The time-out -/

/-- The `struct timeval` for `select`. -/
structure SelectTimeout where
  tv_sec : Int
  tv_usec : Int
  deriving DecidableEq

/-- A time that `select` takes; it fails with any other. -/
def SelectTimeout.Valid (timeout : SelectTimeout) : Prop :=
  0 ≤ timeout.tv_sec ∧ 0 ≤ timeout.tv_usec ∧ timeout.tv_usec < 1000000

instance : DecidablePred SelectTimeout.Valid := fun _ => instDecidableAnd

/-- The listener thread with its time-out. -/
structure TimedServing where
  serving : Serving
  mTimeoutSec : Int
  mTimeoutUSec : Int
  /-- The last argument of `select`, `none` for `NULL`. -/
  timeout : Option SelectTimeout

namespace TimedServing

/-- `listen()` is called with the time-out that the constructor has set. -/
def start (server : ServerListener) : TimedServing where
  serving := .start server
  mTimeoutSec := 1
  mTimeoutUSec := 0
  timeout := none

inductive Action where
  | serve (action : Serving.Action)
  /-- Some thread calls `setTimeout()`. -/
  | setTimeout (seconds microseconds : Int)
  deriving DecidableEq

/-- The thread of the listener moves. -/
def Action.Advances : Action → Prop
  | .serve action => action.Advances
  | .setTimeout _ _ => False

instance : DecidablePred Action.Advances
  | .serve action => inferInstanceAs (Decidable action.Advances)
  | .setTimeout _ _ => isFalse id

/-- The time-out that is set together with the descriptor set. -/
def usedTimeout (timed : TimedServing) : Option SelectTimeout :=
  if timed.mTimeoutSec > 0 ∨ timed.mTimeoutUSec > 0 then
    some ⟨timed.mTimeoutSec, timed.mTimeoutUSec⟩
  else none

/-- One step; `select` times out only where it has been given a time that it takes. -/
def step (remove : Removal) (timed : TimedServing) : Action → Option TimedServing
  | .serve action =>
      if action = .listen .selectTimeout ∧ ¬ ∃ time ∈ timed.timeout, time.Valid then none
      else
        (timed.serving.step remove action).map fun next =>
          { timed with
            serving := next
            timeout := if action = .listen .build then timed.usedTimeout else timed.timeout }
  | .setTimeout seconds microseconds =>
      some { timed with mTimeoutSec := seconds, mTimeoutUSec := microseconds }

/-- Every run of the listener thread, with a time-out that is set at any time, is a
run of this machine. -/
def machine (remove : Removal) : Machine TimedServing Action where
  step := step remove

/-- Every removal in the step leaves the other entries. -/
def Spares (timed : TimedServing) : Action → Prop
  | .serve action => timed.serving.Spares action
  | .setTimeout _ _ => True

instance (timed : TimedServing) : DecidablePred timed.Spares
  | .serve action => inferInstanceAs (Decidable (timed.serving.Spares action))
  | .setTimeout _ _ => inferInstanceAs (Decidable True)

/-- A step that the thread takes without the handler, a ready descriptor or a call
of `accept` or `read` that returns. `select` returns without a ready descriptor
when its time is over, and when it does not take the time. -/
def Unprompted (timed : TimedServing) : Serving.Action → Prop
  | .listen .build | .listen .selectTimeout | .listen .skip | .listen .endDispatch
  | .listen .check => True
  | .listen .selectFailed => ∃ time ∈ timed.timeout, ¬ time.Valid
  | .listen (.selectReady _) | .listen (.event _) | .listen (.returned _)
  | .listen .startShutdown | .close _ | .returned _ => False

/-- The thread is in the handler, at a ready descriptor, or in a `select` without a
time-out. -/
def Waits (timed : TimedServing) : Prop :=
  match timed.serving.listening.pc with
  | .selecting _ => timed.timeout = none
  | .dispatching _ _ => timed.serving.listening.entry? ≠ none
  | .handling _ _ => True
  | .building | .checking | .left => False

variable {memory : List Descriptor → Nat → Nat → Descriptor} {timed next : TimedServing}
  {action : Action}

/-- A step of the listener thread is a step without the time-out. -/
theorem served {remove : Removal} {action : Serving.Action}
    (taken : (machine remove).step timed (.serve action) = some next) :
    (Serving.machine remove).step timed.serving action = some next.serving ∧
      (action = .listen .selectTimeout → ∃ time ∈ timed.timeout, time.Valid) := by
  obtain ⟨expired, stepped⟩ := Option.ite_none_left_eq_some.mp taken
  obtain ⟨after, effect, rfl⟩ := Option.map_eq_some_iff.mp stepped
  exact ⟨effect, fun timeout => not_not.mp fun never => expired ⟨timeout, never⟩⟩

/-- An unprompted step of `listen()` is one of the thread. -/
theorem serves {remove : Removal} (inner : Listening.Action)
    (unprompted : timed.Unprompted (.listen inner))
    (timeout : inner = .selectTimeout → ∃ time ∈ timed.timeout, time.Valid)
    (effect : (timed.serving.listening.step remove inner).isSome) :
    ∃ action next, timed.Unprompted action ∧
      (machine remove).step timed (.serve action) = some next := by
  obtain ⟨after, effect⟩ := Option.isSome_iff_exists.mp effect
  have stepped : ∃ serving, timed.serving.step remove (.listen inner) = some serving := by
    cases inner with
    | returned | startShutdown => exact unprompted.elim
    | _ => exact ⟨_, congrArg (Option.map _) effect⟩
  obtain ⟨serving, stepped⟩ := stepped
  have guard : ¬ (Serving.Action.listen inner = .listen .selectTimeout ∧
      ¬ ∃ time ∈ timed.timeout, time.Valid) := by
    rintro ⟨same, never⟩
    cases same
    exact never (timeout rfl)
  exact ⟨_, _, unprompted, (if_neg guard).trans (congrArg (Option.map _) stepped)⟩

/-- The thread goes on unless it has left the loop, or waits. -/
theorem unprompted_iff (remove : Removal) (timed : TimedServing) :
    (∃ action next, timed.Unprompted action ∧
        (machine remove).step timed (.serve action) = some next) ↔
      timed.serving.listening.pc ≠ .left ∧ ¬ timed.Waits := by
  constructor
  · rintro ⟨action, next, unprompted, taken⟩
    cases action with
    | close | returned => exact unprompted.elim
    | listen inner => ?_
    obtain ⟨stepped, timeout⟩ := served taken
    obtain ⟨_, after, effect, _⟩ := Serving.listened stepped
    unfold Waits
    cases effect with
    | build here | check here =>
        rw [here]
        exact ⟨by simp, id⟩
    | selectFailed here =>
        obtain ⟨time, given, _⟩ := unprompted
        rw [here, Option.mem_def.mp given]
        exact ⟨by simp, by simp⟩
    | selectTimeout here =>
        obtain ⟨time, given, _⟩ := timeout rfl
        rw [here, Option.mem_def.mp given]
        exact ⟨by simp, by simp⟩
    | skip here listed unready =>
        simp only [here, Listening.entry?, listed]
        exact ⟨by simp, by simpa using unready⟩
    | endDispatch here ended =>
        simp only [here, Listening.entry?, List.getElem?_eq_none ended]
        exact ⟨by simp, by simp⟩
    | selectReady | event | returned | startShutdown => exact unprompted.elim
  · rintro ⟨inside, free⟩
    unfold Waits at free
    cases here : timed.serving.listening.pc with
    | left => exact absurd here inside
    | handling =>
        rw [here] at free
        exact absurd trivial free
    | building =>
        exact serves .build trivial (by simp)
          (by simp only [Listening.step, here, Option.isSome_some])
    | checking =>
        exact serves .check trivial (by simp)
          (by simp only [Listening.step, here, Option.isSome_some])
    | selecting fdset =>
        rw [here] at free
        obtain ⟨time, given⟩ := Option.ne_none_iff_exists'.mp free
        by_cases valid : time.Valid
        · exact serves .selectTimeout trivial (fun _ => ⟨time, given, valid⟩)
            (by simp only [Listening.step, here, Option.isSome_some])
        · exact serves .selectFailed ⟨time, given, valid⟩ (by simp)
            (by simp only [Listening.step, here, Option.isSome_some])
    | dispatching ready i =>
        simp only [here, Listening.entry?, not_not] at free
        cases listed : timed.serving.listening.server.sockets.mDescriptors[i]? with
        | none =>
            have ended := List.getElem?_eq_none_iff.mp listed
            exact serves .endDispatch trivial (by simp)
              (by simp only [Listening.step, here, if_pos ended, Option.isSome_some])
        | some entry =>
            have unready : entry.mFd ∉ ready := by simpa [listed] using free
            exact serves .skip trivial (by simp) (by
              simp only [Listening.step, here, listed, Option.bind_eq_bind, Option.bind_some,
                if_neg unready, Option.isSome_some])

/-- One step after `startShutdown()`. -/
theorem remaining_step (alone : timed.serving.listening.server.Alone)
    (shut : timed.serving.listening.server.mShutdownStatus = true) (spares : timed.Spares action)
    (taken : (machine (.inMemory memory)).step timed action = some next) :
    (next.serving.listening.server.Alone ∧
      next.serving.listening.server.mShutdownStatus = true) ∧
      next.serving.listening.remaining + (if action.Advances then 1 else 0) ≤
        timed.serving.listening.remaining := by
  cases action with
  | setTimeout =>
      cases taken
      exact ⟨⟨alone, shut⟩, Nat.le_refl _⟩
  | serve action =>
      have stepped := (Serving.step_inMemory spares).symm.trans (served taken).1
      exact ⟨⟨Serving.alone_step drops_written alone stepped, Serving.status_step stepped shut⟩,
        Serving.remaining_step drops_written alone shut stepped⟩

theorem alone_step (alone : timed.serving.listening.server.Alone) (spares : timed.Spares action)
    (taken : (machine (.inMemory memory)).step timed action = some next) :
    next.serving.listening.server.Alone := by
  cases action with
  | setTimeout =>
      cases taken
      exact alone
  | serve action =>
      exact Serving.alone_step drops_written alone
        ((Serving.step_inMemory spares).symm.trans (served taken).1)

/-- After `startShutdown()` the thread leaves `listen()`: where every removal leaves
the other entries, it takes at most two more steps for each entry of the table and
six more, and until it has left it goes on by itself, unless it is in the handler,
at a ready descriptor, or in a `select` without a time-out. -/
theorem leaves_of_shutdown {mask flags : Nat} {protocol : Protocol} {calls : BindCalls}
    {server : ServerListener}
    (bound : (ServerListener.construct.setRequestMask mask).bind protocol flags calls =
      (0, server))
    {past : List Action}
    (reached : (machine (.inMemory memory)).run (start server) past = some timed)
    (kept : (machine (.inMemory memory)).Steps Spares (start server) past)
    (shut : timed.serving.listening.server.mShutdownStatus = true) {actions : List Action}
    (ran : (machine (.inMemory memory)).run timed actions = some next)
    (spares : (machine (.inMemory memory)).Steps Spares timed actions) :
    (actions.filter Action.Advances).length ≤
        2 * timed.serving.sockets.mDescriptors.length + 6 ∧
      ((∃ action after, next.Unprompted action ∧
          (machine (.inMemory memory)).step next (.serve action) = some after) ↔
        next.serving.listening.pc ≠ .left ∧ ¬ next.Waits) := by
  have alone : timed.serving.listening.server.Alone :=
    (machine (.inMemory memory)).run_invariant
      (fun timed => timed.serving.listening.server.Alone)
      (fun _ _ _ alone spares taken => alone_step alone spares taken) (Serving.alone_start bound)
      kept reached
  obtain ⟨_, few⟩ := (machine (.inMemory memory)).length_filter_le
    (fun timed => timed.serving.listening.server.Alone ∧
      timed.serving.listening.server.mShutdownStatus = true)
    (fun timed => timed.serving.listening.remaining)
    (fun _ _ _ ⟨alone, shut⟩ spares taken => remaining_step alone shut spares taken)
    ⟨alone, shut⟩ spares ran
  refine ⟨?_, unprompted_iff _ next⟩
  have bound := timed.serving.listening.remaining_le
  have one := alone.one
  change _ ≤ 2 * timed.serving.listening.server.sockets.mDescriptors.length + 6
  omega

/-- A client that comes while the thread is in `select()` is still accepted. -/
theorem leaves_of_shutdown_accepted :
    ∃ timed next, (machine (.inMemory Serving.zeroed)).run (start ServerListener.sample)
        [.setTimeout 0 0, .serve (.listen .build), .serve (.listen .startShutdown)] =
          some timed ∧
      timed.Waits ∧
      (machine (.inMemory Serving.zeroed)).run timed
        [.serve (.listen (.selectReady [3])), .serve (.listen (.event (.accepted 4))),
          .serve (.returned 0), .serve (.listen .skip), .serve (.listen .endDispatch),
          .serve (.listen .check)] = some next ∧
      next.serving.listening.pc = .left ∧
      6 ≤ 2 * timed.serving.sockets.mDescriptors.length + 6 := by
  refine ⟨_, _, rfl, rfl, rfl, rfl, ?_⟩
  have bound : (ServerListener.construct.setRequestMask ServerListener.defaultMask).bind .TCP 0
    ⟨3, 0, 0, 0⟩ = (0, ServerListener.sample) := rfl
  exact (@leaves_of_shutdown Serving.zeroed _ _ _ _ _ _ _ bound
    [.setTimeout 0 0, .serve (.listen .build), .serve (.listen .startShutdown)] rfl (by decide) rfl
    [.serve (.listen (.selectReady [3])), .serve (.listen (.event (.accepted 4))),
      .serve (.returned 0), .serve (.listen .skip), .serve (.listen .endDispatch),
      .serve (.listen .check)] rfl (by decide)).1

end TimedServing

end MSrv
