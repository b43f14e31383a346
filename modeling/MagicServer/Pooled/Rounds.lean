import MagicServer.Pooled.Server
import MagicServer.Server.Close

/-!
# The table of a round

`listen()` builds the descriptor set from the table, lets go of `mThreadLock` for
`select()`, and dispatches by descriptor number over the table as it then is. An
entry that the dispatch loop finds ready was in the table when the set was
built, unless `::accept` returned a number of the ready set in that round or a
removal left slots of the array unwritten.
-/

namespace MSrv

/-- How far the listener thread has come in a round. -/
inductive Phase where
  | outside
  | selecting
  /-- In the dispatch loop over the ready descriptors, or in an event of it. -/
  | dispatching (ready : List Int)

def ListenPc.phase : ListenPc → Phase
  | .building | .checking | .left | .handling _ .timeout => .outside
  | .selecting _ => .selecting
  | .dispatching ready _ | .handling _ (.dispatch ready _ _ _) => .dispatching ready

/-- The ready descriptors that are being dispatched. -/
def Phase.ready : Phase → List Int
  | .dispatching ready => ready
  | .outside | .selecting => []

namespace Listening

/-- How a step of `listen()` goes on in a round. -/
inductive PhaseStep : Action → Phase → Phase → Prop
  | stay {action : Action} (phase : Phase) : action ≠ .build → PhaseStep action phase phase
  | build : PhaseStep .build .outside .selecting
  | ready (ready : List Int) : PhaseStep (.selectReady ready) .selecting (.dispatching ready)
  | done {action : Action} (phase : Phase) : PhaseStep action phase .outside

variable {remove : Removal} {listening next : Listening} {action : Action}

theorem afterTimeout_phase (listening : Listening) (result : MSrvResult) :
    (listening.afterTimeout result).pc.phase = .outside := by
  rw [(listening.afterTimeout_quiet result).1]
  rfl

/-- What passes a request on for an entry stays in the dispatch loop. -/
theorem pass_phase (listening : Listening) (ready : List Int) (i : Nat) (fd : Int) (lost : Bool)
    (arrived : Option Request × ServerListener) :
    (listening.pass remove (.dispatch ready i fd lost) arrived).pc.phase = .dispatching ready := by
  obtain ⟨request, server⟩ := arrived
  cases request <;> rfl

theorem phase_step (taken : (machine remove).step listening action = some next) :
    PhaseStep action listening.pc.phase next.pc.phase := by
  cases taken_of_step taken with
  | startShutdown => exact .stay _ (by simp)
  | build here =>
      rw [here]
      exact .build
  | selectFailed | endDispatch => exact .done _
  | selectReady here =>
      rw [here]
      exact .ready _
  | check =>
      simp only [go]
      split_ifs <;> exact .done _
  | selectTimeout =>
      unfold ServerListener.timeoutEvent ServerListener.generate
      split
      · exact .done _
      · rw [pass, afterTimeout_phase]
        exact .done _
  | skip here =>
      rw [here]
      exact .stay _ (by simp)
  | event here =>
      rw [here, pass_phase]
      exact .stay _ (by simp)
  | @returned request resume result here =>
      rw [here]
      cases resume with
      | timeout =>
          rw [afterHandler, afterTimeout_phase]
          exact .done _
      | dispatch => exact .stay _ (by simp)

/-- A step of `listen()` adds an entry to the table only for an accepted client. -/
theorem mem_mDescriptors_step (taken : (machine Array.written).step listening action = some next)
    {entry : Descriptor} (listed : entry ∈ next.server.sockets.mDescriptors) :
    entry ∈ listening.server.sockets.mDescriptors ∨
      ∃ ready clientsocket, listening.pc.phase = .dispatching ready ∧
        action = .event (.accepted clientsocket) ∧ entry.mFd = clientsocket := by
  have removed : ∀ fd, entry ∈
      (listening.server.sockets.removeDescriptor Array.written fd).2.mDescriptors →
      entry ∈ listening.server.sockets.mDescriptors :=
    fun fd member => (Closers.removeDescriptor_sublist _ _).subset member
  cases step_cases taken with
  | quiet _ _ sockets => exact Or.inl (sockets ▸ listed)
  | connected here | newConnection here =>
      rcases Sockets.mem_addClient.mp listed with before | rfl
      · exact Or.inl before
      · exact Or.inr ⟨_, _, congrArg ListenPc.phase here, rfl, rfl⟩
  | dropped => exact Or.inl (removed _ listed)
  | @returned request resume result =>
      obtain ⟨_, ⟨_, sockets⟩ | ⟨_, _, fd, _, sockets⟩⟩ :=
        afterHandler_cases Array.written listening result resume
      · exact Or.inl (sockets ▸ listed)
      · exact Or.inl (removed fd (sockets ▸ listed))
  | _ => exact Or.inl listed

end Listening

/-- A server with its history: the table from which the listener has built its
last descriptor set. -/
structure Round (size : Nat) where
  server : PooledServer size
  built : List Descriptor

namespace Round

open PooledServer (Action)

variable {size : Nat}

/-- `listen()` is called, and all workers have been started. -/
def start (size : Nat) (listener : ServerListener) : Round size where
  server := .start size listener
  built := []

/-- The history after a step. -/
def record (round : Round size) : Action size → List Descriptor
  | .listen .build => round.server.sockets.mDescriptors
  | _ => round.built

/-- Every interleaving of the listener thread and the workers. -/
def machine (size : Nat) : Machine (Round size) (Action size) where
  step round action :=
    ((PooledServer.machine size).step round.server action).map fun next =>
      ⟨next, round.record action⟩

/-- An event that the dispatch loop makes for a client is for a Connection that
was in the table when the set was built. -/
def DispatchesBuilt (round : Round size) : Action size → Prop
  | .listen (.event _) => ∀ entry c, round.server.listening.entry? = some entry →
      entry.mpData = some c → ∃ old ∈ round.built, old.mpData = some c
  | _ => True

/-- `::accept` returns no number of the ready set. -/
def AcceptsUnready (round : Round size) : Action size → Prop
  | .listen (.event (.accepted clientsocket)) =>
      clientsocket ∉ round.server.listening.pc.phase.ready
  | _ => True

instance (round : Round size) : DecidablePred round.AcceptsUnready
  | .listen (.event (.accepted clientsocket)) =>
      inferInstanceAs (Decidable (clientsocket ∉ round.server.listening.pc.phase.ready))
  | .listen (.event (.reads _)) | .listen .build | .listen .selectFailed
  | .listen .selectTimeout | .listen (.selectReady _) | .listen .skip | .listen (.returned _)
  | .listen .endDispatch | .listen .check | .listen .startShutdown | .pool _ | .close _ _
  | .closeStep _ _ | .delete _ => inferInstanceAs (Decidable True)

/-- The invariant: entries that can still be dispatched in this round were in the
table when the set was built. -/
structure Current (round : Round size) : Prop where
  selecting : round.server.listening.pc.phase = .selecting →
    ∀ entry ∈ round.server.sockets.mDescriptors, entry ∈ round.built
  dispatching : ∀ ready, round.server.listening.pc.phase = .dispatching ready →
    ∀ entry ∈ round.server.sockets.mDescriptors, entry.mFd ∈ ready → entry ∈ round.built

theorem current_start (listener : ServerListener) : (start size listener).Current where
  selecting impossible := nomatch impossible
  dispatching _ impossible := nomatch impossible

variable {round next : Round size} {action : Action size}

/-- A step of a worker that leaves no new entry keeps the invariant. -/
theorem Current.frame (current : round.Current) (built : next.built = round.built)
    (pc : next.server.listening.pc = round.server.listening.pc)
    (table : next.server.sockets.mDescriptors ⊆ round.server.sockets.mDescriptors) :
    next.Current where
  selecting phase entry listed := by
    rw [pc] at phase
    rw [built]
    exact current.selecting phase entry (table listed)
  dispatching ready phase entry listed := by
    rw [pc] at phase
    rw [built]
    exact current.dispatching ready phase entry (table listed)

/-- A step of the listener keeps the invariant when `::accept` returns no number
of the ready set. -/
theorem Current.listen (current : round.Current) {inner : Listening.Action} {after : Listening}
    (unready : round.AcceptsUnready (.listen inner))
    (taken : (Listening.machine Array.written).step round.server.listening inner = some after) :
    Current ⟨{ round.server with listening := after }, round.record (.listen inner)⟩ := by
  have move := Listening.phase_step taken
  have entries : ∀ entry ∈ after.server.sockets.mDescriptors, _ :=
    fun _ => Listening.mem_mDescriptors_step taken
  generalize before : round.server.listening.pc.phase = phase at move entries
  generalize later : after.pc.phase = phase' at move
  -- Outside the dispatch loop no entry is new.
  have old : (∀ ready, phase ≠ .dispatching ready) →
      ∀ entry ∈ after.server.sockets.mDescriptors,
        entry ∈ round.server.sockets.mDescriptors := by
    intro outside entry listed
    rcases entries entry listed with earlier | ⟨ready, _, impossible, _⟩
    · exact earlier
    · exact absurd impossible (outside ready)
  cases move with
  | done =>
      exact ⟨fun impossible => (nomatch later.symm.trans impossible),
        fun _ impossible => (nomatch later.symm.trans impossible)⟩
  | build =>
      exact ⟨fun _ => old nofun, fun _ impossible => (nomatch later.symm.trans impossible)⟩
  | ready ready =>
      refine ⟨fun impossible => (nomatch later.symm.trans impossible),
        fun _ _ entry listed _ => ?_⟩
      exact current.selecting before entry (old nofun entry listed)
  | stay _ different =>
      have same : round.record (.listen inner) = round.built := by
        unfold record
        split
        · next building => exact absurd (Action.listen.inj building) different
        · rfl
      rw [same]
      refine ⟨fun selecting entry listed => ?_, fun ready dispatching entry listed set => ?_⟩
      · cases later.symm.trans selecting
        exact current.selecting before entry (old nofun entry listed)
      · cases later.symm.trans dispatching
        rcases entries entry listed with earlier | ⟨_, clientsocket, here, rfl, number⟩
        · exact current.dispatching ready before entry earlier set
        · have unused : clientsocket ∉ round.server.listening.pc.phase.ready := unready
          rw [before] at unused
          exact absurd (number ▸ set) unused

/-- Every step keeps the invariant when `::accept` returns no number of the ready set. -/
theorem Current.step (current : round.Current) (unready : round.AcceptsUnready action)
    (taken : (machine size).step round action = some next) : next.Current := by
  obtain ⟨server, stepped, rfl⟩ := Option.map_eq_some_iff.mp taken
  cases action with
  | listen inner =>
      obtain ⟨after, step, rfl⟩ := PooledServer.listen_step stepped
      exact current.listen unready step
  | pool inner =>
      cases PooledServer.step_cases stepped
      exact current.frame rfl rfl (List.Subset.refl _)
  | close w c =>
      cases PooledServer.step_cases stepped
      exact current.frame rfl rfl (List.Subset.refl _)
  | closeStep w pc =>
      cases PooledServer.step_cases stepped
      refine current.frame rfl rfl ?_
      cases pc with
      | removing c fd => exact (Closers.removeDescriptor_sublist _ _).subset
      | _ => exact List.Subset.refl _
  | delete w =>
      cases PooledServer.step_cases stepped with
      | @delete _ request =>
          unfold PooledServer.deleteRequest
          split <;> exact current.frame rfl rfl (List.Subset.refl _)

/-- What the listener dispatches is current. -/
theorem Current.dispatches (current : round.Current) (action : Action size) :
    round.DispatchesBuilt action := by
  unfold DispatchesBuilt
  split
  · intro entry c found owner
    obtain ⟨ready, i, here, listed, set⟩ := Listening.entry?_eq_some.mp found
    exact ⟨entry, current.dispatching ready (congrArg ListenPc.phase here) entry
      (List.mem_of_getElem? listed) set, owner⟩
  · trivial

/-- In every run in which `::accept` returns no number of the ready set and no
removal takes other entries along, every event that the dispatch loop makes for a
client is for a Connection that was in the table when the set of that round was
built. -/
theorem dispatchesBuilt_of_acceptsUnready (listener : ServerListener)
    (actions : List (Action size))
    (met : (machine size).Steps
      (fun round action => round.server.KeepsOthers action ∧ round.AcceptsUnready action)
      (start size listener) actions) :
    (machine size).Steps DispatchesBuilt (start size listener) actions :=
  (machine size).steps_mono (fun _ _ _ current met taken => current.step met.2 taken)
    (fun _ action _ current _ _ => current.dispatches action) (current_start listener) met

/-- A client is accepted, and in the next round it sends data. -/
theorem dispatchesBuilt_of_acceptsUnready_run :
    ∃ final, (machine 1).run (start 1 .sample)
        [.listen .build, .listen (.selectReady [3]), .listen (.event (.accepted 5)),
          .pool (.process 0 ⟨0, 5, .newConnection (some 0)⟩),
          .pool (.signal 0 ⟨0, 5, .newConnection (some 0)⟩ none), .listen (.returned 0),
          .listen .skip, .listen .endDispatch, .listen .check, .listen .build,
          .listen (.selectReady [5]), .listen .skip,
          .listen (.event (.reads [.block [104]]))] = some final ∧
      final.built = [⟨3, none⟩, ⟨5, some 0⟩] ∧
      (machine 1).Steps DispatchesBuilt (start 1 .sample)
        [.listen .build, .listen (.selectReady [3]), .listen (.event (.accepted 5)),
          .pool (.process 0 ⟨0, 5, .newConnection (some 0)⟩),
          .pool (.signal 0 ⟨0, 5, .newConnection (some 0)⟩ none), .listen (.returned 0),
          .listen .skip, .listen .endDispatch, .listen .check, .listen .build,
          .listen (.selectReady [5]), .listen .skip,
          .listen (.event (.reads [.block [104]]))] :=
  ⟨_, rfl, rfl, dispatchesBuilt_of_acceptsUnready .sample
    [.listen .build, .listen (.selectReady [3]), .listen (.event (.accepted 5)),
      .pool (.process 0 ⟨0, 5, .newConnection (some 0)⟩),
      .pool (.signal 0 ⟨0, 5, .newConnection (some 0)⟩ none), .listen (.returned 0),
      .listen .skip, .listen .endDispatch, .listen .check, .listen .build,
      .listen (.selectReady [5]), .listen .skip,
      .listen (.event (.reads [.block [104]]))] (by decide)⟩

/-- While the listener is in `select()`, a worker closes Connection 0, which has
the number 5 and is ready. In the same round `::accept` returns 5 for Connection
1, and the dispatch loop comes to its entry. -/
theorem dispatches_accepted_in_round :
    ∃ before next, (machine 1).run (start 1 .sample)
        [.listen .build, .listen (.selectReady [3]), .listen (.event (.accepted 5)),
          .pool (.process 0 ⟨0, 5, .newConnection (some 0)⟩),
          .pool (.signal 0 ⟨0, 5, .newConnection (some 0)⟩ none), .listen (.returned 0),
          .listen .skip, .listen .endDispatch, .listen .check, .listen .build,
          .pool (.testWorker 0), .pool (.sleep 0), .pool (.wake 0), .pool (.resume 0),
          .pool (.pull 0 ⟨0, 5, .newConnection (some 0)⟩),
          .pool (.call 0 ⟨0, 5, .newConnection (some 0)⟩), .close 0 0,
          .closeStep 0 (.testing 0), .closeStep 0 (.readingRemove 0),
          .closeStep 0 (.removing 0 5), .closeStep 0 (.readingClose 0),
          .closeStep 0 (.closing 0 5), .closeStep 0 (.clearing 0),
          .listen (.selectReady [3, 5]), .listen (.event (.accepted 5)),
          .pool (.process 0 ⟨1, 5, .newConnection (some 1)⟩),
          .pool (.signal 0 ⟨1, 5, .newConnection (some 1)⟩ none),
          .listen (.returned 0)] = some before ∧
      (machine 1).step before (.listen (.event (.reads [.block [104]]))) = some next ∧
      before.server.listening.entry? = some ⟨5, some 1⟩ ∧
      before.built = [⟨3, none⟩, ⟨5, some 0⟩] ∧
      ¬ before.DispatchesBuilt (.listen (.event (.reads [.block [104]]))) := by
  refine ⟨_, _, rfl, rfl, rfl, rfl, fun built => ?_⟩
  obtain ⟨old, member, owner⟩ := built ⟨5, some 1⟩ 1 rfl rfl
  rcases List.mem_cons.mp member with rfl | later
  · cases owner
  · rw [List.mem_singleton.mp later] at owner
    cases owner

end Round

end MSrv
