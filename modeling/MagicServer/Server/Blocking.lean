import MagicServer.Server.Read

/-!
# Reads that wait

The sockets are blocking: a read waits while nothing is available and the peer
has not closed its side. `descriptorEvent` is called when there is something to
read, and the loop in it decides by the size of the last block whether to read
once more.
-/

namespace MSrv

/-- The receiving side of the socket of a client. -/
structure StreamSocket where
  /-- The bytes that wait in the receive buffer. -/
  available : List UInt8
  /-- The peer has closed after these bytes; otherwise it is connected and silent. -/
  closed : Bool

namespace StreamSocket

/-- `::read`; it has no result while it waits. -/
def read (socket : StreamSocket) (count : Nat) : Option (List UInt8 × StreamSocket) :=
  if socket.available = [] then if socket.closed then some ([], socket) else none
  else
    some (socket.available.take count,
      { socket with available := socket.available.drop count })

/-- The reads that `descriptorEvent` makes on the socket. -/
def reads : Machine StreamSocket ReadResult where
  step socket
    | .error => none
    | .block data => (socket.read MSRV_READ_BUFFER_LEN).bind fun (found, rest) =>
        if found = data then some rest else none

/-- Every `::read` of a call finds at least one byte or the end of the stream:
the first one, and each one that the loop makes after whole blocks. -/
def NeverWaits (socket : StreamSocket) : Prop :=
  ∀ blocks rest, reads.run socket blocks = some rest → (∀ block ∈ blocks, block.Full) →
    (rest.read MSRV_READ_BUFFER_LEN).isSome

variable {socket rest : StreamSocket} {data : List UInt8}

theorem reads_step_eq_some :
    reads.step socket (.block data) = some rest ↔
      socket.read MSRV_READ_BUFFER_LEN = some (data, rest) := by
  simp only [reads, Option.bind_eq_some_iff, Option.ite_none_right_eq_some, Option.some_inj,
    Prod.exists]
  constructor
  · rintro ⟨found, left, read, rfl, rfl⟩
    exact read
  · intro read
    exact ⟨data, rest, read, rfl, rfl⟩

/-- What follows from a read, for the reads of the call after it. -/
theorem neverWaits_iff_read : socket.NeverWaits ↔
    (socket.read MSRV_READ_BUFFER_LEN).isSome ∧
      ∀ data rest, socket.read MSRV_READ_BUFFER_LEN = some (data, rest) →
        data.length = MSRV_READ_BUFFER_LEN → rest.NeverWaits := by
  constructor
  · intro never
    refine ⟨never [] socket rfl nofun, fun data rest read whole blocks final ran full => ?_⟩
    refine never (.block data :: blocks) final ?_ (List.forall_mem_cons.mpr ⟨whole, full⟩)
    exact reads.run_cons_eq_some.mpr ⟨rest, reads_step_eq_some.mpr read, ran⟩
  · rintro ⟨first, later⟩ blocks final ran full
    cases blocks with
    | nil =>
        cases ran
        exact first
    | cons block blocks =>
        obtain ⟨whole, others⟩ := List.forall_mem_cons.mp full
        obtain ⟨next, taken, onward⟩ := reads.run_cons_eq_some.mp ran
        cases block with
        | error => exact whole.elim
        | block data =>
            exact later data next (reads_step_eq_some.mp taken) whole blocks final onward others

/-- No read of a call waits exactly when the peer has closed or the waiting
bytes do not fill whole blocks. -/
theorem neverWaits_iff (socket : StreamSocket) : socket.NeverWaits ↔
    socket.closed = true ∨ socket.available.length % MSRV_READ_BUFFER_LEN ≠ 0 := by
  obtain ⟨available, closed⟩ := socket
  induction size : available.length using Nat.strong_induction_on generalizing available with
  | _ n ih =>
      subst size
      rw [neverWaits_iff_read]
      by_cases empty : available = []
      · subst empty
        cases closed with
        | false => simp [read]
        | true =>
            refine iff_of_true ⟨rfl, fun data rest found whole => ?_⟩ (Or.inl rfl)
            cases found
            exact absurd whole ServerListener.MSRV_READ_BUFFER_LEN_pos.ne
      · have found : read ⟨available, closed⟩ MSRV_READ_BUFFER_LEN =
            some (available.take MSRV_READ_BUFFER_LEN,
              ⟨available.drop MSRV_READ_BUFFER_LEN, closed⟩) := if_neg empty
        have positive := List.length_pos_iff.mpr empty
        have step := ServerListener.MSRV_READ_BUFFER_LEN_pos
        rw [found]
        by_cases small : available.length < MSRV_READ_BUFFER_LEN
        · refine iff_of_true ⟨rfl, fun data rest same whole => ?_⟩ (Or.inr ?_)
          · cases same
            rw [List.length_take] at whole
            omega
          · rw [Nat.mod_eq_of_lt small]
            exact positive.ne'
        · have whole : (available.take MSRV_READ_BUFFER_LEN).length = MSRV_READ_BUFFER_LEN := by
            rw [List.length_take]
            omega
          have rest := ih (available.drop MSRV_READ_BUFFER_LEN).length
            (by rw [List.length_drop]; omega) _ rfl
          rw [List.length_drop, ← Nat.mod_eq_sub_mod (not_lt.mp small)] at rest
          rw [← rest]
          constructor
          · rintro ⟨_, later⟩
            exact later _ _ rfl whole
          · intro never
            refine ⟨rfl, fun data rest same _ => ?_⟩
            cases same
            exact never

/-- After whole blocks from a silent peer the loop makes a read that waits. -/
theorem not_neverWaits_of_dvd (silent : socket.closed = false)
    (whole : MSRV_READ_BUFFER_LEN ∣ socket.available.length) : ¬ socket.NeverWaits := by
  rw [neverWaits_iff, silent, Nat.mod_eq_zero_of_dvd whole]
  simp only [Bool.false_eq_true, ne_eq, not_true_eq_false, or_self, not_false_eq_true]

/-- A read returns no more than it is asked for, and leaves the rest. -/
theorem read_eq_some {count : Nat} (found : socket.read count = some (data, rest)) :
    data.length ≤ count ∧ socket.available.length = data.length + rest.available.length := by
  unfold read at found
  split_ifs at found with empty <;> cases found
  · exact ⟨Nat.zero_le _, (Nat.zero_add _).symm⟩
  · exact ⟨List.length_take_le .., by rw [← List.length_append, List.take_append_drop]⟩

/-- A call in which no read waits comes to its end. -/
theorem NeverWaits.returns (never : socket.NeverWaits) :
    ∃ results rest, reads.run socket results = some rest ∧ OneCall results := by
  induction size : socket.available.length using Nat.strong_induction_on generalizing socket with
  | _ n ih =>
      subst size
      obtain ⟨first, later⟩ := neverWaits_iff_read.mp never
      obtain ⟨⟨data, rest⟩, found⟩ := Option.isSome_iff_exists.mp first
      obtain ⟨small, count⟩ := read_eq_some found
      have taken := reads_step_eq_some.mpr found
      by_cases whole : data.length = MSRV_READ_BUFFER_LEN
      · have step := ServerListener.MSRV_READ_BUFFER_LEN_pos
        obtain ⟨results, final, ran, fits, blocks, last, rfl, full, ends⟩ :=
          ih rest.available.length (by omega) (later data rest found whole) rfl
        refine ⟨.block data :: (blocks ++ [last]), final,
          reads.run_cons_eq_some.mpr ⟨rest, taken, ran⟩, ?_, .block data :: blocks, last, rfl, ?_,
          ends⟩
        · exact List.forall_mem_cons.mpr ⟨small, fits⟩
        · exact List.forall_mem_cons.mpr ⟨whole, full⟩
      · refine ⟨[.block data], rest, reads.run_cons_eq_some.mpr ⟨rest, taken, rfl⟩, ?_, [],
          .block data, rfl, nofun, whole⟩
        exact List.forall_mem_cons.mpr ⟨small, nofun⟩

/-- One `descriptorEvent` on the socket of a client returns without waiting. -/
def ReturnsAtOnce (socket : StreamSocket) (server : ServerListener) (fd : Int)
    (c : ConnectionId) : Prop :=
  socket.NeverWaits ∧ ∃ results rest, reads.run socket results = some rest ∧
    (server.descriptorEvent fd (some c) (.reads results)).isSome

/-- `descriptorEvent` returns without waiting exactly when the peer has closed
after the waiting bytes or their number is not a multiple of the block size. -/
theorem returnsAtOnce_iff (socket : StreamSocket) (server : ServerListener) (fd : Int)
    (c : ConnectionId) (client : fd ≠ server.mSocket) :
    socket.ReturnsAtOnce server fd c ↔
      socket.closed = true ∨ socket.available.length % MSRV_READ_BUFFER_LEN ≠ 0 := by
  rw [← neverWaits_iff]
  constructor
  · intro returns
    exact returns.1
  · intro never
    obtain ⟨results, rest, ran, call⟩ := never.returns
    obtain ⟨readcount, ended⟩ := call.readLoop
    refine ⟨never, results, rest, ran, ?_⟩
    simp only [ServerListener.descriptorEvent, client, false_and, ↓reduceIte, ended,
      Option.map_some, Option.isSome_some]

/-- Two bytes wait. -/
theorem returnsAtOnce_two :
    ReturnsAtOnce ⟨[104, 105], false⟩ ServerListener.sample 5 0 ↔
      false = true ∨ 2 % MSRV_READ_BUFFER_LEN ≠ 0 :=
  returnsAtOnce_iff ⟨[104, 105], false⟩ ServerListener.sample 5 0 (by decide)

/-- As many bytes wait as a block has, and the peer is silent: the second read
waits. -/
theorem not_returnsAtOnce_block :
    1 ≤ (List.replicate MSRV_READ_BUFFER_LEN (0 : UInt8)).length ∧
      ¬ ReturnsAtOnce ⟨List.replicate MSRV_READ_BUFFER_LEN 0, false⟩ ServerListener.sample 5 0 := by
  have size : (List.replicate MSRV_READ_BUFFER_LEN (0 : UInt8)).length = MSRV_READ_BUFFER_LEN :=
    List.length_replicate
  refine ⟨by rw [size]; decide, fun returns => ?_⟩
  exact not_neverWaits_of_dvd rfl (dvd_of_eq size.symm) returns.1

end StreamSocket

end MSrv
