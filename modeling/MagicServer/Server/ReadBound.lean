import MagicServer.Server.Read
import Mathlib.Data.Nat.Find

/-!
# How much one call reads

The loop of `descriptorEvent` against a peer that decides what every read
returns, for ever. The loop has no bound of its own: it goes on as long as the
reads fill the buffer, and the bytes of whole blocks are counted in an `int`.
-/

namespace MSrv

/-- So many whole blocks are more bytes than an `int` can count. -/
def maxReads : Nat := 2 ^ 21

theorem maxReads_blocks : (maxReads * MSRV_READ_BUFFER_LEN : Nat) = INT_MAX + 1 := by decide

/-- The results of the first reads of a call, when the peer makes the read
number `n` return `peer n`. -/
def firstReads (peer : Nat → ReadResult) (count : Nat) : List ReadResult :=
  (List.range count).map peer

/-- One call makes a bounded number of reads, the length of what it has gathered
is never negative and stays in the range of `int`, and so does the size of the
next allocation. -/
structure ReadsBounded (server : ServerListener) (fd : Int) (pDescriptorData : Option ConnectionId)
    (heap : BlockHeap UInt8) (peer : Nat → ReadResult) : Prop where
  ends : ∃ count ≤ maxReads,
    (server.readEvent fd pDescriptorData heap (firstReads peer count)).isSome
  dynpos : ∀ count loop, ReadLoop.machine.run (.start heap) (firstReads peer count) = some loop →
    0 ≤ loop.dynpos ∧ loop.dynpos ≤ INT_MAX
  allocation : ∀ count loop,
    ReadLoop.machine.run (.start heap) (firstReads peer count) = some loop →
    loop.reading = true → loop.dynpos + (peer count).readcount ≤ INT_MAX

variable {heap : BlockHeap UInt8} {peer : Nat → ReadResult} {count : Nat}

theorem firstReads_succ (peer : Nat → ReadResult) (count : Nat) :
    firstReads peer (count + 1) = firstReads peer count ++ [peer count] := by
  unfold firstReads
  rw [List.range_succ, List.map_append, List.map_singleton]

theorem bytesOf_firstReads_succ (peer : Nat → ReadResult) (count : Nat) :
    bytesOf (firstReads peer (count + 1)) =
      bytesOf (firstReads peer count) ++ (peer count).bytes := by
  rw [firstReads_succ]
  simp only [bytesOf, List.flatMap_append, List.flatMap_cons, List.flatMap_nil, List.append_nil]

/-- Whole blocks. -/
theorem length_bytesOf_firstReads (full : ∀ n < count, (peer n).Full) :
    (bytesOf (firstReads peer count)).length = count * MSRV_READ_BUFFER_LEN := by
  induction count with
  | zero => rw [Nat.zero_mul]; rfl
  | succ count ih =>
      have last : (peer count).bytes.length = MSRV_READ_BUFFER_LEN := by
        have whole := full count (Nat.lt_succ_self count)
        revert whole
        cases peer count with
        | error => exact False.elim
        | block data => exact id
      rw [bytesOf_firstReads_succ, List.length_append,
        ih fun n before => full n (Nat.lt_succ_of_lt before), last, Nat.succ_mul]

namespace ReadLoop

/-- A pass through the loop that is defined keeps the length in the range of `int`. -/
theorem Holds.range {loop next : ReadLoop} {bytes : List UInt8} {result : ReadResult}
    (holds : loop.Holds bytes) (range : (bytes.length : Int) ≤ INT_MAX)
    (taken : loop.step result = some next) :
    ((bytes ++ result.bytes).length : Int) ≤ INT_MAX := by
  cases result with
  | error =>
      rw [ReadResult.bytes, List.append_nil]
      exact range
  | block buffer =>
      obtain ⟨_, taken⟩ := Option.ite_none_right_eq_some.mp taken
      split_ifs at taken with empty
      · rw [ReadResult.bytes, empty, List.append_nil]
        exact range
      · obtain ⟨small, _⟩ := Option.ite_none_left_eq_some.mp taken
        rw [ReadResult.bytes, List.length_append, Nat.cast_add, ← holds.dynpos]
        exact not_lt.mp small

/-- What holds after any number of reads of a call. -/
structure After (peer : Nat → ReadResult) (count : Nat) (loop : ReadLoop) : Prop where
  holds : loop.Holds (bytesOf (firstReads peer count))
  range : ((bytesOf (firstReads peer count)).length : Int) ≤ INT_MAX
  reading : loop.reading = true → ∀ n < count, (peer n).Full

theorem after_run {loop : ReadLoop}
    (ran : machine.run (.start heap) (firstReads peer count) = some loop) :
    After peer count loop := by
  induction count generalizing loop with
  | zero =>
      cases ran
      exact ⟨holds_start heap, INT_MAX_nonneg, fun _ n before => absurd before (Nat.not_lt_zero n)⟩
  | succ count ih =>
      rw [firstReads_succ] at ran
      obtain ⟨middle, before, last⟩ := machine.run_append_eq_some.mp ran
      obtain ⟨next, taken, done⟩ := machine.run_cons_eq_some.mp last
      cases done
      have after := ih before
      obtain ⟨reading, fits⟩ := step_takes taken
      have range := after.holds.range after.range taken
      obtain ⟨next, taken', holds, _, goes_on⟩ := after.holds.step reading fits range
      cases taken.symm.trans taken'
      refine ⟨?_, ?_, fun still n before => ?_⟩
      · rw [bytesOf_firstReads_succ]
        exact holds
      · rw [bytesOf_firstReads_succ]
        exact range
      · rcases Nat.lt_succ_iff_lt_or_eq.mp before with earlier | rfl
        · exact after.reading reading n earlier
        · rw [goes_on] at still
          exact of_decide_eq_true still

/-- An `int` can count less than `maxReads` whole blocks. -/
theorem blocks_range (few : count < maxReads) :
    ((count * MSRV_READ_BUFFER_LEN : Nat) : Int) ≤ INT_MAX := by
  have blocks := maxReads_blocks
  have fewer := Nat.mul_lt_mul_of_pos_right few ServerListener.MSRV_READ_BUFFER_LEN_pos
  omega

/-- Whole blocks that an `int` can count leave the loop about to read. -/
theorem run_full (heap : BlockHeap UInt8) (full : ∀ n < count, (peer n).Full)
    (few : count < maxReads) :
    ∃ loop, machine.run (.start heap) (firstReads peer count) = some loop ∧
      loop.reading = true := by
  induction count with
  | zero => exact ⟨.start heap, rfl, rfl⟩
  | succ count ih =>
      obtain ⟨loop, before, reading⟩ :=
        ih (fun n earlier => full n (Nat.lt_succ_of_lt earlier)) (Nat.lt_of_succ_lt few)
      have whole := full count (Nat.lt_succ_self count)
      have range : ((bytesOf (firstReads peer count) ++ (peer count).bytes).length : Int) ≤
          INT_MAX := by
        rw [← bytesOf_firstReads_succ, length_bytesOf_firstReads full]
        exact blocks_range few
      obtain ⟨next, taken, _, _, goes_on⟩ :=
        (after_run before).holds.step reading whole.fits range
      refine ⟨next, ?_, goes_on.trans (decide_eq_true whole)⟩
      rw [firstReads_succ]
      exact machine.run_concat before taken

end ReadLoop

/-- A read that does not fill the buffer returns less than a whole block. -/
theorem ReadResult.length_bytes_lt {result : ReadResult} (fits : result.Fits)
    (ends : ¬ result.Full) : result.bytes.length < MSRV_READ_BUFFER_LEN := by
  cases result with
  | error => exact ServerListener.MSRV_READ_BUFFER_LEN_pos
  | block data => exact lt_of_le_of_ne fits ends

theorem ReadResult.readcount_of_full {result : ReadResult} (full : result.Full) :
    result.readcount = MSRV_READ_BUFFER_LEN := by
  cases result with
  | error => exact full.elim
  | block data => exact congrArg Nat.cast full

theorem ReadResult.length_bytes_le {result : ReadResult} (fits : result.Fits) :
    result.bytes.length ≤ MSRV_READ_BUFFER_LEN := by
  cases result with
  | error => exact Nat.zero_le _
  | block data => exact fits

theorem ReadResult.readcount_le (result : ReadResult) :
    result.readcount ≤ result.bytes.length := by
  cases result with
  | error => decide
  | block data => exact le_refl _

variable {server : ServerListener} {fd : Int} {pDescriptorData : Option ConnectionId}

/-- The first read that does not fill the buffer is the last one of a call. -/
theorem oneCall_firstReads (fits : ∀ n, (peer n).Fits) {last : Nat} (ends : ¬ (peer last).Full)
    (first : ∀ n < last, (peer n).Full) : OneCall (firstReads peer (last + 1)) where
  fits result member := by
    obtain ⟨n, _, rfl⟩ := List.mem_map.mp member
    exact fits n
  ends := by
    refine ⟨firstReads peer last, peer last, firstReads_succ peer last, ?_, ends⟩
    intro block member
    obtain ⟨n, before, rfl⟩ := List.mem_map.mp member
    exact first n (List.mem_range.mp before)

/-- Such a call is bounded when an `int` can count the blocks before it. -/
theorem readsBounded_of_first (fits : ∀ n, (peer n).Fits)
    (reads : ¬ (fd = server.mSocket ∧ server.mProtocol = .TCP)) {last : Nat}
    (few : last < maxReads) (ends : ¬ (peer last).Full) (first : ∀ n < last, (peer n).Full) :
    ReadsBounded server fd pDescriptorData heap peer := by
  have short := ReadResult.length_bytes_lt (fits last) ends
  have whole := maxReads_blocks
  have room := Nat.mul_le_mul_right MSRV_READ_BUFFER_LEN (Nat.succ_le_of_lt few)
  rw [Nat.succ_mul] at room
  have range : ((bytesOf (firstReads peer (last + 1))).length : Int) ≤ INT_MAX := by
    rw [bytesOf_firstReads_succ, List.length_append, length_bytesOf_firstReads first]
    omega
  constructor
  · refine ⟨last + 1, few, ?_⟩
    have ended := server.readEvent_eq fd pDescriptorData heap (firstReads peer (last + 1)) range
    obtain ⟨readcount, gathered⟩ := (oneCall_firstReads fits ends first).readLoop
    have event : (server.descriptorEvent fd pDescriptorData
        (.reads (firstReads peer (last + 1)))).isSome := by
      rw [ServerListener.descriptorEvent, if_neg reads, gathered]
      rfl
    rw [← ended, Option.isSome_map] at event
    exact event
  · intro count loop ran
    have after := ReadLoop.after_run ran
    rw [after.holds.dynpos]
    exact ⟨Int.natCast_nonneg _, after.range⟩
  · intro count loop ran reading
    have after := ReadLoop.after_run ran
    have full := after.reading reading
    have before : count ≤ last := by
      by_contra beyond
      exact ends (full last (not_le.mp beyond))
    rw [after.holds.dynpos]
    have next := (peer count).readcount_le
    rcases before.lt_or_eq with earlier | rfl
    · have size := (ReadResult.length_bytes_le (fits count))
      have fewer := Nat.mul_le_mul_right MSRV_READ_BUFFER_LEN (Nat.succ_le_of_lt earlier)
      rw [Nat.succ_mul] at fewer
      rw [length_bytesOf_firstReads full]
      omega
    · rw [bytesOf_firstReads_succ, List.length_append] at range
      omega

/-- After `maxReads - 1` whole blocks the loop is about to read, and one more is
the first byte too many. -/
theorem allocation_flood (heap : BlockHeap UInt8) (flood : ∀ n < maxReads, (peer n).Full) :
    ∃ loop, ReadLoop.machine.run (.start heap) (firstReads peer (maxReads - 1)) = some loop ∧
      loop.reading = true ∧
      loop.dynpos + (peer (maxReads - 1)).readcount = INT_MAX + 1 := by
  have last : maxReads - 1 < maxReads := by decide
  have full : ∀ n < maxReads - 1, (peer n).Full := fun n before => flood n (before.trans last)
  obtain ⟨loop, ran, reading⟩ := ReadLoop.run_full heap full last
  refine ⟨loop, ran, reading, ?_⟩
  rw [(ReadLoop.after_run ran).holds.dynpos, length_bytesOf_firstReads full,
    ReadResult.readcount_of_full (flood _ last)]
  decide

theorem not_readsBounded_of_flood (flood : ∀ n < maxReads, (peer n).Full) :
    ¬ ReadsBounded server fd pDescriptorData heap peer := by
  intro bounded
  obtain ⟨loop, ran, reading, size⟩ := allocation_flood heap flood
  have allocation := bounded.allocation _ loop ran reading
  rw [size] at allocation
  exact absurd allocation (by decide)

/-- A call against a peer makes a bounded number of reads, and its lengths stay
in the range of `int`, exactly when one of its first `maxReads` reads does not
fill the buffer. -/
theorem readsBounded_iff (fits : ∀ n, (peer n).Fits)
    (reads : ¬ (fd = server.mSocket ∧ server.mProtocol = .TCP)) :
    ReadsBounded server fd pDescriptorData heap peer ↔ ∃ n < maxReads, ¬ (peer n).Full := by
  constructor
  · intro bounded
    by_contra flood
    push Not at flood
    exact not_readsBounded_of_flood flood bounded
  · intro ended
    obtain ⟨few, ends⟩ := Nat.find_spec ended
    refine readsBounded_of_first fits reads few ends fun n before => ?_
    by_contra earlier
    exact Nat.find_min ended before ⟨before.trans few, earlier⟩

/-- A peer whose reads return two bytes each. -/
def trickle (_ : Nat) : ReadResult := .block [104, 105]

theorem readsBounded_iff_trickle : ReadsBounded .sample 5 (some 0) .empty trickle := by
  have small : ([104, 105] : List UInt8).length < MSRV_READ_BUFFER_LEN := by decide
  have fits : ∀ n, (trickle n).Fits := fun _ => small.le
  have reads : ¬ ((5 : Int) = ServerListener.sample.mSocket ∧
      ServerListener.sample.mProtocol = .TCP) := by decide
  exact (readsBounded_iff fits reads).mpr ⟨0, by decide, small.ne⟩

/-- A peer that keeps the buffer full. -/
def flood (_ : Nat) : ReadResult := .block (List.replicate MSRV_READ_BUFFER_LEN 0)

/-- Against it the size of an allocation leaves the range of `int`. -/
theorem flood_unbounded : (∀ n, (flood n).Fits) ∧
    (∃ loop, ReadLoop.machine.run (.start .empty) (firstReads flood (maxReads - 1)) = some loop ∧
      loop.reading = true ∧ loop.dynpos + (flood (maxReads - 1)).readcount = INT_MAX + 1) ∧
    ¬ ReadsBounded .sample 5 (some 0) .empty flood := by
  have full : ∀ n, (flood n).Full := fun _ => List.length_replicate
  exact ⟨fun n => (full n).fits, allocation_flood .empty fun n _ => full n,
    not_readsBounded_of_flood fun n _ => full n⟩

end MSrv
