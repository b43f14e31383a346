import MagicServer.Library.BlockHeap
import MagicServer.Library.Machine
import MagicServer.Server.Listener

/-!
# Reading what has arrived

The loop of `descriptorEvent` that reads all data available from a socket, once
more with its variables and its buffer in memory: `malloc` for the first block,
`realloc` for the later ones, and a copy to the offset `dynpos`. As long as the
bytes of a call can be counted in an `int`, the buffer holds what the loop over
lists has gathered. From this it follows that the data requests of a stream
carry its bytes, none lost, repeated or out of order.
-/

namespace MSrv

namespace ReadResult

/-- A whole block, after which the loop reads on. -/
def Full : ReadResult → Prop
  | .block data => data.length = MSRV_READ_BUFFER_LEN
  | .error => False

/-- `::read` returns no more than it is asked for. -/
def Fits : ReadResult → Prop
  | .block data => data.length ≤ MSRV_READ_BUFFER_LEN
  | .error => True

def bytes : ReadResult → List UInt8
  | .block data => data
  | .error => []

/-- What `::read` returns. -/
def readcount : ReadResult → Int
  | .block data => data.length
  | .error => -1

instance : DecidablePred Full
  | .block _ => inferInstanceAs (Decidable (_ = _))
  | .error => inferInstanceAs (Decidable False)

instance : DecidablePred Fits
  | .block _ => inferInstanceAs (Decidable (_ ≤ _))
  | .error => inferInstanceAs (Decidable True)

theorem Full.fits {result : ReadResult} (full : result.Full) : result.Fits := by
  cases result with
  | error => exact full.elim
  | block data => exact le_of_eq full

end ReadResult

/-- The bytes of several reads. -/
def bytesOf (results : List ReadResult) : List UInt8 := results.flatMap ReadResult.bytes

/-- The results of the reads of one call: whole blocks, and a last one that is not. -/
structure OneCall (results : List ReadResult) : Prop where
  fits : ∀ result ∈ results, result.Fits
  ends : ∃ blocks last, results = blocks ++ [last] ∧ (∀ block ∈ blocks, block.Full) ∧ ¬ last.Full

/-! ## The loop over lists -/

namespace ServerListener

variable {dynbuffer gathered : List UInt8} {readcount : Int} {results more : List ReadResult}

theorem MSRV_READ_BUFFER_LEN_pos : 0 < MSRV_READ_BUFFER_LEN := by decide

/-- After a whole block the loop reads on. -/
theorem readLoop_full {result : ReadResult} (full : result.Full) :
    readLoop dynbuffer (result :: more) = readLoop (dynbuffer ++ result.bytes) more := by
  cases result with
  | error => exact full.elim
  | block data =>
      have size : data.length = MSRV_READ_BUFFER_LEN := full
      have some_data : data ≠ [] := by
        rintro rfl
        exact MSRV_READ_BUFFER_LEN_pos.ne size
      rw [readLoop, if_neg size.not_gt, if_neg some_data, if_pos size]
      rfl

/-- Any other result ends the loop. -/
theorem readLoop_last {result : ReadResult} (fits : result.Fits) (ends : ¬ result.Full) :
    readLoop dynbuffer [result] = some (dynbuffer ++ result.bytes, result.readcount) := by
  cases result with
  | error =>
      simp only [readLoop, ↓reduceIte, ReadResult.bytes, List.append_nil, ReadResult.readcount]
  | block data =>
      have small : ¬ data.length > MSRV_READ_BUFFER_LEN := not_lt.mpr fits
      have partly : ¬ data.length = MSRV_READ_BUFFER_LEN := ends
      rw [readLoop, if_neg small]
      by_cases empty : data = []
      · subst empty
        simp only [↓reduceIte, ReadResult.bytes, List.append_nil, ReadResult.readcount,
          List.length_nil, Nat.cast_zero]
      · rw [if_neg empty, if_neg partly, if_pos rfl]
        rfl

/-- A call may take a single short block. -/
theorem readLoop_short {data : List UInt8} (small : data.length < MSRV_READ_BUFFER_LEN) :
    readLoop [] [.block data] = some (data, (data.length : Int)) :=
  readLoop_last (show ReadResult.Fits (.block data) from small.le) small.ne

/-- The loop gathers the bytes of all blocks. -/
theorem readLoop_blocks {blocks : List ReadResult} (full : ∀ block ∈ blocks, block.Full) :
    readLoop dynbuffer (blocks ++ more) = readLoop (dynbuffer ++ bytesOf blocks) more := by
  induction blocks generalizing dynbuffer with
  | nil => rw [List.nil_append, bytesOf, List.flatMap_nil, List.append_nil]
  | cons block rest ih =>
      rw [List.cons_append, readLoop_full (full block List.mem_cons_self),
        ih fun other member => full other (List.mem_cons_of_mem _ member), List.append_assoc]
      rfl

/-- The loop ends with the results of one call and gathers their bytes. -/
theorem readLoop_oneCall {blocks : List ReadResult} {last : ReadResult}
    (full : ∀ block ∈ blocks, block.Full) (fits : last.Fits) (ends : ¬ last.Full) :
    readLoop dynbuffer (blocks ++ [last]) =
      some (dynbuffer ++ bytesOf (blocks ++ [last]), last.readcount) := by
  rw [readLoop_blocks full, readLoop_last fits ends, List.append_assoc]
  simp only [bytesOf, List.flatMap_append, List.flatMap_cons, List.flatMap_nil, List.append_nil]

/-- The loop ends after a result that is no whole block, and reads on after any other. -/
theorem readLoop_cons_eq_some {result : ReadResult} :
    readLoop dynbuffer (result :: more) = some (gathered, readcount) ↔
      (result.Full ∧ readLoop (dynbuffer ++ result.bytes) more = some (gathered, readcount)) ∨
        (¬ result.Full ∧ result.Fits ∧ more = [] ∧ dynbuffer ++ result.bytes = gathered ∧
          result.readcount = readcount) := by
  by_cases full : result.Full
  · rw [readLoop_full full]
    simp only [full, true_and, not_true_eq_false, false_and, or_false]
  · simp only [full, false_and, not_false_eq_true, true_and, false_or]
    constructor
    · intro ended
      have alone : more = [] ∧ result.Fits := by
        cases result with
        | error =>
            rw [readLoop, Option.ite_none_right_eq_some] at ended
            exact ⟨ended.1, trivial⟩
        | block data =>
            have partly : ¬ data.length = MSRV_READ_BUFFER_LEN := full
            rw [readLoop, Option.ite_none_left_eq_some] at ended
            obtain ⟨small, ended⟩ := ended
            refine ⟨?_, not_lt.mp small⟩
            by_cases empty : data = []
            · rw [if_pos empty, Option.ite_none_right_eq_some] at ended
              exact ended.1
            · rw [if_neg empty, if_neg partly, Option.ite_none_right_eq_some] at ended
              exact ended.1
      obtain ⟨rfl, fits⟩ := alone
      rw [readLoop_last fits full, Option.some_inj, Prod.mk.injEq] at ended
      exact ⟨fits, rfl, ended⟩
    · rintro ⟨fits, rfl, rfl, rfl⟩
      exact readLoop_last fits full

/-- It ends with nothing but the results of one call. -/
theorem oneCall_of_readLoop (ended : readLoop dynbuffer results = some (gathered, readcount)) :
    OneCall results := by
  induction results generalizing dynbuffer with
  | nil => cases ended
  | cons result rest ih =>
      rcases readLoop_cons_eq_some.mp ended with ⟨full, later⟩ | ⟨ends, fits, rfl, _⟩
      · obtain ⟨fits, blocks, last, rfl, whole, ends⟩ := ih later
        refine ⟨?_, result :: blocks, last, rfl, ?_, ends⟩
        · exact List.forall_mem_cons.mpr ⟨full.fits, fits⟩
        · exact List.forall_mem_cons.mpr ⟨full, whole⟩
      · exact ⟨by simpa using fits, [], result, rfl, nofun, ends⟩

end ServerListener

namespace OneCall

variable {results : List ReadResult}

theorem readLoop (call : OneCall results) :
    ∃ readcount, ServerListener.readLoop [] results = some (bytesOf results, readcount) := by
  obtain ⟨fits, blocks, last, rfl, full, ends⟩ := call
  have small := fits last (List.mem_append_right _ (List.mem_singleton_self _))
  exact ⟨last.readcount, ServerListener.readLoop_oneCall full small ends⟩

/-- A call whose first read tells of the end of the stream makes no other read. -/
theorem of_head (call : OneCall results) (first : results.head? = some (.block [])) :
    results = [.block []] := by
  obtain ⟨_, blocks, last, rfl, full, _⟩ := call
  cases blocks with
  | nil => exact congrArg (fun result => [result]) (Option.some_inj.mp first)
  | cons block rest =>
      cases Option.some_inj.mp first
      have whole : ReadResult.Full (.block []) := full _ List.mem_cons_self
      exact absurd whole ServerListener.MSRV_READ_BUFFER_LEN_pos.ne

/-- A call reads some bytes, the end of the stream at once, or an error at once. -/
theorem bytes_cases (call : OneCall results) :
    bytesOf results ≠ [] ∨ results = [.block []] ∨ results = [.error] := by
  obtain ⟨fits, blocks, last, rfl, full, ends⟩ := call
  cases blocks with
  | nil =>
      cases last with
      | error => exact Or.inr (Or.inr rfl)
      | block data =>
          by_cases empty : data = []
          · exact Or.inr (Or.inl (by rw [empty]; rfl))
          · left
            simpa [bytesOf, ReadResult.bytes] using empty
  | cons block rest =>
      left
      have whole := full block List.mem_cons_self
      cases block with
      | error => exact whole.elim
      | block data =>
          have some_data : data ≠ [] := by
            rintro rfl
            exact ServerListener.MSRV_READ_BUFFER_LEN_pos.ne whole
          simp [bytesOf, ReadResult.bytes, some_data]

end OneCall

/-! ## The loop in memory -/

/-- The variables of the loop, and the heap its buffer is in. -/
structure ReadLoop where
  heap : BlockHeap UInt8
  dynbuffer : BlockHeap.Pointer
  dynpos : Int
  readcount : Int
  /-- The loop is about to read a block. -/
  reading : Bool

namespace ReadLoop

/-- The loop is entered. -/
def start (heap : BlockHeap UInt8) : ReadLoop where
  heap := heap
  dynbuffer := none
  dynpos := 0
  readcount := 0
  reading := true

/-- Allocates enough space in the target buffer. -/
def allocate (loop : ReadLoop) (readcount : Int) : Option (BlockHeap.Pointer × BlockHeap UInt8) :=
  if loop.dynbuffer.isSome then loop.heap.realloc loop.dynbuffer (loop.dynpos + readcount)
  else some (loop.heap.malloc readcount)

/-- Copies a block to the target buffer. A sum that is no `int` has no defined value. -/
def copyBlock (loop : ReadLoop) (buffer : List UInt8) : Option ReadLoop :=
  let readcount : Int := buffer.length
  if loop.dynpos + readcount > INT_MAX then none
  else do
    let (dynbuffer, heap) ← loop.allocate readcount
    let heap ← heap.store dynbuffer loop.dynpos (buffer.map some)
    some
      { heap := heap
        dynbuffer := dynbuffer
        dynpos := loop.dynpos + readcount
        readcount := readcount
        reading := readcount = MSRV_READ_BUFFER_LEN }

/-- One pass through the loop, with what `::read` returns. -/
def step (loop : ReadLoop) : ReadResult → Option ReadLoop
  | .error =>
      if loop.reading then some { loop with readcount := -1, reading := false } else none
  | .block buffer =>
      if loop.reading ∧ buffer.length ≤ MSRV_READ_BUFFER_LEN then
        if buffer = [] then some { loop with readcount := 0, reading := false }
        else loop.copyBlock buffer
      else none

def machine : Machine ReadLoop ReadResult where
  step := step

/-- What a `DataRequest` has as its data after `setData (dynbuffer, dynpos)`. -/
def data (loop : ReadLoop) : Option (List UInt8) :=
  (loop.heap.load loop.dynbuffer 0 loop.dynpos).bind fun slots => slots.mapM id

/-- The buffer holds the bytes. -/
structure Holds (loop : ReadLoop) (bytes : List UInt8) : Prop where
  dynpos : loop.dynpos = bytes.length
  dynbuffer : (loop.dynbuffer = none ∧ bytes = []) ∨
    ∃ number, loop.dynbuffer = some number ∧ loop.heap.block number = some (bytes.map some)

variable {loop : ReadLoop} {bytes : List UInt8} {results : List ReadResult}

theorem holds_start (heap : BlockHeap UInt8) : (start heap).Holds [] where
  dynpos := rfl
  dynbuffer := Or.inl ⟨rfl, rfl⟩

/-- A block is appended to what the buffer holds. -/
theorem Holds.copyBlock (holds : loop.Holds bytes) (buffer : List UInt8)
    (range : ((bytes ++ buffer).length : Int) ≤ INT_MAX) :
    ∃ next, loop.copyBlock buffer = some next ∧ next.Holds (bytes ++ buffer) ∧
      next.readcount = buffer.length ∧
      next.reading = decide (buffer.length = MSRV_READ_BUFFER_LEN) := by
  have size : loop.dynpos + buffer.length = ((bytes.length + buffer.length : Nat) : Int) := by
    rw [holds.dynpos, Nat.cast_add]
  -- Either way there is a block with the old bytes and room for the new ones.
  obtain ⟨number, heap, allocation, room⟩ : ∃ (number : Nat) (heap : BlockHeap UInt8),
      loop.allocate buffer.length = some (some number, heap) ∧
      heap.block number = some (bytes.map some ++ List.replicate buffer.length none) := by
    unfold ReadLoop.allocate
    rw [size]
    rcases holds.dynbuffer with ⟨null, rfl⟩ | ⟨old, pointer, block⟩
    · obtain ⟨heap, allocation, fresh, _⟩ :=
        loop.heap.malloc_of_nonneg (Int.natCast_nonneg buffer.length)
      refine ⟨_, heap, ?_, fresh⟩
      rw [null, allocation]
      rfl
    · obtain ⟨heap, allocation, grown⟩ := loop.heap.realloc_of_block buffer.length block
      rw [List.length_map] at allocation
      refine ⟨_, heap, ?_, grown⟩
      rw [pointer, allocation]
      rfl
  obtain ⟨final, stored, written⟩ : ∃ final : BlockHeap UInt8,
      heap.store (some number) bytes.length (buffer.map some) = some final ∧
      final.block number = some ((bytes ++ buffer).map some) := by
    refine ⟨_, heap.store_of_le room (by simp), ?_⟩
    rw [BlockHeap.block_put_self, room, Option.map_some]
    simp
  refine ⟨⟨final, some number, (bytes.length + buffer.length : Nat), buffer.length,
    decide ((buffer.length : Int) = MSRV_READ_BUFFER_LEN)⟩, ?_, ⟨?_, ?_⟩, rfl, ?_⟩
  · unfold ReadLoop.copyBlock
    simp only
    rw [allocation, size, if_neg (by rw [List.length_append] at range; omega)]
    simp only [Option.bind_eq_bind, Option.bind_some, holds.dynpos]
    rw [stored, Option.bind_some]
  · rw [List.length_append]
  · exact Or.inr ⟨number, rfl, written⟩
  · simp only [Nat.cast_inj]

/-- The data of a request are the bytes in the buffer. -/
theorem Holds.data (holds : loop.Holds bytes) (some_bytes : bytes ≠ []) :
    loop.data = some bytes := by
  rcases holds.dynbuffer with ⟨_, empty⟩ | ⟨number, pointer, block⟩
  · exact absurd empty some_bytes
  · have whole :
        BlockHeap.slice (bytes.map some) (0 : Nat) bytes.length = some (bytes.map some) := by
      rw [BlockHeap.slice_of_le (by simp)]
      simp
    unfold ReadLoop.data BlockHeap.load
    rw [pointer, Option.bind_some, block, Option.bind_some, holds.dynpos]
    rw [Nat.cast_zero] at whole
    rw [whole, Option.bind_some, List.mapM_map]
    exact (List.mapM_pure (f := id)).trans (congrArg some (List.map_id _))

/-- One pass through the loop. -/
theorem Holds.step (holds : loop.Holds bytes) (reading : loop.reading = true)
    {result : ReadResult} (fits : result.Fits)
    (range : ((bytes ++ result.bytes).length : Int) ≤ INT_MAX) :
    ∃ next, loop.step result = some next ∧ next.Holds (bytes ++ result.bytes) ∧
      next.readcount = result.readcount ∧ next.reading = decide result.Full := by
  cases result with
  | error =>
      refine ⟨{ loop with readcount := -1, reading := false }, if_pos reading, ?_, rfl, rfl⟩
      exact ⟨holds.dynpos.trans (by rw [ReadResult.bytes, List.append_nil]), by
        rw [ReadResult.bytes, List.append_nil]
        exact holds.dynbuffer⟩
  | block buffer =>
      have small : loop.reading = true ∧ buffer.length ≤ MSRV_READ_BUFFER_LEN := ⟨reading, fits⟩
      by_cases empty : buffer = []
      · subst empty
        refine ⟨{ loop with readcount := 0, reading := false }, ?_, ?_, rfl, ?_⟩
        · simp only [ReadLoop.step, if_pos small, ↓reduceIte]
        · rw [ReadResult.bytes, List.append_nil]
          exact ⟨holds.dynpos, holds.dynbuffer⟩
        · exact (decide_eq_false ServerListener.MSRV_READ_BUFFER_LEN_pos.ne).symm
      · obtain ⟨next, copied, holds', count, goes_on⟩ := holds.copyBlock buffer range
        refine ⟨next, ?_, holds', count, goes_on.trans (decide_eq_decide.mpr Iff.rfl)⟩
        simp only [ReadLoop.step, if_pos small, if_neg empty, copied]

/-- The loop in memory ends with the results with which the loop over lists
ends, and its buffer then holds what that loop has gathered. -/
theorem Holds.run (holds : loop.Holds bytes) (reading : loop.reading = true)
    (range : ((bytes ++ bytesOf results).length : Int) ≤ INT_MAX) {gathered : List UInt8}
    {readcount : Int} (ended : ServerListener.readLoop bytes results = some (gathered, readcount)) :
    ∃ final, machine.run loop results = some final ∧ final.reading = false ∧
      final.readcount = readcount ∧ final.Holds gathered := by
  induction results generalizing loop bytes with
  | nil => cases ended
  | cons result rest ih =>
      have split : bytes ++ bytesOf (result :: rest) = bytes ++ result.bytes ++ bytesOf rest := by
        rw [List.append_assoc]
        rfl
      rw [split] at range
      have first : ((bytes ++ result.bytes).length : Int) ≤ INT_MAX := by
        rw [List.length_append] at range
        omega
      rcases ServerListener.readLoop_cons_eq_some.mp ended with
        ⟨full, later⟩ | ⟨ends, fits, rfl, rfl, rfl⟩
      · obtain ⟨next, taken, holds', _, goes_on⟩ := holds.step reading full.fits first
        obtain ⟨final, ran, rest⟩ := ih holds' (goes_on.trans (decide_eq_true full)) range later
        exact ⟨final, machine.run_cons_eq_some.mpr ⟨next, taken, ran⟩, rest⟩
      · obtain ⟨next, taken, holds', count, stops⟩ := holds.step reading fits first
        exact ⟨next, machine.run_cons_eq_some.mpr ⟨next, taken, rfl⟩,
          stops.trans (decide_eq_false ends), count, holds'⟩

/-- The loop takes what `::read` can return, while it reads. -/
theorem step_takes {next : ReadLoop} {result : ReadResult} (taken : loop.step result = some next) :
    loop.reading = true ∧ result.Fits := by
  cases result with
  | error => exact ⟨(Option.ite_none_right_eq_some.mp taken).1, trivial⟩
  | block buffer => exact (Option.ite_none_right_eq_some.mp taken).1

/-- Results with which the loop over lists does not end leave the loop in memory
about to read. -/
theorem Holds.run_reading (holds : loop.Holds bytes) (reading : loop.reading = true)
    (range : ((bytes ++ bytesOf results).length : Int) ≤ INT_MAX)
    (unended : ServerListener.readLoop bytes results = none) {final : ReadLoop}
    (ran : machine.run loop results = some final) : final.reading = true := by
  induction results generalizing loop bytes with
  | nil =>
      cases ran
      exact reading
  | cons result rest ih =>
      rw [show bytes ++ bytesOf (result :: rest) = bytes ++ result.bytes ++ bytesOf rest by
        rw [List.append_assoc]
        rfl] at range
      obtain ⟨next, taken, onward⟩ := machine.run_cons_eq_some.mp ran
      obtain ⟨other, taken', holds', _, goes_on⟩ := holds.step reading (step_takes taken).2
        (by rw [List.length_append] at range; omega)
      cases taken.symm.trans taken'
      by_cases full : result.Full
      · rw [ServerListener.readLoop_full full] at unended
        exact ih holds' (goes_on.trans (decide_eq_true full)) range unended onward
      · have stopped : next.reading = false := goes_on.trans (decide_eq_false full)
        cases rest with
        | nil =>
            rw [ServerListener.readLoop_last (step_takes taken).2 full] at unended
            cases unended
        | cons more later =>
            obtain ⟨_, taken'', _⟩ := machine.run_cons_eq_some.mp onward
            cases stopped.symm.trans (step_takes taken'').1

end ReadLoop

namespace ServerListener

/-- `descriptorEvent` on a socket that it reads, with the buffer in memory: what
is left of the heap, the request for the handler, and whether the descriptor is
removed after the call. -/
def readEvent (server : ServerListener) (fd : Int) (pDescriptorData : Option ConnectionId)
    (heap : BlockHeap UInt8) (results : List ReadResult) :
    Option (BlockHeap UInt8 × (Option Request × ServerListener) × Bool) :=
  if fd = server.mSocket ∧ server.mProtocol = .TCP then none
  else
    (ReadLoop.machine.run (.start heap) results).bind fun loop =>
      if loop.reading then none
      else if loop.dynpos > 0 then
        loop.data.map fun data =>
          (loop.heap, match server.mProtocol with
            | .TCP => server.generate .streamData fd (.streamData pDescriptorData data)
            | .UDP => server.generate .datagram fd (.datagram data), false)
      else if loop.readcount = 0 ∧ loop.dynpos = 0 then
        some (loop.heap, server.generate .connectionLost fd (.connectionLost pDescriptorData), true)
      else some (loop.heap, (none, server), false)

/-- With its buffer in memory `descriptorEvent` does what it does with a list,
as long as an `int` can count the bytes of the call. -/
theorem readEvent_eq (server : ServerListener) (fd : Int) (pDescriptorData : Option ConnectionId)
    (heap : BlockHeap UInt8) (results : List ReadResult)
    (range : ((bytesOf results).length : Int) ≤ INT_MAX) :
    (server.readEvent fd pDescriptorData heap results).map Prod.snd =
      server.descriptorEvent fd pDescriptorData (.reads results) := by
  simp only [readEvent, descriptorEvent]
  by_cases client : fd = server.mSocket ∧ server.mProtocol = .TCP
  · rw [if_pos client, if_pos client]
    rfl
  · rw [if_neg client, if_neg client]
    have holds := ReadLoop.holds_start heap
    cases ended : readLoop [] results with
    | none =>
        cases ran : ReadLoop.machine.run (.start heap) results with
        | none => rfl
        | some final =>
            rw [Option.bind_some, holds.run_reading rfl range ended ran]
            rfl
    | some loop =>
        obtain ⟨gathered, readcount⟩ := loop
        obtain ⟨final, ran, stopped, rfl, holds'⟩ := holds.run rfl range ended
        rw [ran, Option.bind_some, stopped, if_neg Bool.false_ne_true, holds'.dynpos,
          Option.map_some]
        by_cases some_data : gathered = []
        · subst some_data
          by_cases lost : final.readcount = 0 <;> simp [lost]
        · have positive : (gathered.length : Int) > 0 :=
            Int.natCast_pos.mpr (List.length_pos_iff.mpr some_data)
          rw [if_pos positive, holds'.data some_data, if_pos some_data]
          rfl

end ServerListener

/-! ## The data of a stream -/

/-- The bytes of a `StreamDataRequest`. -/
def Request.streamBytes (request : Request) : List UInt8 :=
  match request.content with
  | .streamData _ mpData => mpData
  | _ => []

/-- A call of `descriptorEvent` on the socket of a client: the listener and the
heap at that time, and the results of the reads. -/
structure StreamCall where
  server : ServerListener
  heap : BlockHeap UInt8
  results : List ReadResult

namespace StreamCall

/-- The call is made for a client of a TCP listener with `StreamData` and
`ConnectionLost` requests enabled, and reads less than 2^31 bytes. -/
structure Serves (call : StreamCall) (fd : Int) : Prop where
  client : fd ≠ call.server.mSocket
  protocol : call.server.mProtocol = .TCP
  streamData : call.server.generates .streamData = true
  connectionLost : call.server.generates .connectionLost = true
  results : OneCall call.results
  range : ((bytesOf call.results).length : Int) ≤ INT_MAX

/-- The requests that the call passes to the handler. -/
def passes (call : StreamCall) (fd : Int) (c : ConnectionId) : List Request :=
  match call.server.readEvent fd (some c) call.heap call.results with
  | some (_, (arrived, _), _) => arrived.toList
  | none => []

/-- What one call passes to the handler: its bytes in one request, if there are
any; that the stream has ended, if its first read tells so; and nothing else. -/
theorem Serves.passes {call : StreamCall} {fd : Int} (serves : call.Serves fd) (c : ConnectionId) :
    (call.server.readEvent fd (some c) call.heap call.results).isSome ∧
    ((bytesOf call.results ≠ [] ∧ ∃ address,
        call.passes fd c = [⟨address, fd, .streamData (some c) (bytesOf call.results)⟩]) ∨
      (call.results = [.block []] ∧ ∃ address,
        call.passes fd c = [⟨address, fd, .connectionLost (some c)⟩]) ∨
      (call.results = [.error] ∧ call.passes fd c = [])) := by
  have read := call.server.readEvent_eq fd (some c) call.heap call.results serves.range
  simp only [ServerListener.descriptorEvent, serves.client, false_and, ↓reduceIte,
    serves.protocol, ServerListener.generate, serves.streamData, serves.connectionLost,
    ServerListener.newRequest] at read
  obtain ⟨last, ended⟩ := serves.results.readLoop
  rw [ended, Option.map_some] at read
  obtain ⟨⟨heap, arrived, lost⟩, returned, same⟩ := Option.map_eq_some_iff.mp read
  refine ⟨by rw [returned]; rfl, ?_⟩
  unfold StreamCall.passes
  rw [returned]
  rcases serves.results.bytes_cases with some_bytes | lost | failed
  · rw [if_pos some_bytes] at same
    cases same
    exact Or.inl ⟨some_bytes, _, rfl⟩
  · rw [lost] at ended same
    cases ended
    cases same
    exact Or.inr (Or.inl ⟨lost, _, rfl⟩)
  · rw [failed] at ended same
    cases ended
    cases same
    exact Or.inr (Or.inr ⟨failed, rfl⟩)

/-- The data requests of a client carry exactly the bytes of its stream, in
order and at least one byte each, and a call tells that the stream has ended
exactly when its first read does. -/
theorem carries_stream (fd : Int) (c : ConnectionId) (calls : List StreamCall)
    (serves : ∀ call ∈ calls, call.Serves fd) :
    (∀ call ∈ calls, (call.server.readEvent fd (some c) call.heap call.results).isSome) ∧
    (calls.flatMap fun call => call.passes fd c).flatMap Request.streamBytes =
      bytesOf (calls.flatMap StreamCall.results) ∧
    (∀ request ∈ calls.flatMap fun call => call.passes fd c,
      ∀ mrpConn mpData, request.content = .streamData mrpConn mpData → mpData ≠ []) ∧
    ∀ call ∈ calls, (∃ request ∈ call.passes fd c, request.getType = .connectionLost) ↔
      call.results.head? = some (.block []) := by
  refine ⟨fun call member => ((serves call member).passes c).1, ?_, ?_, ?_⟩
  · unfold bytesOf
    rw [List.flatMap_assoc, List.flatMap_assoc]
    refine List.flatMap_congr fun call member => ?_
    rcases ((serves call member).passes c).2 with
      ⟨_, address, passed⟩ | ⟨read, address, passed⟩ | ⟨read, passed⟩
    · rw [passed]
      exact List.append_nil _
    · rw [passed, read]
      rfl
    · rw [passed, read]
      rfl
  · intro request member mrpConn mpData content
    obtain ⟨call, listed, passed⟩ := List.mem_flatMap.mp member
    rcases ((serves call listed).passes c).2 with
      ⟨some_bytes, address, all⟩ | ⟨_, address, all⟩ | ⟨_, all⟩
    · rw [all, List.mem_singleton] at passed
      subst passed
      cases content
      exact some_bytes
    · rw [all, List.mem_singleton] at passed
      subst passed
      cases content
    · rw [all] at passed
      cases passed
  · intro call member
    rcases ((serves call member).passes c).2 with
      ⟨some_bytes, address, all⟩ | ⟨read, address, all⟩ | ⟨read, all⟩
    · rw [all]
      refine iff_of_false ?_ fun first => some_bytes ?_
      · rintro ⟨request, passed, type⟩
        rw [List.mem_singleton.mp passed] at type
        cases type
      · rw [(serves call member).results.of_head first]
        rfl
    · rw [all, read]
      exact iff_of_true ⟨_, List.mem_singleton_self _, rfl⟩ rfl
    · rw [all, read]
      exact iff_of_false (fun ⟨_, impossible, _⟩ => nomatch impossible) nofun

/-- A client sends three bytes, which arrive in two calls, and closes. -/
theorem carries_stream_sample :
    ([⟨ServerListener.sample, .empty, [.block [104, 105]]⟩,
        ⟨ServerListener.sample, .empty, [.block [10]]⟩,
        ⟨ServerListener.sample, .empty, [.block []]⟩].flatMap fun call : StreamCall =>
      call.passes 5 0).flatMap Request.streamBytes = [104, 105, 10] := by
  refine (carries_stream 5 0 _ ?_).2.1
  have serves : ∀ data : List UInt8, data.length < MSRV_READ_BUFFER_LEN →
      Serves ⟨ServerListener.sample, .empty, [.block data]⟩ 5 := by
    intro data small
    have bytes : bytesOf [.block data] = data := by simp [bytesOf, ReadResult.bytes]
    refine ⟨show (5 : Int) ≠ 3 by decide, rfl,
      show ServerListener.sample.generates .streamData = true by decide,
      show ServerListener.sample.generates .connectionLost = true by decide,
      ⟨?_, [], _, rfl, nofun, small.ne⟩, ?_⟩
    · exact List.forall_mem_singleton.mpr small.le
    · rw [bytes]
      exact (Int.ofNat_le.mpr small.le).trans (by decide)
  simp only [List.forall_mem_cons, List.not_mem_nil, false_imp_iff, implies_true, and_true]
  exact ⟨serves _ (by decide), serves _ (by decide), serves _ (by decide)⟩

end StreamCall

end MSrv
