import MagicServer.Server.Listener

/-!
# The iterator over client connections

`ServerListener::ConnIter` runs over the copy of the table that
`Array::Iterator` makes and skips the entries of the server socket.
-/

namespace MSrv

/-- Connection iterator: the server socket, the array and the position in it. -/
structure ConnIter where
  mSocket : Int
  mrArray : List Descriptor
  mPos : Nat

namespace ConnIter

/-- Is iterator past last item? -/
def exhausted (iter : ConnIter) : Bool := iter.mPos ≥ iter.mrArray.length

/-- The loop that passes over the entries of the server socket. -/
def skipServer (iter : ConnIter) : ConnIter :=
  if inside : iter.mPos < iter.mrArray.length then
    if iter.mrArray[iter.mPos].mFd = iter.mSocket then
      skipServer { iter with mPos := iter.mPos + 1 }
    else iter
  else iter
termination_by iter.mrArray.length - iter.mPos

/-- Constructor for connection iterator. -/
def create (server : ServerListener) : ConnIter :=
  skipServer ⟨server.mSocket, server.sockets.mDescriptors, 0⟩

/-- The connection at the current position: a pointer that may be `NULL`, and
nothing past the last item. -/
def get (iter : ConnIter) : Option (Option ConnectionId) :=
  iter.mrArray[iter.mPos]?.map Descriptor.mpData

def next (iter : ConnIter) : ConnIter := skipServer { iter with mPos := iter.mPos + 1 }

/-- The loop `for (…; !exhausted (); next ())`: what `get` returns in each round. -/
def visits : Nat → ConnIter → List (Option ConnectionId)
  | 0, _ => []
  | fuel + 1, iter =>
      match iter.get with
      | some connection => connection :: visits fuel iter.next
      | none => []

/-- The entries from the current position on. -/
def remaining (iter : ConnIter) : List Descriptor := iter.mrArray.drop iter.mPos

/-- Skipping drops the leading entries of the server socket. -/
theorem remaining_skipServer (iter : ConnIter) :
    iter.skipServer.mSocket = iter.mSocket ∧
      iter.skipServer.remaining =
        iter.remaining.dropWhile fun entry => entry.mFd = iter.mSocket := by
  fun_induction skipServer iter with
  | case1 iter inside server ih =>
      refine ⟨ih.1, ih.2.trans ?_⟩
      rw [remaining, remaining, List.drop_eq_getElem_cons inside,
        List.dropWhile_cons_of_pos (by simpa using server)]
  | case2 iter inside client =>
      refine ⟨rfl, ?_⟩
      rw [remaining, List.drop_eq_getElem_cons inside,
        List.dropWhile_cons_of_neg (by simpa using client)]
  | case3 iter outside =>
      refine ⟨rfl, ?_⟩
      rw [remaining, List.drop_eq_nil_of_le (not_lt.mp outside), List.dropWhile_nil]

/-- Dropping leading entries of the server socket drops no entry of a client. -/
theorem filter_dropWhile (mSocket : Int) (entries : List Descriptor) :
    (entries.dropWhile fun entry => entry.mFd = mSocket).filter (fun entry => entry.mFd ≠ mSocket) =
      entries.filter fun entry => entry.mFd ≠ mSocket := by
  induction entries with
  | nil => rfl
  | cons entry rest ih =>
      by_cases server : entry.mFd = mSocket
      · rw [List.dropWhile_cons_of_pos (by simpa using server), ih,
          List.filter_cons_of_neg (by simpa using server)]
      · rw [List.dropWhile_cons_of_neg (by simpa using server)]

/-- From a position to which the iterator has skipped, the loop visits the
entries of clients in the order of the table. -/
theorem visits_skipServer (fuel : Nat) (iter : ConnIter) (enough : iter.remaining.length ≤ fuel) :
    visits fuel iter.skipServer =
      (iter.remaining.filter fun entry => entry.mFd ≠ iter.mSocket).map Descriptor.mpData := by
  obtain ⟨socket, skipped⟩ := iter.remaining_skipServer
  induction fuel generalizing iter with
  | zero =>
      rw [List.eq_nil_of_length_eq_zero (Nat.le_zero.mp enough)]
      rfl
  | succ fuel ih =>
      rw [← filter_dropWhile, ← skipped]
      have get : iter.skipServer.get = iter.skipServer.remaining.head?.map Descriptor.mpData := by
        unfold ConnIter.get remaining
        rw [List.head?_drop]
      cases rest : iter.skipServer.remaining with
      | nil =>
          rw [rest] at get
          simp only [visits, get, List.head?_nil, Option.map_none, List.filter_nil, List.map_nil]
      | cons entry later =>
          rw [rest] at get
          have client : entry.mFd ≠ iter.mSocket := by
            have first := List.head?_dropWhile_not (fun entry : Descriptor =>
              decide (entry.mFd = iter.mSocket)) iter.remaining
            rw [← skipped, rest] at first
            simpa using first
          let moved : ConnIter := { iter.skipServer with mPos := iter.skipServer.mPos + 1 }
          have onward : moved.remaining = later := by
            change iter.skipServer.mrArray.drop (iter.skipServer.mPos + 1) = later
            rw [← List.tail_drop]
            exact congrArg List.tail rest
          have fewer : moved.remaining.length ≤ fuel := by
            have shorter : iter.skipServer.remaining.length ≤ iter.remaining.length :=
              skipped ▸ (List.dropWhile_suffix _).length_le
            rw [rest, List.length_cons] at shorter
            rw [onward]
            omega
          have tail := ih moved fewer moved.remaining_skipServer.1 moved.remaining_skipServer.2
          simp only [visits, get, List.head?_cons, Option.map_some]
          rw [List.filter_cons_of_pos (by simpa using client), List.map_cons]
          refine congrArg _ (tail.trans ?_)
          rw [onward, show moved.mSocket = iter.mSocket from socket]

/-- A run of the iterator over the table visits the entries of clients, each
once, in the order of the table. -/
theorem visits_create (server : ServerListener) :
    visits server.sockets.mDescriptors.length (create server) =
      (server.sockets.mDescriptors.filter fun entry => entry.mFd ≠ server.mSocket).map
        Descriptor.mpData :=
  visits_skipServer _ ⟨server.mSocket, server.sockets.mDescriptors, 0⟩ le_rfl

end ConnIter

end MSrv
