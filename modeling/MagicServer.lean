import MagicServer.Library.Machine
import MagicServer.Library.Simulation
import MagicServer.Library.BlockHeap
import MagicServer.Def
import MagicServer.Container.Array
import MagicServer.Container.Bounds
import MagicServer.Container.Iterator
import MagicServer.Server.Request
import MagicServer.Library.Keyed
import MagicServer.Server.Sockets
import MagicServer.Server.Close
import MagicServer.Server.Listener
import MagicServer.Server.Listen
import MagicServer.Server.SelectErrors
import MagicServer.Library.IndexWalk
import MagicServer.Server.Dispatch
import MagicServer.Server.Serving
import MagicServer.Server.ConnIter
import MagicServer.Server.Consistency
import MagicServer.Server.Session
import MagicServer.Server.Read
import MagicServer.Server.Blocking
import MagicServer.Server.Datagram
import MagicServer.Server.Masks
import MagicServer.Server.Shutdown
import MagicServer.Server.Closedown
import MagicServer.Worker.Pool
import MagicServer.Library.Threads
import MagicServer.Worker.Steps
import MagicServer.Worker.Wakeup
import MagicServer.Worker.Accounting
import MagicServer.Worker.Drain
import MagicServer.Worker.Teardown
import MagicServer.Worker.Ownership
import MagicServer.Library.NodeHeap
import MagicServer.Container.Queue
import MagicServer.Worker.Conservation
import MagicServer.Pooled.Server
import MagicServer.Pooled.Coherence
import MagicServer.Pooled.Lifetime
import MagicServer.Pooled.Numbers
import MagicServer.Pooled.Rounds
import MagicServer.Library.RecursiveLock
import MagicServer.Library.Numeral
import MagicServer.Log.Logging
import MagicServer.Log.Record
import MagicServer.Log.Lines
import MagicServer.Log.RoundTrip
import MagicServer.Log.File
import MagicServer.Log.Locks
import MagicServer.Log.Opening
import MagicServer.Log.Names
import MagicServer.Thread.Timeout
import MagicServer.Container.Fifo
import MagicServer.Log.Uninterrupted
import MagicServer.Server.Bind
import MagicServer.Thread.Condition
import MagicServer.Server.ReadBound
import MagicServer.Server.ShutdownEvent
import MagicServer.Server.DescriptorSet
import MagicServer.Worker.Creation
import MagicServer.Library.LockOrder
import MagicServer.Pooled.LockUse
import MagicServer.Pooled.Deadlock
import MagicServer.Library.CString
import MagicServer.Sample.Line
import MagicServer.Sample.Handler
import MagicServer.Server.Members
import MagicServer.Sample.Room
import MagicServer.Sample.Refinement
import MagicServer.Sample.Session
import MagicServer.Server.Leaving
import MagicServer.Worker.Order
import MagicServer.Sample.Main
import MagicServer.Sample.Datagrams
