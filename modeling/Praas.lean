import Praas.Lib.Lts
import Praas.Lib.Fairness
import Praas.Lib.Ranking
import Praas.Lib.Executions
import Praas.Lib.Simulation
import Praas.Lib.Framing
import Praas.Lib.Locks
import Praas.Common.Bytes
import Praas.Common.Messages
import Praas.Lib.Layout
import Praas.Common.Fields
import Praas.Common.WireFormat
import Praas.Process.Remote
import Praas.Process.RemoteStream
import Praas.Process.RemoteIdentity
import Praas.Process.Ipc
import Praas.Process.IpcHeader
import Praas.Process.Messages
import Praas.Lib.Interleave
import Praas.Process.StoreSeparation
import Praas.Process.Workers
import Praas.Process.Dispatch
import Praas.Process.Controller
import Praas.Process.Queues
import Praas.Common.Application
import Praas.Process.Mailbox
import Praas.Process.Invocations
import Praas.Process.WorkerPool
import Praas.Process.Polling
import Praas.Process.Progress
import Praas.Process.RemoteReplies
import Praas.Process.LocalWaiters
import Praas.Runtime.Context
import Praas.Runtime.Updates
import Praas.ControlPlane.Process
import Praas.ControlPlane.Submission
import Praas.ControlPlane.Bookkeeping
import Praas.ControlPlane.Application
import Praas.ControlPlane.TcpServer
import Praas.ControlPlane.Steps
import Praas.ControlPlane.Deployment
import Praas.ControlPlane.Places
import Praas.ControlPlane.ProcessTables
import Praas.ControlPlane.Closure
import Praas.ControlPlane.Allocation
import Praas.ControlPlane.Turns
import Praas.ControlPlane.Capacity
import Praas.ControlPlane.Origins
import Praas.ControlPlane.OwnEntries
import Praas.ControlPlane.Registration
import Praas.ControlPlane.ClosedProcesses
import Praas.ControlPlane.Answers
import Praas.ControlPlane.CreationCallback
import Praas.ControlPlane.Lifecycle
import Praas.ControlPlane.Stream
import Praas.Process.Channel
import Praas.ControlPlane.Locking
import Praas.Process.RemoteSends
import Praas.Process.RemoteLosses
import Praas.Serving.HttpServer
import Praas.Serving.Containers
import Praas.Process.PendingWaiters
import Praas.Process.StateKeys
import Praas.Process.BufferTable
import Praas.Runtime.Invoker
import Praas.Runtime.Arguments
import Praas.Process.AllOrNothing
import Praas.Process.OutgoingInvokes
import Praas.Runtime.Output
import Praas.Runtime.InvokerLoop
import Praas.Process.PayloadLengths
import Praas.Process.StringViews
import Praas.ControlPlane.ProcessNames
import Praas.Runtime.WorldView
import Praas.Runtime.Functions
import Praas.Runtime.BufferQueue
import Praas.Platform.Encoding
import Praas.Platform.Transport
import Praas.Process.RemotePeer
import Praas.Sdk.Process
import Praas.Platform.Node
import Praas.Platform.Flow
import Praas.Platform.Endpoint
import Praas.Platform.Session
import Praas.ControlPlane.StreamPeer
import Praas.Platform.Faas
