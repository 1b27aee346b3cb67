import CRpc.Coroutine.Events
import CRpc.Coroutine.Expiries
import CRpc.Coroutine.Kept
import CRpc.Coroutine.Lifecycle
import CRpc.Coroutine.Sleeping
import CRpc.Coroutine.Spacing
import CRpc.Coroutine.Waiters
import CRpc.Coroutine.Wakeups
import CRpc.Raft.Catchup
import CRpc.Raft.Counting
import CRpc.Raft.Decodings
import CRpc.Raft.Durable
import CRpc.Raft.Orderly
import CRpc.Raft.Polling
import CRpc.Raft.Readiness
import CRpc.Raft.Roles
import CRpc.Raft.Validity
import CRpc.Raft.Wire
import CRpc.Rpc.Calls
import CRpc.Rpc.Correlation
import CRpc.Rpc.Deletions
import CRpc.Rpc.Directory
import CRpc.Rpc.Finishing
import CRpc.Rpc.Framing
import CRpc.Rpc.Heartbeats
import CRpc.Rpc.Publishing
import CRpc.Rpc.Redirects
import CRpc.Rpc.Remote
import CRpc.Rpc.Serving
import CRpc.Rpc.Session
import CRpc.Socket.Echo
import CRpc.Socket.Frames
import CRpc.Socket.Truncation
import CRpc.Util.Canonical
import CRpc.Util.Positions
import CRpc.Util.Sequences
