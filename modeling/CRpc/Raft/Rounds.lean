import CRpc.Raft.Positions
import CRpc.Raft.Progress
import CRpc.Raft.Quorums

/-! A round of `replicateLog` that nothing disturbs: the request is sent, its node handles
it, and the leader takes the reply. -/
namespace CRpc.Raft

open Cluster Transition

/-- A round of loop `l` of node `i` with node `j`, as call `k`. -/
def round (i l j k : Nat) : List Action :=
  [.replicateSend i l, .appendEntries k, .appendEntriesEnd j, .replicateReply i l]

namespace RaftNode

/-- A node between the two halves of `appendEntries`. -/
def opened (nd : RaftNode) (k : Nat) (params : AppendEntriesParams) : RaftNode :=
  { (nd.appendEntries params).1 with run := .appendEntries k params }

/-- A node that has put the entry of a request behind position `p`. -/
def stored (nd : RaftNode) (params : AppendEntriesParams) (p : Nat) : RaftNode :=
  { (nd.appendEntries params).1 with
    m_raft_logger := { (nd.appendEntries params).1.m_raft_logger with
      m_entries := nd.m_raft_logger.m_entries.take (p + 1) ++ [params.entry], m_mutex := false }
    m_raft_mutex := false
    run := .idle }

variable {cfg : Config} {nd : RaftNode} {params : AppendEntriesParams}

end RaftNode

section Round

variable (cfg : Config) {s : Cluster} {i l j : Nat}

def roundCall (s : Cluster) (i j : Nat) : AppendCall where
  src := i
  dst := j
  request := (s.nodes i).appendRequest i j ((s.nodes i).sendEntry j)
  sent := (s.nodes i).m_raft_logger.m_entries

def waiting (s : Cluster) (i l j : Nat) : RaftNode :=
  { s.nodes i with loops := (s.loops i).set l ⟨j, .waiting s.appendCalls.length⟩ }

end Round

end CRpc.Raft
