import CRpc.Raft.Logger
import Mathlib.Logic.Function.Basic

/-! `raft_node.h` and `raft_node.cpp`: one node, and each piece of its code that
runs under one hold of `m_raft_mutex`. A timer is kept as its `m_is_stoped` flag;
`resetTime` leaves that flag alone and so leaves no trace here. -/
namespace CRpc.Raft

inductive RaftState
  | Follower | Candidate | Leader
  deriving DecidableEq, Repr

/-- The messages `handleMsg` treats apart from remote calls. -/
inductive MessageType
  | RPC_SERVER_INIT | RPC_SERVICE_REGISTER | RPC_SERVICE_DELETE
  deriving DecidableEq, Repr

/-- What a `(name, ip, port)` triple of a registration message decodes to. -/
structure Triple where
  f_name : String
  f_ip : String
  f_port : UInt16
  deriving DecidableEq, Repr

/-- Where a `replicateLog` coroutine stands: at its `yield`, waiting for the reply
to a call, or returned. -/
inductive LoopPc
  | top
  | waiting (call : Nat)
  | done
  deriving DecidableEq, Repr

structure ReplicateLoop where
  nodeId : Nat
  pc : LoopPc
  deriving DecidableEq, Repr

/-- Where the `run()` coroutine stands. `appendEntries` stops between the write of
the commit index and the append, where the apply coroutine can see the log; a
registration handler stops wherever it releases `m_raft_mutex` and between two
appends. `assigned` are the indices its entries got, `index` the C++ variable. -/
inductive RunPc
  | idle
  | appendEntries (call : Nat) (params : AppendEntriesParams)
  | waitNoOp (triples : List Triple)
  | unlocked (triples : List Triple)
  | decoding (triples : List Triple) (index : Nat) (assigned : List Nat)
  | waitApplied (index : Nat) (assigned : List Nat)
  | replying (assigned : List Nat)
  deriving DecidableEq, Repr

/-- What a run leaves behind for the claims about it; no code reads it. -/
inductive Event
  | candidate (node term : Nat)
  | solicit (node term : Nat)
  | granted (voter term candidate : Nat)
  | leader (node term : Nat) (entries : List Entry)
  | commit (node term index : Nat) (entries : List Entry)
  | redirect (node leaderId : Nat)
  | respond (node : Nat) (assigned : List Nat) (lastApplied : Nat)
  deriving DecidableEq, Repr

/-- `m_raft_mutex` tells whether `run()` holds the mutex between two of its steps;
any other coroutine releases it before it can be seen. `grantedVotes` are the
counters the vote tasks share, one for each `startElection`. -/
structure RaftNode where
  m_state : RaftState := .Follower
  m_leaderId : Nat := noNode
  m_currentTerm : Nat := 0
  m_votedFor : Nat := noNode
  m_remote_nodes : List Nat := []
  m_nextIndexs : Nat → Nat := fun _ => 0
  m_matchIndexs : Nat → Nat := fun _ => 0
  electionStoped : Bool := false
  heartbeatStoped : Bool := true
  m_raft_logger : RaftLogger := {}
  m_raft_mutex : Bool := false
  pendingElections : Nat := 0
  grantedVotes : List Nat := []
  loops : List ReplicateLoop := []
  run : RunPc := .idle

namespace RaftNode

/-- The quorum threshold `((uint64_t)m_nodes.size() + 1) / 2`. -/
def threshold (cfg : Config) : Nat := u64 (cfg.size + 1) / 2

/-- The step-down block the handlers share; they differ in the leader they note. -/
def becomeFollower (nd : RaftNode) (term leaderId : Nat) : RaftNode :=
  { nd with
    heartbeatStoped := if nd.m_state = .Leader then true else nd.heartbeatStoped
    electionStoped := if nd.m_state = .Leader then false else nd.electionStoped
    m_state := .Follower
    m_currentTerm := term
    m_votedFor := noNode
    m_leaderId := leaderId }

/-- The first critical section of the election timer's callback. -/
def electionTimer (m_id : Nat) (nd : RaftNode) : RaftNode :=
  if nd.m_state ≠ .Leader then
    { nd with
      m_state := .Candidate
      m_currentTerm := u64 (nd.m_currentTerm + 1)
      m_votedFor := m_id
      m_leaderId := noNode
      pendingElections := nd.pendingElections + 1 }
  else nd

/-- The critical section of `startElection`, which reads the term anew. -/
def startElection (m_id : Nat) (nd : RaftNode) : RaftNode × RaftVoteParams :=
  ({ nd with
      m_votedFor := m_id
      pendingElections := nd.pendingElections - 1
      grantedVotes := nd.grantedVotes ++ [1] },
   { term := nd.m_currentTerm
     candidateId := m_id
     lastLogIndex := nd.m_raft_logger.getLastIndex
     lastLogTerm := nd.m_raft_logger.getLastTerm })

def raftVote (nd : RaftNode) (params : RaftVoteParams) : RaftNode × RaftVoteRets :=
  if params.term < nd.m_currentTerm ∨
      (params.term = nd.m_currentTerm ∧ nd.m_votedFor ≠ params.candidateId) then
    ({ nd with m_raft_mutex := false }, ⟨nd.m_currentTerm, false⟩)
  else
    let nd := if nd.m_currentTerm < params.term
      then nd.becomeFollower params.term params.candidateId else nd
    if nd.m_raft_logger.is_newer params.lastLogTerm params.lastLogIndex then
      ({ nd with m_votedFor := params.candidateId, m_raft_mutex := false },
       ⟨nd.m_currentTerm, true⟩)
    else ({ nd with m_raft_mutex := false }, ⟨nd.m_currentTerm, false⟩)

/-- `startReplicateLog` adds one task for every other node. -/
def startReplicateLog (cfg : Config) (m_id : Nat) (nd : RaftNode) : RaftNode :=
  { nd with loops := nd.loops ++
      ((List.range cfg.size).filter (· ≠ m_id)).map fun nodeId => ⟨nodeId, .top⟩ }

/-- The block of the vote task that makes the node leader. -/
def becomeLeader (cfg : Config) (m_id : Nat) (nd : RaftNode) : Option RaftNode :=
  match nd.m_raft_logger.appendEntry { op := .noOp, term := nd.m_currentTerm } with
  | none => none
  | some (logger, _) => some (startReplicateLog cfg m_id { nd with
      electionStoped := true
      m_state := .Leader
      m_leaderId := m_id
      m_nextIndexs := fun j => if j ∈ nd.m_remote_nodes
        then nd.m_raft_logger.getLastIndex + 1 else nd.m_nextIndexs j
      m_matchIndexs := fun j => if j ∈ nd.m_remote_nodes then 0 else nd.m_matchIndexs j
      m_raft_logger := logger
      heartbeatStoped := false })

/-- `++(*grantedVotes)` -/
def countVote (election : Nat) (nd : RaftNode) : RaftNode :=
  { nd with grantedVotes := nd.grantedVotes.set election (nd.grantedVotes.getD election 0 + 1) }

/-- The test under which a vote task makes its node leader. -/
def wins (cfg : Config) (nd : RaftNode) (election : Nat) (result : RaftVoteRets) : Prop :=
  (nd.m_currentTerm = result.term ∧ nd.m_state = .Candidate) ∧ result.voteGranted = true ∧
    threshold cfg ≤ nd.grantedVotes.getD election 0 + 1

instance (cfg : Config) (nd : RaftNode) (election : Nat) (result : RaftVoteRets) :
    Decidable (nd.wins cfg election result) :=
  inferInstanceAs (Decidable (_ ∧ _))

def voteReply (cfg : Config) (m_id : Nat) (nd : RaftNode) (election : Nat)
    (result : RaftVoteRets) : Option (RaftNode × List Event) :=
  if nd.m_currentTerm = result.term ∧ nd.m_state = .Candidate then
    if result.voteGranted then
      if nd.wins cfg election result then
        (becomeLeader cfg m_id (nd.countVote election)).map fun nd' =>
          (nd', [.leader m_id nd.m_currentTerm nd.m_raft_logger.m_entries])
      else some (nd.countVote election, [])
    else some (nd, [])
  else if nd.m_currentTerm < result.term then some (nd.becomeFollower result.term noNode, [])
  else some (nd, [])

/-- The request a heartbeat or a `replicateLog` round builds for `nodeId`. -/
def appendRequest (m_id : Nat) (nd : RaftNode) (nodeId : Nat) (send_entry : Entry) :
    AppendEntriesParams where
  term := nd.m_currentTerm
  leaderId := m_id
  leaderCommit := nd.m_raft_logger.m_commitIndex
  prevLogIndex := pred64 (nd.m_nextIndexs nodeId)
  prevLogTerm := (nd.m_raft_logger.getEntry (pred64 (nd.m_nextIndexs nodeId))).term
  entry := send_entry

/-- The counting loop of `replicateLog` with `left` nodes to go from `i` on: the
vote count is tested after every node, counted or not. -/
def countReplicas (threshold m_id last_index : Nat) (m_matchIndexs : Nat → Nat) :
    (left i vote : Nat) → Bool
  | 0, _, _ => false
  | left + 1, i, vote =>
      let vote := if i = m_id then vote + 1
        else if last_index ≤ m_matchIndexs i then vote + 1 else vote
      if threshold ≤ vote then true
      else countReplicas threshold m_id last_index m_matchIndexs left (i + 1) vote

/-- The two assignments a successful reply makes. -/
def advance (nd : RaftNode) (nodeId : Nat) : RaftNode :=
  let next := u64 (nd.m_nextIndexs nodeId + 1)
  { nd with
    m_nextIndexs := Function.update nd.m_nextIndexs nodeId next
    m_matchIndexs := Function.update nd.m_matchIndexs nodeId (pred64 next) }

/-- What a rejection does to `m_nextIndexs`. -/
def retreat (nd : RaftNode) (nodeId : Nat) : RaftNode :=
  { nd with m_nextIndexs := if 1 < nd.m_nextIndexs nodeId
      then Function.update nd.m_nextIndexs nodeId (nd.m_nextIndexs nodeId - 1)
      else nd.m_nextIndexs }

/-- Whether a successful reply of `nodeId` completes a quorum. -/
def replicated (cfg : Config) (m_id : Nat) (nd : RaftNode) (nodeId : Nat) : Bool :=
  countReplicas (threshold cfg) m_id ((nd.advance nodeId).m_matchIndexs nodeId)
    (nd.advance nodeId).m_matchIndexs cfg.size 0 0

/-- `setCommitIndex(std::max(last_index, getCommitIndex()))` after a full count. -/
def commitReplicated (cfg : Config) (m_id : Nat) (nd : RaftNode) (nodeId : Nat) :
    RaftNode × List Event :=
  let last_index := (nd.advance nodeId).m_matchIndexs nodeId
  if nd.replicated cfg m_id nodeId then
    ({ nd.advance nodeId with
        m_raft_logger := nd.m_raft_logger.setCommitIndex
          (max last_index nd.m_raft_logger.m_commitIndex) },
     if nd.m_raft_logger.m_commitIndex < last_index
       then [.commit m_id nd.m_currentTerm last_index nd.m_raft_logger.m_entries] else [])
  else (nd.advance nodeId, [])

/-- The reply makes `replicateLog` call `setCommitIndex`. -/
def commits (cfg : Config) (m_id : Nat) (nd : RaftNode) (nodeId : Nat)
    (result : AppendEntriesRets) : Prop :=
  nd.m_state = .Leader ∧ result.term = nd.m_currentTerm ∧ result.success = true ∧
    nd.replicated cfg m_id nodeId = true

instance (cfg : Config) (m_id : Nat) (nd : RaftNode) (nodeId : Nat) (result : AppendEntriesRets) :
    Decidable (nd.commits cfg m_id nodeId result) :=
  inferInstanceAs (Decidable (_ ∧ _))

/-- What `replicateLog` does with a reply, and where the coroutine goes. -/
def replicateReply (cfg : Config) (m_id : Nat) (nd : RaftNode) (nodeId : Nat)
    (result : AppendEntriesRets) : RaftNode × LoopPc × List Event :=
  if nd.m_state ≠ .Leader then (nd, .done, [])
  else if nd.m_currentTerm < result.term then (nd.becomeFollower result.term noNode, .done, [])
  else if result.term < nd.m_currentTerm then (nd, .top, [])
  else if result.success = false then (nd.retreat nodeId, .done, [])
  else ((nd.commitReplicated cfg m_id nodeId).1, .top, (nd.commitReplicated cfg m_id nodeId).2)

/-- `appendEntries` up to the write of the commit index. A reply ends the handler;
without one the entry is still to be appended, under the same lock. -/
def appendEntries (nd : RaftNode) (params : AppendEntriesParams) :
    RaftNode × Option AppendEntriesRets :=
  if params.term < nd.m_currentTerm then
    ({ nd with m_raft_mutex := false }, some { success := false, term := nd.m_currentTerm })
  else
    let nd := if nd.m_currentTerm < params.term ∨
        (params.term = nd.m_currentTerm ∧ nd.m_state = .Candidate)
      then nd.becomeFollower params.term params.leaderId else nd
    -- `m_leaderId` is unsigned, so this test never holds
    let nd := if nd.m_leaderId < 0 then { nd with m_leaderId := params.leaderId } else nd
    let nd := { nd with
      m_raft_logger := nd.m_raft_logger.setCommitIndex
        (min params.leaderCommit nd.m_raft_logger.getLastIndex) }
    if params.entry.op = .heartbeat then
      ({ nd with m_raft_mutex := false }, some { success := true, term := nd.m_currentTerm })
    else ({ nd with m_raft_mutex := true }, none)

/-- The rest of `appendEntries`. The rejecting return keeps `m_raft_mutex`. -/
def appendEntriesEnd (nd : RaftNode) (params : AppendEntriesParams) :
    Option (RaftNode × AppendEntriesRets) :=
  (nd.m_raft_logger.appendAfter params.entry params.prevLogIndex params.prevLogTerm).map
    fun (logger, success) =>
      ({ nd with m_raft_logger := logger, m_raft_mutex := !success, run := .idle },
       { success, term := nd.m_currentTerm })

/-- Whether a leader's own no-op is still uncommitted, which the registration
handlers wait out. -/
def noOpPending (nd : RaftNode) : Prop :=
  (nd.m_raft_logger.getEntry (nd.m_raft_logger.m_entries.length - 1)).op = .noOp ∧
    nd.m_raft_logger.m_commitIndex < nd.m_raft_logger.m_entries.length - 1 ∧
    nd.m_state = .Leader

instance (nd : RaftNode) : Decidable nd.noOpPending :=
  inferInstanceAs (Decidable (_ ∧ _))

/-- `handleServerInit` enters its wait for the no-op. -/
def handleServerInit (nd : RaftNode) (triples : List Triple) : RaftNode :=
  { nd with run := .waitNoOp triples }

/-- `handleServiceRegister`. Its waiting loop calls `lock` and `unlock` in the other
order, so it tests the log again without `m_raft_mutex`; the pieces below only
see the log where nobody else holds that mutex, and there both loops do the same. -/
def handleServiceRegister (nd : RaftNode) (triples : List Triple) : RaftNode :=
  { nd with run := .waitNoOp triples }

/-- `handleMsg` for a registration message; `m_leaderId` is read without a lock.
The second `switch` has no case for a deletion. -/
def handleMsg (m_id : Nat) (nd : RaftNode) (type : MessageType) (triples : List Triple) :
    RaftNode × List Event :=
  if m_id ≠ nd.m_leaderId then (nd, [.redirect m_id nd.m_leaderId])
  else match type with
    | .RPC_SERVER_INIT => (nd.handleServerInit triples, [])
    | .RPC_SERVICE_REGISTER => (nd.handleServiceRegister triples, [])
    | .RPC_SERVICE_DELETE => (nd, [])

/-- One test of the no-op loop; the mutex is free after it either way. -/
def testNoOp (nd : RaftNode) (triples : List Triple) : RaftNode :=
  { nd with
    m_raft_logger := { nd.m_raft_logger with m_mutex := false }
    m_raft_mutex := false
    run := if nd.noOpPending then .waitNoOp triples else .unlocked triples }

def registration (nd : RaftNode) (t : Triple) : Entry where
  term := nd.m_currentTerm
  op := .register
  f_name := t.f_name
  f_ip := t.f_ip
  f_port := t.f_port

/-- One round of the decoding loop, or its end, where the mutex is released. -/
def decodeTriple (nd : RaftNode) (index : Nat) (assigned : List Nat) :
    List Triple → Option RaftNode
  | [] => some { nd with m_raft_mutex := false, run := .waitApplied index assigned }
  | t :: triples =>
      (nd.m_raft_logger.appendEntry (nd.registration t)).map fun (logger, index) =>
        { nd with
          m_raft_logger := logger
          run := .decoding triples index (assigned ++ [index]) }

/-- One test of the loop that waits for the entries to be applied. -/
def testApplied (nd : RaftNode) (index : Nat) (assigned : List Nat) : RaftNode :=
  { nd with
    m_raft_logger := { nd.m_raft_logger with m_mutex := false }
    m_raft_mutex := false
    run := if index < nd.m_raft_logger.m_lastApplied then .waitApplied index assigned
      else .replying assigned }

end RaftNode
end CRpc.Raft
