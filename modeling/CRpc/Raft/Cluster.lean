import CRpc.Raft.Node

/-! The nodes of a cluster, the calls between them and everything that can happen
next. A request or a reply is delivered at any later time or never; a coroutine
other than `run()` enters a critical section when the mutexes it takes there are free. -/
namespace CRpc.Raft

/-- A `raftVote` call made by the vote task of an election. The task is `waiting`
until it handles the reply or times out. -/
structure VoteCall where
  src : Nat
  dst : Nat
  election : Nat
  request : RaftVoteParams
  reply : Option RaftVoteRets := none
  waiting : Bool := true

/-- An `appendEntries` call of a heartbeat or a `replicateLog` coroutine. `sent` is
the sender's log when the request was built, kept for the statements about it. -/
structure AppendCall where
  src : Nat
  dst : Nat
  request : AppendEntriesParams
  sent : List Entry
  reply : Option AppendEntriesRets := none

structure Cluster where
  nodes : Nat → RaftNode := fun _ => {}
  voteCalls : List VoteCall := []
  appendCalls : List AppendCall := []
  history : List Event := []

inductive Action
  | connect (i j : Nat)
  | electionTimer (i : Nat)
  | startElection (i : Nat)
  | raftVote (call : Nat)
  | voteTimeout (call : Nat)
  | voteReply (call : Nat)
  | heartbeat (i j : Nat)
  | replicateSend (i loop : Nat)
  | replicateTimeout (i loop : Nat)
  | replicateReply (i loop : Nat)
  | appendEntries (call : Nat)
  | appendEntriesEnd (i : Nat)
  | applyRound (i : Nat)
  | clientMsg (i : Nat) (type : MessageType) (triples : List Triple)
  | testNoOp (i : Nat)
  | lockLog (i garbage : Nat)
  | decodeTriple (i : Nat)
  | testApplied (i : Nat)
  | respond (i : Nat)
  deriving DecidableEq, Repr

/-- Both mutexes of the node are free for a coroutine other than `run()`. -/
def RaftNode.free (nd : RaftNode) : Prop :=
  nd.m_raft_mutex = false ∧ nd.m_raft_logger.m_mutex = false

instance (nd : RaftNode) : Decidable nd.free :=
  inferInstanceAs (Decidable (_ ∧ _))

namespace Cluster

/-- Node `i` moves to `nd`, leaving `events` behind. -/
def put (s : Cluster) (i : Nat) (nd : RaftNode) (events : List Event := []) : Cluster :=
  { s with nodes := Function.update s.nodes i nd, history := events ++ s.history }

def setVoteCall (s : Cluster) (k : Nat) (call : VoteCall) : Cluster :=
  { s with voteCalls := s.voteCalls.set k call }

def setAppendCall (s : Cluster) (k : Nat) (call : AppendCall) : Cluster :=
  { s with appendCalls := s.appendCalls.set k call }

def addVoteCalls (s : Cluster) (calls : List VoteCall) : Cluster :=
  { s with voteCalls := s.voteCalls ++ calls }

def addAppendCall (s : Cluster) (call : AppendCall) : Cluster :=
  { s with appendCalls := s.appendCalls ++ [call] }

def setLoop (s : Cluster) (i l : Nat) (loop : ReplicateLoop) : Cluster :=
  s.put i { s.nodes i with loops := (s.nodes i).loops.set l loop }

/-- The vote tasks of one `startElection`, all with the same request. -/
def voteTasks (i : Nat) (nd : RaftNode) : List VoteCall :=
  nd.m_remote_nodes.map fun j =>
    { src := i, dst := j, election := nd.grantedVotes.length, request := (nd.startElection i).2 }

end Cluster

open Cluster RaftNode

/-- Events of `raftVote` at `voter`. -/
def voteEvents (voter : Nat) (request : RaftVoteParams) (rets : RaftVoteRets) : List Event :=
  if rets.voteGranted then [.granted voter rets.term request.candidateId] else []

/-- One atomic step of the cluster; `none` where the action cannot happen. -/
def step (cfg : Config) (s : Cluster) : Action → Option Cluster
  | .connect i j =>
      let nd := s.nodes i
      if i < cfg.size ∧ j < cfg.size ∧ j ≠ i ∧ j ∉ nd.m_remote_nodes ∧ nd.m_raft_mutex = false then
        some (s.put i { nd with m_remote_nodes := nd.m_remote_nodes ++ [j] })
      else none
  | .electionTimer i =>
      let nd := s.nodes i
      if i < cfg.size ∧ nd.m_raft_mutex = false then
        some (s.put i (nd.electionTimer i) (if nd.m_state ≠ .Leader
          then [.candidate i (nd.electionTimer i).m_currentTerm] else []))
      else none
  | .startElection i =>
      let nd := s.nodes i
      if i < cfg.size ∧ 0 < nd.pendingElections ∧ nd.free then
        some ((s.put i (nd.startElection i).1 [.solicit i nd.m_currentTerm]).addVoteCalls
          (voteTasks i nd))
      else none
  | .raftVote k =>
      s.voteCalls[k]?.bind fun call =>
        let nd := s.nodes call.dst
        if call.reply = none ∧ nd.run = .idle then
          let (nd', rets) := nd.raftVote call.request
          some ((s.put call.dst nd' (voteEvents call.dst call.request rets)).setVoteCall k
            { call with reply := some rets })
        else none
  | .voteTimeout k =>
      s.voteCalls[k]?.bind fun call =>
        if call.waiting then some (s.setVoteCall k { call with waiting := false }) else none
  | .voteReply k =>
      s.voteCalls[k]?.bind fun call => call.reply.bind fun rets =>
        let nd := s.nodes call.src
        if call.waiting ∧ nd.m_raft_mutex = false ∧
            (nd.wins cfg call.election rets → nd.m_raft_logger.m_mutex = false) then
          (nd.voteReply cfg call.src call.election rets).map fun (nd', events) =>
            (s.put call.src nd' events).setVoteCall k { call with waiting := false }
        else none
  | .heartbeat i j =>
      let nd := s.nodes i
      if i < cfg.size ∧ j ∈ nd.m_remote_nodes ∧ nd.m_state = .Leader ∧ nd.free then
        some (s.addAppendCall
          { src := i, dst := j, request := nd.appendRequest i j { op := .heartbeat }
            sent := nd.m_raft_logger.m_entries })
      else none
  | .replicateSend i l =>
      let nd := s.nodes i
      nd.loops[l]?.bind fun loop =>
        if loop.pc = .top ∧ nd.m_raft_mutex = false ∧
            (nd.m_state = .Leader → nd.m_raft_logger.m_mutex = false) then
          if nd.m_state ≠ .Leader then some (s.setLoop i l { loop with pc := .done })
          else
            let send_entry := nd.m_raft_logger.getEntry (nd.m_nextIndexs loop.nodeId)
            if send_entry.op = .null then some s
            -- without a session the coroutine dereferences a null pointer
            else if loop.nodeId ∈ nd.m_remote_nodes then
              some ((s.setLoop i l { loop with pc := .waiting s.appendCalls.length }).addAppendCall
                { src := i, dst := loop.nodeId
                  request := nd.appendRequest i loop.nodeId send_entry
                  sent := nd.m_raft_logger.m_entries })
            else none
        else none
  | .replicateTimeout i l =>
      (s.nodes i).loops[l]?.bind fun loop =>
        match loop.pc with
        | .waiting _ => some (s.setLoop i l { loop with pc := .top })
        | _ => none
  | .replicateReply i l =>
      let nd := s.nodes i
      nd.loops[l]?.bind fun loop =>
        match loop.pc with
        | .waiting k => s.appendCalls[k]?.bind fun call => call.reply.bind fun rets =>
            if nd.m_raft_mutex = false ∧
                (nd.commits cfg i loop.nodeId rets → nd.m_raft_logger.m_mutex = false) then
              let (nd', pc, events) := nd.replicateReply cfg i loop.nodeId rets
              some (s.put i { nd' with loops := nd.loops.set l { loop with pc } } events)
            else none
        | _ => none
  | .appendEntries k =>
      s.appendCalls[k]?.bind fun call =>
        let nd := s.nodes call.dst
        if call.reply = none ∧ nd.run = .idle then
          let (nd', rets) := nd.appendEntries call.request
          match rets with
          | some rets => some ((s.put call.dst nd').setAppendCall k { call with reply := some rets })
          | none => some (s.put call.dst { nd' with run := .appendEntries k call.request })
        else none
  | .appendEntriesEnd i =>
      let nd := s.nodes i
      match nd.run with
      | .appendEntries k params => s.appendCalls[k]?.bind fun call =>
          (nd.appendEntriesEnd params).map fun (nd', rets) =>
            (s.put i nd').setAppendCall k { call with reply := some rets }
      | _ => none
  | .applyRound i =>
      let nd := s.nodes i
      if i < cfg.size ∧ nd.m_raft_logger.m_mutex = false then
        nd.m_raft_logger.applyRound.map fun logger => s.put i { nd with m_raft_logger := logger }
      else none
  | .clientMsg i type triples =>
      let nd := s.nodes i
      if i < cfg.size ∧ nd.run = .idle then
        let (nd', events) := nd.handleMsg i type triples
        some (s.put i nd' events)
      else none
  | .testNoOp i =>
      let nd := s.nodes i
      match nd.run with
      | .waitNoOp triples => some (s.put i (nd.testNoOp triples))
      | _ => none
  | .lockLog i garbage =>
      let nd := s.nodes i
      match nd.run with
      | .unlocked triples =>
          some (s.put i { nd with m_raft_mutex := true, run := .decoding triples garbage [] })
      | _ => none
  | .decodeTriple i =>
      let nd := s.nodes i
      match nd.run with
      | .decoding triples index assigned =>
          (nd.decodeTriple index assigned triples).map fun nd' => s.put i nd'
      | _ => none
  | .testApplied i =>
      let nd := s.nodes i
      match nd.run with
      | .waitApplied index assigned => some (s.put i (nd.testApplied index assigned))
      | _ => none
  | .respond i =>
      let nd := s.nodes i
      match nd.run with
      | .replying assigned =>
          some (s.put i { nd with run := .idle } [.respond i assigned nd.m_raft_logger.m_lastApplied])
      | _ => none

def connected : List Action :=
  [.connect 0 1, .connect 0 2, .connect 1 0, .connect 1 2, .connect 2 0, .connect 2 1]

/-- Node 0 is elected in term 1 by node 1; its loops for nodes 1 and 2 are 0 and 1. -/
def zeroElected : List Action :=
  connected ++ [.electionTimer 0, .startElection 0, .raftVote 0, .voteReply 0]

/-- A round of node 0's loop `l` with the call `k` to node 1. -/
def roundToOne (l k : Nat) : List Action :=
  [.replicateSend 0 l, .appendEntries k, .appendEntriesEnd 1, .replicateReply 0 l]

end CRpc.Raft
