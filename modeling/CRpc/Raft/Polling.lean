import CRpc.Raft.Logs
import CRpc.Raft.Readiness

/-! An election that nothing disturbs: the node asks all nodes it has sessions with, one after
the other, and leads where enough of them have no newer log. -/
namespace CRpc.Raft

open Cluster Transition

namespace RaftNode

variable {cfg : Config} {nd : RaftNode} {i : Nat}

/-- A request of a higher term makes its node a follower there, and is granted by the logs. -/
theorem raftVote_higher {params : RaftVoteParams} (higher : nd.m_currentTerm < params.term) :
    nd.raftVote params = ({ nd.becomeFollower params.term params.candidateId with
      m_votedFor := if nd.m_raft_logger.is_newer params.lastLogTerm params.lastLogIndex
        then params.candidateId else noNode
      m_raft_mutex := false },
      ⟨params.term, nd.m_raft_logger.is_newer params.lastLogTerm params.lastLogIndex⟩) := by
  have fresh : ¬ (params.term < nd.m_currentTerm ∨
      (params.term = nd.m_currentTerm ∧ nd.m_votedFor ≠ params.candidateId)) := by omega
  rw [raftVote, if_neg fresh, if_pos higher]
  cases newer : nd.m_raft_logger.is_newer params.lastLogTerm params.lastLogIndex <;>
    simp [becomeFollower, newer]

theorem becomeLeader_free {nd' : RaftNode} (h : becomeLeader cfg i nd = some nd')
    (free : nd.m_raft_mutex = false) : nd'.free := by
  unfold becomeLeader RaftLogger.appendEntry at h
  split_ifs at h
  · cases h
    exact ⟨free, rfl⟩

/-- The entry a node appends when it takes office in term `T`. -/
def officeEntry (nd : RaftNode) (T : Nat) : Entry :=
  { op := .noOp, term := T, index := nd.m_raft_logger.getLastIndex + 1 }

/-- Where a node stands in its election of term `T` with `votes` votes: it is still a candidate, or
it has had enough of them. -/
structure Stands (cfg : Config) (before : RaftNode) (T election votes : Nat) (nd : RaftNode) :
    Prop where
  term : nd.m_currentTerm = T
  free : nd.free
  office : if max 2 (threshold cfg) ≤ votes
    then nd.m_state = .Leader ∧
      nd.m_raft_logger.m_entries = before.m_raft_logger.m_entries ++ [before.officeEntry T]
    else nd.m_state = .Candidate ∧ nd.m_raft_logger = before.m_raft_logger ∧
      nd.grantedVotes[election]? = some votes

theorem Stands.voteReply {before : RaftNode} {T election votes : Nat} (granted : Bool)
    (room : before.m_raft_logger.m_entries.length < maxEntries)
    (stands : Stands cfg before T election votes nd) (pos : 1 ≤ votes) :
    ∃ r, nd.voteReply cfg i election ⟨T, granted⟩ = some r ∧
      Stands cfg before T election (votes + granted.toNat) r.1 := by
  obtain ⟨term, free, office⟩ := stands
  by_cases enough : max 2 (threshold cfg) ≤ votes
  · -- a leader ignores it
    rw [if_pos enough] at office
    refine ⟨(nd, []), ?_, term, free, ?_⟩
    · simp [RaftNode.voteReply, term, office.1]
    · rw [if_pos (enough.trans (Nat.le_add_right ..))]
      exact office
  · rw [if_neg enough] at office
    obtain ⟨stood, log, counter⟩ := office
    obtain ⟨bound, -⟩ := List.getElem?_eq_some_iff.mp counter
    cases granted with
    | false =>
      refine ⟨(nd, []), ?_, term, free, ?_⟩
      · simp [RaftNode.voteReply, term, stood]
      · rw [Bool.toNat_false, Nat.add_zero, if_neg enough]
        exact ⟨stood, log, counter⟩
    | true =>
      have votes_eq : nd.grantedVotes.getD election 0 = votes := by
        rw [List.getD_eq_getElem?_getD, counter, Option.getD_some]
      by_cases last : max 2 (threshold cfg) ≤ votes + 1
      · have won : nd.wins cfg election ⟨T, true⟩ := ⟨⟨term, stood⟩, rfl, by omega⟩
        obtain ⟨nd', leads⟩ : ∃ nd', becomeLeader cfg i (nd.countVote election) = some nd' := by
          simp [becomeLeader, RaftLogger.appendEntry, countVote, log, room]
        have core := becomeLeader_core leads
        obtain ⟨-, -, entries⟩ := becomeLeader_log leads
        refine ⟨(nd', [.leader i nd.m_currentTerm nd.m_raft_logger.m_entries]), ?_, ?_, ?_, ?_⟩
        · rw [RaftNode.voteReply, if_pos won.1, if_pos rfl, if_pos won, leads]
          rfl
        · exact (congrArg VoteCore.term core).trans term
        · exact becomeLeader_free leads free.1
        · rw [Bool.toNat_true, if_pos last]
          refine ⟨congrArg VoteCore.state core, entries.trans ?_⟩
          simp [countVote, log, officeEntry, term]
      · have lost : ¬ nd.wins cfg election ⟨T, true⟩ := fun won => by
          have := won.2.2
          omega
        refine ⟨(nd.countVote election, []), ?_, term, free, ?_⟩
        · rw [RaftNode.voteReply, if_pos ⟨term, stood⟩, if_pos rfl, if_neg lost]
        · rw [Bool.toNat_true, if_neg last]
          refine ⟨stood, log, ?_⟩
          rw [countVote, votes_eq, List.getElem?_set_self bound]

end RaftNode

/-- Node `j` has no newer log than node `i`. -/
def grants (s : Cluster) (i j : Nat) : Bool :=
  (s.nodes j).m_raft_logger.is_newer (s.nodes i).m_raft_logger.getLastTerm
    (s.nodes i).m_raft_logger.getLastIndex

section Poll

variable {cfg : Config} {s t : Cluster} {i k votes : Nat}

/-- The call of an election of node `i` to node `j`. -/
def pollCall (s : Cluster) (i j : Nat) : VoteCall where
  src := i
  dst := j
  election := (s.nodes i).grantedVotes.length
  request :=
    { term := (s.nodes i).m_currentTerm + 1
      candidateId := i
      lastLogIndex := (s.nodes i).m_raft_logger.getLastIndex
      lastLogTerm := (s.nodes i).m_raft_logger.getLastTerm }

/-- What node `j` is after it has been asked. -/
def polled (s : Cluster) (i j : Nat) : RaftNode :=
  { (s.nodes j).becomeFollower ((s.nodes i).m_currentTerm + 1) i with
    m_votedFor := if grants s i j then i else noNode
    m_raft_mutex := false }

/-- The election of node `i` in `s` while the nodes `rest` are still to be asked. -/
structure Polling (cfg : Config) (s : Cluster) (i k votes : Nat) (rest : List Nat) (t : Cluster) :
    Prop where
  calls : t.voteCalls.drop k = rest.map (pollCall s i)
  nodes : ∀ j ∈ rest, t.nodes j = s.nodes j
  candidate : RaftNode.Stands cfg (s.nodes i) ((s.nodes i).m_currentTerm + 1)
    (s.nodes i).grantedVotes.length votes (t.nodes i)

theorem Polling.ask {j : Nat} {rest : List Nat} (room : (s.entries i).length < maxEntries)
    (pos : 1 ≤ votes) (polling : Polling cfg s i k votes (j :: rest) t) (apart : i ∉ j :: rest)
    (distinct : (j :: rest).Nodup) (idle : (s.nodes j).run = .idle)
    (behind : (s.nodes j).m_currentTerm ≤ (s.nodes i).m_currentTerm) :
    ∃ u, exec (step cfg) t [.raftVote k, .voteReply k] = some u ∧
      Polling cfg s i (k + 1) (votes + (grants s i j).toNat) rest u ∧
      u.nodes j = polled s i j ∧ ∀ v, v ≠ i → v ≠ j → u.nodes v = t.nodes v := by
  obtain ⟨calls, nodes, candidate⟩ := polling
  have ne : i ≠ j := fun same => apart (same ▸ List.mem_cons_self)
  have found : t.voteCalls[k]? = some (pollCall s i j) := by
    have first := congrArg (fun calls => calls[0]?) calls
    simpa using first
  have bound := (List.getElem?_eq_some_iff.mp found).1
  have node := nodes j List.mem_cons_self
  have higher : (t.nodes j).m_currentTerm < (pollCall s i j).request.term := by
    rw [node]
    exact Nat.lt_succ_of_le behind
  have asked : (t.nodes j).raftVote (pollCall s i j).request =
      (polled s i j, ⟨(s.nodes i).m_currentTerm + 1, grants s i j⟩) := by
    rw [RaftNode.raftVote_higher higher, node]
    rfl
  obtain ⟨t', nodes', calls', first⟩ : ∃ t', t'.nodes = Function.update t.nodes j (polled s i j) ∧
      t'.voteCalls = t.voteCalls.set k { pollCall s i j with
        reply := some ⟨(s.nodes i).m_currentTerm + 1, grants s i j⟩ } ∧
      step cfg t (.raftVote k) = some t' := by
    refine ⟨_, ?_, ?_, step_raftVote.mpr ⟨_, found, ⟨rfl, ?_⟩, rfl⟩⟩
    · change Function.update t.nodes j ((t.nodes j).raftVote (pollCall s i j).request).1 = _
      rw [asked]
    · change t.voteCalls.set k { pollCall s i j with
        reply := some ((t.nodes j).raftVote (pollCall s i j).request).2 } = _
      rw [asked]
    · exact (congrArg RaftNode.run node).trans idle
  have same : t'.nodes i = t.nodes i := by rw [nodes', Function.update_of_ne ne]
  have found' : t'.voteCalls[k]? = some { pollCall s i j with
      reply := some ⟨(s.nodes i).m_currentTerm + 1, grants s i j⟩ } := by
    rw [calls', List.getElem?_set_self bound]
  obtain ⟨r, replied, stands⟩ := candidate.voteReply (i := i) (grants s i j) room pos
  obtain ⟨u, nodes'', calls'', second⟩ : ∃ u, u.nodes = Function.update t'.nodes i r.1 ∧
      (∃ call, u.voteCalls = t'.voteCalls.set k call) ∧ step cfg t' (.voteReply k) = some u := by
    refine ⟨_, rfl, ⟨_, rfl⟩, step_voteReply.mpr ⟨_, found', _, rfl, ⟨rfl, ?_⟩, r, ?_, rfl⟩⟩
    · change (t'.nodes i).m_raft_mutex = false ∧ (_ → (t'.nodes i).m_raft_logger.m_mutex = false)
      rw [same]
      exact ⟨candidate.free.1, fun _ => candidate.free.2⟩
    · change (t'.nodes i).voteReply cfg i _ _ = _
      rw [same]
      exact replied
  refine ⟨u, ?_, ⟨?_, fun v mem => ?_, ?_⟩, ?_, fun v other other' => ?_⟩
  · rw [exec, first, Option.bind_some, exec, second]
    rfl
  · obtain ⟨call, calls''⟩ := calls''
    rw [calls'', calls', List.drop_set_of_lt (Nat.lt_succ_self k),
      List.drop_set_of_lt (Nat.lt_succ_self k), Nat.succ_eq_add_one, ← List.drop_drop, calls]
    rfl
  · have ne_i : v ≠ i := fun same => apart (same ▸ List.mem_cons_of_mem _ mem)
    have ne_j : v ≠ j := fun same => (List.nodup_cons.mp distinct).1 (same ▸ mem)
    rw [nodes'', Function.update_of_ne ne_i, nodes', Function.update_of_ne ne_j]
    exact nodes v (List.mem_cons_of_mem _ mem)
  · rw [nodes'', Function.update_self]
    exact stands
  · rw [nodes'', Function.update_of_ne ne.symm, nodes', Function.update_self]
  · rw [nodes'', Function.update_of_ne other, nodes', Function.update_of_ne other']

end Poll

end CRpc.Raft
