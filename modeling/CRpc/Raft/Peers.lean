import CRpc.Raft.Steps

/-! The sessions of the nodes. Only `connect` adds one, and none is ever removed. -/
namespace CRpc.Raft

open Cluster

namespace RaftNode

variable {cfg : Config} {nd nd' : RaftNode} {i : Nat}

@[simp] theorem becomeFollower_remote (T leaderId : Nat) :
    (nd.becomeFollower T leaderId).m_remote_nodes = nd.m_remote_nodes := rfl

@[simp] theorem electionTimer_remote :
    (nd.electionTimer i).m_remote_nodes = nd.m_remote_nodes := by
  unfold electionTimer
  split <;> rfl

@[simp] theorem raftVote_remote (params : RaftVoteParams) :
    (nd.raftVote params).1.m_remote_nodes = nd.m_remote_nodes := by
  unfold raftVote
  dsimp only
  split_ifs <;> rfl

theorem becomeLeader_remote (h : becomeLeader cfg i nd = some nd') :
    nd'.m_remote_nodes = nd.m_remote_nodes := by
  unfold becomeLeader at h
  split at h
  · cases h
  · cases h
    rfl

theorem voteReply_remote {election : Nat} {rets : RaftVoteRets} {r : RaftNode × List Event}
    (h : voteReply cfg i nd election rets = some r) :
    r.1.m_remote_nodes = nd.m_remote_nodes := by
  unfold voteReply at h
  split_ifs at h
  · obtain ⟨nd', leads, rfl⟩ := Option.map_eq_some_iff.mp h
    have same := becomeLeader_remote leads
    exact same
  all_goals
    cases h
    rfl

@[simp] theorem replicateReply_remote (nodeId : Nat) (rets : AppendEntriesRets) :
    (nd.replicateReply cfg i nodeId rets).1.m_remote_nodes = nd.m_remote_nodes := by
  unfold replicateReply commitReplicated
  dsimp only
  split_ifs <;> rfl

@[simp] theorem appendEntries_remote (params : AppendEntriesParams) :
    (nd.appendEntries params).1.m_remote_nodes = nd.m_remote_nodes := by
  unfold appendEntries
  dsimp only
  split_ifs <;> rfl

theorem appendEntriesEnd_remote {params : AppendEntriesParams} {r : RaftNode × AppendEntriesRets}
    (h : nd.appendEntriesEnd params = some r) : r.1.m_remote_nodes = nd.m_remote_nodes := by
  obtain ⟨_, _, rfl⟩ := Option.map_eq_some_iff.mp h
  rfl

@[simp] theorem handleMsg_remote (type : MessageType) (triples : List Triple) :
    (nd.handleMsg i type triples).1.m_remote_nodes = nd.m_remote_nodes := by
  unfold handleMsg
  split_ifs
  · rfl
  · cases type <;> rfl

theorem decodeTriple_remote {index : Nat} {assigned : List Nat} {triples : List Triple}
    (h : nd.decodeTriple index assigned triples = some nd') :
    nd'.m_remote_nodes = nd.m_remote_nodes := by
  cases triples with
  | nil =>
      cases h
      rfl
  | cons t triples =>
      obtain ⟨_, _, rfl⟩ := Option.map_eq_some_iff.mp h
      rfl

end RaftNode

variable {cfg : Config} {s s' : Cluster} {a : Action}

theorem step_remote (h : step cfg s a = some s') :
    (∃ i j, a = .connect i j ∧ i < cfg.size ∧ j < cfg.size ∧ j ≠ i ∧
      j ∉ (s.nodes i).m_remote_nodes ∧
      s' = s.put i { s.nodes i with m_remote_nodes := (s.nodes i).m_remote_nodes ++ [j] }) ∨
    ∀ v, (s'.nodes v).m_remote_nodes = (s.nodes v).m_remote_nodes := by
  cases a with
  | connect i j =>
      obtain ⟨⟨hi, hj, ne, fresh, -⟩, rfl⟩ := step_connect.mp h
      exact .inl ⟨i, j, rfl, hi, hj, ne, fresh, rfl⟩
  | electionTimer i =>
      obtain ⟨-, rfl⟩ := step_electionTimer.mp h
      exact .inr (field_update RaftNode.m_remote_nodes RaftNode.electionTimer_remote)
  | startElection i =>
      obtain ⟨-, rfl⟩ := step_startElection.mp h
      exact .inr (field_update RaftNode.m_remote_nodes rfl)
  | raftVote k =>
      obtain ⟨call, -, -, rfl⟩ := step_raftVote.mp h
      exact .inr (field_update RaftNode.m_remote_nodes (RaftNode.raftVote_remote call.request))
  | voteTimeout k =>
      obtain ⟨call, -, -, rfl⟩ := step_voteTimeout.mp h
      exact .inr fun _ => rfl
  | voteReply k =>
      obtain ⟨call, -, rets, -, -, r, did, rfl⟩ := step_voteReply.mp h
      exact .inr (field_update RaftNode.m_remote_nodes (RaftNode.voteReply_remote did))
  | heartbeat i j =>
      obtain ⟨-, rfl⟩ := step_heartbeat.mp h
      exact .inr fun _ => rfl
  | replicateSend i l =>
      obtain ⟨loop, -, -, ⟨-, rfl⟩ | ⟨-, -, rfl⟩ | ⟨-, -, -, rfl⟩⟩ := step_replicateSend.mp h
      · exact .inr (field_update RaftNode.m_remote_nodes rfl)
      · exact .inr fun _ => rfl
      · exact .inr (field_update RaftNode.m_remote_nodes rfl)
  | replicateTimeout i l =>
      obtain ⟨loop, k, -, -, rfl⟩ := step_replicateTimeout.mp h
      exact .inr (field_update RaftNode.m_remote_nodes rfl)
  | replicateReply i l =>
      obtain ⟨loop, k, call, rets, -, -, -, -, -, rfl⟩ := step_replicateReply.mp h
      exact .inr (field_update RaftNode.m_remote_nodes (RaftNode.replicateReply_remote loop.nodeId rets))
  | appendEntries k =>
      obtain ⟨call, -, -, ⟨rets, -, rfl⟩ | ⟨-, rfl⟩⟩ := step_appendEntries.mp h
      · exact .inr (field_update RaftNode.m_remote_nodes (RaftNode.appendEntries_remote call.request))
      · exact .inr (field_update RaftNode.m_remote_nodes (RaftNode.appendEntries_remote call.request))
  | appendEntriesEnd i =>
      obtain ⟨k, params, call, r, -, -, did, rfl⟩ := step_appendEntriesEnd.mp h
      exact .inr (field_update RaftNode.m_remote_nodes (RaftNode.appendEntriesEnd_remote did))
  | applyRound i =>
      obtain ⟨-, logger, -, rfl⟩ := step_applyRound.mp h
      exact .inr (field_update RaftNode.m_remote_nodes rfl)
  | clientMsg i type triples =>
      obtain ⟨-, rfl⟩ := step_clientMsg.mp h
      exact .inr (field_update RaftNode.m_remote_nodes (RaftNode.handleMsg_remote type triples))
  | testNoOp i =>
      obtain ⟨triples, -, rfl⟩ := step_testNoOp.mp h
      exact .inr (field_update RaftNode.m_remote_nodes rfl)
  | lockLog i garbage =>
      obtain ⟨triples, -, rfl⟩ := step_lockLog.mp h
      exact .inr (field_update RaftNode.m_remote_nodes rfl)
  | decodeTriple i =>
      obtain ⟨triples, index, assigned, nd, -, did, rfl⟩ := step_decodeTriple.mp h
      exact .inr (field_update RaftNode.m_remote_nodes (RaftNode.decodeTriple_remote did))
  | testApplied i =>
      obtain ⟨index, assigned, -, rfl⟩ := step_testApplied.mp h
      exact .inr (field_update RaftNode.m_remote_nodes rfl)
  | respond i =>
      obtain ⟨assigned, -, rfl⟩ := step_respond.mp h
      exact .inr (field_update RaftNode.m_remote_nodes rfl)

theorem remote_mono (h : step cfg s a = some s') {v j : Nat}
    (mem : j ∈ (s.nodes v).m_remote_nodes) : j ∈ (s'.nodes v).m_remote_nodes := by
  rcases step_remote h with ⟨i, n, -, -, -, -, -, rfl⟩ | same
  · by_cases at_ : v = i
    · subst at_
      simp [mem]
    · simpa [Function.update_of_ne at_] using mem
  · rwa [same v]

def Peers (cfg : Config) (s : Cluster) : Prop :=
  ∀ i, (s.nodes i).m_remote_nodes.Nodup ∧
    ∀ j ∈ (s.nodes i).m_remote_nodes, j < cfg.size ∧ j ≠ i ∧ i < cfg.size

theorem peers_initial (cfg : Config) : Peers cfg {} := fun _ => ⟨List.nodup_nil, by simp⟩

theorem peers_step (peers : Peers cfg s) (h : step cfg s a = some s') : Peers cfg s' := by
  rcases step_remote h with ⟨i, j, -, hi, hj, ne, fresh, rfl⟩ | same
  · intro v
    by_cases at_ : v = i
    · subst at_
      simp only [put_nodes, Function.update_self, List.nodup_append, List.mem_append,
        List.mem_singleton]
      refine ⟨⟨(peers v).1, List.nodup_cons.mpr (by simp), ?_⟩, ?_⟩
      · rintro x old y rfl rfl
        exact fresh old
      · rintro x (old | rfl)
        · exact (peers v).2 x old
        · exact ⟨hj, ne, hi⟩
    · simpa [Function.update_of_ne at_] using peers v
  · intro v
    rw [same v]
    exact peers v

end CRpc.Raft
