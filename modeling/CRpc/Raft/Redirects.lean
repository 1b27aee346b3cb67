import CRpc.Raft.Terms

/-! Where a node's `m_leaderId` comes from. Every value but -1 was named by a leader's
request or by a candidate's, and only the first makes it a leader. -/
namespace CRpc.Raft

open Cluster Transition

namespace RaftNode

variable {cfg : Config} {nd nd' : RaftNode} {i : Nat}

def belief (nd : RaftNode) : Nat × Nat := (nd.m_leaderId, nd.m_currentTerm)

theorem appendEntriesEnd_belief {params : AppendEntriesParams} {r : RaftNode × AppendEntriesRets}
    (h : nd.appendEntriesEnd params = some r) : r.1.belief = nd.belief := by
  obtain ⟨_, _, rfl⟩ := Option.map_eq_some_iff.mp h
  rfl

end RaftNode

namespace Cluster

/-- Node `c` was elected in term `T`. -/
def elected (s : Cluster) (c T : Nat) : Prop := ∃ es, .leader c T es ∈ s.votes

/-- Node `i` has answered a vote request of candidate `c` in term `T`. -/
def asked (s : Cluster) (i c T : Nat) : Prop :=
  ∃ call ∈ s.voteCalls, call.dst = i ∧ call.reply ≠ none ∧
    call.request.candidateId = c ∧ call.request.term = T

end Cluster

section Steps

variable {cfg : Config} {s s' : Cluster} {a : Action}

theorem elected_step (h : step cfg s a = some s') {c T : Nat} (elected : s.elected c T) :
    s'.elected c T := by
  obtain ⟨es, mem⟩ := elected
  exact ⟨es, votes_step h mem⟩

end Steps

/-- Whom a node may name: a node elected in its term, or one it was asked to vote for. -/
def Known (cfg : Config) (s : Cluster) (v : Nat) : Prop :=
  (s.nodes v).m_leaderId = noNode ∨ ((s.nodes v).m_leaderId < cfg.size ∧
    (s.elected (s.nodes v).m_leaderId (s.nodes v).m_currentTerm ∨
      s.asked v (s.nodes v).m_leaderId (s.nodes v).m_currentTerm))

structure Beliefs (cfg : Config) (s : Cluster) : Prop where
  crowned : ∀ v, (s.core v).state = .Leader → v < cfg.size ∧ s.elected v (s.core v).term
  sent : ∀ c ∈ s.appendCalls, c.request.leaderId < cfg.size ∧
    s.elected c.request.leaderId c.request.term
  known : ∀ v, Known cfg s v

namespace Beliefs

variable {cfg : Config} {s s' : Cluster} {a : Action}

theorem sent_step (beliefs : Beliefs cfg s) (h : step cfg s a = some s') :
    ∀ c ∈ s'.appendCalls, c.request.leaderId < cfg.size ∧
      s'.elected c.request.leaderId c.request.term := by
  intro c mem
  rcases appendCalls_origin h mem with ⟨d, old, same⟩ | ⟨i, sends⟩
  · rw [same.request]
    exact (beliefs.sent d old).imp_right (elected_step h)
  · obtain ⟨e, request, -⟩ := sends.request
    rw [request]
    exact (beliefs.crowned i sends.leads).imp_right (elected_step h)

end Beliefs

/-- The address `handleServerRedirect` answers with; there is none outside `m_nodes`. -/
def RaftNode.handleServerRedirect (m_nodes : List IpPort) (nd : RaftNode) : Option IpPort :=
  m_nodes[nd.m_leaderId]?

end CRpc.Raft
