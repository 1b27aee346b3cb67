import CRpc.Raft.Terms

/-! What a node does with a term it hears of, whichever code reads it. -/
namespace CRpc.Raft

open Cluster Transition

/-- A request or reply that carries a term, by the code that processes it. -/
inductive Delivery
  | raftVote (params : RaftVoteParams)
  | appendEntries (params : AppendEntriesParams)
  | voteReply (election : Nat) (result : RaftVoteRets)
  | replicateReply (nodeId : Nat) (result : AppendEntriesRets)
  | heartbeatReply (result : AppendEntriesRets)
  deriving DecidableEq, Repr

def Delivery.term : Delivery → Nat
  | .raftVote params => params.term
  | .appendEntries params => params.term
  | .voteReply _ result => result.term
  | .replicateReply _ result => result.term
  | .heartbeatReply result => result.term

namespace RaftNode

variable {cfg : Config} {nd nd' : RaftNode} {i : Nat}

/-- What the heartbeat callback does with a reply: it is read into a local variable. -/
def heartbeatReply (nd : RaftNode) (_result : AppendEntriesRets) : RaftNode := nd

/-- The node after the code a message is for; `none` where the log is full. -/
def receive (cfg : Config) (m_id : Nat) (nd : RaftNode) : Delivery → Option RaftNode
  | .raftVote params => some (nd.raftVote params).1
  | .appendEntries params =>
      match nd.appendEntries params with
      | (nd', some _) => some nd'
      | (nd', none) => (nd'.appendEntriesEnd params).map Prod.fst
  | .voteReply election result => (nd.voteReply cfg m_id election result).map Prod.fst
  | .replicateReply nodeId result => some (nd.replicateReply cfg m_id nodeId result).1
  | .heartbeatReply result => some (nd.heartbeatReply result)

/-- The node is in term `t` or beyond, and leads in no earlier one. -/
def Adopted (t : Nat) (nd : RaftNode) : Prop :=
  t ≤ nd.m_currentTerm ∧ ¬ (nd.m_state = .Leader ∧ nd.m_currentTerm < t)

/-- The code that gets the message compares its term with the node's. -/
def Heeds (nd : RaftNode) : Delivery → Prop
  | .replicateReply _ _ => nd.m_state = .Leader
  | .heartbeatReply _ => False
  | _ => True

instance (t : Nat) (nd : RaftNode) : Decidable (nd.Adopted t) :=
  inferInstanceAs (Decidable (_ ∧ _))

theorem adopted_iff {t : Nat} : nd.Adopted t ↔ t ≤ nd.m_currentTerm := by
  constructor
  · exact And.left
  · intro le
    exact ⟨le, fun stale => absurd stale.2 (Nat.not_lt.mpr le)⟩

theorem raftVote_term {params : RaftVoteParams} (higher : nd.m_currentTerm < params.term) :
    (nd.raftVote params).1.m_currentTerm = params.term := by
  have fresh : ¬ (params.term < nd.m_currentTerm ∨
      params.term = nd.m_currentTerm ∧ nd.m_votedFor ≠ params.candidateId) := by omega
  simp only [raftVote, if_neg fresh, if_pos higher]
  split <;> rfl

theorem appendEntries_term {params : AppendEntriesParams}
    (higher : nd.m_currentTerm < params.term) :
    (nd.appendEntries params).1.m_currentTerm = params.term := by
  rcases appendEntries_answer nd params with ⟨stale, -⟩ | ⟨-, term, -⟩
  · omega
  · exact term

theorem appendEntriesEnd_term {params : AppendEntriesParams} {r : RaftNode × AppendEntriesRets}
    (h : nd.appendEntriesEnd params = some r) : r.1.m_currentTerm = nd.m_currentTerm :=
  congrArg VoteCore.term (appendEntriesEnd_core h)

theorem voteReply_term {election : Nat} {result : RaftVoteRets} {r : RaftNode × List Event}
    (higher : nd.m_currentTerm < result.term)
    (h : nd.voteReply cfg i election result = some r) : r.1.m_currentTerm = result.term := by
  have apart : ¬ (nd.m_currentTerm = result.term ∧ nd.m_state = .Candidate) := by omega
  rw [voteReply, if_neg apart, if_pos higher] at h
  cases h
  rfl

/-- Only a leader takes a higher term from a reply to `replicateLog`. -/
theorem replicateReply_term {nodeId : Nat} {result : AppendEntriesRets}
    (higher : nd.m_currentTerm < result.term) :
    (nd.replicateReply cfg i nodeId result).1.m_currentTerm =
      if nd.m_state = .Leader then result.term else nd.m_currentTerm := by
  by_cases leads : nd.m_state = .Leader
  · rw [replicateReply, if_neg (not_not.mpr leads), if_pos higher, if_pos leads]
    rfl
  · rw [replicateReply, if_pos leads, if_neg leads]

/-- A node takes a higher term from every message whose code compares terms, and
from no other. -/
theorem receive_adopted {d : Delivery} (higher : nd.m_currentTerm < d.term)
    (h : nd.receive cfg i d = some nd') : nd'.Adopted d.term ↔ nd.Heeds d := by
  rw [adopted_iff]
  cases d with
  | raftVote params =>
      cases h
      rw [raftVote_term higher]
      exact iff_of_true le_rfl trivial
  | appendEntries params =>
      have term := appendEntries_term higher
      simp only [receive] at h
      split at h
      · next did =>
        cases h
        rw [did] at term
        exact iff_of_true term.ge trivial
      · next did =>
        obtain ⟨r, ended, rfl⟩ := Option.map_eq_some_iff.mp h
        rw [did] at term
        exact iff_of_true ((appendEntriesEnd_term ended).trans term).ge trivial
  | voteReply election result =>
      obtain ⟨r, did, rfl⟩ := Option.map_eq_some_iff.mp h
      exact iff_of_true (voteReply_term higher did).ge trivial
  | replicateReply nodeId result =>
      cases h
      rw [replicateReply_term higher]
      split
      · next leads => exact iff_of_true le_rfl leads
      · next stands => exact iff_of_false (Nat.not_le.mpr higher) stands
  | heartbeatReply result =>
      cases h
      exact iff_of_false (Nat.not_le.mpr higher) id

end RaftNode

def TermsKept (s s' : Cluster) : Prop :=
  ∀ i, (s.nodes i).m_currentTerm ≤ (s'.nodes i).m_currentTerm

theorem termsKept_update {s s' : Cluster} {i : Nat} {core : VoteCore}
    (moved : s'.core = Function.update s.core i core) :
    TermsKept s s' ↔ (s.nodes i).m_currentTerm ≤ core.term := by
  have terms : ∀ v, (s'.nodes v).m_currentTerm = (Function.update s.core i core v).term := by
    intro v
    rw [← moved]
    rfl
  constructor
  · intro kept
    have here := kept i
    rwa [terms, Function.update_self] at here
  · intro le v
    rw [terms]
    by_cases at_ : v = i
    · subst at_
      rwa [Function.update_self]
    · rw [Function.update_of_ne at_]
      exact le_rfl

theorem termsKept_same {s s' : Cluster} (core : s'.core = s.core) : TermsKept s s' := fun i =>
  (congrArg VoteCore.term (congrFun core i)).ge

theorem electionTimer_term (i : Nat) (nd : RaftNode) : (nd.electionTimer i).m_currentTerm =
    if nd.m_state = .Leader then nd.m_currentTerm else u64 (nd.m_currentTerm + 1) := by
  by_cases leads : nd.m_state = .Leader
  · rw [RaftNode.electionTimer, if_neg (not_not.mpr leads), if_pos leads]
  · rw [RaftNode.electionTimer, if_pos leads, if_neg leads]

theorem le_u64_succ {n : Nat} : n ≤ u64 (n + 1) ↔ n + 1 < 2 ^ 64 := by
  unfold u64
  omega

theorem termsKept_step {cfg : Config} {s s' : Cluster} {a : Action}
    (h : step cfg s a = some s') (quiet : ∀ i, a ≠ .electionTimer i) : TermsKept s s' := by
  cases step_voteStep h with
  | quiet core _ _ => exact termsKept_same core
  | depose i T _ guard core _ _ =>
      rw [termsKept_update core]
      rcases guard with higher | ⟨rfl, -⟩
      · exact higher.le
      · exact le_rfl
  | timer i act _ _ _ _ _ => exact absurd act (quiet i)
  | solicit i _ _ core _ _ => exact (termsKept_update core).mpr le_rfl
  | deny k call _ _ core _ _ =>
      rcases core with core | ⟨higher, core⟩
      · exact termsKept_same core
      · exact (termsKept_update core).mpr higher.le
  | grant k call _ _ guard _ core _ _ =>
      rw [termsKept_update core]
      rcases guard with higher | ⟨same, -⟩
      · exact higher.le
      · exact same.le
  | close k call _ _ core _ _ =>
      rcases core with core | ⟨rets, -, higher, core⟩
      · exact termsKept_same core
      · exact (termsKept_update core).mpr higher.le
  | count k call rets _ _ _ _ core _ _ => exact (termsKept_update core).mpr le_rfl
  | win k call rets _ _ _ _ core _ _ => exact (termsKept_update core).mpr le_rfl

/-- The only step that lowers a term is an election timer at the greatest one. -/
theorem termsKept_iff {cfg : Config} {s s' : Cluster} {a : Action}
    (h : step cfg s a = some s') : TermsKept s s' ↔ NoWrap s a := by
  cases a with
  | electionTimer i =>
      obtain ⟨-, rfl⟩ := step_electionTimer.mp h
      rw [termsKept_update (core_put ..), RaftNode.core_term, electionTimer_term]
      by_cases leads : (s.nodes i).m_state = .Leader
      · rw [if_pos leads]
        exact iff_of_true le_rfl fun stands => absurd leads stands
      · rw [if_neg leads, le_u64_succ]
        exact ⟨fun small _ => small, fun small => small leads⟩
  | _ => exact iff_of_true (termsKept_step h (by simp)) trivial

/-- A higher term is adopted exactly where the code that gets it compares terms, which
`replicateLog` does only as a leader and the heartbeat callback never; and terms never
decrease in a run where none wraps. -/
theorem higher_terms_adopted (cfg : Config) :
    (∀ (i : Nat) (nd nd' : RaftNode) (d : Delivery), nd.m_currentTerm < d.term →
      nd.receive cfg i d = some nd' → (nd'.Adopted d.term ↔ nd.Heeds d)) ∧
    (∀ (s s' : Cluster) (a : Action), step cfg s a = some s' → (TermsKept s s' ↔ NoWrap s a)) ∧
    ∀ (s t : Cluster) (as : List Action), Run (step cfg) NoWrap s as t → TermsKept s t := by
  refine ⟨fun i nd nd' d => RaftNode.receive_adopted, fun s s' a => termsKept_iff, ?_⟩
  intro s t as run
  apply run.relates
  · intro t i
    exact le_rfl
  · intro t u v first second i
    exact (first i).trans (second i)
  · intro t a u noWrap next
    exact (termsKept_iff next).mpr noWrap

/-- Node 0 leads term 1 and gets the answer of node 2, in term 2, to its heartbeat. -/
theorem heartbeat_reply_ignored : ∃ s call rets, exec (step threeNodes) {} (zeroElected ++
      [.electionTimer 2, .electionTimer 2, .heartbeat 0 2, .appendEntries 0]) = some s ∧
    s.appendCalls[0]? = some call ∧ call.reply = some rets ∧
    (s.nodes 0).m_currentTerm < rets.term ∧ ∃ nd,
      (s.nodes 0).receive threeNodes 0 (.heartbeatReply rets) = some nd ∧ ¬ nd.Adopted rets.term := by
  have done : (exec (step threeNodes) {} (zeroElected ++
      [.electionTimer 2, .electionTimer 2, .heartbeat 0 2, .appendEntries 0])).bind (fun s =>
        s.appendCalls[0]?.bind fun call => call.reply.map fun rets =>
          decide ((s.nodes 0).m_currentTerm < rets.term ∧
            ¬ (s.nodes 0).Adopted rets.term)) = some true := by decide +kernel
  obtain ⟨s, run, rest⟩ := Option.bind_eq_some_iff.mp done
  obtain ⟨call, found, rest⟩ := Option.bind_eq_some_iff.mp rest
  obtain ⟨rets, reply, seen⟩ := Option.map_eq_some_iff.mp rest
  obtain ⟨higher, stale⟩ := of_decide_eq_true seen
  exact ⟨s, call, rets, run, found, reply, higher, _, rfl, stale⟩

end CRpc.Raft
