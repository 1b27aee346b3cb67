import CRpc.Raft.Loops
import Mathlib.Algebra.Ring.Parity

/-! The two places that count to `(m_nodes.size() + 1) / 2`: votes and replicas. -/
namespace CRpc.Raft

open Cluster Transition Quorum

namespace RaftNode

variable {cfg : Config} {nd : RaftNode} {i j : Nat}

/-- The counting loop succeeds when the nodes still to come complete the count. -/
theorem countReplicas_iff (bar m_id last : Nat) (matchIndexs : Nat → Nat) (left i vote : Nat) :
    countReplicas bar m_id last matchIndexs left i vote = true ↔ 0 < left ∧
      bar ≤ vote + (List.range' i left).countP fun v => v = m_id ∨ last ≤ matchIndexs v := by
  induction left generalizing i vote with
  | zero => simp [countReplicas]
  | succ left ih =>
      have vote_eq : (if i = m_id then vote + 1
          else if last ≤ matchIndexs i then vote + 1 else vote) =
          vote + if i = m_id ∨ last ≤ matchIndexs i then 1 else 0 := by
        by_cases self : i = m_id <;> by_cases holds : last ≤ matchIndexs i <;> simp [self, holds]
      simp only [countReplicas, vote_eq, List.range'_succ, List.countP_cons, decide_eq_true_eq]
      generalize (if i = m_id ∨ last ≤ matchIndexs i then 1 else 0) = one
      split_ifs with reached
      · simp only [true_iff]
        omega
      · rw [ih]
        rcases left with - | left
        · simp only [List.range'_zero, List.countP_nil]
          omega
        · omega

/-- The nodes a leader counts as holding the log up to `N`. -/
def replicas (cfg : Config) (m_id : Nat) (nd : RaftNode) (N : Nat) : Finset Nat :=
  (Finset.range cfg.size).filter fun v => v = m_id ∨ N ≤ nd.m_matchIndexs v

theorem card_replicas (cfg : Config) (m_id : Nat) (nd : RaftNode) (N : Nat) :
    (replicas cfg m_id nd N).card =
      (List.range' 0 cfg.size).countP fun v => v = m_id ∨ N ≤ nd.m_matchIndexs v := by
  rw [List.countP_eq_length_filter, ← List.range_eq_range']
  rfl

theorem advance_matchIndexs (nd : RaftNode) (nodeId j : Nat) :
    (nd.advance nodeId).m_matchIndexs j = if j = nodeId
      then pred64 (u64 (nd.m_nextIndexs nodeId + 1)) else nd.m_matchIndexs j :=
  Function.update_apply ..

@[simp] theorem advance_matched (nd : RaftNode) (nodeId : Nat) :
    (nd.advance nodeId).m_matchIndexs nodeId = pred64 (u64 (nd.m_nextIndexs nodeId + 1)) := by
  simp [advance]

/-- A reply that lets the leader count counts at least the leader and its sender. -/
theorem replicated_card (i_lt : i < cfg.size) (j_lt : j < cfg.size) (ne : j ≠ i)
    (h : nd.replicated cfg i j = true) :
    max 2 (threshold cfg) ≤
      (replicas cfg i (nd.advance j) ((nd.advance j).m_matchIndexs j)).card := by
  have enough := ((countReplicas_iff _ _ _ _ _ _ _).mp h).2
  rw [Nat.zero_add, ← card_replicas] at enough
  have pair : ({i, j} : Finset Nat) ⊆
      replicas cfg i (nd.advance j) ((nd.advance j).m_matchIndexs j) := by
    intro v hv
    rcases Finset.mem_insert.mp hv with rfl | hv
    · simp [replicas, i_lt]
    · obtain rfl := Finset.mem_singleton.mp hv
      simp [replicas, j_lt]
  have two := Finset.card_le_card pair
  rw [Finset.card_pair (Ne.symm ne)] at two
  exact max_le two enough

/-- A reply that raises the commit index raises it to the index it acknowledges. -/
theorem replicateReply_raises {rets : AppendEntriesRets}
    (raised : nd.m_raft_logger.m_commitIndex <
      (nd.replicateReply cfg i j rets).1.m_raft_logger.m_commitIndex) :
    nd.commits cfg i j rets ∧
    (nd.replicateReply cfg i j rets).1.m_matchIndexs = (nd.advance j).m_matchIndexs ∧
    (nd.replicateReply cfg i j rets).1.m_raft_logger.m_commitIndex =
      (nd.advance j).m_matchIndexs j := by
  rcases replicateReply_cases cfg i nd j rets with
    ⟨-, did⟩ | ⟨-, -, did⟩ | ⟨-, -, did⟩ | ⟨-, -, -, did⟩ | ⟨leads, term, success, did⟩
  · exact absurd raised (by simp [did])
  · exact absurd raised (by simp [did, becomeFollower])
  · exact absurd raised (by simp [did])
  · exact absurd raised (by simp [did, retreat])
  · rw [did] at raised ⊢
    by_cases full : nd.replicated cfg i j = true
    · simp only [commitReplicated, if_pos full, RaftLogger.setCommitIndex] at raised ⊢
      exact ⟨⟨leads, term, success, full⟩, trivial, by omega⟩
    · exact absurd raised (by simp [commitReplicated, full, advance])

end RaftNode

def LoopIds (cfg : Config) (s : Cluster) : Prop :=
  ∀ i, ∀ loop ∈ s.loops i, i < cfg.size ∧ loop.nodeId < cfg.size ∧ loop.nodeId ≠ i

theorem loopIds_step {cfg : Config} {s s' : Cluster} {a : Action} (ids : LoopIds cfg s)
    (tally : Tally cfg s.core s.voteCalls s.votes) (h : step cfg s a = some s') :
    LoopIds cfg s' := by
  cases step_loopStep h with
  | quiet loops _ =>
      intro i loop mem
      exact ids i loop (congrFun loops i ▸ mem)
  | move v l loop pc found _ loops _ _ _ =>
      intro i loop' mem
      rw [loops] at mem
      by_cases at_ : i = v
      · subst at_
        rw [Function.update_self] at mem
        rcases List.mem_or_eq_of_mem_set mem with old | rfl
        · exact ids i loop' old
        · exact ids i loop (List.mem_of_getElem? found)
      · rw [Function.update_of_ne at_] at mem
        exact ids i loop' mem
  | start k call rets _ found _ _ loops _ =>
      intro i loop' mem
      rw [loops] at mem
      by_cases at_ : i = call.src
      · subst at_
        rw [Function.update_self] at mem
        rcases List.mem_append.mp mem with old | new
        · exact ids _ loop' old
        · obtain ⟨j, hj, rfl⟩ := List.mem_map.mp new
          simp only [List.mem_filter, List.mem_range, decide_eq_true_eq] at hj
          exact ⟨(tally.call k call found).src_lt, hj.1, hj.2⟩
      · rw [Function.update_of_ne at_] at mem
        exact ids i loop' mem

theorem loopIds_run {cfg : Config} {s : Cluster} {as : List Action}
    {ok : Cluster → Action → Prop} (run : Run (step cfg) ok {} as s) :
    (Peers cfg s ∧ Tally cfg s.core s.voteCalls s.votes) ∧ LoopIds cfg s :=
  run.invariant
    (P := fun s => (Peers cfg s ∧ Tally cfg s.core s.voteCalls s.votes) ∧ LoopIds cfg s)
    ⟨⟨peers_initial cfg, tally_initial cfg⟩, by simp [LoopIds, Cluster.loops]⟩
    fun _ _ _ ⟨⟨peers, tally⟩, ids⟩ _ next =>
      ⟨⟨peers_step peers next, tally_step peers tally next⟩, loopIds_step ids tally next⟩

/-- The quorums the code relies on: the voters of a leader, and the nodes counted
when `replicateLog` raises a commit index. -/
inductive QuorumUsed (cfg : Config) : Finset Nat → Prop
  | election {as : List Action} {s : Cluster} {i T : Nat} {entries : List Entry} :
      Run (step cfg) Always {} as s → .leader i T entries ∈ s.history →
      QuorumUsed cfg (voters cfg s.history i T)
  | replication {as : List Action} {s s' : Cluster} {i l : Nat} :
      Run (step cfg) Always {} as s → step cfg s (.replicateReply i l) = some s' →
      (s.nodes i).m_raft_logger.m_commitIndex < (s'.nodes i).m_raft_logger.m_commitIndex →
      QuorumUsed cfg
        ((s'.nodes i).replicas cfg i (s'.nodes i).m_raft_logger.m_commitIndex)

theorem quorumUsed_card {cfg : Config} {Q : Finset Nat} (used : QuorumUsed cfg Q) :
    Q ⊆ Finset.range cfg.size ∧ max 2 (RaftNode.threshold cfg) ≤ Q.card := by
  cases used with
  | election run led =>
      refine ⟨Finset.filter_subset _ _, ?_⟩
      rw [← voters_votes]
      exact (tally_run run).2.led _ _ _ (List.mem_filter.mpr ⟨led, rfl⟩)
  | @replication as s s' i l run next raised =>
      refine ⟨Finset.filter_subset _ _, ?_⟩
      obtain ⟨loop, k, call, rets, found, -, -, -, -, rfl⟩ := step_replicateReply.mp next
      obtain ⟨i_lt, j_lt, ne⟩ := (loopIds_run run).2 i loop (List.mem_of_getElem? found)
      simp only [put_nodes, Function.update_self] at raised ⊢
      obtain ⟨⟨-, -, -, full⟩, matched, commit⟩ := RaftNode.replicateReply_raises raised
      rw [RaftNode.replicas, matched, commit]
      exact RaftNode.replicated_card i_lt j_lt ne full

theorem threeNodes_odd : Odd threeNodes.size := ⟨1, rfl⟩

theorem threshold_majority {cfg : Config} (odd : Odd cfg.size ∨ cfg.size ≤ 2) {Q : Finset Nat}
    (sub : Q ⊆ Finset.range cfg.size) (enough : max 2 (RaftNode.threshold cfg) ≤ Q.card) :
    Majority (Finset.range cfg.size) Q := by
  refine ⟨sub, ?_⟩
  have bound := cfg.size_lt
  rw [RaftNode.threshold, u64_of_lt (by omega)] at enough
  rw [Finset.card_range]
  rcases odd with ⟨m, hm⟩ | small <;> omega

/-- A vote comes from a node its candidate has a session with. -/
structure Sessions (s : Cluster) : Prop where
  call : ∀ c ∈ s.voteCalls, c.dst ∈ (s.nodes c.src).m_remote_nodes
  granted : ∀ v T c, .granted v T c ∈ s.votes → v ∈ (s.nodes c).m_remote_nodes

theorem sessions_step {cfg : Config} {s s' : Cluster} {a : Action} (sessions : Sessions s)
    (tally : Tally cfg s.core s.voteCalls s.votes) (h : step cfg s a = some s') : Sessions s' := by
  obtain ⟨call, granted⟩ := sessions
  have old : ∀ c ∈ s.voteCalls, c.dst ∈ (s'.nodes c.src).m_remote_nodes := fun c mem =>
    remote_mono h (call c mem)
  have votes : ∀ v T c, .granted v T c ∈ s.votes → v ∈ (s'.nodes c).m_remote_nodes :=
    fun v T c mem => remote_mono h (granted v T c mem)
  have changed : ∀ {k : Nat} {c c' : VoteCall}, s.voteCalls[k]? = some c →
      s'.voteCalls = s.voteCalls.set k c' → c.Same c' →
      ∀ d ∈ s'.voteCalls, d.dst ∈ (s'.nodes d.src).m_remote_nodes := by
    intro k c c' found calls same d mem
    rw [calls] at mem
    rcases List.mem_or_eq_of_mem_set mem with mem | rfl
    · exact old d mem
    · rw [same.src, same.dst]
      exact old c (List.mem_of_getElem? found)
  cases step_voteStep h with
  | quiet _ calls same => exact ⟨calls ▸ old, same ▸ votes⟩
  | depose _ _ _ _ _ calls same => exact ⟨calls ▸ old, same ▸ votes⟩
  | timer _ _ _ _ _ calls same =>
      exact ⟨calls ▸ old, fun v T c mem => votes v T c (by simpa [same] using mem)⟩
  | solicit i _ _ _ calls same =>
      refine ⟨fun c mem => ?_, fun v T c mem => votes v T c (by simpa [same] using mem)⟩
      rw [calls] at mem
      rcases List.mem_append.mp mem with mem | new
      · exact old c mem
      · obtain ⟨j, peer, rfl⟩ := List.mem_map.mp new
        exact remote_mono h peer
  | deny k c found _ _ calls same => exact ⟨changed found calls ⟨rfl, rfl, rfl, rfl⟩, same ▸ votes⟩
  | grant k c found _ _ _ _ calls same =>
      refine ⟨changed found calls ⟨rfl, rfl, rfl, rfl⟩, fun v T d mem => ?_⟩
      rw [same] at mem
      rcases List.mem_cons.mp mem with new | mem
      · cases new
        rw [(tally.call k c found).candidate]
        exact old c (List.mem_of_getElem? found)
      · exact votes v T d mem
  | close k c found _ _ calls same =>
      exact ⟨changed found calls ⟨rfl, rfl, rfl, rfl⟩, same ▸ votes⟩
  | count k c _ found _ _ _ _ calls same =>
      exact ⟨changed found calls ⟨rfl, rfl, rfl, rfl⟩, same ▸ votes⟩
  | win k c _ found _ _ _ _ calls same =>
      exact ⟨changed found calls ⟨rfl, rfl, rfl, rfl⟩,
        fun v T d mem => votes v T d (by simpa [same] using mem)⟩

theorem voters_le {cfg : Config} {as : List Action} {s : Cluster}
    (run : Run (step cfg) Always {} as s) (i T : Nat) :
    (voters cfg s.history i T).card ≤ (s.nodes i).m_remote_nodes.length + 1 := by
  have sessions : Sessions s := (run.invariant
    (P := fun s => (Peers cfg s ∧ Tally cfg s.core s.voteCalls s.votes) ∧ Sessions s)
    ⟨⟨peers_initial cfg, tally_initial cfg⟩, by simp, by simp [Cluster.votes]⟩
    fun _ _ _ ⟨⟨peers, tally⟩, sessions⟩ _ next =>
      ⟨⟨peers_step peers next, tally_step peers tally next⟩,
        sessions_step sessions tally next⟩).2
  have sub : voters cfg s.votes i T ⊆ insert i (s.nodes i).m_remote_nodes.toFinset := by
    intro v mem
    rcases (Finset.mem_filter.mp mem).2 with granted | ⟨rfl, -⟩
    · exact Finset.mem_insert_of_mem (List.mem_toFinset.mpr (sessions.granted v T i granted))
    · exact Finset.mem_insert_self ..
  rw [← voters_votes]
  exact (Finset.card_le_card sub).trans ((Finset.card_insert_le ..).trans
    (Nat.succ_le_succ (List.toFinset_card_le _)))

/-- Node 0 as a candidate with sessions to nodes 1 to `m`, after `k` votes. -/
def standing (m k : Nat) : RaftNode where
  m_state := .Candidate
  m_currentTerm := 1
  m_votedFor := 0
  m_remote_nodes := (List.range m).map (· + 1)
  grantedVotes := [1 + k]

/-- Node 0 stands, `k` of its calls are done, and the nodes behind them are untouched. -/
structure Standing (s : Cluster) (m k : Nat) : Prop where
  candidate : s.nodes 0 = standing m k
  others : ∀ v, k < v → s.nodes v = {}
  calls : ∀ n, k ≤ n → n < m → s.voteCalls[n]? =
    some { src := 0, dst := n + 1, election := 0, request := ⟨1, 0, 0, 0⟩ }

theorem standing_start (cfg : Config) {m : Nat} (lt : m < cfg.size) :
    ∃ as s, Run (step cfg) Always {} as s ∧ Standing s m 0 := by
  have connects : ∀ j ≤ m, ∃ as s, Run (step cfg) Always {} as s ∧
      s.nodes 0 = { m_remote_nodes := (List.range j).map (· + 1) } ∧
      (∀ v, 0 < v → s.nodes v = {}) ∧ s.voteCalls = [] := by
    intro j le
    induction j with
    | zero => exact ⟨[], {}, .refl, rfl, fun _ _ => rfl, rfl⟩
    | succ j ih =>
        obtain ⟨as, s, run, zero, others, calls⟩ := ih (by omega)
        refine ⟨_, _, run.snoc trivial (step_connect (i := 0) (j := j + 1).mpr
          ⟨⟨by omega, by omega, by omega, by simp [zero], by rw [zero]⟩, rfl⟩), ?_, fun v pos => ?_,
          calls⟩
        · simp [zero, List.range_succ]
        · simp [Function.update_of_ne (Nat.ne_of_gt pos), others v pos]
  obtain ⟨as, s, run, zero, others, calls⟩ := connects m le_rfl
  have timer : step cfg s (.electionTimer 0) = some _ :=
    step_electionTimer.mpr ⟨⟨by omega, by rw [zero]⟩, rfl⟩
  refine ⟨_, _, (run.snoc trivial timer).snoc trivial (step_startElection (i := 0).mpr
    ⟨⟨by omega, ?_, ?_⟩, rfl⟩), ?_, fun v pos => ?_, fun n _ lt => ?_⟩
  · simp [zero, RaftNode.electionTimer]
  · simp [zero, RaftNode.electionTimer, RaftNode.free]
  · simp [zero, RaftNode.electionTimer, RaftNode.startElection, standing, u64]
  · simp [Function.update_of_ne (Nat.ne_of_gt pos), others v pos]
  · simp [zero, calls, voteTasks, RaftNode.electionTimer, RaftNode.startElection, u64, lt,
      RaftLogger.getLastIndex, RaftLogger.getLastTerm, RaftLogger.lastEntry]

theorem raftVote_untouched : ({} : RaftNode).raftVote ⟨1, 0, 0, 0⟩ =
    ({ m_currentTerm := 1, m_votedFor := 0, m_leaderId := 0 }, ⟨1, true⟩) := by rfl

theorem standing_vote {cfg : Config} {s : Cluster} {m k : Nat} (st : Standing s m k)
    (lt : k < m) : ∃ t, step cfg s (.raftVote k) = some t ∧ t.nodes 0 = standing m k ∧
      (∀ v, k + 1 < v → t.nodes v = {}) ∧
      t.voteCalls = s.voteCalls.set k { src := 0, dst := k + 1, election := 0
                                        request := ⟨1, 0, 0, 0⟩, reply := some ⟨1, true⟩ } := by
  have idle := st.others (k + 1) (Nat.lt_succ_self k)
  refine ⟨_, step_raftVote.mpr ⟨_, st.calls k le_rfl lt, ⟨rfl, by rw [idle]⟩, rfl⟩, ?_,
    fun v lt' => ?_, ?_⟩
  · simp [Function.update_of_ne, st.candidate]
  · simp [Function.update_of_ne (Nat.ne_of_gt lt'), st.others v (by omega)]
  · simp [idle, raftVote_untouched]

/-- One more vote for node 0, handled when its voter is the next in turn. -/
theorem standing_next {cfg : Config} {as : List Action} {s : Cluster} {m k : Nat}
    (run : Run (step cfg) Always {} as s) (st : Standing s m k) (lt : k < m) :
    (k + 2 < RaftNode.threshold cfg →
      ∃ bs t, Run (step cfg) Always {} bs t ∧ Standing t m (k + 1)) ∧
    (RaftNode.threshold cfg ≤ k + 2 → ∃ bs t, Run (step cfg) Always {} bs t ∧
      .leader 0 1 [{}] ∈ t.history ∧ (t.nodes 0).m_remote_nodes.length = m) := by
  obtain ⟨t, vote, zero, others, calls⟩ := standing_vote st lt
  have run := run.snoc trivial vote
  have found : t.voteCalls[k]? = some { src := 0, dst := k + 1, election := 0
                                        request := ⟨1, 0, 0, 0⟩, reply := some ⟨1, true⟩ } := by
    rw [calls, List.getElem?_set_self (List.getElem?_eq_some_iff.mp (st.calls k le_rfl lt)).1]
  refine ⟨fun below => ?_, fun enough => ?_⟩
  · have counts : (standing m k).voteReply cfg 0 0 ⟨1, true⟩ = some (standing m (k + 1), []) := by
      have not : ¬ (standing m k).wins cfg 0 ⟨1, true⟩ := by
        simp [RaftNode.wins, standing]
        omega
      rw [RaftNode.voteReply, if_pos ⟨rfl, rfl⟩, if_pos rfl, if_neg not]
      simp [RaftNode.countVote, standing, Nat.add_assoc]
    refine ⟨_, _, run.snoc trivial (step_voteReply.mpr ⟨_, found, _, rfl, ⟨rfl, by rw [zero]; rfl,
      fun _ => by rw [zero]; rfl⟩, _, by rw [zero]; exact counts, rfl⟩), ?_, fun v lt' => ?_,
      fun n le lt' => ?_⟩
    · simp
    · simp [Function.update_of_ne (Nat.ne_of_gt (Nat.zero_lt_of_lt lt')), others v lt']
    · have old := st.calls n (by omega) lt'
      rw [setVoteCall_voteCalls, put_voteCalls, calls, List.getElem?_set_ne (by omega),
        List.getElem?_set_ne (by omega), old]
  · have won : (standing m k).wins cfg 0 ⟨1, true⟩ := by
      simp [RaftNode.wins, standing]
      omega
    obtain ⟨nd, leads⟩ : ∃ nd, ((standing m k).countVote 0).becomeLeader cfg 0 = some nd := by
      simp [RaftNode.becomeLeader, RaftLogger.appendEntry, RaftNode.countVote, standing, maxEntries]
    have wins : (standing m k).voteReply cfg 0 0 ⟨1, true⟩ = some (nd, [.leader 0 1 [{}]]) := by
      rw [RaftNode.voteReply, if_pos ⟨rfl, rfl⟩, if_pos rfl, if_pos won, leads]
      rfl
    refine ⟨_, _, run.snoc trivial (step_voteReply.mpr ⟨_, found, _, rfl, ⟨rfl, by rw [zero]; rfl,
      fun _ => by rw [zero]; rfl⟩, _, by rw [zero]; exact wins, rfl⟩), ?_, ?_⟩
    · simp
    · simp [RaftNode.becomeLeader_remote leads, RaftNode.countVote, standing]

/-- Node 0 can be elected by as many nodes as the threshold asks for. -/
theorem elected_by_threshold (cfg : Config) (lt : RaftNode.threshold cfg ≤ cfg.size)
    (two : 2 ≤ RaftNode.threshold cfg) : ∃ as s, Run (step cfg) Always {} as s ∧
      .leader 0 1 [{}] ∈ s.history ∧
      (s.nodes 0).m_remote_nodes.length = RaftNode.threshold cfg - 1 := by
  have stands : ∀ k, k + 2 ≤ RaftNode.threshold cfg →
      ∃ as s, Run (step cfg) Always {} as s ∧ Standing s (RaftNode.threshold cfg - 1) k := by
    intro k le
    induction k with
    | zero => exact standing_start cfg (by omega)
    | succ k ih =>
        obtain ⟨as, s, run, st⟩ := ih (by omega)
        exact (standing_next run st (by omega)).1 (by omega)
  obtain ⟨as, s, run, st⟩ := stands (RaftNode.threshold cfg - 2) (by omega)
  exact (standing_next run st (by omega)).2 (by omega)

/-- Every quorum is a strict majority, and any two share a node, exactly on an odd number
of nodes and on at most two. -/
theorem quorums_are_majorities (cfg : Config) :
    ((∀ Q, QuorumUsed cfg Q → Majority (Finset.range cfg.size) Q) ∧
      ∀ Q R, QuorumUsed cfg Q → QuorumUsed cfg R → ∃ v, v ∈ Q ∧ v ∈ R) ↔
    (Odd cfg.size ∨ cfg.size ≤ 2) := by
  constructor
  · rintro ⟨major, -⟩
    by_contra even
    obtain ⟨notOdd, large⟩ := not_or.mp even
    obtain ⟨m, size⟩ := Nat.not_odd_iff_even.mp notOdd
    have bar : RaftNode.threshold cfg = m := by
      have := cfg.size_lt
      rw [RaftNode.threshold, u64_of_lt (by omega)]
      omega
    obtain ⟨as, s, run, led, sessions⟩ := elected_by_threshold cfg (by omega) (by omega)
    have few := voters_le run 0 1
    have many := (major _ (.election run led)).2
    rw [Finset.card_range] at many
    omega
  · intro odd
    have major : ∀ Q, QuorumUsed cfg Q → Majority (Finset.range cfg.size) Q := fun Q used =>
      threshold_majority odd (quorumUsed_card used).1 (quorumUsed_card used).2
    exact ⟨major, fun Q R hQ hR => (major Q hQ).meet (major R hR)⟩

def fourNodes : Config := ⟨4, by decide⟩

/-- Two votes of four make a leader. -/
theorem half_of_four_elects : ∃ Q, QuorumUsed fourNodes Q ∧ ¬ Majority (Finset.range 4) Q := by
  have done : (exec (step fourNodes) {} [.connect 0 1, .electionTimer 0, .startElection 0,
      .raftVote 0, .voteReply 0]).map Cluster.history = some [.leader 0 1 [{}], .granted 1 1 0,
        .solicit 0 1, .candidate 0 1] := by decide +kernel
  obtain ⟨s, run, seen⟩ := Option.map_eq_some_iff.mp done
  have led : .leader 0 1 [{}] ∈ s.history := by simp [seen]
  refine ⟨_, .election (.of_exec run) led, ?_⟩
  rw [seen]
  unfold Majority
  decide

end CRpc.Raft
