import CRpc.Raft.Quorums

/-! Whom a leader replicates to. Its loops start for every other node, its sessions and
indices are there for the nodes it was connected to when it won. -/
namespace CRpc.Raft

open Cluster Transition

namespace RaftNode

variable {cfg : Config} {nd nd' : RaftNode} {i : Nat}

@[simp] theorem electionTimer_next : (nd.electionTimer i).m_nextIndexs = nd.m_nextIndexs := by
  unfold electionTimer
  split <;> rfl

@[simp] theorem raftVote_next (params : RaftVoteParams) :
    (nd.raftVote params).1.m_nextIndexs = nd.m_nextIndexs := by
  unfold raftVote
  dsimp only
  split_ifs <;> rfl

@[simp] theorem appendEntries_next (params : AppendEntriesParams) :
    (nd.appendEntries params).1.m_nextIndexs = nd.m_nextIndexs := by
  unfold appendEntries
  dsimp only
  split_ifs <;> rfl

theorem appendEntriesEnd_next {params : AppendEntriesParams} {r : RaftNode × AppendEntriesRets}
    (h : nd.appendEntriesEnd params = some r) : r.1.m_nextIndexs = nd.m_nextIndexs := by
  obtain ⟨_, _, rfl⟩ := Option.map_eq_some_iff.mp h
  rfl

@[simp] theorem handleMsg_next (type : MessageType) (triples : List Triple) :
    (nd.handleMsg i type triples).1.m_nextIndexs = nd.m_nextIndexs := by
  unfold handleMsg
  split_ifs
  · rfl
  · cases type <;> rfl

theorem decodeTriple_next {index : Nat} {assigned : List Nat} {triples : List Triple}
    (h : nd.decodeTriple index assigned triples = some nd') :
    nd'.m_nextIndexs = nd.m_nextIndexs := by
  cases triples with
  | nil =>
      cases h
      rfl
  | cons t triples =>
      obtain ⟨_, _, rfl⟩ := Option.map_eq_some_iff.mp h
      rfl

/-- A new leader starts behind its log with every node it has a session to. -/
theorem becomeLeader_next (h : becomeLeader cfg i nd = some nd') {j : Nat}
    (session : j ∈ nd.m_remote_nodes) :
    nd'.m_nextIndexs j = nd.m_raft_logger.getLastIndex + 1 := by
  unfold becomeLeader at h
  split at h
  · cases h
  · cases h
    exact if_pos session

theorem voteReply_wins {election : Nat} {rets : RaftVoteRets} {r : RaftNode × List Event}
    (won : nd.wins cfg election rets) (h : voteReply cfg i nd election rets = some r) :
    becomeLeader cfg i (nd.countVote election) = some r.1 := by
  unfold voteReply at h
  rw [if_pos won.1, if_pos won.2.1, if_pos won] at h
  obtain ⟨nd', leads, rfl⟩ := Option.map_eq_some_iff.mp h
  exact leads

theorem replicateReply_next {nodeId : Nat} {rets : AppendEntriesRets}
    (fits : nd.m_state = .Leader → rets.term = nd.m_currentTerm → rets.success = true →
      u64 (nd.m_nextIndexs nodeId + 1) ≠ 0) {j : Nat} (pos : 1 ≤ nd.m_nextIndexs j) :
    1 ≤ (nd.replicateReply cfg i nodeId rets).1.m_nextIndexs j := by
  rcases replicateReply_cases cfg i nd nodeId rets with
    ⟨-, h⟩ | ⟨-, -, h⟩ | ⟨-, -, h⟩ | ⟨-, -, -, h⟩ | ⟨leads, term, success, h⟩ <;> rw [h]
  · exact pos
  · exact pos
  · exact pos
  · unfold retreat
    by_cases at_ : j = nodeId
    · subst at_
      by_cases large : 1 < nd.m_nextIndexs j
      · simp only [if_pos large, Function.update_self]
        omega
      · simpa only [if_neg large] using pos
    · dsimp only
      split_ifs
      · rwa [Function.update_of_ne at_]
      · exact pos
  · have next : (nd.commitReplicated cfg i nodeId).1.m_nextIndexs j =
        (nd.advance nodeId).m_nextIndexs j := by
      unfold commitReplicated
      dsimp only
      split_ifs <;> rfl
    change 1 ≤ (nd.commitReplicated cfg i nodeId).1.m_nextIndexs j
    rw [next, advance]
    by_cases at_ : j = nodeId
    · subst at_
      simp only [Function.update_self]
      exact Nat.one_le_iff_ne_zero.mpr (fits leads term success)
    · simpa only [Function.update_of_ne at_] using pos

end RaftNode

/-- A node takes office only with a session to every other node, and no success reply
takes an index from the greatest value to zero. -/
def PeersReady (cfg : Config) (s : Cluster) : Action → Prop
  | .voteReply k => ∀ r ∈ s.voteReplyAt k, (s.nodes r.1.src).wins cfg r.1.election r.2 →
      ∀ j < cfg.size, j ≠ r.1.src → j ∈ (s.nodes r.1.src).m_remote_nodes
  | .replicateReply i l => ∀ r ∈ s.appendReplyAt i l, (s.nodes i).m_state = .Leader →
      r.2.2.term = (s.nodes i).m_currentTerm → r.2.2.success = true →
      u64 ((s.nodes i).m_nextIndexs r.1.nodeId + 1) ≠ 0
  | _ => True

instance (cfg : Config) (s : Cluster) : DecidablePred (PeersReady cfg s) := by
  rintro ⟨⟩ <;> dsimp only [PeersReady] <;> infer_instance

/-- Leader `i` builds a request for node `j`, in a heartbeat or at the top of a loop. -/
def Builds (s : Cluster) (i j : Nat) : Prop :=
  s.leads i ∧ (j ∈ (s.nodes i).m_remote_nodes ∨
    ∃ loop ∈ (s.nodes i).loops, loop.nodeId = j ∧ loop.pc = .top ∧
      ((s.nodes i).sendEntry j).op ≠ .null)

/-- Node `i` has a session to node `j` and an index behind the first entry for it. -/
def Ready (s : Cluster) (i j : Nat) : Prop :=
  j ∈ (s.nodes i).m_remote_nodes ∧ 1 ≤ (s.nodes i).m_nextIndexs j

def LeadersReady (cfg : Config) (s : Cluster) : Prop :=
  ∀ i, s.leads i → ∀ j < cfg.size, j ≠ i → Ready s i j

section Steps

variable {cfg : Config} {s s' : Cluster} {a : Action}

theorem step_next (h : step cfg s a = some s') : (∃ k, a = .voteReply k) ∨
    (∃ i l, a = .replicateReply i l) ∨
    ∀ v, (s'.nodes v).m_nextIndexs = (s.nodes v).m_nextIndexs := by
  cases a with
  | connect i n =>
      obtain ⟨-, rfl⟩ := step_connect.mp h
      exact .inr (.inr (field_update RaftNode.m_nextIndexs rfl))
  | electionTimer i =>
      obtain ⟨-, rfl⟩ := step_electionTimer.mp h
      exact .inr (.inr (field_update RaftNode.m_nextIndexs RaftNode.electionTimer_next))
  | startElection i =>
      obtain ⟨-, rfl⟩ := step_startElection.mp h
      exact .inr (.inr (field_update RaftNode.m_nextIndexs rfl))
  | raftVote k =>
      obtain ⟨call, -, -, rfl⟩ := step_raftVote.mp h
      exact .inr (.inr (field_update RaftNode.m_nextIndexs (RaftNode.raftVote_next call.request)))
  | voteTimeout k =>
      obtain ⟨call, -, -, rfl⟩ := step_voteTimeout.mp h
      exact .inr (.inr fun _ => rfl)
  | voteReply k => exact .inl ⟨k, rfl⟩
  | heartbeat i n =>
      obtain ⟨-, rfl⟩ := step_heartbeat.mp h
      exact .inr (.inr fun _ => rfl)
  | replicateSend i l =>
      obtain ⟨loop, -, -, ⟨-, rfl⟩ | ⟨-, -, rfl⟩ | ⟨-, -, -, rfl⟩⟩ := step_replicateSend.mp h
      · exact .inr (.inr (field_update RaftNode.m_nextIndexs rfl))
      · exact .inr (.inr fun _ => rfl)
      · exact .inr (.inr (field_update RaftNode.m_nextIndexs rfl))
  | replicateTimeout i l =>
      obtain ⟨loop, k, -, -, rfl⟩ := step_replicateTimeout.mp h
      exact .inr (.inr (field_update RaftNode.m_nextIndexs rfl))
  | replicateReply i l => exact .inr (.inl ⟨i, l, rfl⟩)
  | appendEntries k =>
      obtain ⟨call, -, -, ⟨rets, -, rfl⟩ | ⟨-, rfl⟩⟩ := step_appendEntries.mp h
      all_goals
        exact .inr (.inr (field_update RaftNode.m_nextIndexs (RaftNode.appendEntries_next call.request)))
  | appendEntriesEnd i =>
      obtain ⟨k, params, call, r, -, -, did, rfl⟩ := step_appendEntriesEnd.mp h
      exact .inr (.inr (field_update RaftNode.m_nextIndexs (RaftNode.appendEntriesEnd_next did)))
  | applyRound i =>
      obtain ⟨-, logger, -, rfl⟩ := step_applyRound.mp h
      exact .inr (.inr (field_update RaftNode.m_nextIndexs rfl))
  | clientMsg i type triples =>
      obtain ⟨-, rfl⟩ := step_clientMsg.mp h
      exact .inr (.inr (field_update RaftNode.m_nextIndexs (RaftNode.handleMsg_next type triples)))
  | testNoOp i =>
      obtain ⟨triples, -, rfl⟩ := step_testNoOp.mp h
      exact .inr (.inr (field_update RaftNode.m_nextIndexs rfl))
  | lockLog i garbage =>
      obtain ⟨triples, -, rfl⟩ := step_lockLog.mp h
      exact .inr (.inr (field_update RaftNode.m_nextIndexs rfl))
  | decodeTriple i =>
      obtain ⟨triples, index, assigned, nd, -, did, rfl⟩ := step_decodeTriple.mp h
      exact .inr (.inr (field_update RaftNode.m_nextIndexs (RaftNode.decodeTriple_next did)))
  | testApplied i =>
      obtain ⟨index, assigned, -, rfl⟩ := step_testApplied.mp h
      exact .inr (.inr (field_update RaftNode.m_nextIndexs rfl))
  | respond i =>
      obtain ⟨assigned, -, rfl⟩ := step_respond.mp h
      exact .inr (.inr (field_update RaftNode.m_nextIndexs rfl))

theorem ready_kept (ready : PeersReady cfg s a) (h : step cfg s a = some s') {v j : Nat}
    (kept : Ready s v j) : Ready s' v j := by
  obtain ⟨session, pos⟩ := kept
  refine ⟨remote_mono h session, ?_⟩
  rcases step_next h with ⟨k, rfl⟩ | ⟨i, l, rfl⟩ | same
  · obtain ⟨call, -, rets, -, -, r, did, rfl⟩ := step_voteReply.mp h
    by_cases at_ : v = call.src
    · subst at_
      simp only [setVoteCall_nodes, put_nodes, Function.update_self]
      rcases RaftNode.voteReply_cases did with ⟨-, leads, -⟩ | ⟨-, -, rfl⟩ | ⟨-, rfl⟩ | rfl
      · rw [RaftNode.becomeLeader_next leads session]
        exact Nat.le_add_left ..
      · exact pos
      · exact pos
      · exact pos
    · simpa only [setVoteCall_nodes, put_nodes, Function.update_of_ne at_] using pos
  · obtain ⟨loop, k, call, rets, found, waits, sent, reply, -, rfl⟩ := step_replicateReply.mp h
    have fits := ready _ (appendReplyAt_eq found waits sent reply)
    by_cases at_ : v = i
    · subst at_
      rw [put_nodes, Function.update_self]
      exact RaftNode.replicateReply_next fits pos
    · rwa [put_nodes, Function.update_of_ne at_]
  · rwa [same v]

/-- The node that wins is ready for the nodes it has sessions to. -/
theorem win_ready {k : Nat} {call : VoteCall} {rets : RaftVoteRets}
    (found : s.voteCalls[k]? = some call) (reply : call.reply = some rets)
    (won : (s.nodes call.src).wins cfg call.election rets)
    (h : step cfg s (.voteReply k) = some s') {j : Nat}
    (session : j ∈ (s.nodes call.src).m_remote_nodes) : Ready s' call.src j := by
  have remote := remote_mono h session
  obtain ⟨call', found', rets', reply', -, r, did, rfl⟩ := step_voteReply.mp h
  obtain rfl : call = call' := Option.some.inj (found.symm.trans found')
  obtain rfl : rets = rets' := Option.some.inj (reply.symm.trans reply')
  refine ⟨remote, ?_⟩
  simp only [setVoteCall_nodes, put_nodes, Function.update_self]
  rw [RaftNode.becomeLeader_next (RaftNode.voteReply_wins won did) session]
  exact Nat.le_add_left ..

theorem leadersReady_step (leaders : LeadersReady cfg s) (ready : PeersReady cfg s a)
    (h : step cfg s a = some s') : LeadersReady cfg s' := by
  intro i leads j bound ne
  have kept (led : s.leads i) : Ready s' i j := by
    exact ready_kept ready h (leaders i led j bound ne)
  cases step_loopStep h with
  | quiet _ leaders => exact kept (leaders i leads)
  | move _ _ _ _ _ _ _ leaders _ _ => exact kept (leaders i leads)
  | start k call rets act found reply won _ leaders =>
      subst act
      by_cases at_ : i = call.src
      · subst at_
        exact win_ready found reply won h (ready _ (voteReplyAt_eq found reply) won j bound ne)
      · exact kept (leaders i at_ leads)

end Steps

/-- In a run whose leaders take office connected to everybody, a request is only built
for a node with a session and a positive index. -/
theorem requests_target_ready {cfg : Config} {as : List Action} {s : Cluster}
    (run : Run (step cfg) (PeersReady cfg) {} as s) {i j : Nat} (builds : Builds s i j) :
    Ready s i j := by
  obtain ⟨leads, source⟩ := builds
  have leaders : LeadersReady cfg s := by
    apply run.invariant
    · nofun
    · intro t a u leaders ready next
      exact leadersReady_step leaders ready next
  obtain ⟨⟨peers, -⟩, ids⟩ := loopIds_run run
  rcases source with session | ⟨loop, mem, rfl, -⟩
  · obtain ⟨bound, ne, -⟩ := (peers i).2 j session
    exact leaders i leads j bound ne
  · obtain ⟨-, bound, ne⟩ := ids i loop mem
    exact leaders i leads loop.nodeId bound ne

/-- Node 0 leads with both sessions and builds a request for each. -/
theorem zero_builds_ready : ∃ s, exec (step threeNodes) {} zeroElected = some s ∧
    Builds s 0 1 ∧ Ready s 0 1 := by
  have done : (exec (guarded (step threeNodes) (PeersReady threeNodes)) {} zeroElected).map
      (fun s => decide ((s.nodes 0).m_state = .Leader ∧ 1 ∈ (s.nodes 0).m_remote_nodes)) =
      some true := by decide +kernel
  obtain ⟨s, run, seen⟩ := Option.map_eq_some_iff.mp done
  obtain ⟨leads, session⟩ := of_decide_eq_true seen
  have ran : Run (step threeNodes) (PeersReady threeNodes) {} zeroElected s := .of_guarded run
  exact ⟨s, ran.ends, ⟨leads, .inl session⟩, requests_target_ready ran ⟨leads, .inl session⟩⟩

/-- Node 0 wins with the vote of node 1 before it has a session to node 2. -/
def zeroElectedEarly : List Action :=
  [.connect 0 1, .connect 1 0, .electionTimer 0, .startElection 0, .raftVote 0, .voteReply 0]

/-- Its loop for node 2 builds a request without a session and then dereferences a null
pointer; a session that comes later gets heartbeats with a wrapped `prevLogIndex`. -/
theorem early_leader_unready : ∃ s t, exec (step threeNodes) {} zeroElectedEarly = some s ∧
    Builds s 0 2 ∧ ¬ Ready s 0 2 ∧ step threeNodes s (.replicateSend 0 1) = none ∧
    exec (step threeNodes) s [.connect 0 2, .heartbeat 0 2] = some t ∧ Builds t 0 2 ∧
    ¬ Ready t 0 2 ∧ ∃ call ∈ t.appendCalls, call.request.prevLogIndex = 2 ^ 64 - 1 := by
  have done : (exec (step threeNodes) {} zeroElectedEarly).bind (fun s =>
      (exec (step threeNodes) s [.connect 0 2, .heartbeat 0 2]).map fun t =>
        decide (((s.nodes 0).m_state = .Leader ∧ 2 ∉ (s.nodes 0).m_remote_nodes) ∧
          (∃ loop ∈ (s.nodes 0).loops, loop.nodeId = 2 ∧ loop.pc = .top ∧
            ((s.nodes 0).sendEntry 2).op ≠ .null) ∧
          (step threeNodes s (.replicateSend 0 1)).isNone ∧
          ((t.nodes 0).m_state = .Leader ∧ 2 ∈ (t.nodes 0).m_remote_nodes ∧
            (t.nodes 0).m_nextIndexs 2 = 0) ∧
          ∃ call ∈ t.appendCalls, call.request.prevLogIndex = 2 ^ 64 - 1)) = some true := by
    decide +kernel
  obtain ⟨s, first, rest⟩ := Option.bind_eq_some_iff.mp done
  obtain ⟨t, second, seen⟩ := Option.map_eq_some_iff.mp rest
  obtain ⟨⟨leads, missing⟩, loop, fails, ⟨leads', session, zero⟩, wrapped⟩ :=
    of_decide_eq_true seen
  refine ⟨s, t, first, ⟨leads, .inr loop⟩, ?_, Option.isNone_iff_eq_none.mp fails, second,
    ⟨leads', .inl session⟩, ?_, wrapped⟩
  · rintro ⟨there, -⟩
    exact missing there
  · rintro ⟨-, pos⟩
    rw [zero] at pos
    cases pos

end CRpc.Raft
