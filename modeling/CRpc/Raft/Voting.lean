import CRpc.Raft.Steps

/-! The part of a node that elections read and write, and what a step can do to it. -/
namespace CRpc.Raft

open Cluster

structure VoteCore where
  state : RaftState
  term : Nat
  votedFor : Nat
  counters : List Nat

namespace RaftNode

def core (nd : RaftNode) : VoteCore :=
  ⟨nd.m_state, nd.m_currentTerm, nd.m_votedFor, nd.grantedVotes⟩

@[simp] theorem core_state (nd : RaftNode) : nd.core.state = nd.m_state := rfl
@[simp] theorem core_term (nd : RaftNode) : nd.core.term = nd.m_currentTerm := rfl
@[simp] theorem core_votedFor (nd : RaftNode) : nd.core.votedFor = nd.m_votedFor := rfl
@[simp] theorem core_counters (nd : RaftNode) : nd.core.counters = nd.grantedVotes := rfl

end RaftNode

namespace VoteCore

/-- The core after a step-down into `T`. -/
def depose (c : VoteCore) (T : Nat) : VoteCore := ⟨.Follower, T, noNode, c.counters⟩

def count (c : VoteCore) (election : Nat) : VoteCore :=
  { c with counters := c.counters.set election (c.counters.getD election 0 + 1) }

end VoteCore

def Event.isVote : Event → Bool
  | .candidate .. | .solicit .. | .granted .. | .leader .. => true
  | .commit .. | .redirect .. | .respond .. => false

@[simp] theorem isVote_candidate (i T : Nat) : (Event.candidate i T).isVote = true := rfl
@[simp] theorem isVote_solicit (i T : Nat) : (Event.solicit i T).isVote = true := rfl
@[simp] theorem isVote_granted (v T c : Nat) : (Event.granted v T c).isVote = true := rfl
@[simp] theorem isVote_leader (i T : Nat) (es : List Entry) :
    (Event.leader i T es).isVote = true := rfl

namespace Cluster

def core (s : Cluster) (i : Nat) : VoteCore := (s.nodes i).core
def votes (s : Cluster) : List Event := s.history.filter Event.isVote

end Cluster

namespace RaftNode

variable {cfg : Config} {nd nd' : RaftNode} {i : Nat}

@[simp] theorem core_becomeFollower (T leaderId : Nat) :
    (nd.becomeFollower T leaderId).core = nd.core.depose T := rfl
@[simp] theorem core_countVote (election : Nat) :
    (nd.countVote election).core = nd.core.count election := rfl

theorem becomeLeader_core (h : becomeLeader cfg i nd = some nd') :
    nd'.core = { nd.core with state := .Leader } := by
  unfold becomeLeader at h
  split at h
  · cases h
  · cases h
    rfl

theorem voteReply_cases {election : Nat} {rets : RaftVoteRets} {r : RaftNode × List Event}
    (h : voteReply cfg i nd election rets = some r) :
    (nd.wins cfg election rets ∧ becomeLeader cfg i (nd.countVote election) = some r.1 ∧
      r.2 = [.leader i nd.m_currentTerm nd.m_raft_logger.m_entries]) ∨
    ((nd.m_currentTerm = rets.term ∧ nd.m_state = .Candidate) ∧ rets.voteGranted = true ∧
      r = (nd.countVote election, [])) ∨
    (nd.m_currentTerm < rets.term ∧ r = (nd.becomeFollower rets.term noNode, [])) ∨
    r = (nd, []) := by
  unfold voteReply at h
  split_ifs at h with current granted won higher
  · obtain ⟨nd', leads, rfl⟩ := Option.map_eq_some_iff.mp h
    exact .inl ⟨won, leads, rfl⟩
  · exact .inr (.inl ⟨current, granted, (Option.some.inj h).symm⟩)
  · exact .inr (.inr (.inr (Option.some.inj h).symm))
  · exact .inr (.inr (.inl ⟨higher, (Option.some.inj h).symm⟩))
  · exact .inr (.inr (.inr (Option.some.inj h).symm))

theorem raftVote_cases (nd : RaftNode) (params : RaftVoteParams) :
    ((nd.raftVote params).1.core = nd.core ∧
      (nd.raftVote params).2 = ⟨nd.m_currentTerm, false⟩) ∨
    (nd.m_currentTerm < params.term ∧ (nd.raftVote params).1.core = nd.core.depose params.term ∧
      (nd.raftVote params).2 = ⟨params.term, false⟩) ∨
    ((nd.m_currentTerm < params.term ∨
        nd.m_currentTerm = params.term ∧ nd.m_votedFor = params.candidateId) ∧
      nd.m_raft_logger.is_newer params.lastLogTerm params.lastLogIndex = true ∧
      (nd.raftVote params).1.core = ⟨if nd.m_currentTerm < params.term then .Follower
        else nd.m_state, params.term, params.candidateId, nd.grantedVotes⟩ ∧
      (nd.raftVote params).2 = ⟨params.term, true⟩) := by
  unfold raftVote
  split
  · exact .inl ⟨rfl, rfl⟩
  · next open_ =>
    have guard : nd.m_currentTerm < params.term ∨
        nd.m_currentTerm = params.term ∧ nd.m_votedFor = params.candidateId := by
      obtain ⟨notStale, notOther⟩ := not_or.mp open_
      rcases Nat.lt_or_ge nd.m_currentTerm params.term with higher | lower
      · exact .inl higher
      · have same : nd.m_currentTerm = params.term := by omega
        exact .inr ⟨same, not_not.mp fun other => notOther ⟨same.symm, other⟩⟩
    by_cases higher : nd.m_currentTerm < params.term
    · simp only [higher, if_true]
      split
      · next newer => exact .inr (.inr ⟨.inl trivial, newer, rfl, rfl⟩)
      · exact .inr (.inl ⟨trivial, rfl, rfl⟩)
    · obtain ⟨same, voted⟩ := guard.resolve_left higher
      simp only [higher, if_false]
      split
      · next newer =>
        refine .inr (.inr ⟨.inr ⟨same, voted⟩, newer, ?_, by simp only [same]⟩)
        simp only [core, same]
      · exact .inl ⟨rfl, rfl⟩

theorem appendEntries_core (nd : RaftNode) (params : AppendEntriesParams) :
    (nd.appendEntries params).1.core = nd.core ∨
    ((nd.m_currentTerm < params.term ∨
        params.term = nd.m_currentTerm ∧ nd.m_state = .Candidate) ∧
      (nd.appendEntries params).1.core = nd.core.depose params.term) := by
  unfold appendEntries
  split
  · exact .inl rfl
  · by_cases step : nd.m_currentTerm < params.term ∨
        params.term = nd.m_currentTerm ∧ nd.m_state = .Candidate
    · right
      simp only [if_pos step, Nat.not_lt_zero, if_false]
      refine ⟨step, ?_⟩
      split <;> rfl
    · left
      simp only [if_neg step, Nat.not_lt_zero, if_false]
      split <;> rfl

theorem appendEntriesEnd_core {params : AppendEntriesParams} {r : RaftNode × AppendEntriesRets}
    (h : nd.appendEntriesEnd params = some r) : r.1.core = nd.core := by
  obtain ⟨_, _, rfl⟩ := Option.map_eq_some_iff.mp h
  rfl

theorem replicateReply_cases (cfg : Config) (i : Nat) (nd : RaftNode) (nodeId : Nat)
    (rets : AppendEntriesRets) :
    (nd.m_state ≠ .Leader ∧ nd.replicateReply cfg i nodeId rets = (nd, .done, [])) ∨
    (nd.m_state = .Leader ∧ nd.m_currentTerm < rets.term ∧
      nd.replicateReply cfg i nodeId rets = (nd.becomeFollower rets.term noNode, .done, [])) ∨
    (nd.m_state = .Leader ∧ rets.term < nd.m_currentTerm ∧
      nd.replicateReply cfg i nodeId rets = (nd, .top, [])) ∨
    (nd.m_state = .Leader ∧ rets.term = nd.m_currentTerm ∧ rets.success = false ∧
      nd.replicateReply cfg i nodeId rets = (nd.retreat nodeId, .done, [])) ∨
    (nd.m_state = .Leader ∧ rets.term = nd.m_currentTerm ∧ rets.success = true ∧
      nd.replicateReply cfg i nodeId rets = ((nd.commitReplicated cfg i nodeId).1, .top,
        (nd.commitReplicated cfg i nodeId).2)) := by
  unfold replicateReply
  by_cases leads : nd.m_state = .Leader
  · rcases Nat.lt_trichotomy nd.m_currentTerm rets.term with higher | same | stale
    · simp [leads, higher]
    · cases success : rets.success <;> simp [leads, same]
    · simp [leads, stale, Nat.lt_asymm stale]
  · simp [leads]

theorem commitReplicated_core (cfg : Config) (i : Nat) (nd : RaftNode) (nodeId : Nat) :
    (nd.commitReplicated cfg i nodeId).1.core = nd.core ∧
      (nd.commitReplicated cfg i nodeId).2.filter Event.isVote = [] := by
  unfold commitReplicated
  dsimp only
  split_ifs <;> exact ⟨rfl, rfl⟩

theorem replicateReply_core (cfg : Config) (i : Nat) (nd : RaftNode) (nodeId : Nat)
    (rets : AppendEntriesRets) :
    ((nd.replicateReply cfg i nodeId rets).1.core = nd.core ∨
      (nd.m_currentTerm < rets.term ∧
        (nd.replicateReply cfg i nodeId rets).1.core = nd.core.depose rets.term)) ∧
    (nd.replicateReply cfg i nodeId rets).2.2.filter Event.isVote = [] := by
  rcases replicateReply_cases cfg i nd nodeId rets with
    ⟨-, h⟩ | ⟨-, higher, h⟩ | ⟨-, -, h⟩ | ⟨-, -, -, h⟩ | ⟨-, -, -, h⟩ <;> rw [h]
  · exact ⟨.inl rfl, rfl⟩
  · exact ⟨.inr ⟨higher, rfl⟩, rfl⟩
  · exact ⟨.inl rfl, rfl⟩
  · exact ⟨.inl rfl, rfl⟩
  · exact ⟨.inl (commitReplicated_core cfg i nd nodeId).1, (commitReplicated_core cfg i nd nodeId).2⟩

theorem handleMsg_core (i : Nat) (nd : RaftNode) (type : MessageType) (triples : List Triple) :
    (nd.handleMsg i type triples).1.core = nd.core ∧
      (nd.handleMsg i type triples).2.filter Event.isVote = [] := by
  unfold handleMsg
  split_ifs
  · exact ⟨rfl, rfl⟩
  · cases type <;> exact ⟨rfl, rfl⟩

theorem decodeTriple_core {index : Nat} {assigned : List Nat} {triples : List Triple}
    (h : nd.decodeTriple index assigned triples = some nd') : nd'.core = nd.core := by
  cases triples with
  | nil =>
      cases h
      rfl
  | cons t triples =>
      obtain ⟨_, _, rfl⟩ := Option.map_eq_some_iff.mp h
      rfl

end RaftNode

@[simp] theorem core_put (s : Cluster) (i : Nat) (nd : RaftNode) (evs : List Event) :
    (s.put i nd evs).core = Function.update s.core i nd.core :=
  field_put RaftNode.core rfl

@[simp] theorem votes_put (s : Cluster) (i : Nat) (nd : RaftNode) (evs : List Event) :
    (s.put i nd evs).votes = evs.filter Event.isVote ++ s.votes := by
  simp [Cluster.votes]

@[simp] theorem core_setVoteCall (s : Cluster) (k : Nat) (call : VoteCall) :
    (s.setVoteCall k call).core = s.core := rfl
@[simp] theorem votes_setVoteCall (s : Cluster) (k : Nat) (call : VoteCall) :
    (s.setVoteCall k call).votes = s.votes := rfl
@[simp] theorem core_setAppendCall (s : Cluster) (k : Nat) (call : AppendCall) :
    (s.setAppendCall k call).core = s.core := rfl
@[simp] theorem votes_setAppendCall (s : Cluster) (k : Nat) (call : AppendCall) :
    (s.setAppendCall k call).votes = s.votes := rfl

@[simp] theorem core_addVoteCalls (s : Cluster) (calls : List VoteCall) :
    (s.addVoteCalls calls).core = s.core := rfl
@[simp] theorem votes_addVoteCalls (s : Cluster) (calls : List VoteCall) :
    (s.addVoteCalls calls).votes = s.votes := rfl
@[simp] theorem core_addAppendCall (s : Cluster) (call : AppendCall) :
    (s.addAppendCall call).core = s.core := rfl
@[simp] theorem votes_addAppendCall (s : Cluster) (call : AppendCall) :
    (s.addAppendCall call).votes = s.votes := rfl

theorem core_put_same (s : Cluster) {i : Nat} {nd : RaftNode} (evs : List Event)
    (h : nd.core = (s.nodes i).core) : (s.put i nd evs).core = s.core :=
  field_put_same RaftNode.core rfl h

/-- `T` is the term of an `appendEntries` request or of its reply. -/
def Cluster.heard (s : Cluster) (T : Nat) : Prop :=
  ∃ call ∈ s.appendCalls, T = call.request.term ∨ ∃ rets, call.reply = some rets ∧ T = rets.term

inductive VoteStep (cfg : Config) (s : Cluster) (a : Action) (s' : Cluster) : Prop
  | quiet : s'.core = s.core → s'.voteCalls = s.voteCalls → s'.votes = s.votes →
      VoteStep cfg s a s'
  | depose (i T : Nat) : s.heard T →
      (s.core i).term < T ∨ (T = (s.core i).term ∧ (s.core i).state = .Candidate) →
      s'.core = Function.update s.core i ((s.core i).depose T) →
      s'.voteCalls = s.voteCalls → s'.votes = s.votes → VoteStep cfg s a s'
  | timer (i : Nat) : a = .electionTimer i → i < cfg.size → (s.core i).state ≠ .Leader →
      s'.core = Function.update s.core i
        ⟨.Candidate, u64 ((s.core i).term + 1), i, (s.core i).counters⟩ →
      s'.voteCalls = s.voteCalls →
      s'.votes = .candidate i (u64 ((s.core i).term + 1)) :: s.votes → VoteStep cfg s a s'
  | solicit (i : Nat) : a = .startElection i → i < cfg.size →
      s'.core = Function.update s.core i
        { s.core i with votedFor := i, counters := (s.core i).counters ++ [1] } →
      s'.voteCalls = s.voteCalls ++ voteTasks i (s.nodes i) →
      s'.votes = .solicit i (s.core i).term :: s.votes → VoteStep cfg s a s'
  | deny (k : Nat) (call : VoteCall) : s.voteCalls[k]? = some call → call.reply = none →
      (s'.core = s.core ∨ ((s.core call.dst).term < call.request.term ∧
        s'.core = Function.update s.core call.dst ((s.core call.dst).depose call.request.term))) →
      s'.voteCalls = s.voteCalls.set k
        { call with reply := some ⟨(s'.core call.dst).term, false⟩ } →
      s'.votes = s.votes → VoteStep cfg s a s'
  | grant (k : Nat) (call : VoteCall) : s.voteCalls[k]? = some call → call.reply = none →
      ((s.core call.dst).term < call.request.term ∨ ((s.core call.dst).term = call.request.term ∧
        (s.core call.dst).votedFor = call.request.candidateId)) →
      (s.nodes call.dst).m_raft_logger.is_newer call.request.lastLogTerm
        call.request.lastLogIndex = true →
      s'.core = Function.update s.core call.dst
        ⟨if (s.core call.dst).term < call.request.term then .Follower
          else (s.core call.dst).state, call.request.term, call.request.candidateId,
          (s.core call.dst).counters⟩ →
      s'.voteCalls = s.voteCalls.set k { call with reply := some ⟨call.request.term, true⟩ } →
      s'.votes = .granted call.dst call.request.term call.request.candidateId :: s.votes →
      VoteStep cfg s a s'
  | close (k : Nat) (call : VoteCall) : s.voteCalls[k]? = some call → call.waiting = true →
      (s'.core = s.core ∨ ∃ rets, call.reply = some rets ∧ (s.core call.src).term < rets.term ∧
        s'.core = Function.update s.core call.src ((s.core call.src).depose rets.term)) →
      s'.voteCalls = s.voteCalls.set k { call with waiting := false } →
      s'.votes = s.votes → VoteStep cfg s a s'
  | count (k : Nat) (call : VoteCall) (rets : RaftVoteRets) : s.voteCalls[k]? = some call →
      call.waiting = true → call.reply = some rets → rets.voteGranted = true →
      s'.core = Function.update s.core call.src ((s.core call.src).count call.election) →
      s'.voteCalls = s.voteCalls.set k { call with waiting := false } →
      s'.votes = s.votes → VoteStep cfg s a s'
  | win (k : Nat) (call : VoteCall) (rets : RaftVoteRets) : s.voteCalls[k]? = some call →
      call.waiting = true → call.reply = some rets →
      (s.nodes call.src).wins cfg call.election rets →
      s'.core = Function.update s.core call.src
        { (s.core call.src).count call.election with state := .Leader } →
      s'.voteCalls = s.voteCalls.set k { call with waiting := false } →
      s'.votes = .leader call.src (s.core call.src).term
        (s.nodes call.src).m_raft_logger.m_entries :: s.votes → VoteStep cfg s a s'

theorem step_voteStep {cfg : Config} {s s' : Cluster} {a : Action}
    (h : step cfg s a = some s') : VoteStep cfg s a s' := by
  cases a with
  | connect i j =>
      obtain ⟨-, rfl⟩ := step_connect.mp h
      exact .quiet (core_put_same s [] rfl) rfl (votes_put ..)
  | electionTimer i =>
      obtain ⟨⟨bound, -⟩, rfl⟩ := step_electionTimer.mp h
      by_cases leads : (s.nodes i).m_state = .Leader
      · have same : (s.nodes i).electionTimer i = s.nodes i := by simp [RaftNode.electionTimer, leads]
        refine .quiet (core_put_same s _ (by rw [same])) rfl ?_
        simp [leads]
      · refine .timer i rfl bound leads ?_ rfl ?_
        · simp [RaftNode.electionTimer, leads, RaftNode.core, Cluster.core]
        · simp [RaftNode.electionTimer, leads, Cluster.core, List.filter]
  | startElection i =>
      obtain ⟨⟨bound, -, -⟩, rfl⟩ := step_startElection.mp h
      refine .solicit i rfl bound ?_ rfl ?_
      · rw [core_addVoteCalls, core_put]
        rfl
      · simp [Cluster.core, List.filter]
  | raftVote k =>
      obtain ⟨call, found, ⟨open_, -⟩, rfl⟩ := step_raftVote.mp h
      rcases RaftNode.raftVote_cases (s.nodes call.dst) call.request with
        ⟨core, rets⟩ | ⟨higher, core, rets⟩ | ⟨guard, newer, core, rets⟩
      · have same := core_put_same s (i := call.dst) (voteEvents call.dst call.request
          ((s.nodes call.dst).raftVote call.request).2) core
        refine .deny k call found open_ (.inl ?_) ?_ ?_
        · rw [core_setVoteCall, same]
        · rw [core_setVoteCall, same, rets]
          rfl
        · simp [rets, voteEvents]
      · refine .deny k call found open_ (.inr ⟨higher, ?_⟩) ?_ ?_
        · rw [core_setVoteCall, core_put, core]
          rfl
        · rw [core_setVoteCall, core_put, core, Function.update_self, rets]
          rfl
        · simp [rets, voteEvents]
      · refine .grant k call found open_ guard newer ?_ ?_ ?_
        · rw [core_setVoteCall, core_put, core]
          rfl
        · simp [rets]
        · simp [rets, voteEvents, List.filter]
  | voteTimeout k =>
      obtain ⟨call, found, waiting, rfl⟩ := step_voteTimeout.mp h
      exact .close k call found waiting (.inl rfl) rfl rfl
  | voteReply k =>
      obtain ⟨call, found, rets, reply, ⟨waiting, -⟩, r, did, rfl⟩ := step_voteReply.mp h
      rcases RaftNode.voteReply_cases did with
        ⟨won, leads, events⟩ | ⟨-, granted, rfl⟩ | ⟨higher, rfl⟩ | rfl
      · refine .win k call rets found waiting reply won ?_ rfl ?_
        · rw [core_setVoteCall, core_put, RaftNode.becomeLeader_core leads]
          rfl
        · simp [events, Cluster.core, List.filter]
      · refine .count k call rets found waiting reply granted ?_ rfl ?_
        · simp [Cluster.core]
        · simp
      · refine .close k call found waiting (.inr ⟨rets, reply, higher, ?_⟩) rfl ?_
        · simp [Cluster.core]
        · simp
      · refine .close k call found waiting (.inl ?_) rfl ?_
        · rw [core_setVoteCall, core_put_same s [] rfl]
        · simp
  | heartbeat i j =>
      obtain ⟨-, rfl⟩ := step_heartbeat.mp h
      exact .quiet rfl rfl rfl
  | replicateSend i l =>
      obtain ⟨loop, -, -, ⟨-, rfl⟩ | ⟨-, -, rfl⟩ | ⟨-, -, -, rfl⟩⟩ := step_replicateSend.mp h
      · exact .quiet (core_put_same s [] rfl) rfl (votes_put ..)
      · exact .quiet rfl rfl rfl
      · refine .quiet ?_ rfl ?_
        · exact (core_addAppendCall ..).trans (core_put_same s [] rfl)
        · exact (votes_addAppendCall ..).trans (votes_put ..)
  | replicateTimeout i l =>
      obtain ⟨loop, k, -, -, rfl⟩ := step_replicateTimeout.mp h
      exact .quiet (core_put_same s [] rfl) rfl (votes_put ..)
  | replicateReply i l =>
      obtain ⟨loop, k, call, rets, -, -, found, reply, -, rfl⟩ := step_replicateReply.mp h
      have heard : s.heard rets.term :=
        ⟨call, List.mem_of_getElem? found, .inr ⟨rets, reply, rfl⟩⟩
      obtain ⟨core | ⟨higher, core⟩, events⟩ :=
        RaftNode.replicateReply_core cfg i (s.nodes i) loop.nodeId rets
      · exact .quiet (core_put_same s _ core) rfl (by simp [events])
      · refine .depose i rets.term heard (.inl higher) ?_ rfl (by simp [events])
        exact (core_put ..).trans (congrArg (Function.update s.core i) core)
  | appendEntries k =>
      obtain ⟨call, found, -, moved⟩ := step_appendEntries.mp h
      have heard : s.heard call.request.term := ⟨call, List.mem_of_getElem? found, .inl rfl⟩
      rcases moved with ⟨rets, -, rfl⟩ | ⟨-, rfl⟩
      all_goals
        rcases RaftNode.appendEntries_core (s.nodes call.dst) call.request with
          core | ⟨guard, core⟩
      · exact .quiet (by rw [core_setAppendCall, core_put_same s [] core]) rfl (by simp)
      · refine .depose call.dst call.request.term heard guard ?_ rfl (by simp)
        rw [core_setAppendCall, core_put, core]
        rfl
      · exact .quiet (core_put_same s [] core) rfl (votes_put ..)
      · exact .depose call.dst call.request.term heard guard
          ((core_put ..).trans (congrArg (Function.update s.core call.dst) core)) rfl (votes_put ..)
  | appendEntriesEnd i =>
      obtain ⟨k, params, call, r, -, -, did, rfl⟩ := step_appendEntriesEnd.mp h
      refine .quiet ?_ rfl (by simp)
      rw [core_setAppendCall, core_put_same s [] (RaftNode.appendEntriesEnd_core did)]
  | applyRound i =>
      obtain ⟨-, logger, -, rfl⟩ := step_applyRound.mp h
      exact .quiet (core_put_same s [] rfl) rfl (votes_put ..)
  | clientMsg i type triples =>
      obtain ⟨-, rfl⟩ := step_clientMsg.mp h
      obtain ⟨core, events⟩ := RaftNode.handleMsg_core i (s.nodes i) type triples
      exact .quiet (core_put_same s _ core) rfl (by simp [events])
  | testNoOp i =>
      obtain ⟨triples, -, rfl⟩ := step_testNoOp.mp h
      exact .quiet (core_put_same s [] rfl) rfl (votes_put ..)
  | lockLog i garbage =>
      obtain ⟨triples, -, rfl⟩ := step_lockLog.mp h
      exact .quiet (core_put_same s [] rfl) rfl (votes_put ..)
  | decodeTriple i =>
      obtain ⟨triples, index, assigned, nd, -, did, rfl⟩ := step_decodeTriple.mp h
      exact .quiet (core_put_same s [] (RaftNode.decodeTriple_core did)) rfl (votes_put ..)
  | testApplied i =>
      obtain ⟨index, assigned, -, rfl⟩ := step_testApplied.mp h
      exact .quiet (core_put_same s [] rfl) rfl (votes_put ..)
  | respond i =>
      obtain ⟨assigned, -, rfl⟩ := step_respond.mp h
      exact .quiet (core_put_same s _ rfl) rfl (votes_put ..)

end CRpc.Raft
