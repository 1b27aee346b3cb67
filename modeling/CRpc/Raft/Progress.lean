import CRpc.Raft.Logs

/-! What a node has committed, applied and heard of its followers, and what a step can
do to it. -/
namespace CRpc.Raft

open Cluster

structure Progress where
  commitIndex : Nat
  matchIndexs : Nat → Nat
  lastApplied : Nat
  addresses : List (String × IpPort)
  applied : List Entry

def Event.isCommit : Event → Bool
  | .commit .. => true
  | _ => false

namespace Cluster

def commits (s : Cluster) : List Event := s.history.filter Event.isCommit

end Cluster

namespace RaftNode

def progress (nd : RaftNode) : Progress where
  commitIndex := nd.m_raft_logger.m_commitIndex
  matchIndexs := nd.m_matchIndexs
  lastApplied := nd.m_raft_logger.m_lastApplied
  addresses := nd.m_raft_logger.m_addresses
  applied := nd.m_raft_logger.applied

variable {cfg : Config} {nd nd' : RaftNode} {i : Nat}

@[simp] theorem electionTimer_progress : (nd.electionTimer i).progress = nd.progress := by
  unfold electionTimer
  split <;> rfl

@[simp] theorem raftVote_progress (params : RaftVoteParams) :
    (nd.raftVote params).1.progress = nd.progress := by
  unfold raftVote
  dsimp only
  split_ifs <;> rfl

/-- A new leader forgets what it knew of the followers it has a session with. -/
theorem becomeLeader_progress (h : becomeLeader cfg i nd = some nd') :
    nd'.progress = { nd.progress with
      matchIndexs := fun j => if j ∈ nd.m_remote_nodes then 0 else nd.m_matchIndexs j } := by
  unfold becomeLeader RaftLogger.appendEntry at h
  split_ifs at h
  cases h
  rfl

theorem appendEntriesEnd_progress {params : AppendEntriesParams}
    {r : RaftNode × AppendEntriesRets} (h : nd.appendEntriesEnd params = some r) :
    r.1.progress = nd.progress := by
  obtain ⟨⟨logger, success⟩, did, rfl⟩ := Option.map_eq_some_iff.mp h
  unfold RaftLogger.appendAfter at did
  split at did
  · cases did
    rfl
  · split_ifs at did
    cases did
    rfl

@[simp] theorem handleMsg_progress (type : MessageType) (triples : List Triple) :
    (nd.handleMsg i type triples).1.progress = nd.progress := by
  unfold handleMsg
  split_ifs
  · rfl
  · cases type <;> rfl

theorem handleMsg_commits (type : MessageType) (triples : List Triple) :
    (nd.handleMsg i type triples).2.filter Event.isCommit = [] := by
  unfold handleMsg
  split_ifs
  · rfl
  · cases type <;> rfl

theorem decodeTriple_progress {index : Nat} {assigned : List Nat} {triples : List Triple}
    (h : nd.decodeTriple index assigned triples = some nd') : nd'.progress = nd.progress := by
  cases triples with
  | nil =>
      cases h
      rfl
  | cons t triples =>
      obtain ⟨⟨logger, index⟩, did, rfl⟩ := Option.map_eq_some_iff.mp h
      unfold RaftLogger.appendEntry at did
      split_ifs at did
      cases did
      rfl

/-- `appendEntries` answers a stale request, or takes over the leader's commit index. -/
theorem appendEntries_progress (nd : RaftNode) (params : AppendEntriesParams) :
    (params.term < nd.m_currentTerm ∧ (nd.appendEntries params).1.progress = nd.progress) ∨
    (nd.m_currentTerm ≤ params.term ∧ (nd.appendEntries params).1.progress = { nd.progress with
      commitIndex := min params.leaderCommit nd.m_raft_logger.getLastIndex }) := by
  unfold appendEntries
  by_cases stale : params.term < nd.m_currentTerm
  · exact .inl ⟨stale, by simp [stale, progress]⟩
  · refine .inr ⟨by omega, ?_⟩
    simp only [if_neg stale, Nat.not_lt_zero, if_false]
    split_ifs <;> rfl

theorem applyRound_cases {l l' : RaftLogger} (h : l.applyRound = some l') :
    l' = l ∨ ∃ entry, l.m_lastApplied < l.m_commitIndex ∧
      l.m_entries[l.m_lastApplied + 1]? = some entry ∧
      l' = { l with
        m_addresses := RaftLogger.applyOp l.m_addresses entry
        applied := l.applied ++ [entry]
        m_lastApplied := l.m_lastApplied + 1 } := by
  unfold RaftLogger.applyRound at h
  split_ifs at h with behind
  · split at h
    · next entry found => exact .inr ⟨entry, behind, found, (Option.some.inj h).symm⟩
    · cases h
  · exact .inl (Option.some.inj h).symm

/-- What a full count does to the commit index, and what it leaves in the history. -/
theorem commitReplicated_cases (cfg : Config) (i : Nat) (nd : RaftNode) (j : Nat) :
    ((nd.commitReplicated cfg i j).1.progress = { nd.progress with
        matchIndexs := (nd.advance j).m_matchIndexs } ∧ (nd.commitReplicated cfg i j).2 = []) ∨
    (nd.replicated cfg i j = true ∧
      nd.m_raft_logger.m_commitIndex < (nd.advance j).m_matchIndexs j ∧
      (nd.commitReplicated cfg i j).1.progress = { nd.progress with
        matchIndexs := (nd.advance j).m_matchIndexs
        commitIndex := (nd.advance j).m_matchIndexs j } ∧
      (nd.commitReplicated cfg i j).2 = [.commit i nd.m_currentTerm
        ((nd.advance j).m_matchIndexs j) nd.m_raft_logger.m_entries]) := by
  unfold commitReplicated
  by_cases full : nd.replicated cfg i j = true
  · by_cases raised : nd.m_raft_logger.m_commitIndex < (nd.advance j).m_matchIndexs j
    · right
      simp only [if_pos full, if_pos raised]
      refine ⟨full, raised, ?_, trivial⟩
      rw [max_eq_left raised.le]
      rfl
    · left
      simp only [if_pos full, if_neg raised, and_true]
      rw [max_eq_right (not_lt.mp raised)]
      rfl
  · left
    rw [if_neg full]
    exact ⟨rfl, rfl⟩

theorem commit_of_replicated {cfg : Config} {i j v T N : Nat} {nd : RaftNode} {es : List Entry}
    (new : .commit v T N es ∈ (nd.commitReplicated cfg i j).2) :
    nd.replicated cfg i j = true ∧
      nd.m_raft_logger.m_commitIndex < (nd.advance j).m_matchIndexs j ∧
      Event.commit v T N es =
        .commit i nd.m_currentTerm ((nd.advance j).m_matchIndexs j) nd.m_raft_logger.m_entries := by
  rcases commitReplicated_cases cfg i nd j with ⟨-, none⟩ | ⟨full, raised, -, one⟩
  · rw [none] at new
    cases new
  · rw [one] at new
    exact ⟨full, raised, List.mem_singleton.mp new⟩

end RaftNode

def Cluster.progress (s : Cluster) (i : Nat) : Progress := (s.nodes i).progress

theorem progress_put {s s' : Cluster} {i : Nat} {nd : RaftNode}
    (nodes : s'.nodes = Function.update s.nodes i nd) :
    s'.progress = Function.update s.progress i nd.progress :=
  field_put RaftNode.progress nodes

inductive ProgressStep (cfg : Config) (s : Cluster) (a : Action) (s' : Cluster) : Prop
  | still : s'.progress = s.progress → s'.commits = s.commits → (∀ v, s'.leads v → s.leads v) →
      ProgressStep cfg s a s'
  | win (k : Nat) (call : VoteCall) (rets : RaftVoteRets) : a = .voteReply k →
      s.voteCalls[k]? = some call → call.reply = some rets →
      (s.nodes call.src).wins cfg call.election rets →
      s'.progress = Function.update s.progress call.src { s.progress call.src with
        matchIndexs := fun j => if j ∈ (s.nodes call.src).m_remote_nodes then 0
          else (s.progress call.src).matchIndexs j } →
      s'.commits = s.commits → (∀ v, v ≠ call.src → s'.leads v → s.leads v) →
      ProgressStep cfg s a s'
  | reply (i l k : Nat) (loop : ReplicateLoop) (call : AppendCall) (rets : AppendEntriesRets) :
      a = .replicateReply i l → (s.loops i)[l]? = some loop → loop.pc = .waiting k →
      s.appendCalls[k]? = some call → call.reply = some rets → s.leads i →
      rets.term = (s.core i).term → rets.success = true →
      s'.progress = Function.update s.progress i
        ((s.nodes i).commitReplicated cfg i loop.nodeId).1.progress →
      s'.commits = ((s.nodes i).commitReplicated cfg i loop.nodeId).2 ++ s.commits →
      (∀ v, s'.leads v → s.leads v) → ProgressStep cfg s a s'
  | adopt (k : Nat) (call : AppendCall) : a = .appendEntries k → s.appendCalls[k]? = some call →
      (s.core call.dst).term ≤ call.request.term → (s'.core call.dst).term = call.request.term →
      s'.entries = s.entries →
      s'.progress = Function.update s.progress call.dst { s.progress call.dst with
        commitIndex := min call.request.leaderCommit
          (s.nodes call.dst).m_raft_logger.getLastIndex } →
      s'.commits = s.commits → (∀ v, s'.leads v → s.leads v) → ProgressStep cfg s a s'
  | apply (i : Nat) (entry : Entry) : a = .applyRound i →
      (s.progress i).lastApplied < (s.progress i).commitIndex →
      (s.entries i)[(s.progress i).lastApplied + 1]? = some entry →
      s'.progress = Function.update s.progress i { s.progress i with
        addresses := RaftLogger.applyOp (s.progress i).addresses entry
        applied := (s.progress i).applied ++ [entry]
        lastApplied := (s.progress i).lastApplied + 1 } →
      s'.commits = s.commits → (∀ v, s'.leads v → s.leads v) → ProgressStep cfg s a s'

theorem ProgressStep.of_put {cfg : Config} {s s' : Cluster} {a : Action} {i : Nat} {nd : RaftNode}
    (nodes : s'.nodes = Function.update s.nodes i nd)
    (same : nd.progress = (s.nodes i).progress) (commits : s'.commits = s.commits)
    (leads : ∀ v, s'.leads v → s.leads v) : ProgressStep cfg s a s' :=
  .still (field_put_same RaftNode.progress nodes same) commits leads

@[simp] theorem commits_put (s : Cluster) (i : Nat) (nd : RaftNode) (evs : List Event) :
    (s.put i nd evs).commits = evs.filter Event.isCommit ++ s.commits := by
  simp [Cluster.commits]
@[simp] theorem commits_setVoteCall (s : Cluster) (k : Nat) (call : VoteCall) :
    (s.setVoteCall k call).commits = s.commits := rfl
@[simp] theorem commits_setAppendCall (s : Cluster) (k : Nat) (call : AppendCall) :
    (s.setAppendCall k call).commits = s.commits := rfl
@[simp] theorem commits_addVoteCalls (s : Cluster) (calls : List VoteCall) :
    (s.addVoteCalls calls).commits = s.commits := rfl
@[simp] theorem commits_addAppendCall (s : Cluster) (call : AppendCall) :
    (s.addAppendCall call).commits = s.commits := rfl

theorem step_progressStep {cfg : Config} {s s' : Cluster} {a : Action}
    (h : step cfg s a = some s') : ProgressStep cfg s a s' := by
  cases a with
  | connect i j =>
      have leads := leads_of_step h (by simp)
      obtain ⟨-, rfl⟩ := step_connect.mp h
      exact .of_put rfl rfl (commits_put ..) leads
  | electionTimer i =>
      have leads := leads_of_step h (by simp)
      obtain ⟨-, rfl⟩ := step_electionTimer.mp h
      refine .of_put rfl RaftNode.electionTimer_progress ?_ leads
      rw [commits_put]
      split_ifs <;> rfl
  | startElection i =>
      have leads := leads_of_step h (by simp)
      obtain ⟨-, rfl⟩ := step_startElection.mp h
      exact .of_put rfl rfl ((commits_addVoteCalls ..).trans (commits_put ..)) leads
  | raftVote k =>
      have leads := leads_of_step h (by simp)
      obtain ⟨call, -, -, rfl⟩ := step_raftVote.mp h
      refine .of_put rfl (RaftNode.raftVote_progress call.request) ?_ leads
      rw [commits_setVoteCall, commits_put, voteEvents]
      split_ifs <;> rfl
  | voteTimeout k =>
      obtain ⟨call, -, -, rfl⟩ := step_voteTimeout.mp h
      exact .still rfl rfl fun _ => id
  | voteReply k =>
      obtain ⟨call, found, rets, reply, -, r, did, rfl⟩ := step_voteReply.mp h
      rcases RaftNode.voteReply_cases did with
        ⟨won, leads, events⟩ | ⟨-, -, rfl⟩ | ⟨-, rfl⟩ | rfl
      · refine .win k call rets rfl found reply won ((progress_put rfl).trans ?_) ?_
          fun v ne hv => ?_
        · rw [RaftNode.becomeLeader_progress leads]
          rfl
        · rw [commits_setVoteCall, commits_put, events]
          rfl
        · simpa [Cluster.leads, Function.update_of_ne ne] using hv
      · exact .of_put rfl rfl rfl (leads_put rfl id)
      · exact .of_put rfl rfl rfl (leads_put rfl (by simp [RaftNode.becomeFollower]))
      · exact .of_put rfl rfl rfl (leads_put rfl id)
  | heartbeat i j =>
      obtain ⟨-, rfl⟩ := step_heartbeat.mp h
      exact .still rfl rfl fun _ => id
  | replicateSend i l =>
      have leads := leads_of_step h (by simp)
      obtain ⟨loop, -, -, ⟨-, rfl⟩ | ⟨-, -, rfl⟩ | ⟨-, -, -, rfl⟩⟩ := step_replicateSend.mp h
      · exact .of_put rfl rfl (commits_put ..) leads
      · exact .still rfl rfl leads
      · exact .of_put rfl rfl ((commits_addAppendCall ..).trans (commits_put ..)) leads
  | replicateTimeout i l =>
      have leads := leads_of_step h (by simp)
      obtain ⟨loop, k, -, -, rfl⟩ := step_replicateTimeout.mp h
      exact .of_put rfl rfl (commits_put ..) leads
  | replicateReply i l =>
      have kept := leads_of_step h (by simp)
      obtain ⟨loop, k, call, rets, found, waits, sent, reply, -, rfl⟩ := step_replicateReply.mp h
      rcases RaftNode.replicateReply_cases cfg i (s.nodes i) loop.nodeId rets with
        ⟨-, did⟩ | ⟨-, -, did⟩ | ⟨-, -, did⟩ | ⟨-, -, -, did⟩ | ⟨leads, term, success, did⟩
      · exact .of_put rfl (by rw [did]; rfl) (by rw [did]; rfl) kept
      · exact .of_put rfl (by rw [did]; rfl) (by rw [did]; rfl) kept
      · exact .of_put rfl (by rw [did]; rfl) (by rw [did]; rfl) kept
      · exact .of_put rfl (by rw [did]; rfl) (by rw [did]; rfl) kept
      · refine .reply i l k loop call rets rfl found waits sent reply leads term success
          ((progress_put rfl).trans (by rw [did]; rfl)) ?_ kept
        rw [commits_put, did]
        rcases RaftNode.commitReplicated_cases cfg i (s.nodes i) loop.nodeId with
          ⟨-, events⟩ | ⟨-, -, -, events⟩ <;> rw [events] <;> rfl
  | appendEntries k =>
      have leads := leads_of_step h (by simp)
      obtain ⟨call, found, -, moved⟩ := step_appendEntries.mp h
      have entries : ((s.nodes call.dst).appendEntries call.request).1.m_raft_logger.m_entries =
          s.entries call.dst := RaftNode.appendEntries_entries call.request
      rcases RaftNode.appendEntries_progress (s.nodes call.dst) call.request with
        ⟨-, same⟩ | ⟨le, adopts⟩
      · rcases moved with ⟨rets, -, rfl⟩ | ⟨-, rfl⟩
        · exact .of_put rfl same ((commits_setAppendCall ..).trans (commits_put ..)) leads
        · exact .of_put rfl same (commits_put ..) leads
      · have term : ((s.nodes call.dst).appendEntries call.request).1.m_currentTerm =
            call.request.term := by
          rcases RaftNode.appendEntries_answer (s.nodes call.dst) call.request with
            ⟨stale, -⟩ | ⟨-, term, -⟩
          · omega
          · exact term
        rcases moved with ⟨rets, -, rfl⟩ | ⟨-, rfl⟩
        · refine .adopt k call rfl found le ?_ (entries_put_same rfl entries)
            ((progress_put rfl).trans ?_) ((commits_setAppendCall ..).trans (commits_put ..)) leads
          · simpa [Cluster.core] using term
          · rw [adopts]
            rfl
        · refine .adopt k call rfl found le ?_ (entries_put_same rfl entries)
            ((progress_put rfl).trans ?_) (commits_put ..) leads
          · simpa [Cluster.core] using term
          · exact congrArg (Function.update s.progress call.dst) adopts
  | appendEntriesEnd i =>
      have leads := leads_of_step h (by simp)
      obtain ⟨k, params, call, r, -, -, did, rfl⟩ := step_appendEntriesEnd.mp h
      exact .of_put rfl (RaftNode.appendEntriesEnd_progress did)
        ((commits_setAppendCall ..).trans (commits_put ..)) leads
  | applyRound i =>
      have leads := leads_of_step h (by simp)
      obtain ⟨-, logger, did, rfl⟩ := step_applyRound.mp h
      rcases RaftNode.applyRound_cases did with rfl | ⟨entry, behind, found, rfl⟩
      · exact .of_put rfl rfl (commits_put ..) leads
      · exact .apply i entry rfl behind found ((progress_put rfl).trans rfl) (commits_put ..) leads
  | clientMsg i type triples =>
      have leads := leads_of_step h (by simp)
      obtain ⟨-, rfl⟩ := step_clientMsg.mp h
      refine .of_put rfl (RaftNode.handleMsg_progress type triples) ?_ leads
      rw [commits_put, RaftNode.handleMsg_commits]
      rfl
  | testNoOp i =>
      have leads := leads_of_step h (by simp)
      obtain ⟨triples, -, rfl⟩ := step_testNoOp.mp h
      exact .of_put rfl rfl (commits_put ..) leads
  | lockLog i garbage =>
      have leads := leads_of_step h (by simp)
      obtain ⟨triples, -, rfl⟩ := step_lockLog.mp h
      exact .of_put rfl rfl (commits_put ..) leads
  | decodeTriple i =>
      have leads := leads_of_step h (by simp)
      obtain ⟨triples, index, assigned, nd, -, did, rfl⟩ := step_decodeTriple.mp h
      exact .of_put rfl (RaftNode.decodeTriple_progress did) (commits_put ..) leads
  | testApplied i =>
      have leads := leads_of_step h (by simp)
      obtain ⟨index, assigned, -, rfl⟩ := step_testApplied.mp h
      exact .of_put rfl rfl (commits_put ..) leads
  | respond i =>
      have leads := leads_of_step h (by simp)
      obtain ⟨assigned, -, rfl⟩ := step_respond.mp h
      exact .of_put rfl rfl (commits_put ..) leads

/-- What a node applies, it applies behind what it applied before. -/
theorem applied_step {cfg : Config} {s s' : Cluster} {a : Action}
    (h : step cfg s a = some s') (i : Nat) :
    ((s'.progress i).lastApplied = (s.progress i).lastApplied ∧
      (s'.progress i).applied = (s.progress i).applied ∧
      (s'.progress i).addresses = (s.progress i).addresses) ∨
    ∃ entry, (s.progress i).lastApplied < (s.progress i).commitIndex ∧
      (s.entries i)[(s.progress i).lastApplied + 1]? = some entry ∧
      (s'.progress i).lastApplied = (s.progress i).lastApplied + 1 ∧
      (s'.progress i).applied = (s.progress i).applied ++ [entry] ∧
      (s'.progress i).addresses = RaftLogger.applyOp (s.progress i).addresses entry := by
  cases step_progressStep h with
  | still same _ _ => exact .inl ⟨by rw [same], by rw [same], by rw [same]⟩
  | win _ call _ _ _ _ _ moved _ _ =>
      left
      rw [moved, Function.update_apply]
      split_ifs with at_
      · exact at_ ▸ ⟨rfl, rfl, rfl⟩
      · exact ⟨rfl, rfl, rfl⟩
  | reply v n k loop _ _ _ _ _ _ _ _ _ _ moved _ _ =>
      left
      rw [moved, Function.update_apply]
      split_ifs with at_
      · rcases RaftNode.commitReplicated_cases cfg v (s.nodes v) loop.nodeId with
          ⟨same, -⟩ | ⟨-, -, same, -⟩
        · rw [same, at_]
          exact ⟨rfl, rfl, rfl⟩
        · rw [same, at_]
          exact ⟨rfl, rfl, rfl⟩
      · exact ⟨rfl, rfl, rfl⟩
  | adopt _ call _ _ _ _ _ moved _ _ =>
      left
      rw [moved, Function.update_apply]
      split_ifs with at_
      · exact at_ ▸ ⟨rfl, rfl, rfl⟩
      · exact ⟨rfl, rfl, rfl⟩
  | apply v entry _ behind found moved _ _ =>
      by_cases at_ : i = v
      · subst at_
        refine .inr ⟨entry, behind, found, ?_⟩
        rw [moved, Function.update_self]
        exact ⟨rfl, rfl, rfl⟩
      · left
        rw [moved, Function.update_of_ne at_]
        exact ⟨rfl, rfl, rfl⟩

theorem lastApplied_mono {cfg : Config} {s s' : Cluster} {a : Action}
    (h : step cfg s a = some s') (i : Nat) :
    (s.progress i).lastApplied ≤ (s'.progress i).lastApplied := by
  rcases applied_step h i with ⟨same, -⟩ | ⟨_, -, -, next, -⟩
  · exact same.ge
  · exact next ▸ Nat.le_succ _

end CRpc.Raft
