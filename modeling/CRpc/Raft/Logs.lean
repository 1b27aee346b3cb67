import CRpc.Raft.Loops

/-! The logs of the nodes and the calls that carry entries between them: what a step
can do to these, and to the elections in the same step. -/
namespace CRpc.Raft

open Cluster Transition

namespace RaftNode

/-- The call whose entry `run()` is about to append, with its parameters. -/
def accepting (nd : RaftNode) : Option (Nat × AppendEntriesParams) :=
  match nd.run with
  | .appendEntries k params => some (k, params)
  | _ => none

variable {cfg : Config} {nd nd' : RaftNode} {i : Nat}

theorem accepting_of_run {k : Nat} {params : AppendEntriesParams}
    (h : nd.run = .appendEntries k params) : nd.accepting = some (k, params) := by
  simp [accepting, h]

theorem run_of_accepting {k : Nat} {params : AppendEntriesParams}
    (h : nd.accepting = some (k, params)) : nd.run = .appendEntries k params := by
  unfold accepting at h
  split at h
  · next run => simpa [run] using h
  · cases h

/-- `run()` has another triple to append. -/
def decodes (nd : RaftNode) : Bool :=
  match nd.run with
  | .decoding (_ :: _) _ _ => true
  | _ => false

theorem accepting_idle (h : nd.run = .idle) : nd.accepting = none := by simp [accepting, h]

@[simp] theorem electionTimer_run : (nd.electionTimer i).run = nd.run := by
  unfold electionTimer
  split <;> rfl

@[simp] theorem electionTimer_logger :
    (nd.electionTimer i).m_raft_logger = nd.m_raft_logger := by
  unfold electionTimer
  split <;> rfl

@[simp] theorem raftVote_run (params : RaftVoteParams) :
    (nd.raftVote params).1.run = nd.run := by
  unfold raftVote
  dsimp only
  split_ifs <;> rfl

@[simp] theorem raftVote_logger (params : RaftVoteParams) :
    (nd.raftVote params).1.m_raft_logger = nd.m_raft_logger := by
  unfold raftVote
  dsimp only
  split_ifs <;> rfl

theorem becomeLeader_log (h : becomeLeader cfg i nd = some nd') :
    nd.m_raft_logger.m_entries.length < maxEntries ∧ nd'.run = nd.run ∧
    nd'.m_raft_logger.m_entries = nd.m_raft_logger.m_entries ++
      [{ op := .noOp, term := nd.m_currentTerm, index := nd.m_raft_logger.getLastIndex + 1 }] := by
  unfold becomeLeader RaftLogger.appendEntry at h
  split_ifs at h with room
  · cases h
    exact ⟨room, rfl, rfl⟩

@[simp] theorem replicateReply_run (nodeId : Nat) (rets : AppendEntriesRets) :
    (nd.replicateReply cfg i nodeId rets).1.run = nd.run := by
  unfold replicateReply commitReplicated
  dsimp only
  split_ifs <;> rfl

@[simp] theorem replicateReply_entries (nodeId : Nat) (rets : AppendEntriesRets) :
    (nd.replicateReply cfg i nodeId rets).1.m_raft_logger.m_entries =
      nd.m_raft_logger.m_entries := by
  unfold replicateReply commitReplicated
  dsimp only
  split_ifs <;> rfl

@[simp] theorem appendEntries_run (params : AppendEntriesParams) :
    (nd.appendEntries params).1.run = nd.run := by
  unfold appendEntries
  dsimp only
  split_ifs <;> rfl

@[simp] theorem appendEntries_entries (params : AppendEntriesParams) :
    (nd.appendEntries params).1.m_raft_logger.m_entries = nd.m_raft_logger.m_entries := by
  unfold appendEntries
  dsimp only
  split_ifs <;> rfl

/-- What the first part of `appendEntries` answers, and whether the rest follows. -/
theorem appendEntries_answer (nd : RaftNode) (params : AppendEntriesParams) :
    (params.term < nd.m_currentTerm ∧
      (nd.appendEntries params) =
        ({ nd with m_raft_mutex := false }, some { success := false, term := nd.m_currentTerm })) ∨
    (nd.m_currentTerm ≤ params.term ∧ (nd.appendEntries params).1.m_currentTerm = params.term ∧
      ((params.entry.op = .heartbeat ∧
        (nd.appendEntries params).2 = some { success := true, term := params.term }) ∨
       (params.entry.op ≠ .heartbeat ∧ (nd.appendEntries params).2 = none ∧
        (nd.appendEntries params).1.m_raft_mutex = true))) := by
  by_cases stale : params.term < nd.m_currentTerm
  · exact .inl ⟨stale, by simp [appendEntries, stale]⟩
  · right
    refine ⟨by omega, ?_⟩
    unfold appendEntries
    simp only [if_neg stale, Nat.not_lt_zero, if_false]
    by_cases moves : nd.m_currentTerm < params.term ∨
        params.term = nd.m_currentTerm ∧ nd.m_state = .Candidate
    · simp only [if_pos moves]
      by_cases beat : params.entry.op = .heartbeat
      · simp [beat, becomeFollower]
      · simp [beat, becomeFollower]
    · have same : nd.m_currentTerm = params.term := by
        have := not_or.mp moves
        omega
      simp only [if_neg moves]
      by_cases beat : params.entry.op = .heartbeat
      · simp [beat, same]
      · simp [beat, same]

/-- What the rest of `appendEntries` does to the log and answers. -/
theorem appendEntriesEnd_cases {params : AppendEntriesParams} {r : RaftNode × AppendEntriesRets}
    (h : nd.appendEntriesEnd params = some r) : r.1.run = .idle ∧
    ((nd.m_raft_logger.matchPrev params.prevLogIndex params.prevLogTerm = none ∧
        r.1.m_raft_logger.m_entries = nd.m_raft_logger.m_entries ∧
        r.2 = ⟨false, nd.m_currentTerm⟩) ∨
     ∃ p, nd.m_raft_logger.matchPrev params.prevLogIndex params.prevLogTerm = some p ∧
        p + 1 < maxEntries ∧
        r.1.m_raft_logger.m_entries =
          nd.m_raft_logger.m_entries.take (p + 1) ++ [params.entry] ∧
        r.2 = ⟨true, nd.m_currentTerm⟩) := by
  obtain ⟨⟨logger, success⟩, did, rfl⟩ := Option.map_eq_some_iff.mp h
  refine ⟨rfl, ?_⟩
  unfold RaftLogger.appendAfter at did
  cases found : nd.m_raft_logger.matchPrev params.prevLogIndex params.prevLogTerm with
  | none =>
      rw [found] at did
      cases did
      exact .inl ⟨rfl, rfl, rfl⟩
  | some p =>
      rw [found] at did
      dsimp only at did
      split_ifs at did with room
      · cases did
        exact .inr ⟨p, rfl, room, rfl, rfl⟩

@[simp] theorem handleMsg_logger (type : MessageType) (triples : List Triple) :
    (nd.handleMsg i type triples).1.m_raft_logger = nd.m_raft_logger := by
  unfold handleMsg
  split_ifs
  · rfl
  · cases type <;> rfl

theorem handleMsg_accepting (idle : nd.run = .idle) (type : MessageType)
    (triples : List Triple) : (nd.handleMsg i type triples).1.accepting = none := by
  unfold handleMsg
  split_ifs
  · exact accepting_idle idle
  · cases type
    · rfl
    · rfl
    · exact accepting_idle idle

/-- A round of the decoding loop appends nothing, or one entry of the current term. -/
theorem decodeTriple_cases {index : Nat} {assigned : List Nat} {triples : List Triple}
    (h : nd.decodeTriple index assigned triples = some nd') : nd'.accepting = none ∧
    ((triples = [] ∧ nd'.m_raft_logger = nd.m_raft_logger) ∨
     ∃ t rest, triples = t :: rest ∧ nd.m_raft_logger.m_entries.length < maxEntries ∧
      nd'.m_raft_logger.m_entries = nd.m_raft_logger.m_entries ++
        [{ nd.registration t with index := nd.m_raft_logger.getLastIndex + 1 }]) := by
  cases triples with
  | nil =>
      cases h
      exact ⟨rfl, .inl ⟨rfl, rfl⟩⟩
  | cons t rest =>
      obtain ⟨⟨logger, index⟩, did, rfl⟩ := Option.map_eq_some_iff.mp h
      unfold RaftLogger.appendEntry at did
      split_ifs at did with room
      · cases did
        exact ⟨rfl, .inr ⟨t, rest, rfl, room, rfl⟩⟩

end RaftNode

namespace Cluster

def entries (s : Cluster) (i : Nat) : List Entry := (s.nodes i).m_raft_logger.m_entries
def accepting (s : Cluster) (i : Nat) : Option (Nat × AppendEntriesParams) :=
  (s.nodes i).accepting

structure SameVotes (s s' : Cluster) : Prop where
  core : s'.core = s.core
  calls : s'.voteCalls = s.voteCalls
  votes : s'.votes = s.votes

end Cluster

/-- `call` is what node `i` sends as `nd`: a heartbeat, or the next entry of a follower. -/
structure RaftNode.Sends (i : Nat) (nd : RaftNode) (call : AppendCall) : Prop where
  src : call.src = i
  dst : call.dst ∈ nd.m_remote_nodes
  leads : nd.m_state = .Leader
  sent : call.sent = nd.m_raft_logger.m_entries
  fresh : call.reply = none
  request : ∃ e, call.request = nd.appendRequest i call.dst e ∧
    (e.op = .heartbeat ∨ e.op ≠ .null ∧ e = nd.sendEntry call.dst)

inductive LogStep (cfg : Config) (s : Cluster) (a : Action) (s' : Cluster) : Prop
  | still : s'.entries = s.entries → s'.accepting = s.accepting →
      s'.appendCalls = s.appendCalls → (∀ v, s'.leads v → s.leads v) → LogStep cfg s a s'
  | win (k : Nat) (call : VoteCall) (rets : RaftVoteRets) : a = .voteReply k →
      s.voteCalls[k]? = some call → call.reply = some rets →
      (s.nodes call.src).wins cfg call.election rets →
      (s.entries call.src).length < maxEntries →
      s'.entries = Function.update s.entries call.src (s.entries call.src ++
        [{ op := .noOp, term := (s.core call.src).term
           index := (s.nodes call.src).m_raft_logger.getLastIndex + 1 }]) →
      s'.accepting = s.accepting → s'.appendCalls = s.appendCalls →
      s'.core = Function.update s.core call.src
        { (s.core call.src).count call.election with state := .Leader } →
      s'.voteCalls = s.voteCalls.set k { call with waiting := false } →
      s'.votes = .leader call.src (s.core call.src).term (s.entries call.src) :: s.votes →
      LogStep cfg s a s'
  | register (i : Nat) (t : Triple) : a = .decodeTriple i → (s.nodes i).decodes = true →
      (s.entries i).length < maxEntries →
      s'.entries = Function.update s.entries i (s.entries i ++
        [{ (s.nodes i).registration t with
           index := (s.nodes i).m_raft_logger.getLastIndex + 1 }]) →
      s'.accepting = s.accepting → s'.appendCalls = s.appendCalls → SameVotes s s' →
      LogStep cfg s a s'
  | send (i : Nat) (call : AppendCall) : (s.nodes i).Sends i call →
      s'.entries = s.entries → s'.accepting = s.accepting →
      s'.appendCalls = s.appendCalls ++ [call] → SameVotes s s' → LogStep cfg s a s'
  | answer (k : Nat) (call : AppendCall) (rets : AppendEntriesRets) : a = .appendEntries k →
      s.appendCalls[k]? = some call → call.reply = none → s.accepting call.dst = none →
      rets.term = (s'.core call.dst).term →
      (rets.success = true → call.request.entry.op = .heartbeat) →
      s'.entries = s.entries → s'.accepting = s.accepting →
      s'.appendCalls = s.appendCalls.set k { call with reply := some rets } →
      (∀ v, s'.leads v → s.leads v) → LogStep cfg s a s'
  | accept (k : Nat) (call : AppendCall) : a = .appendEntries k → s.appendCalls[k]? = some call →
      call.reply = none → s.accepting call.dst = none →
      (s'.core call.dst).term = call.request.term → call.request.entry.op ≠ .heartbeat →
      s'.entries = s.entries →
      s'.accepting = Function.update s.accepting call.dst (some (k, call.request)) →
      s'.appendCalls = s.appendCalls → (∀ v, s'.leads v → s.leads v) → LogStep cfg s a s'
  | reject (i k : Nat) (params : AppendEntriesParams) (call : AppendCall) :
      a = .appendEntriesEnd i → s.accepting i = some (k, params) →
      s.appendCalls[k]? = some call →
      (s.nodes i).m_raft_logger.matchPrev params.prevLogIndex params.prevLogTerm = none →
      s'.entries = s.entries → s'.accepting = Function.update s.accepting i none →
      s'.appendCalls = s.appendCalls.set k
        { call with reply := some ⟨false, (s.core i).term⟩ } → SameVotes s s' → LogStep cfg s a s'
  | append (i k p : Nat) (params : AppendEntriesParams) (call : AppendCall) :
      a = .appendEntriesEnd i → s.accepting i = some (k, params) →
      s.appendCalls[k]? = some call →
      (s.nodes i).m_raft_logger.matchPrev params.prevLogIndex params.prevLogTerm = some p →
      p + 1 < maxEntries →
      s'.entries = Function.update s.entries i ((s.entries i).take (p + 1) ++ [params.entry]) →
      s'.accepting = Function.update s.accepting i none →
      s'.appendCalls = s.appendCalls.set k
        { call with reply := some ⟨true, (s.core i).term⟩ } → SameVotes s s' → LogStep cfg s a s'

/-- While `run()` is inside `appendEntries` it holds `m_raft_mutex`. -/
def Latched (s : Cluster) : Prop := ∀ i, s.accepting i ≠ none → (s.nodes i).m_raft_mutex = true

theorem entries_put {s s' : Cluster} {i : Nat} {nd : RaftNode}
    (nodes : s'.nodes = Function.update s.nodes i nd) :
    s'.entries = Function.update s.entries i nd.m_raft_logger.m_entries :=
  field_put (fun nd => nd.m_raft_logger.m_entries) nodes

theorem accepting_put {s s' : Cluster} {i : Nat} {nd : RaftNode}
    (nodes : s'.nodes = Function.update s.nodes i nd) :
    s'.accepting = Function.update s.accepting i nd.accepting :=
  field_put RaftNode.accepting nodes

theorem accepting_same {nd nd' : RaftNode} (same : nd.run = nd'.run) :
    nd.accepting = nd'.accepting := by
  rw [RaftNode.accepting, RaftNode.accepting, same]

theorem entries_put_same {s s' : Cluster} {i : Nat} {nd : RaftNode}
    (nodes : s'.nodes = Function.update s.nodes i nd)
    (same : nd.m_raft_logger.m_entries = (s.nodes i).m_raft_logger.m_entries) :
    s'.entries = s.entries :=
  field_put_same (fun nd => nd.m_raft_logger.m_entries) nodes same

theorem accepting_put_same {s s' : Cluster} {i : Nat} {nd : RaftNode}
    (nodes : s'.nodes = Function.update s.nodes i nd)
    (same : nd.accepting = (s.nodes i).accepting) : s'.accepting = s.accepting :=
  field_put_same RaftNode.accepting nodes same

theorem leads_of_step {cfg : Config} {s s' : Cluster} {a : Action} (h : step cfg s a = some s')
    (task : ∀ k, a ≠ .voteReply k) (v : Nat) (leads : s'.leads v) : s.leads v := by
  cases step_loopStep h with
  | quiet _ kept => exact kept v leads
  | move _ _ _ _ _ _ _ kept _ _ => exact kept v leads
  | start k _ _ act _ _ _ _ _ => exact absurd act (task k)

theorem LogStep.of_put {cfg : Config} {s s' : Cluster} {a : Action} {i : Nat} {nd : RaftNode}
    (nodes : s'.nodes = Function.update s.nodes i nd)
    (entries : nd.m_raft_logger.m_entries = (s.nodes i).m_raft_logger.m_entries)
    (accepting : nd.accepting = (s.nodes i).accepting)
    (calls : s'.appendCalls = s.appendCalls) (leads : ∀ v, s'.leads v → s.leads v) :
    LogStep cfg s a s' :=
  .still (entries_put_same nodes entries) (accepting_put_same nodes accepting) calls leads

theorem step_logStep {cfg : Config} {s s' : Cluster} {a : Action}
    (h : step cfg s a = some s') : LogStep cfg s a s' := by
  cases a with
  | connect i j =>
      have leads := leads_of_step h (by simp)
      obtain ⟨-, rfl⟩ := step_connect.mp h
      exact .of_put rfl rfl rfl rfl leads
  | electionTimer i =>
      have leads := leads_of_step h (by simp)
      obtain ⟨-, rfl⟩ := step_electionTimer.mp h
      exact .of_put rfl (by rw [RaftNode.electionTimer_logger])
        (accepting_same RaftNode.electionTimer_run) rfl leads
  | startElection i =>
      have leads := leads_of_step h (by simp)
      obtain ⟨-, rfl⟩ := step_startElection.mp h
      exact .of_put rfl rfl rfl rfl leads
  | raftVote k =>
      have leads := leads_of_step h (by simp)
      obtain ⟨call, -, -, rfl⟩ := step_raftVote.mp h
      exact .of_put rfl (by rw [RaftNode.raftVote_logger])
        (accepting_same (RaftNode.raftVote_run call.request)) rfl leads
  | voteTimeout k =>
      obtain ⟨call, -, -, rfl⟩ := step_voteTimeout.mp h
      exact .still rfl rfl rfl fun _ => id
  | voteReply k =>
      obtain ⟨call, found, rets, reply, -, r, did, rfl⟩ := step_voteReply.mp h
      rcases RaftNode.voteReply_cases did with
        ⟨won, leads, events⟩ | ⟨-, -, rfl⟩ | ⟨-, rfl⟩ | rfl
      · obtain ⟨room, run, entries⟩ := RaftNode.becomeLeader_log leads
        refine .win k call rets rfl found reply won room ((entries_put rfl).trans ?_)
          (accepting_put_same rfl (accepting_same run)) rfl ?_ rfl ?_
        · rw [entries]
          rfl
        · rw [core_setVoteCall, core_put, RaftNode.becomeLeader_core leads]
          rfl
        · rw [votes_setVoteCall, votes_put, events]
          rfl
      · exact .of_put rfl rfl rfl rfl (leads_put rfl id)
      · exact .of_put rfl rfl rfl rfl (leads_put rfl (by simp [RaftNode.becomeFollower]))
      · exact .of_put rfl rfl rfl rfl (leads_put rfl id)
  | heartbeat i j =>
      obtain ⟨⟨-, peer, leads, -⟩, rfl⟩ := step_heartbeat.mp h
      exact .send i _ ⟨rfl, peer, leads, rfl, rfl, _, rfl, .inl rfl⟩ rfl rfl rfl ⟨rfl, rfl, rfl⟩
  | replicateSend i l =>
      have leads := leads_of_step h (by simp)
      obtain ⟨loop, -, -, ⟨-, rfl⟩ | ⟨-, -, rfl⟩ | ⟨office, some_, peer, rfl⟩⟩ :=
        step_replicateSend.mp h
      · exact .of_put rfl rfl rfl rfl leads
      · exact .still rfl rfl rfl leads
      · refine .send i _ ⟨rfl, peer, office, rfl, rfl, _, rfl, .inr ⟨some_, rfl⟩⟩
          (entries_put_same rfl rfl) (accepting_put_same rfl rfl) rfl ⟨?_, rfl, ?_⟩
        · exact (core_addAppendCall ..).trans (core_put_same s [] rfl)
        · exact (votes_addAppendCall ..).trans (votes_put ..)
  | replicateTimeout i l =>
      have leads := leads_of_step h (by simp)
      obtain ⟨loop, k, -, -, rfl⟩ := step_replicateTimeout.mp h
      exact .of_put rfl rfl rfl rfl leads
  | replicateReply i l =>
      have leads := leads_of_step h (by simp)
      obtain ⟨loop, k, call, rets, -, -, -, -, -, rfl⟩ := step_replicateReply.mp h
      exact .of_put rfl (RaftNode.replicateReply_entries loop.nodeId rets)
        (accepting_same (RaftNode.replicateReply_run loop.nodeId rets)) rfl leads
  | appendEntries k =>
      have leads := leads_of_step h (by simp)
      obtain ⟨call, found, ⟨fresh, idle⟩, moved⟩ := step_appendEntries.mp h
      have none : s.accepting call.dst = none := RaftNode.accepting_idle idle
      rcases moved with ⟨rets, did, rfl⟩ | ⟨did, rfl⟩
      · refine .answer k call rets rfl found fresh none ?_ ?_
          (entries_put_same rfl (RaftNode.appendEntries_entries call.request))
          (accepting_put_same rfl (accepting_same (RaftNode.appendEntries_run call.request)))
          rfl leads
        all_goals
          rcases RaftNode.appendEntries_answer (s.nodes call.dst) call.request with
            ⟨stale, answer⟩ | ⟨-, term, ⟨beat, answer⟩ | ⟨-, answer, -⟩⟩
        · rw [answer] at did
          cases did
          simp [Cluster.core, answer]
        · rw [answer] at did
          cases did
          simp [Cluster.core, term]
        · rw [answer] at did
          cases did
        · rw [answer] at did
          cases did
          simp
        · exact fun _ => beat
        · rw [answer] at did
          cases did
      · rcases RaftNode.appendEntries_answer (s.nodes call.dst) call.request with
          ⟨stale, answer⟩ | ⟨-, term, ⟨beat, answer⟩ | ⟨entry, answer, -⟩⟩
        · rw [answer] at did
          cases did
        · rw [answer] at did
          cases did
        · refine .accept k call rfl found fresh none ?_ entry
            (entries_put_same rfl (RaftNode.appendEntries_entries call.request))
            ((accepting_put rfl).trans rfl) rfl leads
          simpa [Cluster.core] using term
  | appendEntriesEnd i =>
      obtain ⟨k, params, call, r, run, found, did, rfl⟩ := step_appendEntriesEnd.mp h
      have core := RaftNode.appendEntriesEnd_core did
      have votes : SameVotes s ((s.put i r.1).setAppendCall k { call with reply := some r.2 }) :=
        ⟨by rw [core_setAppendCall, core_put_same s [] core], rfl, by simp⟩
      obtain ⟨idle, ⟨missed, entries, answer⟩ | ⟨p, hit, room, entries, answer⟩⟩ :=
        RaftNode.appendEntriesEnd_cases did
      · refine .reject i k params call rfl (RaftNode.accepting_of_run run) found missed
          (entries_put_same rfl entries)
          ((accepting_put rfl).trans (by rw [RaftNode.accepting_idle idle])) ?_ votes
        rw [answer]
        rfl
      · refine .append i k p params call rfl (RaftNode.accepting_of_run run) found hit room
          ((entries_put rfl).trans (by rw [entries]; rfl))
          ((accepting_put rfl).trans (by rw [RaftNode.accepting_idle idle])) ?_ votes
        rw [answer]
        rfl
  | applyRound i =>
      have leads := leads_of_step h (by simp)
      obtain ⟨-, logger, did, rfl⟩ := step_applyRound.mp h
      refine .of_put rfl ?_ rfl rfl leads
      unfold RaftLogger.applyRound at did
      split at did
      · split at did
        · cases did
          rfl
        · cases did
      · cases did
        rfl
  | clientMsg i type triples =>
      have leads := leads_of_step h (by simp)
      obtain ⟨⟨-, idle⟩, rfl⟩ := step_clientMsg.mp h
      refine .of_put rfl (by rw [RaftNode.handleMsg_logger]) ?_ rfl leads
      rw [RaftNode.handleMsg_accepting idle, RaftNode.accepting_idle idle]
  | testNoOp i =>
      have leads := leads_of_step h (by simp)
      obtain ⟨triples, run, rfl⟩ := step_testNoOp.mp h
      refine .of_put rfl rfl ?_ rfl leads
      simp only [RaftNode.testNoOp, RaftNode.accepting, run]
      split_ifs <;> rfl
  | lockLog i garbage =>
      have leads := leads_of_step h (by simp)
      obtain ⟨triples, run, rfl⟩ := step_lockLog.mp h
      exact .of_put rfl rfl (by simp [RaftNode.accepting, run]) rfl leads
  | decodeTriple i =>
      have leads := leads_of_step h (by simp)
      obtain ⟨triples, index, assigned, nd, run, did, rfl⟩ := step_decodeTriple.mp h
      obtain ⟨none, ⟨-, logger⟩ | ⟨t, rest, rfl, room, entries⟩⟩ := RaftNode.decodeTriple_cases did
      · exact .of_put rfl (by rw [logger]) (by rw [none]; simp [RaftNode.accepting, run]) rfl leads
      · refine .register i t rfl (by simp [RaftNode.decodes, run]) room ((entries_put rfl).trans (by rw [entries]; rfl))
          (accepting_put_same rfl (by rw [none]; simp [RaftNode.accepting, run])) rfl
          ⟨core_put_same s [] (RaftNode.decodeTriple_core did), rfl, votes_put ..⟩
  | testApplied i =>
      have leads := leads_of_step h (by simp)
      obtain ⟨index, assigned, run, rfl⟩ := step_testApplied.mp h
      refine .of_put rfl rfl ?_ rfl leads
      simp only [RaftNode.testApplied, RaftNode.accepting, run]
      split_ifs <;> rfl
  | respond i =>
      have leads := leads_of_step h (by simp)
      obtain ⟨assigned, run, rfl⟩ := step_respond.mp h
      exact .of_put rfl rfl (by simp [RaftNode.accepting, run]) rfl leads

structure AppendCall.Same (c d : AppendCall) : Prop where
  src : d.src = c.src
  dst : d.dst = c.dst
  request : d.request = c.request
  sent : d.sent = c.sent

section Calls

variable {cfg : Config} {s s' : Cluster} {a : Action}

theorem appendCalls_step (h : step cfg s a = some s') : s'.appendCalls = s.appendCalls ∨
    (∃ i call, (s.nodes i).Sends i call ∧ s'.appendCalls = s.appendCalls ++ [call]) ∨
    ∃ k call rets, s.appendCalls[k]? = some call ∧
      s'.appendCalls = s.appendCalls.set k { call with reply := some rets } := by
  cases step_logStep h with
  | still _ _ calls _ => exact .inl calls
  | win _ _ _ _ _ _ _ _ _ _ calls _ _ _ => exact .inl calls
  | register _ _ _ _ _ _ _ calls _ => exact .inl calls
  | send i call sends _ _ calls _ => exact .inr (.inl ⟨i, call, sends, calls⟩)
  | answer k call rets _ found _ _ _ _ _ _ calls _ => exact .inr (.inr ⟨k, call, rets, found, calls⟩)
  | accept _ _ _ _ _ _ _ _ _ _ calls _ => exact .inl calls
  | reject _ k _ call _ _ found _ _ _ calls _ => exact .inr (.inr ⟨k, call, _, found, calls⟩)
  | append _ k _ _ call _ _ found _ _ _ _ calls _ => exact .inr (.inr ⟨k, call, _, found, calls⟩)

theorem appendCalls_kept (h : step cfg s a = some s') {n : Nat} {c : AppendCall}
    (found : s.appendCalls[n]? = some c) : ∃ d, s'.appendCalls[n]? = some d ∧ c.Same d := by
  have inside := (List.getElem?_eq_some_iff.mp found).1
  rcases appendCalls_step h with same | ⟨i, new, -, calls⟩ | ⟨k, call, rets, at_, calls⟩
  · exact ⟨c, same ▸ found, rfl, rfl, rfl, rfl⟩
  · exact ⟨c, by rw [calls, List.getElem?_append_left inside, found], rfl, rfl, rfl, rfl⟩
  · rw [calls]
    by_cases here : k = n
    · subst here
      obtain rfl : c = call := Option.some.inj (found.symm.trans at_)
      exact ⟨_, List.getElem?_set_self inside, rfl, rfl, rfl, rfl⟩
    · exact ⟨c, by rw [List.getElem?_set_ne here, found], rfl, rfl, rfl, rfl⟩

theorem appendCalls_origin (h : step cfg s a = some s') {c : AppendCall}
    (mem : c ∈ s'.appendCalls) :
    (∃ d ∈ s.appendCalls, d.Same c) ∨ ∃ i, (s.nodes i).Sends i c := by
  rcases appendCalls_step h with same | ⟨i, new, sends, calls⟩ | ⟨k, call, rets, found, calls⟩
  · exact .inl ⟨c, same ▸ mem, rfl, rfl, rfl, rfl⟩
  · rw [calls] at mem
    rcases List.mem_append.mp mem with old | last
    · exact .inl ⟨c, old, rfl, rfl, rfl, rfl⟩
    · exact .inr ⟨i, List.mem_singleton.mp last ▸ sends⟩
  · rw [calls] at mem
    rcases List.mem_or_eq_of_mem_set mem with old | rfl
    · exact .inl ⟨c, old, rfl, rfl, rfl, rfl⟩
    · exact .inl ⟨call, List.mem_of_getElem? found, rfl, rfl, rfl, rfl⟩

end Calls

/-- A busy node keeps its core, and still holds its mutex after the step. -/
def Busy (s s' : Cluster) : Prop :=
  (∀ i, s.accepting i ≠ none → s'.core i = s.core i) ∧ Latched s'

theorem busy_put {s s' : Cluster} (latched : Latched s) {i : Nat} {nd : RaftNode}
    (nodes : s'.nodes = Function.update s.nodes i nd)
    (core : s.accepting i ≠ none → nd.core = (s.nodes i).core)
    (mutex : nd.accepting ≠ none → nd.m_raft_mutex = true) : Busy s s' := by
  refine ⟨fun v busy => ?_, fun v busy => ?_⟩
  · rw [Cluster.core, nodes]
    by_cases at_ : v = i
    · subst at_
      rw [Function.update_self]
      exact core busy
    · rw [Function.update_of_ne at_]
      rfl
  · rw [accepting_put nodes] at busy
    rw [nodes]
    by_cases at_ : v = i
    · subst at_
      rw [Function.update_self] at busy ⊢
      exact mutex busy
    · rw [Function.update_of_ne at_] at busy ⊢
      exact latched v busy

/-- A step that takes `m_raft_mutex` finds `run()` outside `appendEntries`. -/
theorem busy_put_free {s s' : Cluster} (latched : Latched s) {i : Nat} {nd : RaftNode}
    (nodes : s'.nodes = Function.update s.nodes i nd) (free : (s.nodes i).m_raft_mutex = false)
    (run : nd.run = (s.nodes i).run) : Busy s s' := by
  have none : s.accepting i = none := by
    by_contra busy
    simpa [free] using latched i busy
  refine busy_put latched nodes (fun busy => absurd none busy) fun busy => ?_
  rw [accepting_same run] at busy
  exact absurd none busy

theorem busy_put_run {s s' : Cluster} (latched : Latched s) {i : Nat} {nd : RaftNode}
    (nodes : s'.nodes = Function.update s.nodes i nd) (before : s.accepting i = none)
    (after : nd.accepting = none) : Busy s s' :=
  busy_put latched nodes (fun busy => absurd before busy) fun busy => absurd after busy

theorem busy_put_apart {s s' : Cluster} (latched : Latched s) {i : Nat} {nd : RaftNode}
    (nodes : s'.nodes = Function.update s.nodes i nd) (core : nd.core = (s.nodes i).core)
    (run : nd.run = (s.nodes i).run) (mutex : nd.m_raft_mutex = (s.nodes i).m_raft_mutex) :
    Busy s s' := by
  refine busy_put latched nodes (fun _ => core) fun busy => ?_
  rw [accepting_same run] at busy
  rw [mutex]
  exact latched i busy

theorem step_busy {cfg : Config} {s s' : Cluster} {a : Action} (latched : Latched s)
    (h : step cfg s a = some s') : Busy s s' := by
  cases a with
  | connect i j =>
      obtain ⟨⟨-, -, -, -, free⟩, rfl⟩ := step_connect.mp h
      exact busy_put_free latched rfl free rfl
  | electionTimer i =>
      obtain ⟨⟨-, free⟩, rfl⟩ := step_electionTimer.mp h
      exact busy_put_free latched rfl free RaftNode.electionTimer_run
  | startElection i =>
      obtain ⟨⟨-, -, free⟩, rfl⟩ := step_startElection.mp h
      exact busy_put_free latched rfl free.1 rfl
  | raftVote k =>
      obtain ⟨call, -, ⟨-, idle⟩, rfl⟩ := step_raftVote.mp h
      refine busy_put_run latched rfl (RaftNode.accepting_idle idle) (RaftNode.accepting_idle ?_)
      rw [RaftNode.raftVote_run, idle]
  | voteTimeout k =>
      obtain ⟨call, -, -, rfl⟩ := step_voteTimeout.mp h
      exact ⟨fun _ _ => rfl, latched⟩
  | voteReply k =>
      obtain ⟨call, -, rets, -, ⟨-, free, -⟩, r, did, rfl⟩ := step_voteReply.mp h
      refine busy_put_free latched rfl free ?_
      rcases RaftNode.voteReply_cases did with ⟨-, leads, -⟩ | ⟨-, -, rfl⟩ | ⟨-, rfl⟩ | rfl
      · exact (RaftNode.becomeLeader_log leads).2.1
      · rfl
      · rfl
      · rfl
  | heartbeat i j =>
      obtain ⟨-, rfl⟩ := step_heartbeat.mp h
      exact ⟨fun _ _ => rfl, latched⟩
  | replicateSend i l =>
      obtain ⟨loop, -, -, ⟨-, rfl⟩ | ⟨-, -, rfl⟩ | ⟨-, -, -, rfl⟩⟩ := step_replicateSend.mp h
      · exact busy_put_apart latched rfl rfl rfl rfl
      · exact ⟨fun _ _ => rfl, latched⟩
      · exact busy_put_apart latched rfl rfl rfl rfl
  | replicateTimeout i l =>
      obtain ⟨loop, k, -, -, rfl⟩ := step_replicateTimeout.mp h
      exact busy_put_apart latched rfl rfl rfl rfl
  | replicateReply i l =>
      obtain ⟨loop, k, call, rets, -, -, -, -, ⟨free, -⟩, rfl⟩ := step_replicateReply.mp h
      exact busy_put_free latched rfl free (RaftNode.replicateReply_run loop.nodeId rets)
  | appendEntries k =>
      obtain ⟨call, -, ⟨-, idle⟩, moved⟩ := step_appendEntries.mp h
      have none : s.accepting call.dst = none := RaftNode.accepting_idle idle
      rcases moved with ⟨rets, did, rfl⟩ | ⟨did, rfl⟩
      · refine busy_put_run latched rfl none (RaftNode.accepting_idle ?_)
        rw [RaftNode.appendEntries_run, idle]
      · refine busy_put latched rfl (fun busy => absurd none busy) fun _ => ?_
        rcases RaftNode.appendEntries_answer (s.nodes call.dst) call.request with
          ⟨-, answer⟩ | ⟨-, -, ⟨-, answer⟩ | ⟨-, -, mutex⟩⟩
        · rw [answer] at did
          cases did
        · rw [answer] at did
          cases did
        · exact mutex
  | appendEntriesEnd i =>
      obtain ⟨k, params, call, r, -, -, did, rfl⟩ := step_appendEntriesEnd.mp h
      refine busy_put latched rfl (fun _ => RaftNode.appendEntriesEnd_core did) fun busy => ?_
      exact absurd (RaftNode.accepting_idle (RaftNode.appendEntriesEnd_cases did).1) busy
  | applyRound i =>
      obtain ⟨-, logger, -, rfl⟩ := step_applyRound.mp h
      exact busy_put_apart latched rfl rfl rfl rfl
  | clientMsg i type triples =>
      obtain ⟨⟨-, idle⟩, rfl⟩ := step_clientMsg.mp h
      exact busy_put_run latched rfl (RaftNode.accepting_idle idle)
        (RaftNode.handleMsg_accepting idle type triples)
  | testNoOp i =>
      obtain ⟨triples, run, rfl⟩ := step_testNoOp.mp h
      refine busy_put_run latched rfl (by simp [Cluster.accepting, RaftNode.accepting, run]) ?_
      simp only [RaftNode.testNoOp, RaftNode.accepting]
      split_ifs <;> rfl
  | lockLog i garbage =>
      obtain ⟨triples, run, rfl⟩ := step_lockLog.mp h
      exact busy_put_run latched rfl (by simp [Cluster.accepting, RaftNode.accepting, run]) rfl
  | decodeTriple i =>
      obtain ⟨triples, index, assigned, nd, run, did, rfl⟩ := step_decodeTriple.mp h
      exact busy_put_run latched rfl (by simp [Cluster.accepting, RaftNode.accepting, run])
        (RaftNode.decodeTriple_cases did).1
  | testApplied i =>
      obtain ⟨index, assigned, run, rfl⟩ := step_testApplied.mp h
      refine busy_put_run latched rfl (by simp [Cluster.accepting, RaftNode.accepting, run]) ?_
      simp only [RaftNode.testApplied, RaftNode.accepting]
      split_ifs <;> rfl
  | respond i =>
      obtain ⟨assigned, run, rfl⟩ := step_respond.mp h
      exact busy_put_run latched rfl (by simp [Cluster.accepting, RaftNode.accepting, run]) rfl

end CRpc.Raft
