import CRpc.Raft.Cluster
import Mathlib.Tactic.SplitIfs

/-! What each step of the cluster can do, guards included. Later modules take steps
apart with these and do not unfold `step`. -/
namespace CRpc.Raft

open Cluster

variable {cfg : Config} {s s' : Cluster}

@[simp] theorem put_nodes (s : Cluster) (i : Nat) (nd : RaftNode) (evs : List Event) :
    (s.put i nd evs).nodes = Function.update s.nodes i nd := rfl
@[simp] theorem put_voteCalls (s : Cluster) (i : Nat) (nd : RaftNode) (evs : List Event) :
    (s.put i nd evs).voteCalls = s.voteCalls := rfl
@[simp] theorem put_appendCalls (s : Cluster) (i : Nat) (nd : RaftNode) (evs : List Event) :
    (s.put i nd evs).appendCalls = s.appendCalls := rfl
@[simp] theorem put_history (s : Cluster) (i : Nat) (nd : RaftNode) (evs : List Event) :
    (s.put i nd evs).history = evs ++ s.history := rfl
@[simp] theorem setVoteCall_nodes (s : Cluster) (k : Nat) (call : VoteCall) :
    (s.setVoteCall k call).nodes = s.nodes := rfl
@[simp] theorem setVoteCall_voteCalls (s : Cluster) (k : Nat) (call : VoteCall) :
    (s.setVoteCall k call).voteCalls = s.voteCalls.set k call := rfl
@[simp] theorem setVoteCall_appendCalls (s : Cluster) (k : Nat) (call : VoteCall) :
    (s.setVoteCall k call).appendCalls = s.appendCalls := rfl
@[simp] theorem setVoteCall_history (s : Cluster) (k : Nat) (call : VoteCall) :
    (s.setVoteCall k call).history = s.history := rfl
@[simp] theorem setAppendCall_nodes (s : Cluster) (k : Nat) (call : AppendCall) :
    (s.setAppendCall k call).nodes = s.nodes := rfl
@[simp] theorem setAppendCall_voteCalls (s : Cluster) (k : Nat) (call : AppendCall) :
    (s.setAppendCall k call).voteCalls = s.voteCalls := rfl
@[simp] theorem setAppendCall_appendCalls (s : Cluster) (k : Nat) (call : AppendCall) :
    (s.setAppendCall k call).appendCalls = s.appendCalls.set k call := rfl
@[simp] theorem setAppendCall_history (s : Cluster) (k : Nat) (call : AppendCall) :
    (s.setAppendCall k call).history = s.history := rfl

@[simp] theorem addVoteCalls_nodes (s : Cluster) (calls : List VoteCall) :
    (s.addVoteCalls calls).nodes = s.nodes := rfl
@[simp] theorem addVoteCalls_voteCalls (s : Cluster) (calls : List VoteCall) :
    (s.addVoteCalls calls).voteCalls = s.voteCalls ++ calls := rfl
@[simp] theorem addVoteCalls_appendCalls (s : Cluster) (calls : List VoteCall) :
    (s.addVoteCalls calls).appendCalls = s.appendCalls := rfl
@[simp] theorem addVoteCalls_history (s : Cluster) (calls : List VoteCall) :
    (s.addVoteCalls calls).history = s.history := rfl
@[simp] theorem addAppendCall_nodes (s : Cluster) (call : AppendCall) :
    (s.addAppendCall call).nodes = s.nodes := rfl
@[simp] theorem addAppendCall_voteCalls (s : Cluster) (call : AppendCall) :
    (s.addAppendCall call).voteCalls = s.voteCalls := rfl
@[simp] theorem addAppendCall_appendCalls (s : Cluster) (call : AppendCall) :
    (s.addAppendCall call).appendCalls = s.appendCalls ++ [call] := rfl
@[simp] theorem addAppendCall_history (s : Cluster) (call : AppendCall) :
    (s.addAppendCall call).history = s.history := rfl

/-- A step that keeps a field of node `i` keeps it at every node. -/
theorem field_update {β : Type*} (field : RaftNode → β) {nodes : Nat → RaftNode} {i : Nat}
    {nd : RaftNode} (same : field nd = field (nodes i)) (v : Nat) :
    field (Function.update nodes i nd v) = field (nodes v) := by
  by_cases h : v = i
  · subst h
    rw [Function.update_self, same]
  · rw [Function.update_of_ne h]

/-- What a step to `nd` at node `i` does to a field of all nodes. -/
theorem field_put {β : Type*} (field : RaftNode → β) {s s' : Cluster} {i : Nat} {nd : RaftNode}
    (nodes : s'.nodes = Function.update s.nodes i nd) : (fun v => field (s'.nodes v)) =
      Function.update (fun v => field (s.nodes v)) i (field nd) := by
  rw [nodes]
  exact Function.comp_update field s.nodes i nd

theorem field_put_same {β : Type*} (field : RaftNode → β) {s s' : Cluster} {i : Nat}
    {nd : RaftNode} (nodes : s'.nodes = Function.update s.nodes i nd)
    (same : field nd = field (s.nodes i)) :
    (fun v => field (s'.nodes v)) = fun v => field (s.nodes v) := by
  rw [field_put field nodes, same]
  exact Function.update_eq_self i fun v => field (s.nodes v)

def Cluster.voteReplyAt (s : Cluster) (k : Nat) : Option (VoteCall × RaftVoteRets) :=
  s.voteCalls[k]?.bind fun call => call.reply.map fun rets => (call, rets)

/-- The reply a waiting `replicateLog` coroutine would handle. -/
def Cluster.appendReplyAt (s : Cluster) (i l : Nat) :
    Option (ReplicateLoop × AppendCall × AppendEntriesRets) :=
  (s.nodes i).loops[l]?.bind fun loop =>
    match loop.pc with
    | .waiting k => s.appendCalls[k]?.bind fun call => call.reply.map fun rets => (loop, call, rets)
    | _ => none

theorem voteReplyAt_eq {k : Nat} {call : VoteCall} {rets : RaftVoteRets}
    (found : s.voteCalls[k]? = some call) (reply : call.reply = some rets) :
    s.voteReplyAt k = some (call, rets) := by
  simp [Cluster.voteReplyAt, found, reply]

theorem appendReplyAt_eq {i l k : Nat} {loop : ReplicateLoop} {call : AppendCall}
    {rets : AppendEntriesRets} (found : (s.nodes i).loops[l]? = some loop)
    (waits : loop.pc = .waiting k) (sent : s.appendCalls[k]? = some call)
    (reply : call.reply = some rets) : s.appendReplyAt i l = some (loop, call, rets) := by
  simp [Cluster.appendReplyAt, found, waits, sent, reply]

theorem of_appendReplyAt {i l : Nat} {r : ReplicateLoop × AppendCall × AppendEntriesRets}
    (mem : r ∈ s.appendReplyAt i l) : ∃ k, (s.nodes i).loops[l]? = some r.1 ∧
      r.1.pc = .waiting k ∧ s.appendCalls[k]? = some r.2.1 ∧ r.2.1.reply = some r.2.2 := by
  obtain ⟨loop, found, rest⟩ := Option.bind_eq_some_iff.mp mem
  cases waits : loop.pc with
  | top | done => simp [waits] at rest
  | waiting k =>
      simp only [waits, Option.bind_eq_some_iff, Option.map_eq_some_iff] at rest
      obtain ⟨call, sent, rets, reply, rfl⟩ := rest
      exact ⟨k, found, waits, sent, reply⟩

theorem step_connect {i j : Nat} : step cfg s (.connect i j) = some s' ↔
    (i < cfg.size ∧ j < cfg.size ∧ j ≠ i ∧ j ∉ (s.nodes i).m_remote_nodes ∧
      (s.nodes i).m_raft_mutex = false) ∧
    s' = s.put i { s.nodes i with m_remote_nodes := (s.nodes i).m_remote_nodes ++ [j] } := by
  simp only [step, Option.ite_none_right_eq_some, Option.some.injEq, eq_comm (a := s')]

theorem step_electionTimer {i : Nat} : step cfg s (.electionTimer i) = some s' ↔
    (i < cfg.size ∧ (s.nodes i).m_raft_mutex = false) ∧
    s' = s.put i ((s.nodes i).electionTimer i) (if (s.nodes i).m_state ≠ .Leader
      then [.candidate i ((s.nodes i).electionTimer i).m_currentTerm] else []) := by
  simp only [step, Option.ite_none_right_eq_some, Option.some.injEq, eq_comm (a := s')]

theorem step_startElection {i : Nat} : step cfg s (.startElection i) = some s' ↔
    (i < cfg.size ∧ 0 < (s.nodes i).pendingElections ∧ (s.nodes i).free) ∧
    s' = (s.put i ((s.nodes i).startElection i).1
      [.solicit i (s.nodes i).m_currentTerm]).addVoteCalls (voteTasks i (s.nodes i)) := by
  simp only [step, Option.ite_none_right_eq_some, Option.some.injEq, eq_comm (a := s')]

theorem step_raftVote {k : Nat} : step cfg s (.raftVote k) = some s' ↔
    ∃ call, s.voteCalls[k]? = some call ∧
      (call.reply = none ∧ (s.nodes call.dst).run = .idle) ∧
      s' = (s.put call.dst ((s.nodes call.dst).raftVote call.request).1
          (voteEvents call.dst call.request ((s.nodes call.dst).raftVote call.request).2)).setVoteCall
        k { call with reply := some ((s.nodes call.dst).raftVote call.request).2 } := by
  simp only [step, Option.bind_eq_some_iff, Option.ite_none_right_eq_some, Option.some.injEq,
    eq_comm (a := s')]

theorem step_voteTimeout {k : Nat} : step cfg s (.voteTimeout k) = some s' ↔
    ∃ call, s.voteCalls[k]? = some call ∧ call.waiting = true ∧
      s' = s.setVoteCall k { call with waiting := false } := by
  simp only [step, Option.bind_eq_some_iff, Option.ite_none_right_eq_some, Option.some.injEq,
    eq_comm (a := s')]

theorem step_voteReply {k : Nat} : step cfg s (.voteReply k) = some s' ↔
    ∃ call, s.voteCalls[k]? = some call ∧ ∃ rets, call.reply = some rets ∧
      (call.waiting = true ∧ (s.nodes call.src).m_raft_mutex = false ∧
        ((s.nodes call.src).wins cfg call.election rets →
          (s.nodes call.src).m_raft_logger.m_mutex = false)) ∧
      ∃ r, (s.nodes call.src).voteReply cfg call.src call.election rets = some r ∧
        s' = (s.put call.src r.1 r.2).setVoteCall k { call with waiting := false } := by
  simp only [step, Option.bind_eq_some_iff, Option.ite_none_right_eq_some, Option.map_eq_some_iff,
    eq_comm (a := s')]

theorem step_heartbeat {i j : Nat} : step cfg s (.heartbeat i j) = some s' ↔
    (i < cfg.size ∧ j ∈ (s.nodes i).m_remote_nodes ∧ (s.nodes i).m_state = .Leader ∧
      (s.nodes i).free) ∧
    s' = s.addAppendCall
      { src := i, dst := j, request := (s.nodes i).appendRequest i j { op := .heartbeat }
        sent := (s.nodes i).m_raft_logger.m_entries } := by
  simp only [step, Option.ite_none_right_eq_some, Option.some.injEq, eq_comm (a := s')]

/-- The entry a `replicateLog` round would send. -/
def RaftNode.sendEntry (nd : RaftNode) (nodeId : Nat) : Entry :=
  nd.m_raft_logger.getEntry (nd.m_nextIndexs nodeId)

theorem step_replicateSend {i l : Nat} : step cfg s (.replicateSend i l) = some s' ↔
    ∃ loop, (s.nodes i).loops[l]? = some loop ∧
      (loop.pc = .top ∧ (s.nodes i).m_raft_mutex = false ∧
        ((s.nodes i).m_state = .Leader → (s.nodes i).m_raft_logger.m_mutex = false)) ∧
      (((s.nodes i).m_state ≠ .Leader ∧ s' = s.setLoop i l { loop with pc := .done }) ∨
       ((s.nodes i).m_state = .Leader ∧ ((s.nodes i).sendEntry loop.nodeId).op = .null ∧ s' = s) ∨
       ((s.nodes i).m_state = .Leader ∧ ((s.nodes i).sendEntry loop.nodeId).op ≠ .null ∧
        loop.nodeId ∈ (s.nodes i).m_remote_nodes ∧
        s' = (s.setLoop i l { loop with pc := .waiting s.appendCalls.length }).addAppendCall
          { src := i, dst := loop.nodeId
            request := (s.nodes i).appendRequest i loop.nodeId ((s.nodes i).sendEntry loop.nodeId)
            sent := (s.nodes i).m_raft_logger.m_entries })) := by
  simp only [step, Option.bind_eq_some_iff, Option.ite_none_right_eq_some, RaftNode.sendEntry]
  refine exists_congr fun loop => and_congr_right fun _ => and_congr_right fun _ => ?_
  split_ifs with h1 h2 h3 <;> simp_all [eq_comm (a := s')]

theorem step_replicateTimeout {i l : Nat} : step cfg s (.replicateTimeout i l) = some s' ↔
    ∃ loop k, (s.nodes i).loops[l]? = some loop ∧ loop.pc = .waiting k ∧
      s' = s.setLoop i l { loop with pc := .top } := by
  simp only [step, Option.bind_eq_some_iff]
  constructor
  · rintro ⟨loop, found, h⟩
    cases pc : loop.pc <;> simp only [pc, Option.some.injEq, reduceCtorEq] at h
    exact ⟨loop, _, found, pc, h.symm⟩
  · rintro ⟨loop, k, found, pc, rfl⟩
    exact ⟨loop, found, by simp only [pc]⟩

theorem step_replicateReply {i l : Nat} : step cfg s (.replicateReply i l) = some s' ↔
    ∃ loop k call rets, (s.nodes i).loops[l]? = some loop ∧ loop.pc = .waiting k ∧
      s.appendCalls[k]? = some call ∧ call.reply = some rets ∧
      ((s.nodes i).m_raft_mutex = false ∧
        ((s.nodes i).commits cfg i loop.nodeId rets → (s.nodes i).m_raft_logger.m_mutex = false)) ∧
      s' = s.put i { ((s.nodes i).replicateReply cfg i loop.nodeId rets).1 with
          loops := (s.nodes i).loops.set l
            { loop with pc := ((s.nodes i).replicateReply cfg i loop.nodeId rets).2.1 } }
        ((s.nodes i).replicateReply cfg i loop.nodeId rets).2.2 := by
  simp only [step, Option.bind_eq_some_iff]
  constructor
  · rintro ⟨loop, found, h⟩
    cases pc : loop.pc <;>
      simp only [pc, Option.bind_eq_some_iff, Option.ite_none_right_eq_some, Option.some.injEq,
        reduceCtorEq] at h
    obtain ⟨call, hcall, rets, hrets, free, rfl⟩ := h
    exact ⟨loop, _, call, rets, found, pc, hcall, hrets, free, rfl⟩
  · rintro ⟨loop, k, call, rets, found, pc, hcall, hrets, free, rfl⟩
    refine ⟨loop, found, ?_⟩
    simp only [pc, Option.bind_eq_some_iff, Option.ite_none_right_eq_some, Option.some.injEq]
    exact ⟨call, hcall, rets, hrets, free, rfl⟩

theorem step_appendEntries {k : Nat} : step cfg s (.appendEntries k) = some s' ↔
    ∃ call, s.appendCalls[k]? = some call ∧
      (call.reply = none ∧ (s.nodes call.dst).run = .idle) ∧
      ((∃ rets, ((s.nodes call.dst).appendEntries call.request).2 = some rets ∧
        s' = (s.put call.dst ((s.nodes call.dst).appendEntries call.request).1).setAppendCall k
          { call with reply := some rets }) ∨
       (((s.nodes call.dst).appendEntries call.request).2 = none ∧
        s' = s.put call.dst { ((s.nodes call.dst).appendEntries call.request).1 with
          run := .appendEntries k call.request })) := by
  simp only [step, Option.bind_eq_some_iff, Option.ite_none_right_eq_some]
  refine exists_congr fun call => and_congr_right fun _ => and_congr_right fun _ => ?_
  cases rets : ((s.nodes call.dst).appendEntries call.request).2 <;>
    simp [eq_comm (a := s')]

theorem step_appendEntriesEnd {i : Nat} : step cfg s (.appendEntriesEnd i) = some s' ↔
    ∃ k params call r, (s.nodes i).run = .appendEntries k params ∧
      s.appendCalls[k]? = some call ∧ (s.nodes i).appendEntriesEnd params = some r ∧
      s' = (s.put i r.1).setAppendCall k { call with reply := some r.2 } := by
  simp only [step]
  cases run : (s.nodes i).run <;>
    simp [Option.bind_eq_some_iff, Option.map_eq_some_iff, eq_comm (a := s')]

theorem step_applyRound {i : Nat} : step cfg s (.applyRound i) = some s' ↔
    (i < cfg.size ∧ (s.nodes i).m_raft_logger.m_mutex = false) ∧
    ∃ logger, (s.nodes i).m_raft_logger.applyRound = some logger ∧
      s' = s.put i { s.nodes i with m_raft_logger := logger } := by
  simp only [step, Option.ite_none_right_eq_some, Option.map_eq_some_iff, eq_comm (a := s')]

theorem step_clientMsg {i : Nat} {type : MessageType} {triples : List Triple} :
    step cfg s (.clientMsg i type triples) = some s' ↔
    (i < cfg.size ∧ (s.nodes i).run = .idle) ∧
    s' = s.put i ((s.nodes i).handleMsg i type triples).1
      ((s.nodes i).handleMsg i type triples).2 := by
  simp only [step, Option.ite_none_right_eq_some, Option.some.injEq, eq_comm (a := s')]

theorem step_testNoOp {i : Nat} : step cfg s (.testNoOp i) = some s' ↔
    ∃ triples, (s.nodes i).run = .waitNoOp triples ∧
      s' = s.put i ((s.nodes i).testNoOp triples) := by
  simp only [step]
  cases run : (s.nodes i).run <;> simp [eq_comm (a := s')]

theorem step_lockLog {i garbage : Nat} : step cfg s (.lockLog i garbage) = some s' ↔
    ∃ triples, (s.nodes i).run = .unlocked triples ∧
      s' = s.put i { s.nodes i with
        m_raft_mutex := true, run := .decoding triples garbage [] } := by
  simp only [step]
  cases run : (s.nodes i).run <;> simp [eq_comm (a := s')]

theorem step_decodeTriple {i : Nat} : step cfg s (.decodeTriple i) = some s' ↔
    ∃ triples index assigned nd, (s.nodes i).run = .decoding triples index assigned ∧
      (s.nodes i).decodeTriple index assigned triples = some nd ∧ s' = s.put i nd := by
  simp only [step]
  cases run : (s.nodes i).run <;> simp [Option.map_eq_some_iff, eq_comm (a := s')]

theorem step_testApplied {i : Nat} : step cfg s (.testApplied i) = some s' ↔
    ∃ index assigned, (s.nodes i).run = .waitApplied index assigned ∧
      s' = s.put i ((s.nodes i).testApplied index assigned) := by
  simp only [step]
  cases run : (s.nodes i).run <;> simp [eq_comm (a := s')]

theorem step_respond {i : Nat} : step cfg s (.respond i) = some s' ↔
    ∃ assigned, (s.nodes i).run = .replying assigned ∧
      s' = s.put i { s.nodes i with run := .idle }
        [.respond i assigned (s.nodes i).m_raft_logger.m_lastApplied] := by
  simp only [step]
  cases run : (s.nodes i).run <;> simp [eq_comm (a := s')]

end CRpc.Raft
