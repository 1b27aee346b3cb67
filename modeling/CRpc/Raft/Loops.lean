import CRpc.Raft.Tally

/-! The `replicateLog` coroutines of a node: what a step can do to them, and when a
leader has one for each other node. -/
namespace CRpc.Raft

open Cluster Transition

namespace RaftNode

/-- The coroutines `replicateLog(j)` that have not returned. -/
def liveLoops (nd : RaftNode) (j : Nat) : Nat :=
  nd.loops.countP fun loop => loop.nodeId = j ∧ loop.pc ≠ .done

variable {cfg : Config} {nd nd' : RaftNode} {i : Nat}

@[simp] theorem electionTimer_loops : (nd.electionTimer i).loops = nd.loops := by
  unfold electionTimer
  split <;> rfl

theorem electionTimer_leads (leads : (nd.electionTimer i).m_state = .Leader) :
    nd.m_state = .Leader := by
  by_contra h
  simp [electionTimer, h] at leads

@[simp] theorem raftVote_loops (params : RaftVoteParams) :
    (nd.raftVote params).1.loops = nd.loops := by
  unfold raftVote
  dsimp only
  split_ifs <;> rfl

theorem raftVote_leads (params : RaftVoteParams)
    (leads : (nd.raftVote params).1.m_state = .Leader) : nd.m_state = .Leader := by
  rcases raftVote_cases nd params with ⟨core, -⟩ | ⟨-, core, -⟩ | ⟨-, -, core, -⟩
  · rwa [← core_state, core] at leads
  · rw [← core_state, core] at leads
    cases leads
  · rw [← core_state, core] at leads
    dsimp only at leads
    split_ifs at leads
    exact leads

theorem becomeLeader_loops (h : becomeLeader cfg i nd = some nd') :
    nd'.loops = nd.loops ++ ((List.range cfg.size).filter (· ≠ i)).map fun j => ⟨j, .top⟩ := by
  unfold becomeLeader at h
  split at h
  · cases h
  · cases h
    rfl

@[simp] theorem appendEntries_loops (params : AppendEntriesParams) :
    (nd.appendEntries params).1.loops = nd.loops := by
  unfold appendEntries
  dsimp only
  split_ifs <;> rfl

theorem appendEntries_leads (params : AppendEntriesParams)
    (leads : (nd.appendEntries params).1.m_state = .Leader) : nd.m_state = .Leader := by
  rcases appendEntries_core nd params with core | ⟨-, core⟩
  · rwa [← core_state, core] at leads
  · rw [← core_state, core] at leads
    cases leads

theorem appendEntriesEnd_loops {params : AppendEntriesParams} {r : RaftNode × AppendEntriesRets}
    (h : nd.appendEntriesEnd params = some r) : r.1.loops = nd.loops := by
  obtain ⟨_, _, rfl⟩ := Option.map_eq_some_iff.mp h
  rfl

@[simp] theorem handleMsg_loops (type : MessageType) (triples : List Triple) :
    (nd.handleMsg i type triples).1.loops = nd.loops := by
  unfold handleMsg
  split_ifs
  · rfl
  · cases type <;> rfl

theorem decodeTriple_loops {index : Nat} {assigned : List Nat} {triples : List Triple}
    (h : nd.decodeTriple index assigned triples = some nd') : nd'.loops = nd.loops := by
  cases triples with
  | nil =>
      cases h
      rfl
  | cons t triples =>
      obtain ⟨_, _, rfl⟩ := Option.map_eq_some_iff.mp h
      rfl

end RaftNode

namespace Cluster

def loops (s : Cluster) (i : Nat) : List ReplicateLoop := (s.nodes i).loops
def leads (s : Cluster) (i : Nat) : Prop := (s.nodes i).m_state = .Leader

end Cluster

/-- The reply at hand makes loop `l` of a leader return although it still leads. -/
def rejected (s : Cluster) (i l : Nat) : Prop :=
  ∃ r ∈ s.appendReplyAt i l, (s.nodes i).m_state = .Leader ∧
    r.2.2.term = (s.nodes i).m_currentTerm ∧ r.2.2.success = false

instance (s : Cluster) (i l : Nat) : Decidable (rejected s i l) := by
  unfold rejected
  infer_instance

inductive LoopStep (cfg : Config) (s : Cluster) (a : Action) (s' : Cluster) : Prop
  | quiet : s'.loops = s.loops → (∀ v, s'.leads v → s.leads v) → LoopStep cfg s a s'
  | move (i l : Nat) (loop : ReplicateLoop) (pc : LoopPc) : (s.loops i)[l]? = some loop →
      loop.pc ≠ .done →
      s'.loops = Function.update s.loops i ((s.loops i).set l { loop with pc }) →
      (∀ v, s'.leads v → s.leads v) →
      (s'.leads i → pc = .done → a = .replicateReply i l ∧ rejected s i l) →
      (∀ k, pc = .waiting k → a = .replicateSend i l) → LoopStep cfg s a s'
  | start (k : Nat) (call : VoteCall) (rets : RaftVoteRets) : a = .voteReply k →
      s.voteCalls[k]? = some call → call.reply = some rets →
      (s.nodes call.src).wins cfg call.election rets →
      s'.loops = Function.update s.loops call.src (s.loops call.src ++
        ((List.range cfg.size).filter (· ≠ call.src)).map fun j => ⟨j, .top⟩) →
      (∀ v, v ≠ call.src → s'.leads v → s.leads v) → LoopStep cfg s a s'

theorem leads_put {s s' : Cluster} {i : Nat} {nd : RaftNode}
    (nodes : s'.nodes = Function.update s.nodes i nd)
    (leads : nd.m_state = .Leader → (s.nodes i).m_state = .Leader) (v : Nat) (hv : s'.leads v) :
    s.leads v := by
  rw [Cluster.leads, nodes] at hv
  by_cases at_ : v = i
  · subst at_
    rw [Function.update_self] at hv
    exact leads hv
  · rwa [Function.update_of_ne at_] at hv

/-- A step that leaves the loops of its node alone and makes it no leader. -/
theorem LoopStep.of_put {cfg : Config} {s s' : Cluster} {a : Action} {i : Nat} {nd : RaftNode}
    (nodes : s'.nodes = Function.update s.nodes i nd) (same : nd.loops = (s.nodes i).loops)
    (leads : nd.m_state = .Leader → (s.nodes i).m_state = .Leader) : LoopStep cfg s a s' := by
  exact .quiet (field_put_same RaftNode.loops nodes same) (leads_put nodes leads)

theorem LoopStep.of_move {cfg : Config} {s s' : Cluster} {a : Action} {i l : Nat} {nd : RaftNode}
    {loop : ReplicateLoop} {pc : LoopPc} (found : (s.nodes i).loops[l]? = some loop)
    (live : loop.pc ≠ .done) (nodes : s'.nodes = Function.update s.nodes i nd)
    (moved : nd.loops = (s.nodes i).loops.set l { loop with pc })
    (leads : nd.m_state = .Leader → (s.nodes i).m_state = .Leader)
    (ends : nd.m_state = .Leader → pc = .done → a = .replicateReply i l ∧ rejected s i l)
    (waits : ∀ k, pc = .waiting k → a = .replicateSend i l) : LoopStep cfg s a s' := by
  refine .move i l loop pc found live ?_ (leads_put nodes leads) (fun hv => ?_) waits
  · rw [← show nd.loops = (s.loops i).set l { loop with pc } from moved]
    exact field_put RaftNode.loops nodes
  · rw [Cluster.leads, nodes, Function.update_self] at hv
    exact ends hv

theorem step_loopStep {cfg : Config} {s s' : Cluster} {a : Action}
    (h : step cfg s a = some s') : LoopStep cfg s a s' := by
  cases a with
  | connect i j =>
      obtain ⟨-, rfl⟩ := step_connect.mp h
      exact .of_put rfl rfl id
  | electionTimer i =>
      obtain ⟨-, rfl⟩ := step_electionTimer.mp h
      exact .of_put rfl RaftNode.electionTimer_loops RaftNode.electionTimer_leads
  | startElection i =>
      obtain ⟨-, rfl⟩ := step_startElection.mp h
      exact .of_put rfl rfl id
  | raftVote k =>
      obtain ⟨call, -, -, rfl⟩ := step_raftVote.mp h
      exact .of_put rfl (RaftNode.raftVote_loops call.request)
        (RaftNode.raftVote_leads call.request)
  | voteTimeout k =>
      obtain ⟨call, -, -, rfl⟩ := step_voteTimeout.mp h
      exact .quiet rfl fun _ => id
  | voteReply k =>
      obtain ⟨call, found, rets, reply, -, r, did, rfl⟩ := step_voteReply.mp h
      rcases RaftNode.voteReply_cases did with
        ⟨won, leads, -⟩ | ⟨-, -, rfl⟩ | ⟨-, rfl⟩ | rfl
      · refine .start k call rets rfl found reply won (funext fun v => ?_) fun v ne hv => ?_
        · by_cases at_ : v = call.src
          · subst at_
            simp only [put_nodes, setVoteCall_nodes, Cluster.loops, Function.update_self]
            have started := RaftNode.becomeLeader_loops leads
            exact started
          · simp [Cluster.loops, Function.update_of_ne at_]
        · simpa [Cluster.leads, Function.update_of_ne ne] using hv
      · exact .of_put rfl rfl id
      · exact .of_put rfl rfl fun leads => by cases leads
      · exact .of_put rfl rfl id
  | heartbeat i j =>
      obtain ⟨-, rfl⟩ := step_heartbeat.mp h
      exact .quiet rfl fun _ => id
  | replicateSend i l =>
      obtain ⟨loop, found, ⟨top, -⟩, ⟨notLeader, rfl⟩ | ⟨-, -, rfl⟩ | ⟨-, -, -, rfl⟩⟩ :=
        step_replicateSend.mp h
      · exact .of_move found (by simp [top]) rfl rfl id (fun leads => absurd leads notLeader)
          fun _ waits => by cases waits
      · exact .quiet rfl fun _ => id
      · exact .of_move found (by simp [top]) rfl rfl id (fun _ done => by cases done) fun _ _ => rfl
  | replicateTimeout i l =>
      obtain ⟨loop, k, found, waits, rfl⟩ := step_replicateTimeout.mp h
      exact .of_move found (by simp [waits]) rfl rfl id (fun _ done => by cases done)
        fun _ waits => by cases waits
  | replicateReply i l =>
      obtain ⟨loop, k, call, rets, found, waits, hcall, reply, -, rfl⟩ :=
        step_replicateReply.mp h
      refine .of_move found (by simp [waits]) rfl rfl ?_ ?_ ?_
      all_goals
        rcases RaftNode.replicateReply_cases cfg i (s.nodes i) loop.nodeId rets with
          ⟨notLeader, did⟩ | ⟨leads, -, did⟩ | ⟨leads, -, did⟩ | ⟨leads, term, failed, did⟩ |
          ⟨leads, -, -, did⟩
      · exact fun leads => absurd (by simpa [did] using leads) notLeader
      · exact fun _ => leads
      · exact fun _ => leads
      · exact fun _ => leads
      · exact fun _ => leads
      · exact fun leads => absurd (by simpa [did] using leads) notLeader
      · rw [did]
        exact fun deposed => by cases deposed
      · rw [did]
        exact fun _ done => by cases done
      · exact fun _ _ => ⟨rfl, _, appendReplyAt_eq found waits hcall reply, leads, term, failed⟩
      · rw [did]
        exact fun _ done => by cases done
      all_goals
        rw [did]
        exact fun _ waits => by cases waits
  | appendEntries k =>
      obtain ⟨call, -, -, ⟨rets, -, rfl⟩ | ⟨-, rfl⟩⟩ := step_appendEntries.mp h
      · exact .of_put rfl (RaftNode.appendEntries_loops call.request)
          (RaftNode.appendEntries_leads call.request)
      · exact .of_put rfl (RaftNode.appendEntries_loops call.request)
          (RaftNode.appendEntries_leads call.request)
  | appendEntriesEnd i =>
      obtain ⟨k, params, call, r, -, -, did, rfl⟩ := step_appendEntriesEnd.mp h
      refine .of_put rfl (RaftNode.appendEntriesEnd_loops did) fun leads => ?_
      rwa [← RaftNode.core_state, RaftNode.appendEntriesEnd_core did] at leads
  | applyRound i =>
      obtain ⟨-, logger, -, rfl⟩ := step_applyRound.mp h
      exact .of_put rfl rfl id
  | clientMsg i type triples =>
      obtain ⟨-, rfl⟩ := step_clientMsg.mp h
      refine .of_put rfl (RaftNode.handleMsg_loops type triples) fun leads => ?_
      rwa [← RaftNode.core_state, (RaftNode.handleMsg_core i (s.nodes i) type triples).1] at leads
  | testNoOp i =>
      obtain ⟨triples, -, rfl⟩ := step_testNoOp.mp h
      exact .of_put rfl rfl id
  | lockLog i garbage =>
      obtain ⟨triples, -, rfl⟩ := step_lockLog.mp h
      exact .of_put rfl rfl id
  | decodeTriple i =>
      obtain ⟨triples, index, assigned, nd, -, did, rfl⟩ := step_decodeTriple.mp h
      refine .of_put rfl (RaftNode.decodeTriple_loops did) fun leads => ?_
      rwa [← RaftNode.core_state, RaftNode.decodeTriple_core did] at leads
  | testApplied i =>
      obtain ⟨index, assigned, -, rfl⟩ := step_testApplied.mp h
      exact .of_put rfl rfl id
  | respond i =>
      obtain ⟨assigned, -, rfl⟩ := step_respond.mp h
      exact .of_put rfl rfl id

/-- What keeps the loops of a leader in order: it takes office when its earlier loops
have returned, and no rejection of its own term reaches it. -/
def LoopsOrderly (cfg : Config) (s : Cluster) : Action → Prop
  | .voteReply k => ∀ r ∈ s.voteReplyAt k, (s.nodes r.1.src).wins cfg r.1.election r.2 →
      ∀ loop ∈ (s.nodes r.1.src).loops, loop.pc = .done
  | .replicateReply i l => ¬ rejected s i l
  | _ => True

instance (cfg : Config) (s : Cluster) : DecidablePred (LoopsOrderly cfg s) := by
  rintro ⟨⟩ <;> dsimp only [LoopsOrderly] <;> infer_instance

/-- A leader runs one `replicateLog` for each other node. -/
def OneLoopEach (cfg : Config) (s : Cluster) : Prop :=
  ∀ i, (s.nodes i).m_state = .Leader → ∀ j < cfg.size, j ≠ i → (s.nodes i).liveLoops j = 1

theorem liveLoops_set {nd nd' : RaftNode} {l : Nat} {loop : ReplicateLoop} {pc : LoopPc}
    (found : nd.loops[l]? = some loop) (live : loop.pc ≠ .done) (lives : pc ≠ .done)
    (moved : nd'.loops = nd.loops.set l { loop with pc }) (j : Nat) :
    nd'.liveLoops j = nd.liveLoops j := by
  obtain ⟨bound, rfl⟩ := List.getElem?_eq_some_iff.mp found
  have kept := List.boole_getElem_le_countP
    (p := fun loop : ReplicateLoop => decide (loop.nodeId = j ∧ loop.pc ≠ .done)) bound
  have weigh : decide (nd.loops[l].nodeId = j ∧ pc ≠ .done) =
      decide (nd.loops[l].nodeId = j ∧ nd.loops[l].pc ≠ .done) := by simp [live, lives]
  simp only [RaftNode.liveLoops, moved, List.countP_set bound, weigh]
  exact Nat.sub_add_cancel kept

theorem liveLoops_start {cfg : Config} {nd nd' : RaftNode} {i j : Nat} (bound : j < cfg.size)
    (ne : j ≠ i) (ended : ∀ loop ∈ nd.loops, loop.pc = .done)
    (started : nd'.loops = nd.loops ++
      ((List.range cfg.size).filter (· ≠ i)).map fun j => ⟨j, .top⟩) : nd'.liveLoops j = 1 := by
  have old : nd.loops.countP (fun loop => loop.nodeId = j ∧ loop.pc ≠ .done) = 0 :=
    List.countP_eq_zero.mpr fun loop mem => by simp [ended loop mem]
  have new : ((List.range cfg.size).filter (· ≠ i)).count j = 1 :=
    List.count_eq_one_of_mem (List.nodup_range.filter _) (by simp [bound, ne])
  rw [RaftNode.liveLoops, started, List.countP_append, old, List.countP_map]
  simpa [List.count, Function.comp_def, beq_eq_decide] using new

theorem oneLoopEach_step {cfg : Config} {s s' : Cluster} {a : Action} (one : OneLoopEach cfg s)
    (orderly : LoopsOrderly cfg s a) (h : step cfg s a = some s') : OneLoopEach cfg s' := by
  intro i leads j bound ne
  cases step_loopStep h with
  | quiet loops kept =>
      have same : (s'.nodes i).loops = (s.nodes i).loops := congrFun loops i
      rw [RaftNode.liveLoops, same]
      exact one i (kept i leads) j bound ne
  | move v l loop pc found live loops kept ends _ =>
      have moved := congrFun loops i
      by_cases at_ : i = v
      · subst at_
        rw [Function.update_self] at moved
        have lives : pc ≠ .done := fun done => by
          obtain ⟨rfl, bad⟩ := ends leads done
          exact orderly bad
        rw [liveLoops_set found live lives moved]
        exact one i (kept i leads) j bound ne
      · rw [Function.update_of_ne at_] at moved
        rw [RaftNode.liveLoops, show (s'.nodes i).loops = (s.nodes i).loops from moved]
        exact one i (kept i leads) j bound ne
  | start k call rets act found reply won loops kept =>
      subst act
      have moved := congrFun loops i
      by_cases at_ : i = call.src
      · subst at_
        rw [Function.update_self] at moved
        exact liveLoops_start bound ne (orderly _ (voteReplyAt_eq found reply) won) moved
      · rw [Function.update_of_ne at_] at moved
        rw [RaftNode.liveLoops, show (s'.nodes i).loops = (s.nodes i).loops from moved]
        exact one i (kept i at_ leads) j bound ne

/-- In a run that keeps its loops in order, every leader runs one for each other node. -/
theorem leader_runs_one_loop_each {cfg : Config} {as : List Action} {s : Cluster}
    (orderly : Run (step cfg) (LoopsOrderly cfg) {} as s) : OneLoopEach cfg s :=
  orderly.invariant (by simp [OneLoopEach]) fun _ _ _ one allowed next =>
    oneLoopEach_step one allowed next

theorem elected_leader_runs_one_loop_each :
    ∃ s, (s.nodes 0).m_state = .Leader ∧ (s.nodes 0).liveLoops 1 = 1 ∧ OneLoopEach threeNodes s := by
  have done : (exec (guarded (step threeNodes) (LoopsOrderly threeNodes)) {}
      (zeroElected ++ roundToOne 0 0)).map (fun s => ((s.nodes 0).m_state,
        (s.nodes 0).liveLoops 1)) = some (.Leader, 1) := by decide +kernel
  obtain ⟨s, run, seen⟩ := Option.map_eq_some_iff.mp done
  obtain ⟨leads, loops⟩ := Prod.mk.injEq .. ▸ seen
  exact ⟨s, leads, loops, leader_runs_one_loop_each (.of_guarded run)⟩

/-- Node 0 loses its office to a higher term and wins it back before its loops run. -/
def zeroReelected : List Action :=
  zeroElected ++ roundToOne 0 0 ++ [.electionTimer 1, .startElection 1, .raftVote 2,
    .electionTimer 0, .startElection 0, .raftVote 4, .voteReply 4]

/-- Node 0 is elected again after its loops returned, and node 1, leader in between,
rejects its entry for the term of the one before. -/
def zeroRejected : List Action :=
  zeroElected ++ [.electionTimer 1, .startElection 1, .raftVote 3, .voteReply 3, .raftVote 2,
    .replicateSend 0 0, .replicateSend 0 1, .electionTimer 0, .startElection 0, .raftVote 5,
    .voteReply 5, .replicateSend 0 2, .appendEntries 0, .appendEntriesEnd 1, .replicateReply 0 2]

/-- A leader can run two loops for a node, and none. -/
theorem loops_survive_and_are_lost :
    (∃ s, Run (step threeNodes) Always {} zeroReelected s ∧ (s.nodes 0).m_state = .Leader ∧
      (s.nodes 0).m_raft_mutex = false ∧ (s.nodes 0).liveLoops 1 = 2) ∧
    ∃ s, Run (step threeNodes) Always {} zeroRejected s ∧ (s.nodes 0).m_state = .Leader ∧
      (s.nodes 0).m_raft_mutex = false ∧ (s.nodes 0).liveLoops 1 = 0 := by
  have runs : ∀ r ∈ [(zeroReelected, 2), (zeroRejected, 0)],
      (exec (step threeNodes) {} r.1).map (fun s => ((s.nodes 0).m_state,
        (s.nodes 0).m_raft_mutex, (s.nodes 0).liveLoops 1)) = some (.Leader, false, r.2) := by
    decide +kernel
  have reached : ∀ r ∈ [(zeroReelected, 2), (zeroRejected, 0)],
      ∃ s, Run (step threeNodes) Always {} r.1 s ∧ (s.nodes 0).m_state = .Leader ∧
        (s.nodes 0).m_raft_mutex = false ∧ (s.nodes 0).liveLoops 1 = r.2 := by
    intro r mem
    obtain ⟨s, run, seen⟩ := Option.map_eq_some_iff.mp (runs r mem)
    simp only [Prod.mk.injEq] at seen
    exact ⟨s, .of_exec run, seen⟩
  exact ⟨reached (zeroReelected, 2) (by simp), reached (zeroRejected, 0) (by simp)⟩

end CRpc.Raft
