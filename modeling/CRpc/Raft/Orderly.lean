import CRpc.Raft.Counting
import CRpc.Raft.Readiness
import CRpc.Raft.Rounds

/-! Leaders that take office when their earlier loops have returned. Their loops start at
their own no-op, so what such a leader sends and counts is of its own term. -/
namespace CRpc.Raft

open Cluster Transition

/-- A vote reply makes its node leader once all its loops have returned and it has a session
with every other node. -/
def TakesOver (cfg : Config) (s : Cluster) : Action → Prop
  | .voteReply k => ∀ r ∈ s.voteReplyAt k, (s.nodes r.1.src).wins cfg r.1.election r.2 →
      (∀ loop ∈ (s.nodes r.1.src).loops, loop.pc = .done) ∧
      ∀ j < cfg.size, j ≠ r.1.src → j ∈ (s.nodes r.1.src).m_remote_nodes
  | _ => True

instance (cfg : Config) (s : Cluster) : DecidablePred (TakesOver cfg s) := by
  rintro ⟨⟩ <;> dsimp only [TakesOver] <;> infer_instance

def Orderly (cfg : Config) (s : Cluster) (a : Action) : Prop := NoWrap s a ∧ TakesOver cfg s a

instance (cfg : Config) (s : Cluster) : DecidablePred (Orderly cfg s) := fun _ =>
  inferInstanceAs (Decidable (_ ∧ _))

/-- What leader `i` has from position `n` on is of its term, and something is before it. -/
structure Owns (s : Cluster) (i n : Nat) : Prop where
  pos : 0 < n
  inside : n ≤ (s.entries i).length
  own : ∀ (p : Nat) (e : Entry), n ≤ p → (s.entries i)[p]? = some e → e.term = (s.core i).term

/-- A live loop of a leader: what is left to serve is of the leader's term, and the call it
waits for is the one for the next entry. -/
structure Serves (s : Cluster) (i : Nat) (loop : ReplicateLoop) : Prop where
  owns : Owns s i ((s.nodes i).m_nextIndexs loop.nodeId)
  sent : ∀ k, loop.pc = .waiting k →
    (s.nodes i).m_nextIndexs loop.nodeId < (s.entries i).length ∧
    ∃ call, s.appendCalls[k]? = some call ∧
      call.request.prevLogIndex + 1 = (s.nodes i).m_nextIndexs loop.nodeId

/-- The loops of leader `i`, one at most for each node. -/
structure InOrder (s : Cluster) (i : Nat) : Prop where
  one : ∀ j, (s.nodes i).liveLoops j ≤ 1
  serves : ∀ loop ∈ s.loops i, loop.pc ≠ .done → Serves s i loop

theorem getElem?_concat_cases {α : Type*} {xs : List α} {x y : α} {m : Nat}
    (found : (xs ++ [x])[m]? = some y) : xs[m]? = some y ∨ m = xs.length ∧ y = x := by
  rcases Nat.lt_or_ge m xs.length with old | new
  · exact .inl ((List.getElem?_append_left old).symm.trans found)
  · rw [List.getElem?_append_right new] at found
    have here := (List.getElem?_eq_some_iff.mp found).1
    rw [List.length_singleton] at here
    exact .inr ⟨by omega, List.mem_singleton.mp (List.mem_of_getElem? found)⟩

theorem mem_set_other {α : Type*} {xs : List α} {l : Nat} {x y : α} (mem : x ∈ xs.set l y) :
    x = y ∨ ∀ z, x ∈ xs.set l z := by
  obtain ⟨m, at_⟩ := List.mem_iff_getElem?.mp mem
  by_cases here : l = m
  · subst here
    rw [List.getElem?_set_self'] at at_
    cases found : xs[l]? with
    | none =>
      rw [found] at at_
      cases at_
    | some _ =>
      rw [found] at at_
      cases at_
      exact .inl rfl
  · rw [List.getElem?_set_ne here] at at_
    exact .inr fun z => List.mem_iff_getElem?.mpr ⟨m, by rw [List.getElem?_set_ne here, at_]⟩

section Loops

variable {nd nd' : RaftNode} {l j : Nat} {loop : ReplicateLoop}

theorem liveLoops_done (found : nd.loops[l]? = some loop) (live : loop.pc ≠ .done)
    (ended : nd'.loops = nd.loops.set l { loop with pc := .done }) :
    nd'.liveLoops loop.nodeId + 1 = nd.liveLoops loop.nodeId := by
  obtain ⟨bound, rfl⟩ := List.getElem?_eq_some_iff.mp found
  have counted := List.boole_getElem_le_countP
    (p := fun other : ReplicateLoop => decide (other.nodeId = nd.loops[l].nodeId ∧
      other.pc ≠ .done)) bound
  simp only [RaftNode.liveLoops, ended, List.countP_set bound]
  simp only [live, ne_eq, not_false_eq_true, and_self, decide_true, if_true] at counted ⊢
  simp only [not_true_eq_false, and_false, decide_false]
  exact Nat.sub_add_cancel counted

theorem liveLoops_le (found : nd.loops[l]? = some loop) (live : loop.pc ≠ .done) {pc : LoopPc}
    (moved : nd'.loops = nd.loops.set l { loop with pc }) (j : Nat) :
    nd'.liveLoops j ≤ nd.liveLoops j := by
  obtain ⟨bound, rfl⟩ := List.getElem?_eq_some_iff.mp found
  have counted := List.boole_getElem_le_countP
    (p := fun other : ReplicateLoop => decide (other.nodeId = j ∧ other.pc ≠ .done)) bound
  simp only [RaftNode.liveLoops, moved, List.countP_set bound]
  by_cases at_ : nd.loops[l].nodeId = j
  · simp only [at_, live, ne_eq, not_false_eq_true, and_self, decide_true, if_true] at counted ⊢
    split_ifs <;> omega
  · simp [at_]

theorem live_unique (one : nd.liveLoops loop.nodeId ≤ 1) (found : nd.loops[l]? = some loop)
    (live : loop.pc ≠ .done) {other : ReplicateLoop}
    (mem : other ∈ nd.loops.set l { loop with pc := .done }) (lives : other.pc ≠ .done) :
    other.nodeId ≠ loop.nodeId := by
  intro same
  let ended : RaftNode := { nd with loops := nd.loops.set l { loop with pc := .done } }
  have less : ended.liveLoops loop.nodeId + 1 = nd.liveLoops loop.nodeId :=
    liveLoops_done found live rfl
  have counted : 0 < ended.liveLoops loop.nodeId :=
    List.countP_pos_iff.mpr ⟨other, mem, by simp [same, lives]⟩
  omega

end Loops

section Steps

variable {cfg : Config} {s s' : Cluster} {a : Action} {i : Nat}

theorem leader_grows (ruled : Ruled cfg s) (h : step cfg s a = some s') (was : s.leads i)
    (is : s'.leads i) : ∃ tail, s'.entries i = s.entries i ++ tail ∧
      ∀ e ∈ tail, e.term = (s.core i).term := by
  have still : s'.entries i = s.entries i → ∃ tail, s'.entries i = s.entries i ++ tail ∧
      ∀ e ∈ tail, e.term = (s.core i).term :=
    fun same => ⟨[], by rw [same, List.append_nil], by simp⟩
  cases step_logStep h with
  | still entries _ _ _ => exact still (congrFun entries i)
  | win k call rets _ _ _ won _ entries _ _ _ _ _ =>
      refine still ?_
      rw [entries, Function.update_of_ne]
      rintro rfl
      have stands := won.1.2
      rw [was] at stands
      cases stands
  | register v t _ _ _ entries _ _ _ =>
      by_cases at_ : i = v
      · subst at_
        exact ⟨_, by rw [entries, Function.update_self], fun e mem =>
          List.mem_singleton.mp mem ▸ rfl⟩
      · exact still (by rw [entries, Function.update_of_ne at_])
  | send _ _ _ entries _ _ _ => exact still (congrFun entries i)
  | answer _ _ _ _ _ _ _ _ _ entries _ _ _ => exact still (congrFun entries i)
  | accept _ _ _ _ _ _ _ _ entries _ _ _ => exact still (congrFun entries i)
  | reject _ _ _ _ _ _ _ _ entries _ _ _ => exact still (congrFun entries i)
  | append v _ _ _ _ _ busy _ _ _ entries _ _ _ =>
      refine still ?_
      rw [entries, Function.update_of_ne]
      rintro rfl
      exact ruled.reigns.apart i (by rw [busy]; simp) was

theorem Owns.kept {n : Nat} (owns : Owns s i n) (ruled : Ruled cfg s)
    (h : step cfg s a = some s') (was : s.leads i) (is : s'.leads i) : Owns s' i n := by
  obtain ⟨pos, inside, own⟩ := owns
  obtain ⟨tail, grown, new⟩ := leader_grows ruled h was is
  refine ⟨pos, inside.trans (by simp [grown]), fun p e behind at_ => ?_⟩
  rw [grown] at at_
  rw [leads_term h was is]
  rcases Nat.lt_or_ge p (s.entries i).length with old | added
  · rw [List.getElem?_append_left old] at at_
    exact own p e behind at_
  · rw [List.getElem?_append_right added] at at_
    exact new e (List.mem_of_getElem? at_)

theorem Owns.next {n : Nat} (owns : Owns s i n) (more : n < (s.entries i).length) :
    Owns s i (n + 1) :=
  ⟨Nat.succ_pos n, more, fun p e behind => owns.own p e (Nat.le_of_succ_le behind)⟩

theorem Serves.kept {loop : ReplicateLoop} (serves : Serves s i loop) (ruled : Ruled cfg s)
    (h : step cfg s a = some s') (was : s.leads i) (is : s'.leads i)
    (next : (s'.nodes i).m_nextIndexs loop.nodeId = (s.nodes i).m_nextIndexs loop.nodeId) :
    Serves s' i loop := by
  refine ⟨next ▸ serves.owns.kept ruled h was is, fun k waits => ?_⟩
  obtain ⟨tail, grown, -⟩ := leader_grows ruled h was is
  obtain ⟨more, call, found, prev⟩ := serves.sent k waits
  obtain ⟨call', found', same⟩ := appendCalls_kept h found
  refine ⟨?_, call', found', by rw [same.request, prev, next]⟩
  rw [next, grown, List.length_append]
  omega

/-- A step that leaves the loops and the indices of a leader alone. -/
theorem InOrder.quiet (order : InOrder s i) (ruled : Ruled cfg s) (h : step cfg s a = some s')
    (was : s.leads i) (is : s'.leads i) (loops : s'.loops i = s.loops i)
    (next : (s'.nodes i).m_nextIndexs = (s.nodes i).m_nextIndexs) : InOrder s' i := by
  refine ⟨fun j => ?_, fun loop mem live => ?_⟩
  · rw [RaftNode.liveLoops, show (s'.nodes i).loops = (s.nodes i).loops from loops]
    exact order.one j
  · exact (order.serves loop (loops ▸ mem) live).kept ruled h was is (by rw [next])

theorem InOrder.move (order : InOrder s i) (ruled : Ruled cfg s) (h : step cfg s a = some s')
    (was : s.leads i) (is : s'.leads i) {l : Nat} {loop : ReplicateLoop} {pc : LoopPc}
    (found : (s.loops i)[l]? = some loop) (live : loop.pc ≠ .done)
    (loops : s'.loops i = (s.loops i).set l { loop with pc })
    (next : (s'.nodes i).m_nextIndexs = (s.nodes i).m_nextIndexs)
    (sent : ∀ k, pc = .waiting k →
      (s'.nodes i).m_nextIndexs loop.nodeId < (s'.entries i).length ∧
      ∃ call, s'.appendCalls[k]? = some call ∧
        call.request.prevLogIndex + 1 = (s'.nodes i).m_nextIndexs loop.nodeId) :
    InOrder s' i := by
  refine ⟨fun j => ?_, fun other mem lives => ?_⟩
  · exact (liveLoops_le found live loops j).trans (order.one j)
  · rw [loops] at mem
    rcases List.mem_or_eq_of_mem_set mem with old | rfl
    · exact (order.serves other old lives).kept ruled h was is (by rw [next])
    · have serves := (order.serves loop (List.mem_of_getElem? found) live).kept ruled h was is
        (by rw [next])
      exact ⟨serves.owns, sent⟩

/-- A vote reply makes its node leader or leaves its loops and indices alone. -/
theorem voteReply_kept {k : Nat} {call : VoteCall} {rets : RaftVoteRets}
    (found : s.voteCalls[k]? = some call) (reply : call.reply = some rets)
    (h : step cfg s (.voteReply k) = some s') (other : call.src = i →
      ¬ (s.nodes call.src).wins cfg call.election rets) :
    s'.loops i = s.loops i ∧ (s'.nodes i).m_nextIndexs = (s.nodes i).m_nextIndexs := by
  obtain ⟨call', found', rets', reply', -, r, did, rfl⟩ := step_voteReply.mp h
  obtain rfl : call = call' := Option.some.inj (found.symm.trans found')
  obtain rfl : rets = rets' := Option.some.inj (reply.symm.trans reply')
  by_cases at_ : i = call.src
  · subst at_
    simp only [Cluster.loops, setVoteCall_nodes, put_nodes, Function.update_self]
    rcases RaftNode.voteReply_cases did with ⟨won, -⟩ | ⟨-, -, rfl⟩ | ⟨-, rfl⟩ | rfl
    · exact absurd won (other rfl)
    · exact ⟨rfl, rfl⟩
    · exact ⟨rfl, rfl⟩
    · exact ⟨rfl, rfl⟩
  · simp only [Cluster.loops, setVoteCall_nodes, put_nodes, Function.update_of_ne at_, and_self]

/-- The reply that wins makes its node leader, and no call is made or answered by it. -/
theorem voteReply_won {k : Nat} {call : VoteCall} {rets : RaftVoteRets}
    (found : s.voteCalls[k]? = some call) (reply : call.reply = some rets)
    (won : (s.nodes call.src).wins cfg call.election rets)
    (h : step cfg s (.voteReply k) = some s') :
    RaftNode.becomeLeader cfg call.src ((s.nodes call.src).countVote call.election) =
        some (s'.nodes call.src) ∧
      s'.appendCalls = s.appendCalls := by
  obtain ⟨call', found', rets', reply', -, r, did, rfl⟩ := step_voteReply.mp h
  obtain rfl : call = call' := Option.some.inj (found.symm.trans found')
  obtain rfl : rets = rets' := Option.some.inj (reply.symm.trans reply')
  have leads := RaftNode.voteReply_wins won did
  rw [setVoteCall_nodes, put_nodes, Function.update_self]
  exact ⟨leads, rfl⟩

/-- A node that takes over has a fresh loop for each other node, ready at its no-op. -/
theorem win_inOrder (positions : Positions s) {k : Nat} {call : VoteCall} {rets : RaftVoteRets}
    (found : s.voteCalls[k]? = some call) (reply : call.reply = some rets)
    (won : (s.nodes call.src).wins cfg call.election rets)
    (ended : ∀ loop ∈ (s.nodes call.src).loops, loop.pc = .done)
    (sessions : ∀ j < cfg.size, j ≠ call.src → j ∈ (s.nodes call.src).m_remote_nodes)
    (h : step cfg s (.voteReply k) = some s') : InOrder s' call.src := by
  obtain ⟨leads, -⟩ := voteReply_won found reply won h
  have loops := RaftNode.becomeLeader_loops leads
  obtain ⟨-, -, log⟩ := RaftNode.becomeLeader_log leads
  have term : (s'.core call.src).term = (s.nodes call.src).m_currentTerm := by
    rw [Cluster.core, RaftNode.becomeLeader_core leads]
    rfl
  change s'.entries call.src = s.entries call.src ++ _ at log
  change s'.loops call.src = s.loops call.src ++ _ at loops
  constructor
  · intro j
    have old : (s.loops call.src).countP (fun loop => loop.nodeId = j ∧ loop.pc ≠ .done) = 0 :=
      List.countP_eq_zero.mpr fun loop mem => by simp [ended loop mem]
    have new : ((List.range cfg.size).filter (· ≠ call.src)).count j ≤ 1 :=
      List.nodup_iff_count_le_one.mp (List.nodup_range.filter _) j
    change (s'.loops call.src).countP _ ≤ 1
    rw [loops, List.countP_append, old, Nat.zero_add, List.countP_map]
    simpa [List.count, Function.comp_def, beq_eq_decide] using new
  · intro loop mem live
    rw [loops] at mem
    rcases List.mem_append.mp mem with old | new
    · exact absurd (ended loop old) live
    · obtain ⟨j, hj, rfl⟩ := List.mem_map.mp new
      simp only [List.mem_filter, List.mem_range, decide_eq_true_eq] at hj
      have behind : (s'.nodes call.src).m_nextIndexs j = (s.entries call.src).length := by
        rw [RaftNode.becomeLeader_next leads (sessions j hj.1 hj.2)]
        change (s.nodes call.src).m_raft_logger.getLastIndex + 1 = _
        rw [RaftLogger.getLastIndex_eq (positions.log call.src)]
        exact Nat.succ_pred_eq_of_pos (positions.log call.src).length_pos
      refine ⟨⟨?_, ?_, fun p e later at_ => ?_⟩, fun _ waits => by cases waits⟩
      · rw [behind]
        exact (positions.log call.src).length_pos
      · rw [behind, log, List.length_append]
        exact Nat.le_add_right ..
      · rw [behind] at later
        rw [log, List.getElem?_append_right later] at at_
        rw [List.mem_singleton.mp (List.mem_of_getElem? at_), term]
        rfl

/-- What the reply to a round does to the loops and indices of a leader that goes on leading: an
older reply nothing, a rejection ends the loop, and a success moves the index on. -/
theorem reply_moves (positions : Positions s) (order : InOrder s i) {l : Nat}
    (h : step cfg s (.replicateReply i l) = some s') (was : s.leads i) (is : s'.leads i) :
    ∃ loop k call rets pc, (s.loops i)[l]? = some loop ∧ loop.pc = .waiting k ∧
      s.appendCalls[k]? = some call ∧ call.reply = some rets ∧
      s'.loops i = (s.loops i).set l { loop with pc } ∧ s'.appendCalls = s.appendCalls ∧
      (∀ j, j ≠ loop.nodeId → (s'.nodes i).m_nextIndexs j = (s.nodes i).m_nextIndexs j) ∧
      (pc = .done ∨ pc = .top ∧
        (rets.term < (s.core i).term ∧
          (s'.nodes i).m_nextIndexs loop.nodeId = (s.nodes i).m_nextIndexs loop.nodeId ∨
        (s'.nodes i).m_nextIndexs loop.nodeId = (s.nodes i).m_nextIndexs loop.nodeId + 1)) := by
  obtain ⟨loop, k, call, rets, found, waits, sent, reply, -, moved⟩ := step_replicateReply.mp h
  have node : s'.nodes i = { ((s.nodes i).replicateReply cfg i loop.nodeId rets).1 with
      loops := (s.nodes i).loops.set l { loop with
        pc := ((s.nodes i).replicateReply cfg i loop.nodeId rets).2.1 } } := by
    rw [moved, put_nodes, Function.update_self]
  have next : (s'.nodes i).m_nextIndexs =
      ((s.nodes i).replicateReply cfg i loop.nodeId rets).1.m_nextIndexs := by rw [node]
  refine ⟨loop, k, call, rets, _, found, waits, sent, reply, by rw [Cluster.loops, node]; rfl,
    by rw [moved]; rfl, ?_⟩
  rcases RaftNode.replicateReply_cases cfg i (s.nodes i) loop.nodeId rets with
    ⟨notLeader, -⟩ | ⟨-, -, did⟩ | ⟨-, stale, did⟩ | ⟨-, -, -, did⟩ | ⟨-, -, -, did⟩
  · exact absurd was notLeader
  · have state : (s'.nodes i).m_state = .Follower := by
      rw [node, did]
      rfl
    rw [is] at state
    cases state
  · rw [did] at next ⊢
    exact ⟨fun j _ => by rw [next], .inr ⟨rfl, .inl ⟨stale, by rw [next]⟩⟩⟩
  · refine ⟨fun j ne => ?_, .inl (congrArg (fun r => r.2.1) did)⟩
    rw [next, did, RaftNode.retreat]
    dsimp only
    split_ifs
    · exact Function.update_of_ne ne ..
    · rfl
  · have serves := order.serves loop (List.mem_of_getElem? found) (by simp [waits])
    obtain ⟨more, -⟩ := serves.sent k waits
    have room := (positions.log i).room
    have fits := maxEntries_lt
    have advanced : (s'.nodes i).m_nextIndexs = Function.update (s.nodes i).m_nextIndexs
        loop.nodeId ((s.nodes i).m_nextIndexs loop.nodeId + 1) := by
      have moved : ((s.nodes i).commitReplicated cfg i loop.nodeId).1.m_nextIndexs =
          ((s.nodes i).advance loop.nodeId).m_nextIndexs := by
        unfold RaftNode.commitReplicated
        dsimp only
        split_ifs <;> rfl
      rw [next, did]
      dsimp only
      rw [moved, RaftNode.advance, u64_of_lt (by omega)]
    refine ⟨fun j ne => by rw [advanced, Function.update_of_ne ne], .inr ⟨?_, .inr ?_⟩⟩
    · rw [did]
    · rw [advanced, Function.update_self]

theorem InOrder.others (order : InOrder s i) {l : Nat} {loop other : ReplicateLoop} {pc : LoopPc}
    (found : (s.loops i)[l]? = some loop) (live : loop.pc ≠ .done)
    (mem : other ∈ (s.loops i).set l { loop with pc }) (lives : other.pc ≠ .done) :
    other = { loop with pc } ∨ (other ∈ s.loops i ∧ other.nodeId ≠ loop.nodeId) := by
  rcases mem_set_other mem with rfl | old
  · exact .inl rfl
  · have apart := live_unique (order.one loop.nodeId) found live (old _) lives
    rcases List.mem_or_eq_of_mem_set (old loop) with there | rfl
    · exact .inr ⟨there, apart⟩
    · exact absurd rfl apart

theorem reply_inOrder (positions : Positions s) (ruled : Ruled cfg s) (order : InOrder s i)
    {l : Nat} (h : step cfg s (.replicateReply i l) = some s') (was : s.leads i)
    (is : s'.leads i) : InOrder s' i := by
  obtain ⟨loop, k, call, rets, pc, found, waits, -, -, loops, -, apart, outcome⟩ :=
    reply_moves positions order h was is
  have live : loop.pc ≠ .done := by simp [waits]
  have serves := order.serves loop (List.mem_of_getElem? found) live
  refine ⟨fun j => (liveLoops_le found live loops j).trans (order.one j), fun other mem lives => ?_⟩
  rw [loops] at mem
  rcases order.others found live mem lives with rfl | ⟨there, ne⟩
  · rcases outcome with rfl | ⟨rfl, next⟩
    · exact absurd rfl lives
    · refine ⟨?_, fun _ waits => by cases waits⟩
      rcases next with ⟨-, same⟩ | advanced
      · rw [same]
        exact serves.owns.kept ruled h was is
      · rw [advanced]
        exact (serves.owns.next (serves.sent k waits).1).kept ruled h was is
  · exact (order.serves other there lives).kept ruled h was is (apart _ ne)

/-- Node `i` leads after the step: it has just won, or it led and no vote made it leader. -/
theorem leads_origin {k : Nat} {call : VoteCall} {rets : RaftVoteRets}
    (found : s.voteCalls[k]? = some call) (reply : call.reply = some rets)
    (h : step cfg s (.voteReply k) = some s') (is : s'.leads i) :
    (call.src = i ∧ (s.nodes call.src).wins cfg call.election rets) ∨ s.leads i := by
  cases step_loopStep h with
  | quiet _ kept => exact .inr (kept i is)
  | move _ _ _ _ _ _ _ kept _ _ => exact .inr (kept i is)
  | start k' call' rets' act found' reply' won _ kept =>
      cases act
      obtain rfl : call = call' := Option.some.inj (found.symm.trans found')
      obtain rfl : rets = rets' := Option.some.inj (reply.symm.trans reply')
      by_cases at_ : i = call.src
      · exact .inl ⟨at_.symm, won⟩
      · exact .inr (kept i at_ is)

theorem voteReply_inOrder (positions : Positions s) (ruled : Ruled cfg s)
    (order : ∀ i, s.leads i → InOrder s i) {k : Nat} (takes : TakesOver cfg s (.voteReply k))
    (h : step cfg s (.voteReply k) = some s') (is : s'.leads i) : InOrder s' i := by
  obtain ⟨call, found, rets, reply, -⟩ := step_voteReply.mp h
  by_cases won : call.src = i ∧ (s.nodes call.src).wins cfg call.election rets
  · obtain ⟨rfl, won⟩ := won
    obtain ⟨ended, sessions⟩ := takes _ (voteReplyAt_eq found reply) won
    exact win_inOrder positions found reply won ended sessions h
  · have was := (leads_origin found reply h is).resolve_left won
    obtain ⟨loops, next⟩ := voteReply_kept found reply h fun at_ wins => won ⟨at_, wins⟩
    exact (order i was).quiet ruled h was is loops next

/-- A loop of a leader that sends waits for the entry at its index. -/
theorem send_inOrder (positions : Positions s) (ruled : Ruled cfg s) (order : InOrder s i)
    {l : Nat} (h : step cfg s (.replicateSend i l) = some s') (was : s.leads i)
    (is : s'.leads i) : InOrder s' i := by
  obtain ⟨loop, found, ⟨top, -⟩, ⟨notLeader, -⟩ | ⟨-, -, rfl⟩ | ⟨-, real, -, rfl⟩⟩ :=
    step_replicateSend.mp h
  · exact absurd was notLeader
  · exact order
  · have live : loop.pc ≠ .done := by simp [top]
    have serves := order.serves loop (List.mem_of_getElem? found) live
    have more := (List.getElem?_eq_some_iff.mp (RaftLogger.getEntry_eq real)).1
    have room := (positions.log i).room
    have fits := maxEntries_lt
    have loops : ∀ call, ((s.setLoop i l { loop with
        pc := .waiting s.appendCalls.length }).addAppendCall call).loops i =
          (s.loops i).set l { loop with pc := .waiting s.appendCalls.length } := by
      simp [Cluster.loops, Cluster.setLoop]
    refine order.move ruled h was is found live (loops _) ?_ ?_
    · simp [Cluster.setLoop]
    · rintro k ⟨⟩
      refine ⟨by simpa [Cluster.setLoop, Cluster.entries] using more, _,
        List.getElem?_concat_length .., ?_⟩
      have pos := serves.owns.pos
      change pred64 ((s.nodes i).m_nextIndexs loop.nodeId) + 1 = _
      rw [pred64_of_pos pos (by change _ < (s.entries i).length at more; omega)]
      simp only [Cluster.setLoop, addAppendCall_nodes, put_nodes, Function.update_self]
      exact Nat.sub_add_cancel pos

/-- Only a vote reply and the replies to its own loops change the indices of a node. -/
theorem next_kept (h : step cfg s a = some s') (vote : ¬ ∃ k, a = .voteReply k)
    (reply : ¬ ∃ l, a = .replicateReply i l) :
    (s'.nodes i).m_nextIndexs = (s.nodes i).m_nextIndexs := by
  rcases step_next h with voted | ⟨v, l, rfl⟩ | same
  · exact absurd voted vote
  · obtain ⟨loop, k, call, rets, -, -, -, -, -, rfl⟩ := step_replicateReply.mp h
    have ne : i ≠ v := by
      rintro rfl
      exact reply ⟨l, rfl⟩
    rw [put_nodes, Function.update_of_ne ne]
  · exact same i

theorem inOrder_step (positions : Positions s) (ruled : Ruled cfg s)
    (order : ∀ i, s.leads i → InOrder s i) (orderly : Orderly cfg s a)
    (h : step cfg s a = some s') (is : s'.leads i) : InOrder s' i := by
  by_cases vote : ∃ k, a = .voteReply k
  · obtain ⟨k, rfl⟩ := vote
    exact voteReply_inOrder positions ruled order orderly.2 h is
  have was := leads_of_step h (fun k act => vote ⟨k, act⟩) i is
  by_cases reply : ∃ l, a = .replicateReply i l
  · obtain ⟨l, rfl⟩ := reply
    exact reply_inOrder positions ruled (order i was) h was is
  have next := next_kept h vote reply
  cases step_loopStep h with
  | quiet loops _ => exact (order i was).quiet ruled h was is (congrFun loops i) next
  | start k _ _ act _ _ _ _ _ => exact absurd ⟨k, act⟩ vote
  | move v l loop pc found live loops _ _ waits =>
      have moved := congrFun loops i
      by_cases at_ : i = v
      · subst at_
        rw [Function.update_self] at moved
        by_cases sends : a = .replicateSend i l
        · subst sends
          exact send_inOrder positions ruled (order i was) h was is
        · exact (order i was).move ruled h was is found live moved next fun k waiting =>
            absurd (waits k waiting) sends
      · rw [Function.update_of_ne at_] at moved
        exact (order i was).quiet ruled h was is moved next

theorem appendCalls_length (h : step cfg s a = some s') (beat : ∀ v j, a ≠ .heartbeat v j)
    (send : ∀ v l, a ≠ .replicateSend v l) : s'.appendCalls.length = s.appendCalls.length := by
  cases a with
  | connect v j =>
      obtain ⟨-, rfl⟩ := step_connect.mp h
      rfl
  | electionTimer v =>
      obtain ⟨-, rfl⟩ := step_electionTimer.mp h
      rfl
  | startElection v =>
      obtain ⟨-, rfl⟩ := step_startElection.mp h
      rfl
  | raftVote k =>
      obtain ⟨call, -, -, rfl⟩ := step_raftVote.mp h
      rfl
  | voteTimeout k =>
      obtain ⟨call, -, -, rfl⟩ := step_voteTimeout.mp h
      rfl
  | voteReply k =>
      obtain ⟨call, -, rets, -, -, r, -, rfl⟩ := step_voteReply.mp h
      rfl
  | heartbeat v j => exact absurd rfl (beat v j)
  | replicateSend v l => exact absurd rfl (send v l)
  | replicateTimeout v l =>
      obtain ⟨loop, k, -, -, rfl⟩ := step_replicateTimeout.mp h
      rfl
  | replicateReply v l =>
      obtain ⟨loop, k, call, rets, -, -, -, -, -, rfl⟩ := step_replicateReply.mp h
      rfl
  | appendEntries k =>
      obtain ⟨call, -, -, ⟨rets, -, rfl⟩ | ⟨-, rfl⟩⟩ := step_appendEntries.mp h
      · exact List.length_set
      · rfl
  | appendEntriesEnd v =>
      obtain ⟨k, params, call, r, -, -, -, rfl⟩ := step_appendEntriesEnd.mp h
      exact List.length_set
  | applyRound v =>
      obtain ⟨-, logger, -, rfl⟩ := step_applyRound.mp h
      rfl
  | clientMsg v type triples =>
      obtain ⟨-, rfl⟩ := step_clientMsg.mp h
      rfl
  | testNoOp v =>
      obtain ⟨triples, -, rfl⟩ := step_testNoOp.mp h
      rfl
  | lockLog v garbage =>
      obtain ⟨triples, -, rfl⟩ := step_lockLog.mp h
      rfl
  | decodeTriple v =>
      obtain ⟨triples, index, assigned, nd, -, -, rfl⟩ := step_decodeTriple.mp h
      rfl
  | testApplied v =>
      obtain ⟨index, assigned, -, rfl⟩ := step_testApplied.mp h
      rfl
  | respond v =>
      obtain ⟨assigned, -, rfl⟩ := step_respond.mp h
      rfl

/-- A call that carries an entry was there, or a loop of a leader has just made it. -/
theorem call_origin (h : step cfg s a = some s') {m : Nat} {d : AppendCall}
    (found : s'.appendCalls[m]? = some d) (real : d.request.entry.op ≠ .heartbeat) :
    (∃ c, s.appendCalls[m]? = some c ∧ c.Same d ∧ (c.reply ≠ none → d.reply ≠ none)) ∨
    ∃ v l loop, a = .replicateSend v l ∧ m = s.appendCalls.length ∧ (s.loops v)[l]? = some loop ∧
      loop.pc = .top ∧ s.leads v ∧ ((s.nodes v).sendEntry loop.nodeId).op ≠ .null ∧
      d = roundCall s v loop.nodeId := by
  have same : s.appendCalls[m]? = some d →
      ∃ c, s.appendCalls[m]? = some c ∧ c.Same d ∧ (c.reply ≠ none → d.reply ≠ none) :=
    fun there => ⟨d, there, ⟨rfl, rfl, rfl, rfl⟩, id⟩
  by_cases beat : ∃ v j, a = .heartbeat v j
  · obtain ⟨v, j, rfl⟩ := beat
    obtain ⟨-, rfl⟩ := step_heartbeat.mp h
    rcases getElem?_concat_cases found with there | ⟨-, rfl⟩
    · exact .inl (same there)
    · exact absurd rfl real
  by_cases send : ∃ v l, a = .replicateSend v l
  · obtain ⟨v, l, rfl⟩ := send
    obtain ⟨loop, at_, ⟨top, -⟩, ⟨-, rfl⟩ | ⟨-, -, rfl⟩ | ⟨leads, some_, -, rfl⟩⟩ :=
      step_replicateSend.mp h
    · exact .inl (same found)
    · exact .inl (same found)
    · rcases getElem?_concat_cases found with there | ⟨rfl, rfl⟩
      · exact .inl (same there)
      · exact .inr ⟨v, l, loop, rfl, rfl, at_, top, leads, some_, rfl⟩
  · have length := appendCalls_length h (fun v j act => beat ⟨v, j, act⟩)
      fun v l act => send ⟨v, l, act⟩
    left
    rcases appendCalls_step h with calls | ⟨v, new, -, calls⟩ | ⟨k, was, rets, there, calls⟩
    · exact same (calls ▸ found)
    · rw [calls, List.length_append, List.length_singleton] at length
      omega
    · rw [calls] at found
      by_cases here : k = m
      · subst here
        rw [List.getElem?_set_self (List.getElem?_eq_some_iff.mp there).1] at found
        cases found
        exact ⟨was, there, ⟨rfl, rfl, rfl, rfl⟩, fun _ => nofun⟩
      · exact same ((List.getElem?_set_ne here).symm.trans found)

def SendsOwn (s : Cluster) : Prop :=
  ∀ call ∈ s.appendCalls, call.request.entry.op ≠ .heartbeat →
    call.request.entry.term = call.request.term

theorem sendsOwn_step (order : ∀ i, s.leads i → InOrder s i) (sends : SendsOwn s)
    (h : step cfg s a = some s') : SendsOwn s' := by
  intro call mem real
  obtain ⟨m, found⟩ := List.mem_iff_getElem?.mp mem
  rcases call_origin h found real with ⟨c, there, same, -⟩ | ⟨v, l, loop, -, -, at_, top, leads,
    some_, rfl⟩
  · rw [same.request] at real ⊢
    exact sends c (List.mem_of_getElem? there) real
  · have serves := (order v leads).serves loop (List.mem_of_getElem? at_) (by simp [top])
    exact serves.owns.own _ _ le_rfl (RaftLogger.getEntry_eq some_)

/-- A reply counts for the entry its loop waits for, no further, and that is the leader's own. -/
theorem reply_own (order : ∀ i, s.leads i → InOrder s i) :
    CountsReply s a ∧ CommitsOwn cfg s a := by
  cases a with
  | replicateReply i l =>
      have served : ∀ r ∈ s.appendReplyAt i l, s.leads i →
          (s.nodes i).m_nextIndexs r.1.nodeId = r.2.1.request.prevLogIndex + 1 ∧
            Owns s i ((s.nodes i).m_nextIndexs r.1.nodeId) := by
        intro r mem leads
        obtain ⟨k, found, waits, sent, -⟩ := of_appendReplyAt mem
        have serves := (order i leads).serves r.1 (List.mem_of_getElem? found) (by simp [waits])
        obtain ⟨-, call, sent', prev⟩ := serves.sent k waits
        obtain rfl : r.2.1 = call := Option.some.inj (sent.symm.trans sent')
        exact ⟨prev.symm, serves.owns⟩
      refine ⟨fun r mem leads _ _ => (served r mem leads).1.le, fun r mem counts _ e at_ => ?_⟩
      exact (served r mem counts.1).2.own _ e le_rfl at_
  | _ => exact ⟨trivial, trivial⟩

theorem commitsOwnTerm_kept (positions : Positions s) (order : ∀ i, s.leads i → InOrder s i)
    (commits : CommitsOwnTerm s) (h : step cfg s a = some s') : CommitsOwnTerm s' := by
  intro i T N es mem
  cases step_progressStep h with
  | still _ same _ => exact commits i T N es (same ▸ mem)
  | win _ _ _ _ _ _ _ _ same _ => exact commits i T N es (same ▸ mem)
  | adopt _ _ _ _ _ _ _ _ same _ => exact commits i T N es (same ▸ mem)
  | apply _ _ _ _ _ _ same _ => exact commits i T N es (same ▸ mem)
  | reply v n k loop call rets act found waits sent reply leads _ _ _ logged _ =>
      rw [logged] at mem
      rcases List.mem_append.mp mem with new | old
      · obtain ⟨-, -, same⟩ := RaftNode.commit_of_replicated new
        cases same
        have serves := (order i leads).serves loop (List.mem_of_getElem? found) (by simp [waits])
        obtain ⟨more, -⟩ := serves.sent k waits
        have room := (positions.log i).room
        have fits := maxEntries_lt
        rw [RaftNode.advance_matched, pred64_u64 (by omega)]
        have at_ := List.getElem?_eq_getElem more
        exact ⟨_, at_, serves.owns.own _ _ le_rfl at_⟩
      · exact commits i T N es old

structure Ordered (cfg : Config) (s : Cluster) : Prop where
  ruled : Ruled cfg s
  positions : Positions s
  order : ∀ i, s.leads i → InOrder s i
  sends : SendsOwn s
  commits : CommitsOwnTerm s

theorem ordered_initial (cfg : Config) : Ordered cfg {} where
  ruled := ruled_initial cfg
  positions := positions_initial
  order := nofun
  sends := nofun
  commits := nofun

theorem ordered_step (odd : Odd cfg.size) (ordered : Ordered cfg s) (orderly : Orderly cfg s a)
    (h : step cfg s a = some s') : Ordered cfg s' := by
  obtain ⟨ruled, positions, order, sends, commits⟩ := ordered
  constructor
  · exact ruled_step odd ruled orderly.1 h
  · exact positions_step positions h
  · exact fun i is => inOrder_step positions ruled order orderly h is
  · exact sendsOwn_step order sends h
  · exact commitsOwnTerm_kept positions order commits h

theorem ordered_run (odd : Odd cfg.size) {as : List Action}
    (run : Run (step cfg) (Orderly cfg) {} as s) : Ordered cfg s :=
  run.invariant (ordered_initial cfg) fun _ _ _ ordered orderly next =>
    ordered_step odd ordered orderly next

/-- Leaders that take office in order, in terms that do not wrap, send and commit entries of
their own term only, and no two of their loops serve one node. -/
theorem leaders_serve_own (odd : Odd cfg.size) {as : List Action}
    (run : Run (step cfg) (Orderly cfg) {} as s) :
    (∀ call ∈ s.appendCalls, call.request.entry.op ≠ .heartbeat →
      call.request.entry.term = call.request.term) ∧
    (∀ i T N es, .commit i T N es ∈ s.history → ∃ e : Entry, es[N]? = some e ∧ e.term = T) ∧
    ∀ i, s.leads i → ∀ j, (s.nodes i).liveLoops j ≤ 1 := by
  have ordered := ordered_run odd run
  refine ⟨ordered.sends, fun i T N es mem => ?_, fun i leads => (ordered.order i leads).one⟩
  exact ordered.commits i T N es (List.mem_filter.mpr ⟨mem, rfl⟩)

/-- Node 0 is deposed and its loops return before it is elected again; then a round commits. -/
def zeroTakesOver : List Action :=
  zeroElected ++ roundToOne 0 0 ++ [.electionTimer 1, .startElection 1, .raftVote 2,
    .replicateSend 0 0, .replicateSend 0 1, .electionTimer 0, .startElection 0, .raftVote 4,
    .voteReply 4] ++ roundToOne 2 1

def zeroTookOver : List Entry :=
  [{}, { index := 1, term := 1, op := .noOp }, { index := 2, term := 3, op := .noOp }]

theorem zero_serves_own : ∃ s, Run (step threeNodes) (Orderly threeNodes) {} zeroTakesOver s ∧
    .commit 0 3 2 zeroTookOver ∈ s.history ∧
    ∃ e : Entry, zeroTookOver[2]? = some e ∧ e.term = 3 := by
  have done : (exec (guarded (step threeNodes) (Orderly threeNodes)) {} zeroTakesOver).map
      (fun s => decide (.commit 0 3 2 zeroTookOver ∈ s.history)) = some true := by decide +kernel
  obtain ⟨s, run, seen⟩ := Option.map_eq_some_iff.mp done
  have committed := of_decide_eq_true seen
  exact ⟨s, .of_guarded run, committed,
    (leaders_serve_own threeNodes_odd (.of_guarded run)).2.1 0 3 2 _ committed⟩

/-- Takeovers in order, registrations by leaders, and followers that cut nothing off. -/
def TakeoversOk (cfg : Config) (s : Cluster) (a : Action) : Prop :=
  Orderly cfg s a ∧ LeaderRegisters s a ∧ KeepsTail s a

instance (cfg : Config) (s : Cluster) : DecidablePred (TakeoversOk cfg s) := fun _ =>
  inferInstanceAs (Decidable (_ ∧ _))

/-- Where leaders take office in order, nothing has to be asked of how they count. -/
theorem TakeoversOk.commitsOk (ok : TakeoversOk cfg s a) (ordered : Ordered cfg s) :
    CommitsOk cfg s a := by
  obtain ⟨⟨noWrap, -⟩, leader, tail⟩ := ok
  have own : CountsReply s a ∧ CommitsOwn cfg s a := reply_own ordered.order
  exact ⟨⟨⟨noWrap, leader⟩, tail, own.1⟩, own.2⟩

/-- Leaders that take office in order are complete, and the indices they count with are right for
the followers in their term. -/
theorem takeovers_complete (odd : Odd cfg.size) {as : List Action}
    (run : Run (step cfg) (TakeoversOk cfg) {} as s) : LeadersComplete s ∧ MatchSound s := by
  obtain ⟨-, l, safe⟩ := run.invariant (P := fun s => Ordered cfg s ∧ ∃ l, Safe cfg s l)
    ⟨ordered_initial cfg, blank, safe_initial cfg⟩
    fun _ _ _ ⟨ordered, _, safe⟩ ok next => by
      obtain ⟨l', -, safe'⟩ := safe_step odd safe (ok.commitsOk ordered) next
      exact ⟨ordered_step odd ordered ok.1 next, l', safe'⟩
  exact ⟨safe.leadersComplete, safe.toRetained.matchSound⟩

theorem zero_taking_over_complete : ∃ s, (LeadersComplete s ∧ MatchSound s) ∧
    (.commit 0 1 1 (zeroTookOver.take 2) ∈ s.history ∧
      .leader 0 3 (zeroTookOver.take 2) ∈ s.history) ∧ (s.nodes 0).m_matchIndexs 1 = 2 := by
  have done : (exec (guarded (step threeNodes) (TakeoversOk threeNodes)) {} zeroTakesOver).map
      (fun s => decide ((.commit 0 1 1 (zeroTookOver.take 2) ∈ s.history ∧
        .leader 0 3 (zeroTookOver.take 2) ∈ s.history) ∧ (s.nodes 0).m_matchIndexs 1 = 2)) =
      some true := by decide +kernel
  obtain ⟨s, run, seen⟩ := Option.map_eq_some_iff.mp done
  exact ⟨s, takeovers_complete threeNodes_odd (.of_guarded run), of_decide_eq_true seen⟩

end Steps

end CRpc.Raft
