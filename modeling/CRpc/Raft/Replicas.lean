import CRpc.Lib.Retention
import CRpc.Raft.Matching
import CRpc.Raft.Progress

/-! What a leader knows of its followers' logs. -/
namespace CRpc.Raft

open Cluster Transition Ledger

section Calls

variable {cfg : Config} {s s' : Cluster} {a : Action}

def LoopCalls (s : Cluster) : Prop :=
  ∀ i, ∀ loop ∈ s.loops i, ∀ k, loop.pc = .waiting k → ∃ call, s.appendCalls[k]? = some call ∧
    call.dst = loop.nodeId ∧ call.request.entry.op ≠ .heartbeat ∧
    loop.nodeId ∈ (s.nodes i).m_remote_nodes

/-- The part of `LoopCalls` about one loop. -/
def LoopCall (s : Cluster) (i : Nat) (loop : ReplicateLoop) : Prop :=
  ∀ k, loop.pc = .waiting k → ∃ call, s.appendCalls[k]? = some call ∧ call.dst = loop.nodeId ∧
    call.request.entry.op ≠ .heartbeat ∧ loop.nodeId ∈ (s.nodes i).m_remote_nodes

theorem LoopCall.step {i : Nat} {loop : ReplicateLoop} (sent : LoopCall s i loop)
    (h : step cfg s a = some s') : LoopCall s' i loop := by
  intro k waits
  obtain ⟨call, found, dst, entry, peer⟩ := sent k waits
  obtain ⟨call', found', same⟩ := appendCalls_kept h found
  exact ⟨call', found', same.dst.trans dst, same.request ▸ entry, remote_mono h peer⟩

theorem replicateSend_loops (positions : Positions s) {i l : Nat}
    (h : step cfg s (.replicateSend i l) = some s') (v : Nat) (loop' : ReplicateLoop)
    (mem : loop' ∈ s'.loops v) : loop' ∈ s.loops v ∨ LoopCall s' v loop' := by
  obtain ⟨loop, found, -, moved⟩ := step_replicateSend.mp h
  have moves : ∀ pc, s'.nodes = Function.update s.nodes i
      { s.nodes i with loops := (s.loops i).set l { loop with pc } } →
      LoopCall s' i { loop with pc } → loop' ∈ s.loops v ∨ LoopCall s' v loop' := by
    intro pc nodes sent
    rw [show s'.loops = _ from field_put RaftNode.loops nodes] at mem
    by_cases at_ : v = i
    · subst at_
      rw [Function.update_self] at mem
      rcases List.mem_or_eq_of_mem_set mem with old | rfl
      · exact .inl old
      · exact .inr sent
    · rw [Function.update_of_ne at_] at mem
      exact .inl mem
  rcases moved with ⟨-, rfl⟩ | ⟨-, -, rfl⟩ | ⟨-, some_, peer, rfl⟩
  · exact moves .done rfl fun k waits => by cases waits
  · exact .inl mem
  · refine moves _ rfl fun k waits => ?_
    cases waits
    refine ⟨_, List.getElem?_concat_length .., rfl, ?_, by simpa [Cluster.setLoop] using peer⟩
    exact (positions.log i).real _ (List.mem_of_getElem? (RaftLogger.getEntry_eq some_))

theorem loopCalls_step (calls : LoopCalls s) (positions : Positions s)
    (h : step cfg s a = some s') : LoopCalls s' := by
  have old : ∀ i, ∀ loop ∈ s.loops i, LoopCall s' i loop := fun i loop mem =>
    LoopCall.step (calls i loop mem) h
  by_cases sends : ∃ i l, a = .replicateSend i l
  · obtain ⟨i, l, rfl⟩ := sends
    intro v loop mem
    exact (replicateSend_loops positions h v loop mem).elim (old v loop) id
  · intro v loop' mem k waits
    cases step_loopStep h with
    | quiet loops _ => exact old v loop' (loops ▸ mem) k waits
    | move i l loop pc found _ loops _ _ sent =>
        rw [loops] at mem
        by_cases at_ : v = i
        · subst at_
          rw [Function.update_self] at mem
          rcases List.mem_or_eq_of_mem_set mem with mem | rfl
          · exact old v loop' mem k waits
          · exact absurd ⟨v, l, sent k waits⟩ sends
        · rw [Function.update_of_ne at_] at mem
          exact old v loop' mem k waits
    | start _ call _ _ _ _ _ loops _ =>
        rw [loops] at mem
        by_cases at_ : v = call.src
        · subst at_
          rw [Function.update_self] at mem
          rcases List.mem_append.mp mem with mem | new
          · exact old _ loop' mem k waits
          · obtain ⟨j, -, rfl⟩ := List.mem_map.mp new
            cases waits
        · rw [Function.update_of_ne at_] at mem
          exact old v loop' mem k waits

theorem leads_term (h : step cfg s a = some s') {v : Nat} (was : s.leads v) (is : s'.leads v) :
    (s'.core v).term = (s.core v).term := by
  have was : (s.core v).state = .Leader := was
  have is : (s'.core v).state = .Leader := is
  have moved : ∀ {i : Nat} {core : VoteCore}, s'.core = Function.update s.core i core →
      (v = i → core.state = .Leader → core.term = (s.core v).term) →
      (s'.core v).term = (s.core v).term := by
    intro i core eq own
    rw [eq, Function.update_apply] at is ⊢
    split_ifs at is ⊢ with at_
    · exact own at_ is
    · rfl
  cases step_voteStep h with
  | quiet core _ _ => rw [core]
  | depose i T _ _ core _ _ => exact moved core fun _ leads => by cases leads
  | timer i _ _ _ core _ _ => exact moved core fun _ leads => by cases leads
  | solicit i _ _ core _ _ => exact moved core fun at_ _ => by rw [at_]
  | deny k call _ _ core _ _ =>
      rcases core with core | ⟨-, core⟩
      · rw [core]
      · exact moved core fun _ leads => by cases leads
  | grant k call _ _ guard _ core _ _ =>
      refine moved core fun at_ leads => ?_
      by_cases higher : (s.core call.dst).term < call.request.term
      · rw [if_pos higher] at leads
        cases leads
      · rw [at_]
        exact (guard.resolve_left higher).1.symm
  | close k call _ _ core _ _ =>
      rcases core with core | ⟨_, -, -, core⟩
      · rw [core]
      · exact moved core fun _ leads => by cases leads
  | count k call rets _ _ _ _ core _ _ => exact moved core fun at_ _ => by rw [at_]; rfl
  | win k call rets _ _ _ won core _ _ =>
      refine moved core fun at_ _ => ?_
      rw [at_]
      rfl

/-- A leader counts a follower no further than the entry the reply at hand is for. -/
def CountsReply (s : Cluster) : Action → Prop
  | .replicateReply i l => ∀ r ∈ s.appendReplyAt i l, (s.nodes i).m_state = .Leader →
      r.2.2.term = (s.nodes i).m_currentTerm → r.2.2.success = true →
        (s.nodes i).m_nextIndexs r.1.nodeId ≤ r.2.1.request.prevLogIndex + 1
  | _ => True

instance (s : Cluster) : DecidablePred (CountsReply s) := by
  rintro ⟨⟩ <;> dsimp only [CountsReply] <;> infer_instance

/-- A success reply of node `j` that the step makes the leader `i` count. -/
def Counts (s : Cluster) (i j : Nat) (a : Action) : Prop :=
  ∃ l, a = .replicateReply i l ∧ ∃ r ∈ s.appendReplyAt i l, r.1.nodeId = j ∧
    (s.nodes i).m_state = .Leader ∧ r.2.2.term = (s.nodes i).m_currentTerm ∧
    r.2.2.success = true

/-- A follower that has left the leader's term when its reply is counted still has an entry of
the term of the leader's at the index that is counted. -/
def CountsHeld (s : Cluster) : Action → Prop
  | .replicateReply i l => ∀ r ∈ s.appendReplyAt i l, (s.nodes i).m_state = .Leader →
      r.2.2.term = (s.nodes i).m_currentTerm → r.2.2.success = true →
        (s.nodes r.1.nodeId).m_currentTerm ≠ (s.nodes i).m_currentTerm →
        ((s.entries r.1.nodeId)[(s.nodes i).m_nextIndexs r.1.nodeId]?).map Entry.term =
          ((s.entries i)[(s.nodes i).m_nextIndexs r.1.nodeId]?).map Entry.term
  | _ => True

instance (s : Cluster) : DecidablePred (CountsHeld s) := by
  rintro ⟨⟩ <;> dsimp only [CountsHeld] <;> infer_instance

/-- What a leader counts for its followers, against what the ledger says they stored. -/
structure Counted (s : Cluster) (l : Book) : Prop where
  calls : LoopCalls s
  peers : ∀ i j, (s.progress i).matchIndexs j ≠ 0 → j ∈ (s.nodes i).m_remote_nodes
  stored : ∀ i, s.leads i → ∀ j, (s.progress i).matchIndexs j ≠ 0 →
    (s.progress i).matchIndexs j < l.ack j (s.core i).term

theorem counted_initial (l : Book) : Counted {} l where
  calls := by simp [LoopCalls, Cluster.loops]
  peers := by simp [Cluster.progress, RaftNode.progress]
  stored := by simp [Cluster.progress, RaftNode.progress]

theorem matchIndexs_step (h : step cfg s a = some s') (i : Nat) :
    ((s'.progress i).matchIndexs = (s.progress i).matchIndexs ∧ (s'.leads i → s.leads i)) ∨
    (∀ j, (s'.progress i).matchIndexs j ≠ 0 →
      j ∉ (s.nodes i).m_remote_nodes ∧ (s.progress i).matchIndexs j ≠ 0) ∨
    ∃ l k loop call rets, a = .replicateReply i l ∧ loop ∈ s.loops i ∧ loop.pc = .waiting k ∧
      s.appendCalls[k]? = some call ∧ call.reply = some rets ∧
      s.appendReplyAt i l = some (loop, call, rets) ∧ s.leads i ∧
      rets = ⟨true, (s.core i).term⟩ ∧
      (s'.progress i).matchIndexs = ((s.nodes i).advance loop.nodeId).m_matchIndexs := by
  cases step_progressStep h with
  | still same _ leads => exact .inl ⟨by rw [same], leads i⟩
  | win k call rets _ _ _ _ moved _ leads =>
      by_cases at_ : i = call.src
      · subst at_
        refine .inr (.inl fun j ne => ?_)
        rw [moved, Function.update_self] at ne
        by_cases peer : j ∈ (s.nodes call.src).m_remote_nodes
        · exact absurd (if_pos peer) ne
        · exact ⟨peer, fun zero => ne ((if_neg peer).trans zero)⟩
      · exact .inl ⟨by rw [moved, Function.update_of_ne at_], leads i at_⟩
  | reply v l k loop call rets act found waits sent reply leads term success moved _ kept =>
      by_cases at_ : i = v
      · subst at_
        refine .inr (.inr ⟨l, k, loop, call, rets, act, List.mem_of_getElem? found, waits, sent,
          reply, appendReplyAt_eq found waits sent reply, leads, ?_, ?_⟩)
        · rw [← term, ← success]
        · rw [moved, Function.update_self]
          rcases RaftNode.commitReplicated_cases cfg i (s.nodes i) loop.nodeId with
            ⟨same, -⟩ | ⟨-, -, same, -⟩ <;> rw [same]
      · exact .inl ⟨by rw [moved, Function.update_of_ne at_], kept i⟩
  | adopt k call _ _ _ _ _ moved _ leads =>
      refine .inl ⟨?_, leads i⟩
      rw [moved, Function.update_apply]
      split_ifs with at_
      · rw [at_]
      · rfl
  | apply v entry _ _ _ moved _ leads =>
      refine .inl ⟨?_, leads i⟩
      rw [moved, Function.update_apply]
      split_ifs with at_
      · rw [at_]
      · rfl

/-- The index a successful reply lets the leader count is stored by its sender. -/
theorem advanced_stored {l : Book} (sim : Sim cfg s l) (counted : Counted s l)
    (counts : CountsReply s a) {i n k : Nat} {loop : ReplicateLoop} {call : AppendCall}
    {rets : AppendEntriesRets} (act : a = .replicateReply i n) (mem : loop ∈ s.loops i)
    (waits : loop.pc = .waiting k) (found : s.appendCalls[k]? = some call)
    (reply : call.reply = some rets) (at_ : s.appendReplyAt i n = some (loop, call, rets))
    (leads : s.leads i) (right : rets = ⟨true, (s.core i).term⟩) :
    loop.nodeId ∈ (s.nodes i).m_remote_nodes ∧
      (s.nodes i).m_nextIndexs loop.nodeId < l.ack loop.nodeId (s.core i).term := by
  subst act right
  obtain ⟨c, hc, dst, entry, peer⟩ := counted.calls i loop mem k waits
  obtain rfl : call = c := Option.some.inj (found.symm.trans hc)
  have bound := counts _ at_ leads rfl rfl
  obtain ⟨-, acked⟩ := sim.calls.acked call (List.mem_of_getElem? found) _ entry reply
  rw [dst] at acked
  exact ⟨peer, Nat.lt_of_le_of_lt bound acked⟩

theorem counted_step {l l' : Book} (sim : Sim cfg s l) (counted : Counted s l)
    (grows : Grows l l') (counts : CountsReply s a) (h : step cfg s a = some s') :
    Counted s' l' := by
  refine ⟨loopCalls_step counted.calls sim.positions h, fun i j ne => ?_, fun i leads j ne => ?_⟩
  · rcases matchIndexs_step h i with ⟨same, -⟩ | fresh | ⟨n, k, loop, call, rets, act, mem, waits,
      found, reply, at_, led, right, moved⟩
    · exact remote_mono h (counted.peers i j (same ▸ ne))
    · exact remote_mono h (counted.peers i j (fresh j ne).2)
    · rw [moved, RaftNode.advance_matchIndexs] at ne
      split_ifs at ne with here
      · rw [here]
        exact remote_mono h (advanced_stored sim counted counts act mem waits found reply at_ led
          right).1
      · exact remote_mono h (counted.peers i j ne)
  · rcases matchIndexs_step h i with ⟨same, was⟩ | fresh | ⟨n, k, loop, call, rets, act, mem,
      waits, found, reply, at_, led, right, moved⟩
    · rw [same] at ne ⊢
      rw [leads_term h (was leads) leads]
      exact (counted.stored i (was leads) j ne).trans_le (grows.ack j _)
    · -- a new leader has forgotten every index that was not 0
      exact absurd (counted.peers i j (fresh j ne).2) (fresh j ne).1
    · rw [leads_term h led leads]
      rw [moved, RaftNode.advance_matchIndexs] at ne ⊢
      split_ifs at ne ⊢ with here
      · have := (advanced_stored sim counted counts act mem waits found reply at_ led right).2
        rw [here]
        exact (Nat.lt_of_le_of_lt (pred64_u64_le _) this).trans_le (grows.ack _ _)
      · exact (counted.stored i led j ne).trans_le (grows.ack j _)

end Calls

/-- What replication needs besides log matching: an accepted duplicate cuts nothing off,
and a leader counts no further than the reply at hand. -/
def ReplicasOk (s : Cluster) (a : Action) : Prop :=
  MatchingOk s a ∧ KeepsTail s a ∧ CountsReply s a

instance (s : Cluster) : DecidablePred (ReplicasOk s) := fun _ =>
  inferInstanceAs (Decidable (_ ∧ _))

/-- Besides, no reply is counted for an entry that its follower has since replaced. -/
def MatchesOk (s : Cluster) (a : Action) : Prop := ReplicasOk s a ∧ CountsHeld s a

instance (s : Cluster) : DecidablePred (MatchesOk s) := fun _ =>
  inferInstanceAs (Decidable (_ ∧ _))

structure Retained (cfg : Config) (s : Cluster) (l : Book) : Prop where
  sim : Sim cfg s l
  ret : Retention Entry.term (Finset.range cfg.size) l
  counted : Counted s l

theorem retained_initial (cfg : Config) : Retained cfg {} blank where
  sim := sim_initial cfg
  ret :=
    { kept := fun v T r p h _ => by
        obtain ⟨rfl, rfl⟩ := blank_reign h
        exact .inl (List.take_prefix ..)
      cast := fun _ _ _ _ _ _ _ _ _ ballot => by cases ballot
      elected := fun T r h pos => absurd (blank_reign h).1 pos }
  counted := counted_initial blank

theorem retained_step {cfg : Config} {s s' : Cluster} {a : Action} {l : Book}
    (odd : Odd cfg.size) (retained : Retained cfg s l) (ok : ReplicasOk s a)
    (h : step cfg s a = some s') :
    ∃ l', Moves Entry.term (Finset.range cfg.size) True l l' ∧ Retained cfg s' l' := by
  obtain ⟨sim, ret, counted⟩ := retained
  obtain ⟨⟨noWrap, leader⟩, tail, counts⟩ := ok
  obtain ⟨l', moves, sim'⟩ := sim_step sim odd noWrap leader (fun _ => tail) h
  exact ⟨l', moves, sim', ret.moves sim.inv moves trivial,
    counted_step sim counted (moves.inv_grows sim.inv).2 counts h⟩

/-- Where a follower is in the leader's term, it has the leader's entries up to the index
the leader counts for it. -/
def MatchSound (s : Cluster) : Prop :=
  ∀ i j, (s.nodes i).m_state = .Leader → (s.nodes j).m_currentTerm = (s.nodes i).m_currentTerm →
    ∀ n, 1 ≤ n → n ≤ (s.nodes i).m_matchIndexs j →
      ∃ e, (s.entries j)[n]? = some e ∧ (s.entries i)[n]? = some e

/-- What the step writes into `m_matchIndexs` is right when it is written. -/
def WritesSound (s : Cluster) (a : Action) (t : Cluster) : Prop :=
  ∀ i j, Counts s i j a ∨ (t.nodes i).m_matchIndexs j ≠ (s.nodes i).m_matchIndexs j →
    ∀ n, 1 ≤ n → n ≤ (t.nodes i).m_matchIndexs j →
      ∃ e, (t.entries j)[n]? = some e ∧ (t.entries i)[n]? = some e

section Written

variable {cfg : Config} {s s' : Cluster} {a : Action} {l : Book} {i j : Nat}

theorem Retained.stored (retained : Retained cfg s l) (leads : s.leads i)
    (same : (s.nodes j).m_currentTerm = (s.nodes i).m_currentTerm) {k : Nat}
    (stored : k < l.ack j (s.core i).term) {n : Nat} (le : n ≤ k) :
    ∃ e, (s.entries j)[n]? = some e ∧ (s.entries i)[n]? = some e := by
  obtain ⟨sim, ret, -⟩ := retained
  obtain ⟨-, r, reign, -, log⟩ := sim.leads leads
  have term : (s.core i).term = l.term j := by
    rw [sim.votes.term]
    exact same.symm
  obtain ⟨-, q, hq, bound⟩ := sim.inv.acked j (s.core i).term (by omega)
  obtain rfl : r = q := Option.some.inj (reign.symm.trans hq)
  rw [term] at reign stored bound
  have held : r.log.take (n + 1) <+: l.log j := ret.stored reign (by omega)
  obtain ⟨e, at_⟩ : ∃ e, r.log[n]? = some e := ⟨_, List.getElem?_eq_getElem (by omega)⟩
  refine ⟨e, ?_, log ▸ at_⟩
  rw [← sim.votes.log]
  exact prefix_getElem? held (by rw [List.getElem?_take_of_lt (Nat.lt_succ_self n), at_])

theorem Retained.matchSound (retained : Retained cfg s l) : MatchSound s := by
  intro i j leads same n pos le
  have counts := Nat.ne_of_gt (Nat.lt_of_lt_of_le pos le)
  exact retained.stored leads same (retained.counted.stored i leads j counts) le

/-- A follower with an entry of the term of the leader's has what the leader has up to it. -/
theorem Sim.same_upto (sim : Sim cfg s l) {k : Nat} (inside : k < (s.entries i).length)
    (term : ((s.entries j)[k]?).map Entry.term = ((s.entries i)[k]?).map Entry.term) {n : Nat}
    (le : n ≤ k) : ∃ e, (s.entries j)[n]? = some e ∧ (s.entries i)[n]? = some e := by
  obtain ⟨e, here⟩ : ∃ e, (s.entries i)[k]? = some e := ⟨_, List.getElem?_eq_getElem inside⟩
  rw [here] at term
  obtain ⟨d, there, same⟩ := Option.map_eq_some_iff.mp term
  have held : ∀ v, Held Entry.term l (s.entries v) := fun v =>
    sim.votes.log v ▸ sim.inv.held v
  have past := (held j).matching (held i) there here same
  obtain ⟨f, at_⟩ : ∃ f, (s.entries i)[n]? = some f :=
    ⟨_, List.getElem?_eq_getElem (by omega)⟩
  refine ⟨f, ?_, at_⟩
  rw [← List.getElem?_take_of_lt (Nat.lt_succ_of_le le), past,
    List.getElem?_take_of_lt (Nat.lt_succ_of_le le), at_]

/-- An index that a step changes is forgotten, or counted for a reply. -/
theorem changed_counts (counted : Counted s l) (h : step cfg s a = some s')
    (changed : (s'.nodes i).m_matchIndexs j ≠ (s.nodes i).m_matchIndexs j) :
    (s'.nodes i).m_matchIndexs j = 0 ∨ Counts s i j a := by
  rcases matchIndexs_step h i with ⟨same, -⟩ | fresh | ⟨n, k, loop, call, rets, act, mem, waits,
    found, reply, at_, led, right, moved⟩
  · exact absurd (congrFun same j) changed
  · left
    by_contra ne
    exact (fresh j ne).1 (counted.peers i j (fresh j ne).2)
  · right
    have here : j = loop.nodeId := by
      by_contra other
      apply changed
      have eq := congrFun moved j
      rw [RaftNode.advance_matchIndexs, if_neg other] at eq
      exact eq
    exact ⟨n, act, _, at_, here.symm, led, by rw [right]; rfl, by rw [right]⟩

/-- A reply that is counted writes the index after `m_nextIndexs`, and no log. -/
theorem counts_written (h : step cfg s a = some s') (counts : Counts s i j a) :
    s'.entries = s.entries ∧
      (s'.nodes i).m_matchIndexs j = pred64 (u64 ((s.nodes i).m_nextIndexs j + 1)) := by
  obtain ⟨n, rfl, r, mem, rfl, leads, term, success⟩ := counts
  obtain ⟨loop, k, call, rets, found, waits, sent, reply, -, rfl⟩ := step_replicateReply.mp h
  cases mem.symm.trans (appendReplyAt_eq found waits sent reply)
  refine ⟨entries_put_same rfl (RaftNode.replicateReply_entries loop.nodeId rets), ?_⟩
  rcases RaftNode.replicateReply_cases cfg i (s.nodes i) loop.nodeId rets with
    ⟨other, -⟩ | ⟨-, higher, -⟩ | ⟨-, lower, -⟩ | ⟨-, -, failed, -⟩ | ⟨-, -, -, did⟩
  · exact absurd leads other
  · exact absurd term (Nat.ne_of_gt higher)
  · exact absurd term (Nat.ne_of_lt lower)
  · rw [success] at failed
    cases failed
  · have moved : ((s.nodes i).commitReplicated cfg i loop.nodeId).1.m_matchIndexs =
        ((s.nodes i).advance loop.nodeId).m_matchIndexs := by
      rcases RaftNode.commitReplicated_cases cfg i (s.nodes i) loop.nodeId with
        ⟨same, -⟩ | ⟨-, -, same, -⟩ <;> exact congrArg Progress.matchIndexs same
    rw [← RaftNode.advance_matched, ← moved]
    simp [Cluster.put, did]

theorem Retained.writesSound (retained : Retained cfg s l) (ok : MatchesOk s a)
    (h : step cfg s a = some s') : WritesSound s a s' := by
  intro i j written n pos le
  have counts : Counts s i j a := by
    rcases written with counts | changed
    · exact counts
    · exact (changed_counts retained.counted h changed).resolve_left (by omega)
  obtain ⟨entries, index⟩ := counts_written h counts
  rw [entries]
  obtain ⟨m, rfl, ⟨loop, call, rets⟩, at_, rfl, leads, term, success⟩ := counts
  have upto : n ≤ (s.nodes i).m_nextIndexs loop.nodeId := le.trans (index ▸ pred64_u64_le _)
  have right : rets = ⟨true, (s.core i).term⟩ := by
    obtain ⟨_, _⟩ := rets
    cases term
    cases success
    rfl
  obtain ⟨k, found, waits, sent, reply⟩ := of_appendReplyAt at_
  obtain ⟨-, stored⟩ := advanced_stored retained.sim retained.counted ok.1.2.2 rfl
    (List.mem_of_getElem? found) waits sent reply at_ leads right
  by_cases same : (s.nodes loop.nodeId).m_currentTerm = (s.nodes i).m_currentTerm
  · exact retained.stored leads same stored upto
  · have held := ok.2 _ at_ leads term success same
    obtain ⟨-, r, reign, -, log⟩ := retained.sim.leads leads
    have inside := retained.sim.inv.ack_le reign loop.nodeId
    rw [log] at inside
    exact retained.sim.same_upto (stored.trans_le inside) held upto

end Written

theorem retained_run {cfg : Config} (odd : Odd cfg.size) {as : List Action} {s : Cluster}
    (run : Run (step cfg) ReplicasOk {} as s) : ∃ l, Retained cfg s l :=
  run.invariant (P := fun s => ∃ l, Retained cfg s l) ⟨blank, retained_initial cfg⟩
    fun _ _ _ ⟨_, retained⟩ ok next => by
      obtain ⟨l', -, retained'⟩ := retained_step odd retained ok next
      exact ⟨l', retained'⟩

/-- In a run of an odd number of nodes where no term wraps, leaders append the
registrations, duplicates cut nothing off and leaders count by the reply at hand, for entries
that are still there, the indices a leader counts with are right when they are written, and as
long as the follower is in the leader's term. -/
theorem match_indices_sound {cfg : Config} (odd : Odd cfg.size) {as : List Action} {s : Cluster}
    (run : Run (step cfg) MatchesOk {} as s) :
    MatchSound s ∧ ∀ a t, MatchesOk s a → step cfg s a = some t → WritesSound s a t := by
  obtain ⟨l, retained⟩ := retained_run odd (run.mono fun _ _ => And.left)
  exact ⟨retained.matchSound, fun _ _ ok next => retained.writesSound ok next⟩

/-- The reply to the first entry is counted, and node 1 has the entry then. -/
theorem one_matches_zero : ∃ s t, step threeNodes s (.replicateReply 0 0) = some t ∧
    (t.nodes 0).m_matchIndexs 1 = 1 ∧ MatchSound t ∧
    ∃ e, (t.entries 1)[1]? = some e ∧ (t.entries 0)[1]? = some e := by
  have done : (exec (guarded (step threeNodes) MatchesOk) {}
      (zeroElected ++ (roundToOne 0 0).take 3)).map (fun s =>
        decide (MatchesOk s (.replicateReply 0 0) ∧ (s.nodes 0).m_matchIndexs 1 = 0 ∧
          (step threeNodes s (.replicateReply 0 0)).map (fun t => (t.nodes 0).m_matchIndexs 1) =
            some 1)) = some true := by decide +kernel
  obtain ⟨s, run, seen⟩ := Option.map_eq_some_iff.mp done
  obtain ⟨ok, before, after⟩ := of_decide_eq_true seen
  obtain ⟨t, next, index⟩ := Option.map_eq_some_iff.mp after
  have run : Run (step threeNodes) MatchesOk {} _ s := .of_guarded run
  have written := (match_indices_sound threeNodes_odd run).2 _ t ok next
  refine ⟨s, t, next, index, (match_indices_sound threeNodes_odd (run.snoc ok next)).1, ?_⟩
  exact written 0 1 (.inr (by rw [before, index]; decide)) 1 le_rfl index.ge

def fiveNodes : Config := ⟨5, by decide⟩

/-- Node 1 stores an entry of node 0 and replaces it by one of node 3, which nodes 2 and 4 have
elected, before node 0 hears of either. -/
def oneOvertaken : List Action :=
  [.connect 0 1, .connect 0 2, .connect 3 1, .connect 3 2, .connect 3 4, .electionTimer 0,
    .startElection 0, .raftVote 0, .raftVote 1, .voteReply 0, .voteReply 1, .replicateSend 0 0,
    .appendEntries 0, .appendEntriesEnd 1, .electionTimer 3, .electionTimer 3, .startElection 3,
    .raftVote 3, .raftVote 4, .voteReply 3, .voteReply 4, .replicateSend 3 1, .appendEntries 1,
    .appendEntriesEnd 1]

/-- A late reply can be counted for an entry its follower no longer has. -/
theorem late_reply_overcounts : ∃ s t, Run (step fiveNodes) ReplicasOk {} oneOvertaken s ∧
    ReplicasOk s (.replicateReply 0 0) ∧ step fiveNodes s (.replicateReply 0 0) = some t ∧
    MatchSound t ∧ ¬ WritesSound s (.replicateReply 0 0) t := by
  have done : (exec (guarded (step fiveNodes) ReplicasOk) {} oneOvertaken).map (fun s =>
      decide (ReplicasOk s (.replicateReply 0 0) ∧ (s.nodes 0).m_matchIndexs 1 = 0 ∧
        (step fiveNodes s (.replicateReply 0 0)).map (fun t => ((t.nodes 0).m_matchIndexs 1,
          ((t.entries 1)[1]?).map Entry.term, ((t.entries 0)[1]?).map Entry.term)) =
            some (1, some 2, some 1))) = some true := by decide +kernel
  obtain ⟨s, run, seen⟩ := Option.map_eq_some_iff.mp done
  obtain ⟨ok, before, after⟩ := of_decide_eq_true seen
  obtain ⟨t, next, seen⟩ := Option.map_eq_some_iff.mp after
  simp only [Prod.mk.injEq] at seen
  obtain ⟨index, here, there⟩ := seen
  have run : Run (step fiveNodes) ReplicasOk {} oneOvertaken s := .of_guarded run
  obtain ⟨l, retained⟩ := retained_run (by decide : Odd fiveNodes.size) (run.snoc ok next)
  refine ⟨s, t, run, ok, next, retained.matchSound, fun sound => ?_⟩
  obtain ⟨e, mine, its⟩ :=
    sound 0 1 (.inr (by rw [before, index]; decide)) 1 le_rfl index.ge
  rw [mine] at here
  rw [its] at there
  cases here.symm.trans there

/-- Node 0, elected again, has two loops for node 1. Both send the entry at index 2 and
both replies are counted. -/
def zeroCountsTwice : List Action :=
  zeroReelected ++ [.replicateSend 0 0, .replicateSend 0 2, .appendEntries 1, .appendEntriesEnd 1,
    .replicateReply 0 0, .clientMsg 0 .RPC_SERVER_INIT [⟨"f", "ip", 80⟩], .testNoOp 0,
    .lockLog 0 0, .decodeTriple 0, .decodeTriple 0, .appendEntries 2, .appendEntriesEnd 1,
    .replicateReply 0 2]

/-- A leader can count an entry its follower does not have. -/
theorem second_loop_overcounts : ∃ s, Run (step threeNodes) Always {} zeroCountsTwice s ∧
    ¬ MatchSound s := by
  have done : (exec (step threeNodes) {} zeroCountsTwice).map (fun s =>
      ((s.nodes 0).m_state, (s.nodes 0).m_currentTerm, (s.nodes 1).m_currentTerm,
        (s.nodes 0).m_matchIndexs 1, (s.entries 1)[3]?)) = some (.Leader, 3, 3, 3, none) := by
    decide +kernel
  obtain ⟨s, run, seen⟩ := Option.map_eq_some_iff.mp done
  simp only [Prod.mk.injEq] at seen
  obtain ⟨leads, term, term', index, missing⟩ := seen
  refine ⟨s, .of_exec run, fun sound => ?_⟩
  obtain ⟨e, there, -⟩ := sound 0 1 leads (term'.trans term.symm) 3 (by decide) index.ge
  rw [missing] at there
  cases there

end CRpc.Raft
