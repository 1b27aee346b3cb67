import CRpc.Raft.Replicas

/-! What a leader commits. With entries of its own term, a quorum has stored it. -/
namespace CRpc.Raft

open Cluster Transition Ledger Quorum

variable {cfg : Config} {s s' : Cluster} {a : Action} {l : Book}

/-- A full count raises the commit index to an entry of the leader's own term. -/
def CommitsOwn (cfg : Config) (s : Cluster) : Action → Prop
  | .replicateReply i n => ∀ r ∈ s.appendReplyAt i n, (s.nodes i).commits cfg i r.1.nodeId r.2.2 →
      (s.nodes i).m_raft_logger.m_commitIndex < (s.nodes i).m_nextIndexs r.1.nodeId →
      ∀ e ∈ (s.nodes i).m_raft_logger.m_entries[(s.nodes i).m_nextIndexs r.1.nodeId]?,
        e.term = (s.nodes i).m_currentTerm
  | _ => True

def CommitsOk (cfg : Config) (s : Cluster) (a : Action) : Prop :=
  ReplicasOk s a ∧ CommitsOwn cfg s a

instance (cfg : Config) (s : Cluster) : DecidablePred (CommitsOwn cfg s) := by
  rintro ⟨⟩ <;> dsimp only [CommitsOwn] <;> infer_instance

instance (cfg : Config) (s : Cluster) : DecidablePred (CommitsOk cfg s) := fun _ =>
  inferInstanceAs (Decidable (_ ∧ _))

abbrev ChosenIn (cfg : Config) (l : Book) (T N : Nat) (r : Reign Nat Entry) : Prop :=
  Chosen Entry.term (Finset.range cfg.size) l T N r

/-- The reply that completes a quorum completes it for an entry the quorum has. -/
theorem reply_chosen (odd : Odd cfg.size) (retained : Retained cfg s l) {i n k : Nat}
    {loop : ReplicateLoop} {call : AppendCall} {rets : AppendEntriesRets}
    (ok : CommitsOk cfg s (.replicateReply i n)) (found : (s.loops i)[n]? = some loop)
    (waits : loop.pc = .waiting k) (sent : s.appendCalls[k]? = some call)
    (reply : call.reply = some rets) (leads : s.leads i) (term : rets.term = (s.core i).term)
    (success : rets.success = true) (full : (s.nodes i).replicated cfg i loop.nodeId = true)
    (raised : (s.nodes i).m_raft_logger.m_commitIndex <
      ((s.nodes i).advance loop.nodeId).m_matchIndexs loop.nodeId) :
    ∃ r, r.log = s.entries i ∧ ChosenIn cfg l (s.core i).term
      (((s.nodes i).advance loop.nodeId).m_matchIndexs loop.nodeId) r := by
  obtain ⟨sim, ret, counted⟩ := retained
  have at_ := appendReplyAt_eq found waits sent reply
  obtain ⟨peer, stored⟩ := advanced_stored sim counted ok.1.2.2 rfl (List.mem_of_getElem? found)
    waits sent reply at_ leads (by rw [← term, ← success])
  obtain ⟨j_lt, ne, i_lt⟩ := (sim.elections.peers i).2 loop.nodeId peer
  obtain ⟨-, r, reign, node, log⟩ := sim.leads leads
  obtain ⟨-, q, hq, bound⟩ := sim.inv.acked loop.nodeId (s.core i).term (by omega)
  obtain rfl : r = q := Option.some.inj (reign.symm.trans hq)
  have room := (sim.positions.log i).room
  have fits := maxEntries_lt
  rw [← log] at room
  have index : ((s.nodes i).advance loop.nodeId).m_matchIndexs loop.nodeId =
      (s.nodes i).m_nextIndexs loop.nodeId := by
    rw [RaftNode.advance_matched, pred64_u64 (by omega)]
  rw [index] at raised ⊢
  obtain ⟨e, there⟩ : ∃ e, r.log[(s.nodes i).m_nextIndexs loop.nodeId]? = some e :=
    ⟨_, List.getElem?_eq_getElem (by omega)⟩
  have there' : (s.entries i)[(s.nodes i).m_nextIndexs loop.nodeId]? = some e := log ▸ there
  have own := ok.2 _ at_ ⟨leads, term, success, full⟩ raised e there'
  have enough := RaftNode.replicated_card i_lt j_lt ne full
  rw [index] at enough
  refine ⟨r, log, reign, ⟨e, there, own⟩, _,
    threshold_majority (.inl odd) (Finset.filter_subset _ _) enough, fun v mem => ?_⟩
  rcases (Finset.mem_filter.mp mem).2 with rfl | counts
  · have := sim.inv.served _ r reign
    rw [node] at this
    omega
  · rw [RaftNode.advance_matchIndexs] at counts
    split_ifs at counts with here
    · rw [here]
      exact stored
    · have := counted.stored i leads v (Nat.ne_of_gt (Nat.lt_of_lt_of_le (by omega) counts))
      exact Nat.lt_of_le_of_lt counts this

def CommitsChosen (cfg : Config) (s : Cluster) (l : Book) : Prop :=
  ∀ i T N es, .commit i T N es ∈ s.commits → N < es.length ∧
    ∃ r, ChosenIn cfg l T N r ∧ es <+: r.log

theorem commitsChosen_step {l' : Book} (odd : Odd cfg.size) (retained : Retained cfg s l)
    (chosen : CommitsChosen cfg s l) (grows : Grows l l') (ok : CommitsOk cfg s a)
    (h : step cfg s a = some s') : CommitsChosen cfg s' l' := by
  have old : ∀ i T N es, .commit i T N es ∈ s.commits → N < es.length ∧
      ∃ r, ChosenIn cfg l' T N r ∧ es <+: r.log := by
    intro i T N es mem
    obtain ⟨inside, r, hr, pre⟩ := chosen i T N es mem
    obtain ⟨r', hr', longer⟩ := hr.mono grows
    exact ⟨inside, r', hr', pre.trans longer⟩
  intro i T N es mem
  cases step_progressStep h with
  | still _ same _ => exact old i T N es (same ▸ mem)
  | win _ _ _ _ _ _ _ _ same _ => exact old i T N es (same ▸ mem)
  | adopt _ _ _ _ _ _ _ _ same _ => exact old i T N es (same ▸ mem)
  | apply _ _ _ _ _ _ same _ => exact old i T N es (same ▸ mem)
  | reply v n k loop call rets act found waits sent reply leads term success _ commits _ =>
      subst act
      rw [commits] at mem
      rcases List.mem_append.mp mem with new | mem
      · obtain ⟨full, raised, same⟩ := RaftNode.commit_of_replicated new
        cases same
        obtain ⟨r, log, hr⟩ := reply_chosen odd retained ok found waits sent reply leads term
          success full raised
        obtain ⟨r', hr', longer⟩ := hr.mono grows
        have inside := hr.length
        rw [log] at inside longer
        exact ⟨inside, r', hr', longer⟩
      · exact old i T N es mem

structure Safe (cfg : Config) (s : Cluster) (l : Book) : Prop extends Retained cfg s l where
  chosen : CommitsChosen cfg s l

theorem safe_initial (cfg : Config) : Safe cfg {} blank :=
  ⟨retained_initial cfg, by simp [CommitsChosen, Cluster.commits]⟩

theorem safe_step (odd : Odd cfg.size) (safe : Safe cfg s l) (ok : CommitsOk cfg s a)
    (h : step cfg s a = some s') :
    ∃ l', Moves Entry.term (Finset.range cfg.size) True l l' ∧ Safe cfg s' l' := by
  obtain ⟨l', moves, retained'⟩ := retained_step odd safe.toRetained ok.1 h
  exact ⟨l', moves, retained', commitsChosen_step odd safe.toRetained safe.chosen
    (moves.inv_grows safe.sim.inv).2 ok h⟩

theorem safe_run (odd : Odd cfg.size) {as : List Action}
    (run : Run (step cfg) (CommitsOk cfg) {} as s) : ∃ l, Safe cfg s l :=
  run.invariant (P := fun s => ∃ l, Safe cfg s l) ⟨blank, safe_initial cfg⟩
    fun _ _ _ ⟨_, safe⟩ ok next => by
      obtain ⟨l', -, safe'⟩ := safe_step odd safe ok next
      exact ⟨l', safe'⟩

/-- Leader completeness: whoever takes office in a later term has every entry up to the
index that a leader raised its commit index to. -/
def LeadersComplete (s : Cluster) : Prop :=
  ∀ x T N es y U es', .commit x T N es ∈ s.history → .leader y U es' ∈ s.history → T < U →
    ∀ n ≤ N, ∃ e, es[n]? = some e ∧ es'[n]? = some e

theorem Safe.leadersComplete (safe : Safe cfg s l) : LeadersComplete s := by
  intro x T N es y U es' committed led later n le
  obtain ⟨inside, r, chosen, pre⟩ := safe.chosen x T N es
    (List.mem_filter.mpr ⟨committed, rfl⟩)
  obtain ⟨q, reign, -, base⟩ := safe.sim.votes.crowned y U es' (List.mem_filter.mpr ⟨led, rfl⟩)
  have complete := safe.ret.complete safe.sim.inv chosen later reign
  rw [base] at complete
  obtain ⟨e, at_⟩ : ∃ e, es[n]? = some e := ⟨_, List.getElem?_eq_getElem (by omega)⟩
  refine ⟨e, at_, prefix_getElem? complete ?_⟩
  rw [List.getElem?_take_of_lt (Nat.lt_succ_of_le le)]
  exact prefix_getElem? pre at_

/-- Leader completeness holds in every run of an odd number of nodes where replication
is sound and leaders count replicas of entries of their own term. -/
theorem leaders_complete (odd : Odd cfg.size) {as : List Action}
    (run : Run (step cfg) (CommitsOk cfg) {} as s) : LeadersComplete s := by
  obtain ⟨l, safe⟩ := safe_run odd run
  exact safe.leadersComplete

theorem next_leader_complete : ∃ s, LeadersComplete s ∧
    (.commit 0 1 1 [{}, { index := 1, term := 1, op := .noOp }] ∈ s.history ∧
      .leader 1 2 [{}, { index := 1, term := 1, op := .noOp }] ∈ s.history) := by
  have done : (exec (guarded (step threeNodes) (CommitsOk threeNodes)) {}
      (zeroElected ++ roundToOne 0 0 ++ [.electionTimer 1, .startElection 1, .raftVote 2,
        .voteReply 2])).map (fun s => decide
          (.commit 0 1 1 [{}, { index := 1, term := 1, op := .noOp }] ∈ s.history ∧
            .leader 1 2 [{}, { index := 1, term := 1, op := .noOp }] ∈ s.history)) =
      some true := by decide +kernel
  obtain ⟨s, run, seen⟩ := Option.map_eq_some_iff.mp done
  exact ⟨s, leaders_complete threeNodes_odd (.of_guarded run),
    of_decide_eq_true seen⟩

/-- Node 0 commits the index it has overcounted, and node 1 is elected without it. -/
def oneElectedWithout : List Action :=
  zeroCountsTwice ++ [.electionTimer 1, .startElection 1, .raftVote 7, .voteReply 7]

/-- What node 0 commits there, the last entry unseen by anybody else. -/
def onlyZeroHas : List Entry :=
  [{}, { index := 1, term := 1, op := .noOp }, { index := 2, term := 3, op := .noOp },
    { index := 3, term := 3, op := .register, f_name := "f", f_ip := "ip", f_port := 80 }]

/-- A committed registration can be missing from the next leader's log. -/
theorem committed_entry_lost : ∃ s, Run (step threeNodes) Always {} oneElectedWithout s ∧
    ¬ LeadersComplete s := by
  have done : (exec (step threeNodes) {} oneElectedWithout).map (fun s =>
      decide (.commit 0 3 3 onlyZeroHas ∈ s.history ∧
        .leader 1 4 (onlyZeroHas.take 3) ∈ s.history)) = some true := by decide +kernel
  obtain ⟨s, run, seen⟩ := Option.map_eq_some_iff.mp done
  obtain ⟨committed, led⟩ := of_decide_eq_true seen
  refine ⟨s, .of_exec run, fun complete => ?_⟩
  obtain ⟨e, -, there⟩ := complete 0 3 3 _ 1 4 _ committed led (by decide) 3 le_rfl
  cases there

end CRpc.Raft
