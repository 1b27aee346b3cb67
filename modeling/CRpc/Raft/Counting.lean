import CRpc.Raft.Appends
import CRpc.Raft.Commits

/-! The entries a leader commits by counting. The code never reads their terms, so what
keeps them to the leader's own is how far `m_nextIndexs` stays behind its no-op. -/
namespace CRpc.Raft

open Cluster Transition

/-- From some no-op on, all entries are of term `T`. -/
def EndsInTerm (entries : List Entry) (T : Nat) : Prop :=
  ∃ (b : Nat) (e : Entry), entries[b]? = some e ∧ e.op = .noOp ∧
    ∀ (p : Nat) (d : Entry), b ≤ p → entries[p]? = some d → d.term = T

namespace EndsInTerm

variable {entries : List Entry} {T : Nat}

theorem of_noOp {e : Entry} (op : e.op = .noOp) (term : e.term = T) :
    EndsInTerm (entries ++ [e]) T := by
  refine ⟨entries.length, e, List.getElem?_concat_length .., op, fun p d behind at_ => ?_⟩
  have inside := (List.getElem?_eq_some_iff.mp at_).1
  rw [List.length_append, List.length_singleton] at inside
  obtain rfl : p = entries.length := by omega
  rw [List.getElem?_concat_length] at at_
  cases at_
  exact term

theorem snoc {e : Entry} (ends : EndsInTerm entries T) (term : e.term = T) :
    EndsInTerm (entries ++ [e]) T := by
  obtain ⟨b, n, noOp, op, own⟩ := ends
  have inside := (List.getElem?_eq_some_iff.mp noOp).1
  refine ⟨b, n, by rw [List.getElem?_append_left inside, noOp], op, fun p d behind at_ => ?_⟩
  rcases Nat.lt_or_ge p entries.length with old | new
  · rw [List.getElem?_append_left old] at at_
    exact own p d behind at_
  · rw [List.getElem?_append_right new] at at_
    exact List.mem_singleton.mp (List.mem_of_getElem? at_) ▸ term

theorem term_of_last (ends : EndsInTerm entries T) {n : Nat} {e : Entry}
    (at_ : entries[n]? = some e) (last : ∀ d ∈ entries.drop (n + 1), d.op ≠ .noOp) :
    e.term = T := by
  obtain ⟨b, d, noOp, op, own⟩ := ends
  apply own n e _ at_
  by_contra behind
  refine last d ?_ op
  apply List.mem_of_getElem? (i := b - (n + 1))
  rw [List.getElem?_drop, Nat.add_sub_cancel' (not_le.mp behind)]
  exact noOp

end EndsInTerm

def LeadersOwn (s : Cluster) : Prop := ∀ i, s.leads i → EndsInTerm (s.entries i) (s.core i).term

theorem leadersOwn_step {cfg : Config} {s s' : Cluster} {a : Action} (ruled : Ruled cfg s)
    (owns : LeadersOwn s) (h : step cfg s a = some s') : LeadersOwn s' := by
  intro i leads'
  have kept : s.leads i → s'.entries i = s.entries i →
      EndsInTerm (s'.entries i) (s'.core i).term := by
    intro leads entries
    rw [entries, leads_term h leads leads']
    exact owns i leads
  cases step_logStep h with
  | still entries _ _ leads => exact kept (leads i leads') (congrFun entries i)
  | win k call rets _ _ _ _ _ entries _ _ core _ _ =>
      by_cases at_ : i = call.src
      · subst at_
        rw [entries, core, Function.update_self, Function.update_self]
        exact .of_noOp rfl rfl
      · refine kept ?_ (by rw [entries, Function.update_of_ne at_])
        have same : s'.core i = s.core i := by rw [core, Function.update_of_ne at_]
        exact (congrArg VoteCore.state same).symm.trans leads'
  | register v t _ _ _ entries _ _ votes =>
      have leads : s.leads i := (congrArg VoteCore.state (congrFun votes.core i)).symm.trans leads'
      by_cases at_ : i = v
      · subst at_
        rw [entries, votes.core, Function.update_self]
        exact (owns i leads).snoc rfl
      · exact kept leads (by rw [entries, Function.update_of_ne at_])
  | send v call _ entries _ _ votes =>
      exact kept ((congrArg VoteCore.state (congrFun votes.core i)).symm.trans leads')
        (congrFun entries i)
  | answer _ _ _ _ _ _ _ _ _ entries _ _ leads => exact kept (leads i leads') (congrFun entries i)
  | accept _ _ _ _ _ _ _ _ entries _ _ leads => exact kept (leads i leads') (congrFun entries i)
  | reject _ _ _ _ _ _ _ _ entries _ _ votes =>
      exact kept ((congrArg VoteCore.state (congrFun votes.core i)).symm.trans leads')
        (congrFun entries i)
  | append v _ _ _ _ _ busy _ _ _ entries _ _ votes =>
      have leads : s.leads i := (congrArg VoteCore.state (congrFun votes.core i)).symm.trans leads'
      have ne : i ≠ v := by
        rintro rfl
        exact ruled.reigns.apart i (by rw [busy]; simp) leads
      exact kept leads (by rw [entries, Function.update_of_ne ne])

/-- A full count that raises the commit index is for an entry of the log which no no-op
stands behind: `m_nextIndexs` has not fallen in front of the leader's own. -/
def CountsBehindNoOp (cfg : Config) (s : Cluster) : Action → Prop
  | .replicateReply i n => ∀ r ∈ s.appendReplyAt i n, (s.nodes i).commits cfg i r.1.nodeId r.2.2 →
      (s.nodes i).m_raft_logger.m_commitIndex < (s.nodes i).m_nextIndexs r.1.nodeId →
      (s.nodes i).m_nextIndexs r.1.nodeId < (s.nodes i).m_raft_logger.m_entries.length ∧
        ∀ e ∈ (s.nodes i).m_raft_logger.m_entries.drop ((s.nodes i).m_nextIndexs r.1.nodeId + 1),
          e.op ≠ .noOp
  | _ => True

instance (cfg : Config) (s : Cluster) : DecidablePred (CountsBehindNoOp cfg s) := by
  rintro ⟨⟩ <;> dsimp only [CountsBehindNoOp] <;> infer_instance

def CountsOk (cfg : Config) (s : Cluster) (a : Action) : Prop :=
  NoWrap s a ∧ CountsBehindNoOp cfg s a

instance (cfg : Config) (s : Cluster) : DecidablePred (CountsOk cfg s) := fun _ =>
  inferInstanceAs (Decidable (_ ∧ _))

/-- Every index a leader has raised its commit index to was that of an entry of its term. -/
def CommitsOwnTerm (s : Cluster) : Prop :=
  ∀ i T N es, .commit i T N es ∈ s.commits → ∃ e : Entry, es[N]? = some e ∧ e.term = T

theorem commitsOwnTerm_step {cfg : Config} {s s' : Cluster} {a : Action} (positions : Positions s)
    (owns : LeadersOwn s) (commits : CommitsOwnTerm s) (ok : CountsOk cfg s a)
    (h : step cfg s a = some s') : CommitsOwnTerm s' := by
  intro i T N es mem
  cases step_progressStep h with
  | still _ same _ => exact commits i T N es (same ▸ mem)
  | win _ _ _ _ _ _ _ _ same _ => exact commits i T N es (same ▸ mem)
  | adopt _ _ _ _ _ _ _ _ same _ => exact commits i T N es (same ▸ mem)
  | apply _ _ _ _ _ _ same _ => exact commits i T N es (same ▸ mem)
  | reply v n k loop call rets act found waits sent reply leads term success _ logged _ =>
      subst act
      rw [logged] at mem
      rcases List.mem_append.mp mem with new | old
      · obtain ⟨full, raised, same⟩ := RaftNode.commit_of_replicated new
        cases same
        rw [RaftNode.advance_matched] at raised ⊢
        have counts := ok.2 _ (appendReplyAt_eq found waits sent reply)
        obtain ⟨inside, last⟩ := counts ⟨leads, term, success, full⟩
          (raised.trans_le (pred64_u64_le _))
        have room := (positions.log i).room
        have fits := maxEntries_lt
        change (s.nodes i).m_nextIndexs loop.nodeId < (s.entries i).length at inside
        rw [pred64_u64 (by omega)]
        have at_ := List.getElem?_eq_getElem inside
        exact ⟨_, at_, (owns i leads).term_of_last at_ last⟩
      · exact commits i T N es old

/-- In a run of an odd number of nodes where no term wraps and no leader counts an entry in
front of its own no-op, a leader's count commits entries of the leader's term only. -/
theorem counted_entries_own {cfg : Config} (odd : Odd cfg.size) {as : List Action} {s : Cluster}
    (run : Run (step cfg) (CountsOk cfg) {} as s) :
    ∀ i T N es, .commit i T N es ∈ s.history → ∃ e : Entry, es[N]? = some e ∧ e.term = T := by
  have all : (Ruled cfg s ∧ Positions s) ∧ LeadersOwn s ∧ CommitsOwnTerm s := by
    apply run.invariant (P := fun s =>
      (Ruled cfg s ∧ Positions s) ∧ LeadersOwn s ∧ CommitsOwnTerm s)
    · exact ⟨⟨ruled_initial cfg, positions_initial⟩, nofun, nofun⟩
    · rintro t b u ⟨⟨ruled, positions⟩, owns, commits⟩ ok next
      exact ⟨⟨ruled_step odd ruled ok.1 next, positions_step positions next⟩,
        leadersOwn_step ruled owns next, commitsOwnTerm_step positions owns commits ok next⟩
  intro i T N es mem
  exact all.2.2 i T N es (List.mem_filter.mpr ⟨mem, rfl⟩)

theorem no_op_counted_own : ∃ s, Run (step threeNodes) (CountsOk threeNodes) {}
      (zeroElected ++ roundToOne 0 0) s ∧
    .commit 0 1 1 [{}, { index := 1, term := 1, op := .noOp }] ∈ s.history ∧
    ∃ e : Entry, ([{}, { index := 1, term := 1, op := .noOp }] : List Entry)[1]? = some e ∧
      e.term = 1 := by
  have done : (exec (guarded (step threeNodes) (CountsOk threeNodes)) {}
      (zeroElected ++ roundToOne 0 0)).map (fun s => decide
        (.commit 0 1 1 [{}, { index := 1, term := 1, op := .noOp }] ∈ s.history)) = some true := by
    decide +kernel
  obtain ⟨s, run, seen⟩ := Option.map_eq_some_iff.mp done
  have committed := of_decide_eq_true seen
  exact ⟨s, .of_guarded run, committed,
    counted_entries_own threeNodes_odd (.of_guarded run) 0 1 1 _ committed⟩

/-- Node 1 rejects the no-op of term 3, which takes `m_nextIndexs` back to the one of term 1,
and a loop of that term goes on to send it. -/
def zeroCountsOld : List Action :=
  zeroLeavesBehind ++ [.appendEntries 0, .appendEntriesEnd 1, .replicateReply 0 2] ++
    roundToOne 0 1

/-- A leader can commit an entry of an earlier term by counting. -/
theorem old_entry_counted : ∃ s, Run (step threeNodes) Always {} zeroCountsOld s ∧
    ¬ ∀ i T N es, .commit i T N es ∈ s.history → ∃ e : Entry, es[N]? = some e ∧ e.term = T := by
  have done : (exec (step threeNodes) {} zeroCountsOld).map (fun s => decide
      (.commit 0 3 1 [{}, { index := 1, term := 1, op := .noOp },
        { index := 2, term := 3, op := .noOp }] ∈ s.history)) = some true := by decide +kernel
  obtain ⟨s, run, seen⟩ := Option.map_eq_some_iff.mp done
  refine ⟨s, .of_exec run, fun claim => ?_⟩
  obtain ⟨e, at_, term⟩ := claim 0 3 1 _ (of_decide_eq_true seen)
  cases at_
  cases term

end CRpc.Raft
