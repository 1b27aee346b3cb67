import CRpc.Raft.Positions
import CRpc.Raft.Progress
import CRpc.Raft.Quorums

/-! How far a node has committed and applied, against its log. Terms may wrap here and
registrations be appended by anybody. -/
namespace CRpc.Raft

open Cluster Transition

/-- A log grows, or `appendEntries` replaces what lies behind its match. -/
theorem entries_step {cfg : Config} {s s' : Cluster} {a : Action} (h : step cfg s a = some s')
    (i : Nat) : s.entries i <+: s'.entries i ∨
    ∃ k params p, a = .appendEntriesEnd i ∧ s.accepting i = some (k, params) ∧
      (s.nodes i).m_raft_logger.matchPrev params.prevLogIndex params.prevLogTerm = some p ∧
      s'.entries i = (s.entries i).take (p + 1) ++ [params.entry] := by
  have same : s'.entries = s.entries → s.entries i <+: s'.entries i := fun entries =>
    entries ▸ List.prefix_rfl
  have grows : ∀ (v : Nat) (e : Entry),
      s'.entries = Function.update s.entries v (s.entries v ++ [e]) →
      s.entries i <+: s'.entries i := by
    intro v e entries
    rw [entries, Function.update_apply]
    split_ifs with at_
    · exact at_ ▸ List.prefix_append ..
    · exact List.prefix_rfl
  cases step_logStep h with
  | still entries _ _ _ => exact .inl (same entries)
  | win k call _ _ _ _ _ _ entries _ _ _ _ _ => exact .inl (grows call.src _ entries)
  | register v t _ _ _ entries _ _ _ => exact .inl (grows v _ entries)
  | send _ _ _ entries _ _ _ => exact .inl (same entries)
  | answer _ _ _ _ _ _ _ _ _ entries _ _ _ => exact .inl (same entries)
  | accept _ _ _ _ _ _ _ _ entries _ _ _ => exact .inl (same entries)
  | reject _ _ _ _ _ _ _ _ entries _ _ _ => exact .inl (same entries)
  | append v k p params call act at_ _ hit _ entries _ _ _ =>
      by_cases here : i = v
      · subst here
        exact .inr ⟨k, params, p, act, at_, hit, by rw [entries, Function.update_self]⟩
      · left
        rw [entries, Function.update_of_ne here]

theorem progress_end {cfg : Config} {s s' : Cluster} {i : Nat}
    (h : step cfg s (.appendEntriesEnd i) = some s') : s'.progress = s.progress := by
  cases step_progressStep h with
  | still same _ _ => exact same
  | win _ _ _ act _ _ _ _ _ _ => cases act
  | reply _ _ _ _ _ _ act _ _ _ _ _ _ _ _ _ _ => cases act
  | adopt _ _ act _ _ _ _ _ _ _ => cases act
  | apply _ _ act _ _ _ _ _ => cases act

/-- Where the three writers of a commit index and a log keep to what is committed: no
leader lowers a commit index, no accepted entry cuts off or replaces what is committed
or applied, and no reply commits beyond the log. -/
def BoundsOk (cfg : Config) (s : Cluster) : Action → Prop
  | .appendEntries k => ∀ call ∈ s.appendCalls[k]?,
      (s.nodes call.dst).m_currentTerm ≤ call.request.term →
        (s.nodes call.dst).m_raft_logger.m_commitIndex ≤ call.request.leaderCommit
  | .appendEntriesEnd i => ∀ r ∈ (s.nodes i).accepting,
      ∀ p ∈ (s.nodes i).m_raft_logger.matchPrev r.2.prevLogIndex r.2.prevLogTerm,
        (s.nodes i).m_raft_logger.m_commitIndex ≤ p + 1 ∧
        ((s.nodes i).m_raft_logger.m_lastApplied ≤ p ∨
          (s.nodes i).m_raft_logger.m_entries[p + 1]? = some r.2.entry)
  | .replicateReply i l => ∀ r ∈ s.appendReplyAt i l,
      (s.nodes i).commits cfg i r.1.nodeId r.2.2 →
        (s.nodes i).m_nextIndexs r.1.nodeId ≤ (s.nodes i).m_raft_logger.getLastIndex
  | _ => True

instance (cfg : Config) (s : Cluster) : DecidablePred (BoundsOk cfg s) := by
  rintro ⟨⟩ <;> dsimp only [BoundsOk] <;> infer_instance

/-- Nothing is applied before it is committed, nor committed beyond the last entry. -/
def Bounded (s : Cluster) : Prop := ∀ i,
  (s.nodes i).m_raft_logger.m_lastApplied ≤ (s.nodes i).m_raft_logger.m_commitIndex ∧
    (s.nodes i).m_raft_logger.m_commitIndex ≤ (s.nodes i).m_raft_logger.getLastIndex

def KeepsApplied (s t : Cluster) : Prop := ∀ i,
  (s.nodes i).m_raft_logger.m_lastApplied ≤ (t.nodes i).m_raft_logger.m_lastApplied ∧
  (s.nodes i).m_raft_logger.m_commitIndex ≤ (t.nodes i).m_raft_logger.m_commitIndex ∧
  (s.entries i).take ((s.nodes i).m_raft_logger.m_lastApplied + 1) <+: t.entries i

theorem KeepsApplied.refl (s : Cluster) : KeepsApplied s s := fun _ =>
  ⟨le_rfl, le_rfl, List.take_prefix ..⟩

theorem KeepsApplied.trans {s t u : Cluster} (st : KeepsApplied s t) (tu : KeepsApplied t u) :
    KeepsApplied s u := by
  intro i
  obtain ⟨applied, commit, kept⟩ := st i
  obtain ⟨applied', commit', kept'⟩ := tu i
  refine ⟨applied.trans applied', commit.trans commit', List.IsPrefix.trans ?_ kept'⟩
  refine List.prefix_take_iff.mpr ⟨kept, ?_⟩
  rw [List.length_take]
  omega

/-- What a step does to the indices of a node, measured against the log before it. -/
theorem progress_bounded {cfg : Config} {s s' : Cluster} {a : Action} (bounded : Bounded s)
    (ok : BoundsOk cfg s a) (h : step cfg s a = some s') (i : Nat) :
    (s'.progress i).lastApplied ≤ (s'.progress i).commitIndex ∧
    (s.progress i).lastApplied ≤ (s'.progress i).lastApplied ∧
    (s.progress i).commitIndex ≤ (s'.progress i).commitIndex ∧
    (s'.progress i).commitIndex ≤ (s.nodes i).m_raft_logger.getLastIndex := by
  obtain ⟨applied, committed⟩ : (s.progress i).lastApplied ≤ (s.progress i).commitIndex ∧
    (s.progress i).commitIndex ≤ (s.nodes i).m_raft_logger.getLastIndex := bounded i
  have elsewhere : ∀ {v : Nat} {p : Progress}, s'.progress = Function.update s.progress v p →
      i ≠ v → s'.progress i = s.progress i := fun moved ne => by
    rw [moved, Function.update_of_ne ne]
  have stays : s'.progress i = s.progress i →
      (s'.progress i).lastApplied ≤ (s'.progress i).commitIndex ∧
      (s.progress i).lastApplied ≤ (s'.progress i).lastApplied ∧
      (s.progress i).commitIndex ≤ (s'.progress i).commitIndex ∧
      (s'.progress i).commitIndex ≤ (s.nodes i).m_raft_logger.getLastIndex := fun same => by
    rw [same]
    exact ⟨applied, le_rfl, le_rfl, committed⟩
  cases step_progressStep h with
  | still same _ _ => exact stays (congrFun same i)
  | win k call rets _ _ _ _ moved _ _ =>
      by_cases here : i = call.src
      · subst here
        rw [moved, Function.update_self]
        exact ⟨applied, le_rfl, le_rfl, committed⟩
      · exact stays (elsewhere moved here)
  | reply v l k loop call rets act found waits sent answer leads term success moved _ _ =>
      by_cases here : i = v
      · subst here act
        rw [moved, Function.update_self]
        rcases RaftNode.commitReplicated_cases cfg i (s.nodes i) loop.nodeId with
          ⟨same, -⟩ | ⟨full, raised, grown, -⟩
        · rw [same]
          exact ⟨applied, le_rfl, le_rfl, committed⟩
        · -- the new commit index is the one the leader counted for
          have inside := ok _ (appendReplyAt_eq found waits sent answer) ⟨leads, term, success, full⟩
          have index : (s.progress i).commitIndex < _ := raised
          rw [grown]
          refine ⟨applied.trans index.le, le_rfl, index.le, ?_⟩
          rw [RaftNode.advance_matched]
          exact (pred64_u64_le _).trans inside
      · exact stays (elsewhere moved here)
  | adopt k call act found le _ _ moved _ _ =>
      by_cases here : i = call.dst
      · subst here act
        have higher := ok call found le
        rw [moved, Function.update_self]
        exact ⟨applied.trans (le_min higher committed), le_rfl, le_min higher committed,
          min_le_right ..⟩
      · exact stays (elsewhere moved here)
  | apply v entry _ behind found moved _ _ =>
      by_cases here : i = v
      · subst here
        rw [moved, Function.update_self]
        exact ⟨behind, Nat.le_succ _, le_rfl, committed⟩
      · exact stays (elsewhere moved here)

theorem bounded_step {cfg : Config} {s s' : Cluster} {a : Action} (positions : Positions s)
    (bounded : Bounded s) (ok : BoundsOk cfg s a) (h : step cfg s a = some s') :
    Bounded s' ∧ KeepsApplied s s' := by
  have positions' := positions_step positions h
  have last : ∀ i, (s.nodes i).m_raft_logger.getLastIndex = (s.entries i).length - 1 := fun i =>
    RaftLogger.getLastIndex_eq (positions.log i)
  have last' : ∀ i, (s'.nodes i).m_raft_logger.getLastIndex = (s'.entries i).length - 1 := fun i =>
    RaftLogger.getLastIndex_eq (positions'.log i)
  have node : ∀ i, (s'.progress i).commitIndex ≤ (s'.nodes i).m_raft_logger.getLastIndex ∧
      (s.entries i).take ((s.progress i).lastApplied + 1) <+: s'.entries i := by
    intro i
    obtain ⟨-, -, -, committed⟩ := progress_bounded bounded ok h i
    rcases entries_step h i with grows | ⟨k, params, p, rfl, at_, hit, entries⟩
    · have := grows.length_le
      rw [last'] at *
      rw [last] at committed
      exact ⟨by omega, (List.take_prefix ..).trans grows⟩
    · obtain ⟨bound, applied⟩ := ok _ at_ p hit
      obtain ⟨-, e, inside, -⟩ := (RaftLogger.matchPrev_eq_some (positions.log i)).mp hit
      have inside := (List.getElem?_eq_some_iff.mp inside).1
      have upTo : (s.progress i).lastApplied ≤ p + 1 := (bounded i).1.trans bound
      have length : (s'.entries i).length = p + 2 := by
        rw [entries, List.length_append, List.length_take]
        exact congrArg (· + 1) (min_eq_left inside)
      refine ⟨?_, ?_⟩
      · rw [progress_end h, last', length]
        exact bound
      · rw [entries]
        rcases Nat.lt_or_ge (s.progress i).lastApplied (p + 1) with early | late
        · exact (List.take_prefix_take_left early).trans (List.prefix_append ..)
        · -- the entry that is replaced is the one that comes
          have at_last : (s.progress i).lastApplied = p + 1 := by omega
          have there : (s.entries i)[p + 1]? = some params.entry :=
            applied.resolve_left (not_le.mpr late)
          obtain ⟨lt, same⟩ := List.getElem?_eq_some_iff.mp there
          rw [at_last, List.take_succ_eq_append_getElem lt, same]
  refine ⟨fun i => ?_, fun i => ?_⟩
  · obtain ⟨applied, -, -, -⟩ := progress_bounded bounded ok h i
    exact ⟨applied, (node i).1⟩
  · obtain ⟨-, later, higher, -⟩ := progress_bounded bounded ok h i
    exact ⟨later, higher, (node i).2⟩

theorem positions_bounded_step {cfg : Config} {s s' : Cluster} {a : Action}
    (sound : Positions s ∧ Bounded s) (ok : BoundsOk cfg s a) (h : step cfg s a = some s') :
    Positions s' ∧ Bounded s' :=
  ⟨positions_step sound.1 h, (bounded_step sound.1 sound.2 ok h).1⟩

theorem bounded_run {cfg : Config} {as : List Action} {s : Cluster}
    (run : Run (step cfg) (BoundsOk cfg) {} as s) : Positions s ∧ Bounded s :=
  run.invariant (P := fun s => Positions s ∧ Bounded s)
    ⟨positions_initial, fun _ => ⟨le_rfl, Nat.zero_le _⟩⟩
    fun _ _ _ sound ok next => positions_bounded_step sound ok next

/-- In a run whose writers of commit indices and logs keep to what is committed, what
is applied is committed and what is committed is in the log; an apply round finds its
entry; and from then on indices only rise and no applied entry is cut off. -/
theorem commit_and_apply_bounds {cfg : Config} {as : List Action} {s : Cluster}
    (run : Run (step cfg) (BoundsOk cfg) {} as s) : Bounded s ∧
    (∀ i, (s.nodes i).m_raft_logger.m_lastApplied < (s.nodes i).m_raft_logger.m_commitIndex →
      (s.nodes i).m_raft_logger.m_lastApplied + 1 < (s.entries i).length) ∧
    ∀ bs t, Run (step cfg) (BoundsOk cfg) s bs t → KeepsApplied s t := by
  obtain ⟨positions, bounded⟩ := bounded_run run
  refine ⟨bounded, fun i behind => ?_, fun bs t later => ?_⟩
  · have committed := (bounded i).2
    rw [RaftLogger.getLastIndex_eq (positions.log i)] at committed
    rw [Cluster.entries]
    omega
  · exact later.relates_of (P := fun s => Positions s ∧ Bounded s) ⟨positions, bounded⟩
      (fun _ _ _ sound ok next => positions_bounded_step sound ok next)
      KeepsApplied.refl (fun _ _ _ => KeepsApplied.trans)
      fun _ _ _ sound ok next => (bounded_step sound.1 sound.2 ok next).2

theorem replicated_no_op_bounds : ∃ s, (s.nodes 0).m_raft_logger.m_lastApplied = 1 ∧ Bounded s := by
  have done : (exec (guarded (step threeNodes) (BoundsOk threeNodes)) {}
      (zeroElected ++ roundToOne 0 0 ++ [.applyRound 0])).map
        (fun s => (s.nodes 0).m_raft_logger.m_lastApplied) = some 1 := by decide +kernel
  obtain ⟨s, run, seen⟩ := Option.map_eq_some_iff.mp done
  exact ⟨s, seen, (commit_and_apply_bounds (.of_guarded run)).1⟩

/-- Node 1 applies the entry it was sent; node 2 is elected behind its back, and its
heartbeat takes the commit index of node 1 back to 0. -/
def oneUncommits : List Action :=
  zeroElected ++ [.replicateSend 0 1, .appendEntries 0, .appendEntriesEnd 2] ++ roundToOne 0 1 ++
    [.heartbeat 0 1, .appendEntries 2, .applyRound 1, .electionTimer 2, .startElection 2,
      .raftVote 3, .voteReply 3, .heartbeat 2 1, .appendEntries 3]

/-- A new leader's heartbeat can take a commit index below what was applied. -/
theorem heartbeat_uncommits : ∃ s, Run (step threeNodes) Always {} oneUncommits s ∧
    ¬ Bounded s := by
  have done : (exec (step threeNodes) {} oneUncommits).map
      (fun s => ((s.nodes 1).m_raft_logger.m_commitIndex,
        (s.nodes 1).m_raft_logger.m_lastApplied)) = some (0, 1) := by decide +kernel
  obtain ⟨s, run, seen⟩ := Option.map_eq_some_iff.mp done
  obtain ⟨commit, applied⟩ := Prod.mk.injEq .. ▸ seen
  refine ⟨s, .of_exec run, fun bounded => ?_⟩
  have le := (bounded 1).1
  rw [commit, applied] at le
  exact absurd le (by decide)

end CRpc.Raft
