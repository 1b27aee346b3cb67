import CRpc.Raft.Commits

/-! What the nodes apply. Where followers commit only what their leader has, all nodes
apply the same entries in the same order. -/
namespace CRpc.Raft

open Cluster Transition Ledger

variable {cfg : Config} {s s' : Cluster} {a : Action} {l l' : Book}

/-- A follower raises its commit index only to an entry its leader had as well. -/
def AdoptsShared (s : Cluster) : Action → Prop
  | .appendEntries k => ∀ call ∈ s.appendCalls[k]?,
      (s.nodes call.dst).m_currentTerm ≤ call.request.term →
      let index := min call.request.leaderCommit (s.nodes call.dst).m_raft_logger.getLastIndex
      index ≤ (s.nodes call.dst).m_raft_logger.m_commitIndex ∨
        (s.nodes call.dst).m_raft_logger.m_entries[index]? = call.sent[index]?
  | _ => True

def AppliesOk (cfg : Config) (s : Cluster) (a : Action) : Prop :=
  CommitsOk cfg s a ∧ AdoptsShared s a

instance (s : Cluster) : DecidablePred (AdoptsShared s) := by
  rintro ⟨⟩ <;> dsimp only [AdoptsShared] <;> infer_instance

instance (cfg : Config) (s : Cluster) : DecidablePred (AppliesOk cfg s) := fun _ =>
  inferInstanceAs (Decidable (_ ∧ _))

abbrev SettledIn (cfg : Config) (l : Book) (T n : Nat) (entries : List Entry) : Prop :=
  Settled Entry.term (Finset.range cfg.size) l T n entries

structure Machines (cfg : Config) (s : Cluster) (l : Book) : Prop where
  committed : ∀ i, SettledIn cfg l (s.core i).term ((s.progress i).commitIndex + 1) (s.entries i)
  sent : ∀ c ∈ s.appendCalls, SettledIn cfg l c.request.term (c.request.leaderCommit + 1) c.sent
  applied : ∀ i, ∃ T entries, SettledIn cfg l T ((s.progress i).lastApplied + 1) entries ∧
    (s.progress i).applied = (entries.take ((s.progress i).lastApplied + 1)).tail
  index : ∀ i (n : Nat) (e : Entry), (s.progress i).applied[n]? = some e → e.index = n + 1
  addresses : ∀ i, (s.progress i).addresses = (s.progress i).applied.foldl RaftLogger.applyOp []

theorem machines_initial (odd : Odd cfg.size) : Machines cfg {} blank := by
  have first : SettledIn cfg blank 0 1 [{}] := by
    refine ⟨0, 0, ⟨0, [], [{}]⟩, ⟨rfl, ⟨{}, rfl, rfl⟩, Finset.range cfg.size, ⟨subset_rfl, ?_⟩,
      fun _ _ => Nat.zero_lt_one⟩, le_rfl, le_rfl, List.prefix_rfl⟩
    obtain ⟨m, size⟩ := odd
    rw [Finset.card_range]
    omega
  exact ⟨fun _ => first, by simp, fun _ => ⟨0, [{}], first, rfl⟩,
    by simp [Cluster.progress, RaftNode.progress], fun _ => rfl⟩

theorem commitIndex_step (odd : Odd cfg.size) (retained : Retained cfg s l)
    (ok : CommitsOk cfg s a) (h : step cfg s a = some s') (i : Nat) :
    (s'.progress i).commitIndex = (s.progress i).commitIndex ∨
    SettledIn cfg l (s.core i).term ((s'.progress i).commitIndex + 1) (s.entries i) ∨
    ∃ k call, a = .appendEntries k ∧ s.appendCalls[k]? = some call ∧ call.dst = i ∧
      (s.core i).term ≤ call.request.term ∧ (s'.core i).term = call.request.term ∧
      s'.entries = s.entries ∧ (s'.progress i).commitIndex =
        min call.request.leaderCommit (s.nodes i).m_raft_logger.getLastIndex := by
  cases step_progressStep h with
  | still same _ _ => exact .inl (by rw [same])
  | win _ call _ _ _ _ _ moved _ _ =>
      left
      rw [moved, Function.update_apply]
      split_ifs with at_
      · rw [at_]
      · rfl
  | reply v n k loop call rets act found waits sent reply leads term success moved _ _ =>
      subst act
      by_cases at_ : i = v
      · subst at_
        rw [moved, Function.update_self]
        rcases RaftNode.commitReplicated_cases cfg i (s.nodes i) loop.nodeId with
          ⟨same, -⟩ | ⟨full, raised, same, -⟩
        · exact .inl (by rw [same]; rfl)
        · obtain ⟨r, log, chosen⟩ := reply_chosen odd retained ok found waits sent reply leads term
            success full raised
          rw [same]
          exact .inr (.inl ⟨_, _, r, chosen, le_rfl, le_rfl, log ▸ List.take_prefix ..⟩)
      · exact .inl (by rw [moved, Function.update_of_ne at_])
  | adopt k call act found le term entries moved _ _ =>
      by_cases at_ : i = call.dst
      · subst at_
        exact .inr (.inr ⟨k, call, act, found, rfl, le, term, entries,
          by rw [moved, Function.update_self]⟩)
      · exact .inl (by rw [moved, Function.update_of_ne at_])
  | apply v entry _ _ _ moved _ _ =>
      left
      rw [moved, Function.update_apply]
      split_ifs with at_
      · rw [at_]
      · rfl

theorem tail_take_succ {α : Type*} {es : List α} {n : Nat} {e : α} (at_ : es[n + 1]? = some e) :
    (es.take (n + 2)).tail = (es.take (n + 1)).tail ++ [e] := by
  obtain ⟨lt, rfl⟩ := List.getElem?_eq_some_iff.mp at_
  rw [List.take_succ_eq_append_getElem lt, List.tail_append_of_ne_nil]
  exact List.ne_nil_of_length_pos (by rw [List.length_take]; omega)

theorem tail_take_getElem? {α : Type*} {es : List α} {n m : Nat} (le : n + 1 ≤ m) :
    (es.take (m + 1)).tail[n]? = es[n + 1]? := by
  rw [List.getElem?_tail, List.getElem?_take_of_lt (Nat.lt_succ_of_le le)]

theorem Machines.length (machines : Machines cfg s l) (i : Nat) :
    (s.progress i).applied.length = (s.progress i).lastApplied := by
  obtain ⟨T, es, settled, applied⟩ := machines.applied i
  have := settled.length
  rw [applied, List.length_tail, List.length_take]
  omega

/-- What a follower takes over from its leader's commit index is settled of its own log. -/
theorem adopted_settled (safe : Safe cfg s l) (machines : Machines cfg s l) {k : Nat}
    {call : AppendCall} (ok : AdoptsShared s (.appendEntries k))
    (found : s.appendCalls[k]? = some call)
    (le : (s.core call.dst).term ≤ call.request.term) :
    SettledIn cfg l call.request.term
      (min call.request.leaderCommit (s.nodes call.dst).m_raft_logger.getLastIndex + 1)
      (s.entries call.dst) := by
  obtain ⟨sim, -, -⟩ := safe.toRetained
  have mem := List.mem_of_getElem? found
  rcases ok call found le with lower | shared
  · exact ((machines.committed call.dst).shorter (Nat.succ_le_succ lower)).later le
  · have settled := (machines.sent call mem).shorter
      (Nat.succ_le_succ (min_le_left _ (s.nodes call.dst).m_raft_logger.getLastIndex))
    obtain ⟨-, -, r, reign, -, sent⟩ := sim.calls.sent call mem
    obtain ⟨e, at_⟩ : ∃ e, call.sent[min call.request.leaderCommit
        (s.nodes call.dst).m_raft_logger.getLastIndex]? = some e :=
      ⟨_, List.getElem?_eq_getElem settled.length⟩
    have heldSent : Held Entry.term l call.sent := by
      rw [List.prefix_iff_eq_take.mp sent]
      exact (sim.inv.reignHeld _ r reign).take _
    have held : Held Entry.term l (s.entries call.dst) :=
      sim.votes.log call.dst ▸ sim.inv.held call.dst
    have same := heldSent.matching held at_ (shared.trans at_) rfl
    exact settled.congr (same ▸ List.take_prefix ..)

theorem committed_step (odd : Odd cfg.size) (safe : Safe cfg s l) (machines : Machines cfg s l)
    (ok : AppliesOk cfg s a) (h : step cfg s a = some s')
    (moves : Moves Entry.term (Finset.range cfg.size) True l l') (sim' : Sim cfg s' l') (i : Nat) :
    SettledIn cfg l' (s'.core i).term ((s'.progress i).commitIndex + 1) (s'.entries i) := by
  obtain ⟨sim, ret, -⟩ := safe.toRetained
  have stays : ∀ n, SettledIn cfg l (s.core i).term n (s.entries i) →
      SettledIn cfg l' (s'.core i).term n (s'.entries i) := by
    intro n settled
    rw [← sim'.votes.term, ← sim'.votes.log]
    rw [← sim.votes.term, ← sim.votes.log] at settled
    exact settled.stays ret sim.inv moves trivial
  rcases commitIndex_step odd safe.toRetained ok.1 h i with same | settled | ⟨k, call, rfl, found,
    rfl, le, term, entries, adopted⟩
  · rw [same]
    exact stays _ (machines.committed i)
  · exact stays _ settled
  · rw [adopted, term, entries]
    exact (adopted_settled safe machines ok.2 found le).mono (moves.inv_grows sim.inv).2

/-- An applied entry is the next one of the log, and stands behind all others. -/
theorem appliedIndex_step (safe : Safe cfg s l) (machines : Machines cfg s l)
    (h : step cfg s a = some s') (i n : Nat) (e : Entry)
    (at_ : (s'.progress i).applied[n]? = some e) : e.index = n + 1 := by
  rcases applied_step h i with ⟨-, same, -⟩ | ⟨entry, behind, found, -, new, -⟩
  · exact machines.index i n e (same ▸ at_)
  · rw [new] at at_
    rcases Nat.lt_or_ge n (s.progress i).applied.length with old | last
    · rw [List.getElem?_append_left old] at at_
      exact machines.index i n e at_
    · rw [List.getElem?_append_right last] at at_
      have length := machines.length i
      obtain ⟨rfl, rfl⟩ : n = (s.progress i).lastApplied ∧ entry = e := by
        cases zero : n - (s.progress i).applied.length with
        | zero => exact ⟨by omega, by simpa [zero] using at_⟩
        | succ m => simp [zero] at at_
      exact (safe.sim.positions.log i).index _ _ found

/-- What a node has applied is settled, and an entry it applies next is settled with it. -/
theorem applied_settled (safe : Safe cfg s l) (machines : Machines cfg s l)
    (h : step cfg s a = some s') {i T : Nat} {es : List Entry}
    (settled : SettledIn cfg l T ((s.progress i).lastApplied + 1) es)
    (applied : (s.progress i).applied = (es.take ((s.progress i).lastApplied + 1)).tail) :
    ∃ U fs, (U = T ∨ U = (s.core i).term) ∧
      SettledIn cfg l U ((s'.progress i).lastApplied + 1) fs ∧
      (s'.progress i).applied = (fs.take ((s'.progress i).lastApplied + 1)).tail := by
  rcases applied_step h i with ⟨last, same, -⟩ | ⟨entry, behind, found, last, new, -⟩
  · rw [last, same]
    exact ⟨T, es, .inl rfl, settled, applied⟩
  · have committed := (machines.committed i).shorter (Nat.succ_le_succ behind)
    have agree := settled.agree safe.ret safe.sim.inv committed le_rfl (Nat.le_succ _)
    rw [last, new]
    refine ⟨_, s.entries i, .inr rfl, committed, ?_⟩
    rw [tail_take_succ found, applied, agree]

theorem machines_step (odd : Odd cfg.size) (safe : Safe cfg s l) (machines : Machines cfg s l)
    (ok : AppliesOk cfg s a) (h : step cfg s a = some s')
    (moves : Moves Entry.term (Finset.range cfg.size) True l l') (sim' : Sim cfg s' l') :
    Machines cfg s' l' := by
  have grows := (moves.inv_grows safe.sim.inv).2
  refine ⟨committed_step odd safe machines ok h moves sim', fun c mem => ?_, fun i => ?_,
    appliedIndex_step safe machines h, fun i => ?_⟩
  · rcases appendCalls_origin h mem with ⟨d, old, same⟩ | ⟨i, sends⟩
    · rw [same.request, same.sent]
      exact (machines.sent d old).mono grows
    · obtain ⟨e, request, -⟩ := sends.request
      rw [request, sends.sent]
      exact (machines.committed i).mono grows
  · obtain ⟨T, es, settled, applied⟩ := machines.applied i
    obtain ⟨U, fs, -, settled', applied'⟩ := applied_settled safe machines h settled applied
    exact ⟨U, fs, settled'.mono grows, applied'⟩
  · rcases applied_step h i with ⟨-, same, addresses⟩ | ⟨entry, -, -, -, new, addresses⟩
    · rw [addresses, same]
      exact machines.addresses i
    · rw [addresses, new, List.foldl_append, ← machines.addresses i]
      rfl

/-- Nodes that have applied an entry at one index have applied the same one, and nodes
that have applied equally many hold the same registry. -/
def StateMachinesAgree (s : Cluster) : Prop := ∀ i j,
  (∀ n, 1 ≤ n → n ≤ (s.nodes i).m_raft_logger.m_lastApplied →
    n ≤ (s.nodes j).m_raft_logger.m_lastApplied → ∃ e, e.index = n ∧
      (s.nodes i).m_raft_logger.applied[n - 1]? = some e ∧
      (s.nodes j).m_raft_logger.applied[n - 1]? = some e) ∧
  ((s.nodes i).m_raft_logger.m_lastApplied = (s.nodes j).m_raft_logger.m_lastApplied →
    (s.nodes i).m_raft_logger.m_addresses = (s.nodes j).m_raft_logger.m_addresses)

theorem Machines.agree (machines : Machines cfg s l) (safe : Safe cfg s l) :
    StateMachinesAgree s := by
  intro i j
  obtain ⟨T, es, hi, ai⟩ := machines.applied i
  obtain ⟨U, fs, hj, aj⟩ := machines.applied j
  have same : ∀ n, n ≤ (s.progress i).lastApplied → n ≤ (s.progress j).lastApplied →
      es.take (n + 1) = fs.take (n + 1) := fun n le le' =>
    hi.agree safe.ret safe.sim.inv hj (Nat.succ_le_succ le) (Nat.succ_le_succ le')
  refine ⟨fun n pos le le' => ?_, fun equal => ?_⟩
  · have at_ : ∀ {last : Nat} {gs : List Entry}, n ≤ last →
        (gs.take (last + 1)).tail[n - 1]? = (gs.take (n + 1))[n]? := by
      intro last gs le
      rw [tail_take_getElem? (by omega), Nat.sub_add_cancel pos,
        List.getElem?_take_of_lt (Nat.lt_succ_self n)]
    have one : (s.progress i).applied[n - 1]? = (es.take (n + 1))[n]? := by
      rw [ai]
      exact at_ le
    have two : (s.progress j).applied[n - 1]? = (es.take (n + 1))[n]? := by
      rw [aj, same n le le']
      exact at_ le'
    obtain ⟨e, found⟩ : ∃ e, (es.take (n + 1))[n]? = some e := by
      refine ⟨_, List.getElem?_eq_getElem ?_⟩
      have : n ≤ (s.progress i).lastApplied := le
      have := hi.length
      rw [List.length_take]
      omega
    refine ⟨e, ?_, one.trans found, two.trans found⟩
    have := machines.index i (n - 1) e (one.trans found)
    omega
  · have equal : (s.progress i).lastApplied = (s.progress j).lastApplied := equal
    have addresses : (s.progress i).addresses = (s.progress j).addresses := by
      rw [machines.addresses i, machines.addresses j, ai, aj, same _ le_rfl equal.le, equal]
    exact addresses

/-- State machine safety holds in every run of an odd number of nodes where commits are
sound and followers commit only what their leader has. -/
theorem state_machines_agree (odd : Odd cfg.size) {as : List Action}
    (run : Run (step cfg) (AppliesOk cfg) {} as s) : StateMachinesAgree s := by
  obtain ⟨l, safe, machines⟩ := run.invariant
    (P := fun s => ∃ l, Safe cfg s l ∧ Machines cfg s l)
    ⟨blank, safe_initial cfg, machines_initial odd⟩
    fun _ _ _ ⟨_, safe, machines⟩ ok next => by
      obtain ⟨l', moves, safe'⟩ := safe_step odd safe ok.1 next
      exact ⟨l', safe', machines_step odd safe machines ok next moves safe'.sim⟩
  exact machines.agree safe

/-- Both nodes apply the no-op of node 0. -/
theorem no_op_applied_twice : ∃ s, StateMachinesAgree s ∧
    (s.nodes 0).m_raft_logger.m_lastApplied = 1 ∧ (s.nodes 1).m_raft_logger.m_lastApplied = 1 := by
  have done : (exec (guarded (step threeNodes) (AppliesOk threeNodes)) {}
      (zeroElected ++ roundToOne 0 0 ++ [.heartbeat 0 1, .appendEntries 1, .applyRound 0,
        .applyRound 1])).map (fun s => ((s.nodes 0).m_raft_logger.m_lastApplied,
          (s.nodes 1).m_raft_logger.m_lastApplied)) = some (1, 1) := by decide +kernel
  obtain ⟨s, run, seen⟩ := Option.map_eq_some_iff.mp done
  obtain ⟨zero, one⟩ := Prod.mk.injEq .. ▸ seen
  exact ⟨s, state_machines_agree threeNodes_odd (.of_guarded run), zero, one⟩

/-- Node 2 takes over from node 0 before it has replicated, commits in its place, and
its heartbeat makes node 0 apply the entry only node 0 has. -/
def zeroAppliesAlone : List Action :=
  zeroElected ++ [.electionTimer 2, .startElection 2, .electionTimer 2, .startElection 2,
    .raftVote 5, .voteReply 5, .replicateSend 2 1, .appendEntries 0, .appendEntriesEnd 1,
    .replicateReply 2 1, .applyRound 2, .heartbeat 2 0, .appendEntries 1, .applyRound 0]

/-- A heartbeat can make a node apply an entry that was never replicated. -/
theorem heartbeat_commits_divergent : ∃ s, Run (step threeNodes) Always {} zeroAppliesAlone s ∧
    ¬ StateMachinesAgree s := by
  have done : (exec (step threeNodes) {} zeroAppliesAlone).map (fun s =>
      ((s.nodes 0).m_raft_logger.m_lastApplied, (s.nodes 2).m_raft_logger.m_lastApplied,
        (s.nodes 0).m_raft_logger.applied.map Entry.term,
        (s.nodes 2).m_raft_logger.applied.map Entry.term)) = some (1, 1, [1], [2]) := by
    decide +kernel
  obtain ⟨s, run, seen⟩ := Option.map_eq_some_iff.mp done
  simp only [Prod.mk.injEq] at seen
  obtain ⟨zero, two, terms, terms'⟩ := seen
  refine ⟨s, .of_exec run, fun agree => ?_⟩
  obtain ⟨e, -, at_, at_'⟩ := (agree 0 2).1 1 le_rfl zero.ge two.ge
  have one : ([1] : List Nat)[0]? = some e.term := by rw [← terms, List.getElem?_map, at_]; rfl
  have two : ([2] : List Nat)[0]? = some e.term := by rw [← terms', List.getElem?_map, at_']; rfl
  cases one.trans two.symm

end CRpc.Raft
