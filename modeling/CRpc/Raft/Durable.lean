import CRpc.Raft.InTurn
import CRpc.Raft.Machines

/-! What is applied stays. Where leaders take office in order, and no node takes a commit index over
that reaches further than it knows its log to be the leader's, an entry that one node has applied is
applied at its index by all, and every later leader has it. -/
namespace CRpc.Raft

open Cluster Transition Ledger

/-- What a request tells a node of its log: that it is the leader's up to the entry before the one
it brings, and all of it where the log ends in the leader's term. -/
def RaftNode.Knows (nd : RaftNode) (params : AppendEntriesParams) (index : Nat) : Prop :=
  nd.m_raft_logger.getLastTerm = params.term ∨ params.entry.op ≠ .heartbeat ∧
    ∃ p ∈ nd.m_raft_logger.matchPrev params.prevLogIndex params.prevLogTerm, index ≤ p

/-- A node raises its commit index only as far as it knows its log to be the leader's. -/
def AdoptsKnown (s : Cluster) : Action → Prop
  | .appendEntries k => ∀ call ∈ s.appendCalls[k]?,
      (s.nodes call.dst).m_currentTerm ≤ call.request.term →
      let index := min call.request.leaderCommit (s.nodes call.dst).m_raft_logger.getLastIndex
      index ≤ (s.nodes call.dst).m_raft_logger.m_commitIndex ∨
        (s.nodes call.dst).Knows call.request index
  | _ => True

/-- Takeovers in order, registrations by leaders, no timeouts, and no commit index taken over
unchecked. -/
def DurableOk (cfg : Config) (s : Cluster) (a : Action) : Prop := InTurnOk cfg s a ∧ AdoptsKnown s a

instance (nd : RaftNode) (params : AppendEntriesParams) (index : Nat) :
    Decidable (nd.Knows params index) :=
  inferInstanceAs (Decidable (_ ∨ _ ∧ _))

instance (s : Cluster) : DecidablePred (AdoptsKnown s) := by
  rintro ⟨⟩ <;> dsimp only [AdoptsKnown] <;> infer_instance

instance (cfg : Config) (s : Cluster) : DecidablePred (DurableOk cfg s) := fun _ =>
  inferInstanceAs (Decidable (_ ∧ _))

/-- The cluster with the ledger that mirrors it; what a node has applied was settled by its term. -/
structure Durable (cfg : Config) (s : Cluster) (l : Book) : Prop where
  ordered : Ordered cfg s
  once : Once s
  safe : Safe cfg s l
  machines : Machines cfg s l
  applied : ∀ i, ∃ es, SettledIn cfg l (s.core i).term ((s.progress i).lastApplied + 1) es ∧
    (s.progress i).applied = (es.take ((s.progress i).lastApplied + 1)).tail

section Steps

variable {cfg : Config} {s s' : Cluster} {a : Action} {l : Book}

theorem RaftNode.Knows.same (safe : Safe cfg s l) {call : AppendCall} (mem : call ∈ s.appendCalls)
    {index : Nat} (knows : (s.nodes call.dst).Knows call.request index)
    (short : index < call.sent.length) (short' : index < (s.entries call.dst).length) :
    (s.entries call.dst)[index]? = call.sent[index]? := by
  obtain ⟨-, -, r, reign, -, sent⟩ := safe.sim.calls.sent call mem
  have placed := safe.sim.positions.log call.dst
  have held : Held Entry.term l (s.entries call.dst) :=
    safe.sim.votes.log call.dst ▸ safe.sim.inv.held call.dst
  have at_ := List.getElem?_eq_getElem short
  rcases knows with term | ⟨real, p, hit, le⟩
  · have last : lastStamp Entry.term (s.entries call.dst) = call.request.term :=
      (lastEntry_term _).symm.trans term
    have pre : s.entries call.dst <+: r.log :=
      held.prefix_reign (List.ne_nil_of_length_pos placed.length_pos) (last ▸ reign)
    have at_' := List.getElem?_eq_getElem short'
    have same := (prefix_getElem? sent at_).symm.trans (prefix_getElem? pre at_')
    exact at_'.trans (same.symm.trans at_.symm)
  · obtain ⟨prev, e, inside, prevTerm⟩ := (RaftLogger.matchPrev_eq_some placed).mp hit
    have bound := (List.getElem?_eq_some_iff.mp inside).1
    obtain ⟨next, before⟩ :=
      (safe.sim.positions.call call mem).next real prev (bound.trans_le placed.room)
    have longer := (List.getElem?_eq_some_iff.mp next).1
    have there := List.getElem?_eq_getElem (Nat.lt_of_succ_lt longer)
    have same : (s.entries call.dst).take (p + 1) = r.log.take (p + 1) :=
      held.matching (safe.sim.inv.reignHeld _ r reign) inside (prefix_getElem? sent there)
        (prevTerm.trans (before _ there))
    have up := Nat.lt_succ_of_le le
    calc (s.entries call.dst)[index]? = ((s.entries call.dst).take (p + 1))[index]? :=
          (List.getElem?_take_of_lt up).symm
      _ = r.log[index]? := by rw [same, List.getElem?_take_of_lt up]
      _ = call.sent[index]? := (prefix_getElem? sent at_).trans at_.symm

theorem AdoptsKnown.shared (known : AdoptsKnown s a) (safe : Safe cfg s l)
    (machines : Machines cfg s l) : AdoptsShared s a := by
  cases a with
  | appendEntries k =>
      intro call found le
      refine (known call found le).imp_right fun knows => ?_
      have mem := List.mem_of_getElem? found
      have placed := safe.sim.positions.log call.dst
      have index : (s.nodes call.dst).m_raft_logger.getLastIndex < (s.entries call.dst).length :=
        RaftLogger.getLastIndex_eq placed ▸ Nat.sub_lt placed.length_pos Nat.one_pos
      exact knows.same safe mem
        (lt_of_le_of_lt (min_le_left ..) (machines.sent call mem).length)
        (lt_of_le_of_lt (min_le_right ..) index)
  | _ => trivial

theorem durable_initial (odd : Odd cfg.size) : Durable cfg {} blank := by
  have machines : Machines cfg {} blank := machines_initial odd
  exact ⟨ordered_initial cfg, once_initial, safe_initial cfg, machines,
    fun i => ⟨_, machines.committed i, rfl⟩⟩

theorem durable_step (odd : Odd cfg.size) (durable : Durable cfg s l) (ok : DurableOk cfg s a)
    (h : step cfg s a = some s') : ∃ l', Grows l l' ∧ Durable cfg s' l' := by
  obtain ⟨ordered, once, safe, machines, applied⟩ := durable
  have commits := ok.1.commitsOk odd ordered once safe
  obtain ⟨l', moves, safe'⟩ := safe_step odd safe commits h
  have grows := (moves.inv_grows safe.sim.inv).2
  have machines' := machines_step odd safe machines ⟨commits, ok.2.shared safe machines⟩ h moves
    safe'.sim
  refine ⟨l', grows, ordered_step odd ordered ok.1.1 h,
    once_step odd ordered once safe.sim.calls.busy ok.1 h, safe', machines', fun i => ?_⟩
  have later : (s.core i).term ≤ (s'.core i).term := by
    rw [← safe.sim.votes.term i, ← safe'.sim.votes.term i]
    exact grows.term i
  obtain ⟨es, settled, same⟩ := applied i
  obtain ⟨U, fs, term, settled', same'⟩ := applied_settled safe machines h settled same
  obtain rfl : U = (s.core i).term := term.elim id id
  exact ⟨fs, (settled'.mono grows).later later, same'⟩

theorem durable_run (odd : Odd cfg.size) (durable : Durable cfg s l) {as : List Action}
    (run : Run (step cfg) (DurableOk cfg) s as s') : ∃ l', Grows l l' ∧ Durable cfg s' l' := by
  apply run.invariant (P := fun t => ∃ l', Grows l l' ∧ Durable cfg t l')
  · exact ⟨l, Grows.refl l, durable⟩
  · rintro t b u ⟨l₁, grows, durable₁⟩ ok next
    obtain ⟨l₂, grows', durable₂⟩ := durable_step odd durable₁ ok next
    exact ⟨l₂, grows.trans grows', durable₂⟩

end Steps

/-- What a node has applied is applied for good. However the run goes on, each leader of a term after
the node's has the entry at its index, and a node that applies that index applies the entry. -/
theorem applied_for_good {cfg : Config} (odd : Odd cfg.size) {as bs : List Action} {s t : Cluster}
    (first : Run (step cfg) (DurableOk cfg) {} as s)
    (second : Run (step cfg) (DurableOk cfg) s bs t)
    {i n : Nat} {e : Entry} (applied : (s.nodes i).m_raft_logger.applied[n]? = some e) :
    e.index = n + 1 ∧
    (∀ j U es, .leader j U es ∈ t.history → (s.nodes i).m_currentTerm < U →
      es[n + 1]? = some e) ∧
    ∀ j, n < (t.nodes j).m_raft_logger.m_lastApplied →
      (t.nodes j).m_raft_logger.applied[n]? = some e := by
  obtain ⟨l, -, durable⟩ := durable_run odd (durable_initial odd) first
  obtain ⟨l', grows, durable'⟩ := durable_run odd durable second
  have safe' := durable'.safe
  obtain ⟨es, settled, same⟩ := durable.applied i
  have inside : n < (s.progress i).lastApplied := by
    rw [← durable.machines.length i]
    exact (List.getElem?_eq_some_iff.mp applied).1
  have at_ : es[n + 1]? = some e := by
    rw [← tail_take_getElem? inside, ← same]
    exact applied
  have settled' := settled.mono grows
  refine ⟨durable.machines.index i n e applied, fun j U fs led later => ?_, fun j reached => ?_⟩
  · obtain ⟨q, reign, -, rfl⟩ := safe'.sim.votes.crowned j U fs (List.mem_filter.mpr ⟨led, rfl⟩)
    refine prefix_getElem? (settled'.complete safe'.ret safe'.sim.inv later reign) ?_
    rw [List.getElem?_take_of_lt (Nat.succ_lt_succ inside)]
    exact at_
  · obtain ⟨fs, settled'', same''⟩ := durable'.applied j
    have agree := settled'.agree safe'.ret safe'.sim.inv settled'' (k := n + 2)
      (Nat.succ_le_succ inside) (Nat.succ_le_succ reached)
    have there : fs[n + 1]? = some e := by
      rw [← List.getElem?_take_of_lt (Nat.lt_succ_self (n + 1)), ← agree,
        List.getElem?_take_of_lt (Nat.lt_succ_self (n + 1))]
      exact at_
    have reached : n < (t.progress j).lastApplied := reached
    change (t.progress j).applied[n]? = some e
    rw [same'', tail_take_getElem? reached]
    exact there

def zeroApplies : List Action := zeroElected ++ roundToOne 0 0 ++ [.applyRound 0]

/-- Node 1 takes over, and commits and applies the no-op with its own. -/
def oneApplies : List Action :=
  [.electionTimer 1, .startElection 1, .raftVote 2, .voteReply 2, .replicateSend 1 0,
    .appendEntries 1, .appendEntriesEnd 0, .replicateReply 1 0, .applyRound 1, .applyRound 1]

theorem no_op_applied_for_good : ∃ s t e,
    Run (step threeNodes) (DurableOk threeNodes) s oneApplies t ∧
    (s.nodes 0).m_raft_logger.applied = [e] ∧
    (∃ es, .leader 1 2 es ∈ t.history ∧ es[1]? = some e) ∧
    (t.nodes 1).m_raft_logger.applied[0]? = some e := by
  have done : (exec (guarded (step threeNodes) (DurableOk threeNodes)) {} zeroApplies).any (fun s =>
      (exec (guarded (step threeNodes) (DurableOk threeNodes)) s oneApplies).any fun t => decide
        ((s.nodes 0).m_raft_logger.applied = [{ index := 1, term := 1, op := .noOp }] ∧
          (s.nodes 0).m_currentTerm < 2 ∧ 0 < (t.nodes 1).m_raft_logger.m_lastApplied ∧
          .leader 1 2 [{}, { index := 1, term := 1, op := .noOp }] ∈ t.history)) = true := by
    decide +kernel
  obtain ⟨s, first, rest⟩ := (Option.any_eq_true _ _).mp done
  obtain ⟨t, second, seen⟩ := (Option.any_eq_true _ _).mp rest
  obtain ⟨applied, early, reached, led⟩ := of_decide_eq_true seen
  obtain ⟨-, leaders, nodes⟩ := applied_for_good threeNodes_odd (.of_guarded first)
    (.of_guarded second) (i := 0) (n := 0) (by rw [applied]; rfl)
  exact ⟨s, t, _, .of_guarded second, applied, ⟨_, led, leaders 1 2 _ led early⟩, nodes 1 reached⟩

end CRpc.Raft
