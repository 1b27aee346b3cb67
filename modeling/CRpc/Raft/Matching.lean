import CRpc.Raft.Simulation

/-! Logs that have an entry of one term in one place are the same up to it. -/
namespace CRpc.Raft

open Cluster Transition Ledger

/-- No term wraps, and what a registration handler appends it appends as a leader. -/
def MatchingOk (s : Cluster) (a : Action) : Prop := NoWrap s a ∧ LeaderRegisters s a

instance (s : Cluster) : DecidablePred (MatchingOk s) := fun _ =>
  inferInstanceAs (Decidable (_ ∧ _))

theorem sim_run {cfg : Config} (odd : Odd cfg.size) {as : List Action} {s : Cluster}
    (run : Run (step cfg) MatchingOk {} as s) : ∃ l, Sim cfg s l :=
  run.invariant (P := fun s => ∃ l, Sim cfg s l) ⟨blank, sim_initial cfg⟩
    fun _ _ _ ⟨_, sim⟩ allowed next => by
      obtain ⟨l', -, sim'⟩ := sim_step sim odd allowed.1 allowed.2 (fun no : False => no.elim) next
      exact ⟨l', sim'⟩

/-- Log matching: entries of two logs that have the same index and the same term stand
behind the same entries, and are the same. -/
def LogsMatch (s : Cluster) : Prop :=
  ∀ i j, ∀ d ∈ s.entries i, ∀ e ∈ s.entries j, d.index = e.index → d.term = e.term →
    (s.entries i).take (d.index + 1) = (s.entries j).take (d.index + 1)

theorem Sim.logsMatch {cfg : Config} {s : Cluster} {l : Book} (sim : Sim cfg s l) :
    LogsMatch s := by
  intro i j d hd e he index term
  obtain ⟨p, dp⟩ := List.mem_iff_getElem?.mp hd
  obtain ⟨q, eq⟩ := List.mem_iff_getElem?.mp he
  obtain rfl : d.index = p := (sim.positions.log i).index p d dp
  obtain rfl : e.index = q := (sim.positions.log j).index q e eq
  rw [← index] at eq
  have held : ∀ v, Held Entry.term l (s.entries v) := fun v =>
    sim.votes.log v ▸ sim.inv.held v
  exact (held i).matching (held j) dp eq term

/-- Log matching holds in every run of an odd number of nodes in which registrations
are appended by leaders and no term wraps. -/
theorem logs_match {cfg : Config} (odd : Odd cfg.size) {as : List Action} {s : Cluster}
    (run : Run (step cfg) MatchingOk {} as s) : LogsMatch s := by
  obtain ⟨l, sim⟩ := sim_run odd run
  exact sim.logsMatch

theorem replicated_logs_match : ∃ s, (s.entries 1).length = 2 ∧ LogsMatch s := by
  have done : (exec (guarded (step threeNodes) MatchingOk) {}
      (zeroElected ++ roundToOne 0 0)).map (fun s => (s.entries 1).length) = some 2 := by
    decide +kernel
  obtain ⟨s, run, seen⟩ := Option.map_eq_some_iff.mp done
  exact ⟨s, seen, logs_match threeNodes_odd (.of_guarded run)⟩

/-- A registration of node 0 waits for its no-op until node 2 has taken over, and both
append in term 2. -/
def zeroAppendsDeposed : List Action :=
  zeroElected ++ [.clientMsg 0 .RPC_SERVER_INIT [⟨"f", "ip", 80⟩], .testNoOp 0,
    .replicateSend 0 0, .electionTimer 2, .startElection 2, .electionTimer 2, .startElection 2,
    .raftVote 5, .voteReply 5, .replicateSend 2 1, .appendEntries 1, .appendEntriesEnd 1,
    .replicateReply 2 1, .clientMsg 2 .RPC_SERVER_INIT [⟨"g", "ip", 81⟩], .testNoOp 2,
    .lockLog 2 0, .decodeTriple 2, .appendEntries 0, .replicateReply 0 0, .testNoOp 0,
    .lockLog 0 0, .decodeTriple 0]

/-- A handler that appends after its node was deposed breaks log matching. -/
theorem deposed_append_mismatches : ∃ s, Run (step threeNodes) Always {} zeroAppendsDeposed s ∧
    ¬ LogsMatch s := by
  have done : (exec (step threeNodes) {} zeroAppendsDeposed).map (fun s =>
      decide (∃ d ∈ s.entries 0, ∃ e ∈ s.entries 2, (d.index = e.index ∧ d.term = e.term) ∧
        (s.entries 0).take (d.index + 1) ≠ (s.entries 2).take (d.index + 1))) = some true := by
    decide +kernel
  obtain ⟨s, run, seen⟩ := Option.map_eq_some_iff.mp done
  obtain ⟨d, hd, e, he, ⟨index, term⟩, ne⟩ := of_decide_eq_true seen
  exact ⟨s, .of_exec run, fun match_ => ne (match_ 0 2 d hd e he index term)⟩

end CRpc.Raft
