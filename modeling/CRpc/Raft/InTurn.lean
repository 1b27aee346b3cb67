import CRpc.Raft.Orderly

/-! Runs in which no call times out. Where leaders take office in order as well, a node gets the
entries of a term one after the other, each of them once. -/
namespace CRpc.Raft

open Cluster Transition Ledger

/-- A call that brings an entry to node `j` in term `T`. -/
structure AppendCall.Brings (c : AppendCall) (j T : Nat) : Prop where
  real : c.request.entry.op ≠ .heartbeat
  dst : c.dst = j
  term : c.request.term = T

theorem AppendCall.Same.brings {c d : AppendCall} (same : c.Same d) {j T : Nat}
    (brings : d.Brings j T) : c.Brings j T :=
  ⟨same.request ▸ brings.real, same.dst ▸ brings.dst, same.request ▸ brings.term⟩

/-- A live loop of a leader: it waits for a call of the leader's term, and what else was sent to its
node in that term is answered and lies behind its index. -/
structure InTurn (s : Cluster) (i : Nat) (loop : ReplicateLoop) : Prop where
  past : ∀ (k : Nat) (c : AppendCall), s.appendCalls[k]? = some c →
    c.Brings loop.nodeId (s.core i).term → loop.pc = .waiting k ∨
      (c.reply ≠ none ∧ c.request.prevLogIndex + 1 < (s.nodes i).m_nextIndexs loop.nodeId)
  term : ∀ k, loop.pc = .waiting k → ∃ c, s.appendCalls[k]? = some c ∧
    c.request.term = (s.core i).term

/-- A leader of the term has put the entry there, or a call has brought it. -/
def Stems (s : Cluster) (v n T : Nat) : Prop :=
  (∃ es, .leader v T es ∈ s.votes) ∨
    ∃ c ∈ s.appendCalls, c.Brings v T ∧ c.reply ≠ none ∧ c.request.prevLogIndex + 1 = n

structure Once (s : Cluster) : Prop where
  loops : ∀ i, s.leads i → ∀ loop ∈ s.loops i, loop.pc ≠ .done → InTurn s i loop
  replies : ∀ c ∈ s.appendCalls, ∀ rets, c.reply = some rets → c.request.term ≤ rets.term
  calls : ∀ (k m : Nat) (c d : AppendCall), k < m → s.appendCalls[k]? = some c →
    s.appendCalls[m]? = some d → ∀ j T, c.Brings j T → d.Brings j T →
      c.reply ≠ none ∧ c.request.prevLogIndex < d.request.prevLogIndex
  stems : ∀ (v n : Nat) (e : Entry), (s.entries v)[n]? = some e → e.term ≠ 0 →
    Stems s v n e.term

theorem RaftNode.appendEntries_reaches (nd : RaftNode) (params : AppendEntriesParams) :
    params.term ≤ (nd.appendEntries params).1.m_currentTerm := by
  rcases nd.appendEntries_answer params with ⟨stale, did⟩ | ⟨-, term, -⟩
  · rw [did]
    exact stale.le
  · exact term.ge

theorem once_initial : Once {} where
  loops := nofun
  replies := nofun
  calls := nofun
  stems := by
    intro v n e at_ real
    obtain rfl := List.mem_singleton.mp (List.mem_of_getElem? at_)
    exact absurd rfl real

/-- No `appendEntries` call times out. -/
def Patient : Action → Prop
  | .replicateTimeout _ _ => False
  | _ => True

def InTurnOk (cfg : Config) (s : Cluster) (a : Action) : Prop :=
  Orderly cfg s a ∧ LeaderRegisters s a ∧ Patient a

instance : DecidablePred Patient := by
  rintro ⟨⟩ <;> dsimp only [Patient] <;> infer_instance

instance (cfg : Config) (s : Cluster) : DecidablePred (InTurnOk cfg s) := fun _ =>
  inferInstanceAs (Decidable (_ ∧ _))

section Steps

variable {cfg : Config} {s s' : Cluster} {a : Action} {i : Nat}

/-- Besides vote replies, only the steps of its loops change the loops of a node. -/
theorem step_loops (h : step cfg s a = some s') : (∃ k, a = .voteReply k) ∨
    (∃ l, a = .replicateSend i l ∨ a = .replicateTimeout i l ∨ a = .replicateReply i l) ∨
    s'.loops i = s.loops i := by
  have other : ∀ {v : Nat} {nd : RaftNode}, s'.nodes = Function.update s.nodes v nd →
      v ≠ i → s'.loops i = s.loops i := by
    intro v nd nodes ne
    rw [Cluster.loops, nodes, Function.update_of_ne ne.symm]
    rfl
  have same : ∀ {v : Nat} {nd : RaftNode}, s'.nodes = Function.update s.nodes v nd →
      nd.loops = (s.nodes v).loops → s'.loops i = s.loops i := fun nodes loops =>
    congrFun (field_put_same RaftNode.loops nodes loops) i
  cases a with
  | connect v j =>
      obtain ⟨-, rfl⟩ := step_connect.mp h
      exact .inr (.inr (same rfl rfl))
  | electionTimer v =>
      obtain ⟨-, rfl⟩ := step_electionTimer.mp h
      exact .inr (.inr (same rfl RaftNode.electionTimer_loops))
  | startElection v =>
      obtain ⟨-, rfl⟩ := step_startElection.mp h
      exact .inr (.inr (same rfl rfl))
  | raftVote k =>
      obtain ⟨call, -, -, rfl⟩ := step_raftVote.mp h
      exact .inr (.inr (same rfl (RaftNode.raftVote_loops call.request)))
  | voteTimeout k =>
      obtain ⟨call, -, -, rfl⟩ := step_voteTimeout.mp h
      exact .inr (.inr rfl)
  | voteReply k => exact .inl ⟨k, rfl⟩
  | heartbeat v j =>
      obtain ⟨-, rfl⟩ := step_heartbeat.mp h
      exact .inr (.inr rfl)
  | replicateSend v l =>
      by_cases at_ : v = i
      · exact .inr (.inl ⟨l, .inl (by rw [at_])⟩)
      · obtain ⟨loop, -, -, ⟨-, rfl⟩ | ⟨-, -, rfl⟩ | ⟨-, -, -, rfl⟩⟩ := step_replicateSend.mp h
        · exact .inr (.inr (other rfl at_))
        · exact .inr (.inr rfl)
        · exact .inr (.inr (other rfl at_))
  | replicateTimeout v l =>
      by_cases at_ : v = i
      · exact .inr (.inl ⟨l, .inr (.inl (by rw [at_]))⟩)
      · obtain ⟨loop, k, -, -, rfl⟩ := step_replicateTimeout.mp h
        exact .inr (.inr (other rfl at_))
  | replicateReply v l =>
      by_cases at_ : v = i
      · exact .inr (.inl ⟨l, .inr (.inr (by rw [at_]))⟩)
      · obtain ⟨loop, k, call, rets, -, -, -, -, -, rfl⟩ := step_replicateReply.mp h
        exact .inr (.inr (other rfl at_))
  | appendEntries k =>
      obtain ⟨call, -, -, ⟨rets, -, rfl⟩ | ⟨-, rfl⟩⟩ := step_appendEntries.mp h
      · exact .inr (.inr (same rfl (RaftNode.appendEntries_loops call.request)))
      · exact .inr (.inr (same rfl (RaftNode.appendEntries_loops call.request)))
  | appendEntriesEnd v =>
      obtain ⟨k, params, call, r, -, -, did, rfl⟩ := step_appendEntriesEnd.mp h
      exact .inr (.inr (same rfl (RaftNode.appendEntriesEnd_loops did)))
  | applyRound v =>
      obtain ⟨-, logger, -, rfl⟩ := step_applyRound.mp h
      exact .inr (.inr (same rfl rfl))
  | clientMsg v type triples =>
      obtain ⟨-, rfl⟩ := step_clientMsg.mp h
      exact .inr (.inr (same rfl (RaftNode.handleMsg_loops type triples)))
  | testNoOp v =>
      obtain ⟨triples, -, rfl⟩ := step_testNoOp.mp h
      exact .inr (.inr (same rfl rfl))
  | lockLog v garbage =>
      obtain ⟨triples, -, rfl⟩ := step_lockLog.mp h
      exact .inr (.inr (same rfl rfl))
  | decodeTriple v =>
      obtain ⟨triples, index, assigned, nd, -, did, rfl⟩ := step_decodeTriple.mp h
      exact .inr (.inr (same rfl (RaftNode.decodeTriple_loops did)))
  | testApplied v =>
      obtain ⟨index, assigned, -, rfl⟩ := step_testApplied.mp h
      exact .inr (.inr (same rfl rfl))
  | respond v =>
      obtain ⟨assigned, -, rfl⟩ := step_respond.mp h
      exact .inr (.inr (same rfl rfl))

theorem leaders_same (odd : Odd cfg.size) (ruled : Ruled cfg s) {v : Nat} (leads : s.leads i)
    (leads' : s.leads v) (same : (s.core v).term = (s.core i).term) : v = i := by
  obtain ⟨es, led⟩ := (ruled.elections.ballots i).crowned leads
  obtain ⟨es', led'⟩ := (ruled.elections.ballots v).crowned leads'
  rw [same] at led'
  exact leader_unique ruled.elections odd led' led

/-- A loop whose index stays, where no loop of its leader makes a call to its node. -/
theorem InTurn.kept {loop : ReplicateLoop} (turn : InTurn s i loop) (odd : Odd cfg.size)
    (ruled : Ruled cfg s) (h : step cfg s a = some s') (was : s.leads i) (is : s'.leads i)
    (next : (s'.nodes i).m_nextIndexs loop.nodeId = (s.nodes i).m_nextIndexs loop.nodeId)
    (alone : ∀ (l : Nat) (other : ReplicateLoop), a = .replicateSend i l →
      (s.loops i)[l]? = some other → other.nodeId ≠ loop.nodeId) : InTurn s' i loop := by
  have term := leads_term h was is
  refine ⟨fun k c found brings => ?_, fun k waits => ?_⟩
  · rw [term] at brings
    rcases call_origin h found brings.real with ⟨d, there, same, answered⟩ | ⟨v, l, other, act, -,
      at_, -, leads, -, rfl⟩
    · rw [same.request, next]
      exact (turn.past k d there (same.brings brings)).imp_right (And.imp_left answered)
    · obtain rfl : v = i := leaders_same odd ruled was leads brings.term
      exact absurd brings.dst (alone l other act at_)
  · obtain ⟨c, found, own⟩ := turn.term k waits
    obtain ⟨d, found', same⟩ := appendCalls_kept h found
    exact ⟨d, found', by rw [same.request, term, own]⟩

theorem win_fresh (odd : Odd cfg.size) (ruled : Ruled cfg s) (noWrap : NoWrap s a)
    (h : step cfg s a = some s') (stood : (s.nodes i).m_state = .Candidate) (is : s'.leads i)
    (term : (s'.core i).term = (s.core i).term) {c : AppendCall} (mem : c ∈ s.appendCalls) :
    c.request.term ≠ (s'.core i).term := by
  intro same
  obtain ⟨-, es, led⟩ := ruled.reigns.sent c mem
  have after := electionsOk_step ruled.elections noWrap h
  obtain ⟨es', led'⟩ := (after.ballots i).crowned is
  rw [← same] at led'
  obtain rfl : c.src = i := leader_unique after odd (votes_step h led) led'
  have leads := ((ruled.elections.ballots c.src).leader _ _ led).2 (by rw [same, term])
  cases leads.symm.trans stood

theorem voteReply_inTurn (odd : Odd cfg.size) (ruled : Ruled cfg s) (once : Once s) {k : Nat}
    (orderly : Orderly cfg s (.voteReply k)) (h : step cfg s (.voteReply k) = some s')
    (is : s'.leads i) {loop : ReplicateLoop} (mem : loop ∈ s'.loops i) (live : loop.pc ≠ .done) :
    InTurn s' i loop := by
  obtain ⟨call, found, rets, reply, -⟩ := step_voteReply.mp h
  by_cases won : call.src = i ∧ (s.nodes call.src).wins cfg call.election rets
  · obtain ⟨rfl, won⟩ := won
    obtain ⟨ended, -⟩ := orderly.2 _ (voteReplyAt_eq found reply) won
    obtain ⟨leads, calls⟩ := voteReply_won found reply won h
    have loops := RaftNode.becomeLeader_loops leads
    have core := RaftNode.becomeLeader_core leads
    have top : loop.pc = .top := by
      rw [Cluster.loops, loops] at mem
      rcases List.mem_append.mp mem with old | new
      · exact absurd (ended loop old) live
      · obtain ⟨j, -, rfl⟩ := List.mem_map.mp new
        rfl
    refine ⟨fun k c at_ brings => ?_, fun k waits => by cases top.symm.trans waits⟩
    have there : c ∈ s.appendCalls := by
      rw [calls] at at_
      exact List.mem_of_getElem? at_
    have term : (s'.core call.src).term = (s.core call.src).term := by
      rw [Cluster.core, core]
      rfl
    exact absurd brings.term (win_fresh odd ruled orderly.1 h won.1.2 is term there)
  · have was := (leads_origin found reply h is).resolve_left won
    obtain ⟨loops, next⟩ := voteReply_kept found reply h fun at_ wins => won ⟨at_, wins⟩
    rw [loops] at mem
    exact (once.loops i was loop mem live).kept odd ruled h was is (by rw [next])
      fun _ _ act => by cases act

/-- The loop that sends waits for its new call, the only one its node has not answered. -/
theorem send_inTurn (odd : Odd cfg.size) (ruled : Ruled cfg s) (order : InOrder s i)
    (once : Once s) {l : Nat} (h : step cfg s (.replicateSend i l) = some s') (was : s.leads i)
    (is : s'.leads i) {loop : ReplicateLoop} (mem : loop ∈ s'.loops i) (live : loop.pc ≠ .done) :
    InTurn s' i loop := by
  have term := leads_term h was is
  obtain ⟨own, found, ⟨top, -⟩, ⟨notLeader, -⟩ | ⟨-, -, rfl⟩ | ⟨-, -, -, moved⟩⟩ :=
    step_replicateSend.mp h
  · exact absurd was notLeader
  · exact once.loops i was loop mem live
  have lives : own.pc ≠ .done := by simp [top]
  have loops : s'.loops i = (s.loops i).set l { own with
      pc := .waiting s.appendCalls.length } := by
    simp [moved, Cluster.loops, Cluster.setLoop]
  have next : (s'.nodes i).m_nextIndexs = (s.nodes i).m_nextIndexs := by
    simp [moved, Cluster.setLoop]
  have calls : s'.appendCalls = s.appendCalls ++ [roundCall s i own.nodeId] := by
    rw [moved]
    rfl
  rw [loops] at mem
  rcases order.others found lives mem live with rfl | ⟨there, apart⟩
  · refine ⟨fun k c at_ brings => ?_, fun k waits => ?_⟩
    · rw [calls] at at_
      rcases getElem?_concat_cases at_ with there | ⟨rfl, -⟩
      · rw [term] at brings
        have past := (once.loops i was own (List.mem_of_getElem? found) lives).past k c there brings
        rw [next]
        exact .inr (past.resolve_left (by simp [top]))
      · exact .inl rfl
    · cases waits
      exact ⟨_, by rw [calls, List.getElem?_concat_length], term.symm⟩
  · refine (once.loops i was loop there live).kept odd ruled h was is (by rw [next]) ?_
    rintro m other ⟨⟩ at_
    obtain rfl : own = other := Option.some.inj (found.symm.trans at_)
    exact apart.symm

theorem reply_inTurn (odd : Odd cfg.size) (positions : Positions s) (ruled : Ruled cfg s)
    (order : InOrder s i) (once : Once s) {l : Nat}
    (h : step cfg s (.replicateReply i l) = some s') (was : s.leads i) (is : s'.leads i)
    {loop : ReplicateLoop} (mem : loop ∈ s'.loops i) (live : loop.pc ≠ .done) :
    InTurn s' i loop := by
  have term := leads_term h was is
  obtain ⟨own, n, call, rets, pc, found, waits, sent, reply, loops, calls, apart, outcome⟩ :=
    reply_moves positions order h was is
  have lives : own.pc ≠ .done := by simp [waits]
  have turn := once.loops i was own (List.mem_of_getElem? found) lives
  rw [loops] at mem
  rcases order.others found lives mem live with rfl | ⟨there, ne⟩
  · rcases outcome with rfl | ⟨rfl, next⟩
    · exact absurd rfl live
    refine ⟨fun k c at_ brings => .inr ?_, fun _ waits => by cases waits⟩
    obtain ⟨call', sent', ours⟩ := turn.term n waits
    obtain rfl : call = call' := Option.some.inj (sent.symm.trans sent')
    have fresh := once.replies call (List.mem_of_getElem? sent) rets reply
    rcases next with ⟨stale, -⟩ | advanced
    · omega
    obtain ⟨-, served, sent'', prev⟩ :=
      (order.serves own (List.mem_of_getElem? found) lives).sent n waits
    obtain rfl : call = served := Option.some.inj (sent.symm.trans sent'')
    rw [calls] at at_
    rw [term] at brings
    rw [advanced]
    rcases turn.past k c at_ brings with here | ⟨replied, behind⟩
    · obtain rfl : n = k := LoopPc.waiting.inj (waits.symm.trans here)
      obtain rfl : call = c := Option.some.inj (sent.symm.trans at_)
      exact ⟨by rw [reply]; simp, by omega⟩
    · exact ⟨replied, by omega⟩
  · exact (once.loops i was loop there live).kept odd ruled h was is (apart _ ne) nofun

theorem inTurn_step (odd : Odd cfg.size) (positions : Positions s) (ruled : Ruled cfg s)
    (order : ∀ i, s.leads i → InOrder s i) (once : Once s) (ok : InTurnOk cfg s a)
    (h : step cfg s a = some s') (is : s'.leads i) {loop : ReplicateLoop} (mem : loop ∈ s'.loops i)
    (live : loop.pc ≠ .done) : InTurn s' i loop := by
  obtain ⟨orderly, -, patient⟩ := ok
  by_cases vote : ∃ k, a = .voteReply k
  · obtain ⟨k, rfl⟩ := vote
    exact voteReply_inTurn odd ruled once orderly h is mem live
  have was := leads_of_step h (fun k act => vote ⟨k, act⟩) i is
  by_cases reply : ∃ l, a = .replicateReply i l
  · obtain ⟨l, rfl⟩ := reply
    exact reply_inTurn odd positions ruled (order i was) once h was is mem live
  by_cases send : ∃ l, a = .replicateSend i l
  · obtain ⟨l, rfl⟩ := send
    exact send_inTurn odd ruled (order i was) once h was is mem live
  have next := next_kept h vote reply (i := i)
  rcases step_loops (i := i) h with voted | ⟨l, sends | rfl | replies⟩ | loops
  · exact absurd voted vote
  · exact absurd ⟨l, sends⟩ send
  · exact patient.elim
  · exact absurd ⟨l, replies⟩ reply
  · rw [loops] at mem
    exact (once.loops i was loop mem live).kept odd ruled h was is (by rw [next])
      fun l _ act => absurd ⟨l, act⟩ send

theorem replies_step (positions : Positions s) (once : Once s)
    (busy : ∀ i k params, s.accepting i = some (k, params) → params.term = (s.core i).term)
    (h : step cfg s a = some s') {c : AppendCall} (mem : c ∈ s'.appendCalls)
    {rets : AppendEntriesRets} (reply : c.reply = some rets) : c.request.term ≤ rets.term := by
  have old : c ∈ s.appendCalls → c.request.term ≤ rets.term := fun mem =>
    once.replies c mem rets reply
  have answered : ∀ {k : Nat} {call : AppendCall} {rets' : AppendEntriesRets},
      s'.appendCalls = s.appendCalls.set k { call with reply := some rets' } →
      call.request.term ≤ rets'.term → c.request.term ≤ rets.term := by
    intro k call rets' calls le
    rw [calls] at mem
    rcases List.mem_or_eq_of_mem_set mem with there | rfl
    · exact old there
    · cases reply
      exact le
  have accepted : ∀ {v k : Nat} {params : AppendEntriesParams} {call : AppendCall},
      s.accepting v = some (k, params) → s.appendCalls[k]? = some call →
      call.request.term ≤ (s.core v).term := by
    intro v k params call at_ found
    obtain ⟨-, call', found', rfl, -⟩ := positions.accepting v k params at_
    obtain rfl : call = call' := Option.some.inj (found.symm.trans found')
    exact (busy v k _ at_).le
  cases step_logStep h with
  | still _ _ calls _ => exact old (calls ▸ mem)
  | win _ _ _ _ _ _ _ _ _ _ calls _ _ _ => exact old (calls ▸ mem)
  | register _ _ _ _ _ _ _ calls _ => exact old (calls ▸ mem)
  | accept _ _ _ _ _ _ _ _ _ _ calls _ => exact old (calls ▸ mem)
  | send _ call sends _ _ calls _ =>
      rw [calls] at mem
      rcases List.mem_append.mp mem with there | new
      · exact old there
      · obtain rfl := List.mem_singleton.mp new
        cases sends.fresh.symm.trans reply
  | answer k call rets' act found _ _ term _ _ _ calls _ =>
      subst act
      refine answered calls (term ▸ ?_)
      obtain ⟨call', found', -, ⟨_, -, rfl⟩ | ⟨-, rfl⟩⟩ := step_appendEntries.mp h
      all_goals
        obtain rfl : call = call' := Option.some.inj (found.symm.trans found')
        simp only [Cluster.core, setAppendCall_nodes, put_nodes, Function.update_self]
        exact RaftNode.appendEntries_reaches _ call.request
  | reject v k params call _ at_ found _ _ _ calls _ => exact answered calls (accepted at_ found)
  | append v k p params call _ at_ found _ _ _ _ calls _ =>
      exact answered calls (accepted at_ found)

/-- The calls to a node in a term are made in the order of their entries, each when all before it
have been answered. -/
theorem calls_step (positions : Positions s)
    (order : ∀ i, s.leads i → InOrder s i) (once : Once s) (h : step cfg s a = some s')
    {k m : Nat} {c d : AppendCall} (lt : k < m) (first : s'.appendCalls[k]? = some c)
    (second : s'.appendCalls[m]? = some d) {j T : Nat} (brings : c.Brings j T)
    (brings' : d.Brings j T) :
    c.reply ≠ none ∧ c.request.prevLogIndex < d.request.prevLogIndex := by
  rcases call_origin h second brings'.real with ⟨d', there', same', -⟩ | ⟨v, l, loop, act, rfl, at_,
    top, leads, -, rfl⟩
  · have bound := (List.getElem?_eq_some_iff.mp there').1
    rcases call_origin h first brings.real with ⟨c', there, same, answered⟩ | ⟨_, _, _, _, rfl, -⟩
    · obtain ⟨replied, less⟩ := once.calls k m c' d' lt there there' j T (same.brings brings)
        (same'.brings brings')
      rw [same.request, same'.request]
      exact ⟨answered replied, less⟩
    · omega
  · rcases call_origin h first brings.real with ⟨c', there, same, answered⟩ | ⟨_, _, _, _, rfl, -⟩
    · have live : loop.pc ≠ .done := by simp [top]
      have mem := List.mem_of_getElem? at_
      obtain rfl : (s.core v).term = T := brings'.term
      obtain rfl : loop.nodeId = j := brings'.dst
      obtain ⟨replied, behind⟩ := ((once.loops v leads loop mem live).past k c' there
        (same.brings brings)).resolve_left (by simp [top])
      have owns := ((order v leads).serves loop mem live).owns
      have pos := owns.pos
      have inside := owns.inside
      have room := (positions.log v).room
      have fits := maxEntries_lt
      have prev : (roundCall s v loop.nodeId).request.prevLogIndex =
          (s.nodes v).m_nextIndexs loop.nodeId - 1 := pred64_of_pos pos (by omega)
      rw [same.request, prev]
      exact ⟨answered replied, by omega⟩
    · omega

theorem Stems.kept {v n T : Nat} (stems : Stems s v n T) (h : step cfg s a = some s') :
    Stems s' v n T := by
  rcases stems with ⟨es, led⟩ | ⟨c, mem, brings, replied, prev⟩
  · exact .inl ⟨es, votes_step h led⟩
  · right
    obtain ⟨k, found⟩ := List.mem_iff_getElem?.mp mem
    obtain ⟨d, found', same⟩ := appendCalls_kept h found
    have brings' : d.Brings v T :=
      ⟨same.request ▸ brings.real, same.dst ▸ brings.dst, same.request ▸ brings.term⟩
    refine ⟨d, List.mem_of_getElem? found', brings', ?_, same.request ▸ prev⟩
    rcases call_origin h found' brings'.real with ⟨c', there, -, answered⟩ | ⟨_, _, _, _, rfl, -⟩
    · obtain rfl : c = c' := Option.some.inj (found.symm.trans there)
      exact answered replied
    · exact absurd (List.getElem?_eq_some_iff.mp found).1 (Nat.lt_irrefl _)

theorem stems_step (positions : Positions s) (ruled : Ruled cfg s) (sends : SendsOwn s)
    (once : Once s) (leader : LeaderRegisters s a) (h : step cfg s a = some s') {v n : Nat}
    {e : Entry} (at_ : (s'.entries v)[n]? = some e) (real : e.term ≠ 0) :
    Stems s' v n e.term := by
  have old : (s.entries v)[n]? = some e → Stems s' v n e.term := fun at_ =>
    (once.stems v n e at_ real).kept h
  cases step_logStep h with
  | still entries _ _ _ => exact old (entries ▸ at_)
  | win k call rets _ found _ won _ entries _ _ _ _ votes =>
      rw [entries] at at_
      by_cases here : v = call.src
      · subst here
        rw [Function.update_self] at at_
        rcases getElem?_concat_cases at_ with there | ⟨-, rfl⟩
        · exact old there
        · exact .inl ⟨_, by rw [votes]; exact List.mem_cons_self⟩
      · rw [Function.update_of_ne here] at at_
        exact old at_
  | register i t act decodes _ entries _ _ _ =>
      subst act
      rw [entries] at at_
      by_cases here : v = i
      · subst here
        rw [Function.update_self] at at_
        rcases getElem?_concat_cases at_ with there | ⟨-, rfl⟩
        · exact old there
        · obtain ⟨es, led⟩ := (ruled.elections.ballots v).crowned (leader decodes)
          exact .inl ⟨es, votes_step h led⟩
      · rw [Function.update_of_ne here] at at_
        exact old at_
  | send _ _ _ entries _ _ _ => exact old (entries ▸ at_)
  | answer _ _ _ _ _ _ _ _ _ entries _ _ _ => exact old (entries ▸ at_)
  | accept _ _ _ _ _ _ _ _ entries _ _ _ => exact old (entries ▸ at_)
  | reject _ _ _ _ _ _ _ _ entries _ _ _ => exact old (entries ▸ at_)
  | append i k p params call _ accepting found hit _ entries _ calls _ =>
      rw [entries] at at_
      by_cases here : v = i
      · subst here
        rw [Function.update_self] at at_
        rcases getElem?_concat_cases at_ with there | ⟨length, rfl⟩
        · rw [List.getElem?_take] at there
          split_ifs at there
          exact old there
        · obtain ⟨entry, call', found', rfl, rfl, -⟩ := positions.accepting v k params accepting
          obtain rfl : call = call' := Option.some.inj (found.symm.trans found')
          obtain ⟨prev, d, inside, -⟩ :=
            (RaftLogger.matchPrev_eq_some (positions.log call.dst)).mp hit
          have bound := (List.getElem?_eq_some_iff.mp inside).1
          change p < (s.entries call.dst).length at bound
          rw [List.length_take] at length
          have mem :
              { call with reply := some ⟨true, (s.core call.dst).term⟩ } ∈ s'.appendCalls := by
            rw [calls]
            exact List.mem_set (List.getElem?_eq_some_iff.mp found).1 _
          have behind : call.request.prevLogIndex + 1 = n := by omega
          refine .inr ⟨_, mem, ⟨entry, rfl, ?_⟩, by simp, behind⟩
          exact (sends call (List.mem_of_getElem? found) entry).symm
      · rw [Function.update_of_ne here] at at_
        exact old at_

theorem Once.keepsTail (once : Once s) (odd : Odd cfg.size) (ruled : Ruled cfg s)
    (positions : Positions s) (sends : SendsOwn s)
    (heard : ∀ c ∈ s.appendCalls, c.request.term ≠ 0) : KeepsTail s a := by
  cases a with
  | appendEntriesEnd v =>
      rintro ⟨k, params⟩ accepting p hit e at_ same
      obtain ⟨real, call, found, rfl, rfl, fresh⟩ := positions.accepting v k params accepting
      have mem := List.mem_of_getElem? found
      have prev : p = call.request.prevLogIndex :=
        ((RaftLogger.matchPrev_eq_some (positions.log call.dst)).mp hit).1
      have own : e.term = call.request.term := same.trans (sends call mem real)
      obtain ⟨apart, es, led⟩ := ruled.reigns.sent call mem
      exfalso
      rcases once.stems call.dst (p + 1) e at_ (own ▸ heard call mem) with ⟨es', led'⟩ | ⟨c, there,
        brings, replied, behind⟩
      · rw [own] at led'
        exact apart (leader_unique ruled.elections odd led' led)
      · obtain ⟨m, at_m⟩ := List.mem_iff_getElem?.mp there
        have ours : call.Brings call.dst e.term := ⟨real, rfl, own.symm⟩
        rcases Nat.lt_trichotomy m k with lt | rfl | gt
        · obtain ⟨-, less⟩ := once.calls m k c call lt at_m found _ _ brings ours
          omega
        · obtain rfl : call = c := Option.some.inj (found.symm.trans at_m)
          exact replied fresh
        · exact (once.calls k m call c gt found at_m _ _ ours brings).1 fresh
  | _ => trivial

theorem once_step (odd : Odd cfg.size) (ordered : Ordered cfg s) (once : Once s)
    (busy : ∀ i k params, s.accepting i = some (k, params) → params.term = (s.core i).term)
    (ok : InTurnOk cfg s a) (h : step cfg s a = some s') : Once s' := by
  obtain ⟨ruled, positions, order, sends, -⟩ := ordered
  constructor
  · exact fun i is loop => inTurn_step odd positions ruled order once ok h is
  · exact fun c mem rets => replies_step positions once busy h mem
  · exact fun k m c d lt first second j T => calls_step positions order once h lt first second
  · exact fun v n e => stems_step positions ruled sends once ok.2.1 h

/-- In such a run nothing is cut off, so the takeovers are all that has to be asked of it. -/
theorem InTurnOk.commitsOk (ok : InTurnOk cfg s a) (odd : Odd cfg.size) (ordered : Ordered cfg s)
    (once : Once s) (safe : Safe cfg s l) : CommitsOk cfg s a := by
  have tail : KeepsTail s a := once.keepsTail odd ordered.ruled ordered.positions ordered.sends
    fun c mem => (safe.sim.calls.sent c mem).2.1
  have takeovers : TakeoversOk cfg s a := ⟨ok.1, ok.2.1, tail⟩
  exact takeovers.commitsOk ordered

theorem inTurn_run (odd : Odd cfg.size) {as : List Action}
    (run : Run (step cfg) (InTurnOk cfg) {} as s) :
    (Ordered cfg s ∧ Once s) ∧ ∃ l, Safe cfg s l := by
  apply run.invariant (P := fun s => (Ordered cfg s ∧ Once s) ∧ ∃ l, Safe cfg s l)
  · exact ⟨⟨ordered_initial cfg, once_initial⟩, blank, safe_initial cfg⟩
  · rintro t b u ⟨⟨ordered, once⟩, l, safe⟩ ok next
    obtain ⟨l', -, safe'⟩ := safe_step odd safe (ok.commitsOk odd ordered once safe) next
    have once' := once_step odd ordered once safe.sim.calls.busy ok next
    exact ⟨⟨ordered_step odd ordered ok.1 next, once'⟩, l', safe'⟩

end Steps

/-- Where leaders take office in order, append the registrations, and wait for every reply, a node
gets the entries of a term in their order, each once and behind the reply to the one before; leaders
are complete, and the indices they count with are right for the followers in their term. -/
theorem entries_brought_once {cfg : Config} (odd : Odd cfg.size) {as : List Action} {s : Cluster}
    (run : Run (step cfg) (InTurnOk cfg) {} as s) :
    (∀ (k m : Nat) (c d : AppendCall), k < m → s.appendCalls[k]? = some c →
      s.appendCalls[m]? = some d → ∀ j T, c.Brings j T → d.Brings j T →
        c.reply ≠ none ∧ c.request.prevLogIndex < d.request.prevLogIndex) ∧
    LeadersComplete s ∧ MatchSound s := by
  obtain ⟨⟨-, once⟩, l, safe⟩ := inTurn_run odd run
  exact ⟨once.calls, safe.leadersComplete, safe.toRetained.matchSound⟩

def zeroBringsBoth : List Action :=
  zeroElected ++ roundToOne 0 0 ++ [.clientMsg 0 .RPC_SERVER_INIT [⟨"f", "ip", 80⟩], .testNoOp 0,
    .lockLog 0 0, .decodeTriple 0, .decodeTriple 0] ++ roundToOne 0 1

theorem registration_brought_behind : ∃ s c d, s.appendCalls = [c, d] ∧ c.Brings 1 1 ∧
    d.Brings 1 1 ∧ (c.reply ≠ none ∧ c.request.prevLogIndex < d.request.prevLogIndex) ∧
    LeadersComplete s ∧ MatchSound s := by
  have done : (exec (guarded (step threeNodes) (InTurnOk threeNodes)) {} zeroBringsBoth).map
      (fun s => s.appendCalls.map fun c =>
        (decide (c.request.entry.op ≠ .heartbeat), c.dst, c.request.term)) =
      some [(true, 1, 1), (true, 1, 1)] := by decide +kernel
  obtain ⟨s, run, seen⟩ := Option.map_eq_some_iff.mp done
  obtain ⟨c, d, calls⟩ : ∃ c d, s.appendCalls = [c, d] := by
    have length : s.appendCalls.length = 2 := by simpa using congrArg List.length seen
    exact List.length_eq_two.mp length
  simp only [calls, List.map_cons, List.map_nil, List.cons.injEq, Prod.mk.injEq, decide_eq_true_eq,
    and_true] at seen
  obtain ⟨⟨real, dst, term⟩, real', dst', term'⟩ := seen
  obtain ⟨order, complete, sound⟩ := entries_brought_once threeNodes_odd (.of_guarded run)
  exact ⟨s, c, d, calls, ⟨real, dst, term⟩, ⟨real', dst', term'⟩,
    order 0 1 c d Nat.zero_lt_one (by rw [calls]; rfl) (by rw [calls]; rfl) 1 1 ⟨real, dst, term⟩
      ⟨real', dst', term'⟩, complete, sound⟩

end CRpc.Raft
