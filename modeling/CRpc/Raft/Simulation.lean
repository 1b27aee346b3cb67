import CRpc.Lib.Retention
import CRpc.Raft.Positions
import CRpc.Raft.Terms

/-! A cluster moves as a ledger does: elections are its reigns, `appendEntries` copies
from them. The ledger is built along the run. -/
namespace CRpc.Raft

open Cluster Transition Ledger

abbrev Book := Ledger Nat Entry

def Describes (request : RaftVoteParams) (entries : List Entry) : Prop :=
  request.lastLogIndex = entries.length - 1 ∧
    request.lastLogTerm = lastStamp Entry.term entries

theorem lastEntry_term (l : RaftLogger) :
    l.lastEntry.term = lastStamp Entry.term l.m_entries := by
  rw [RaftLogger.lastEntry, lastStamp]
  cases l.m_entries.getLast? <;> rfl

theorem upToDate_of_is_newer {l : RaftLogger} {request : RaftVoteParams} {entries : List Entry}
    (placed : Placed l.m_entries) (nonempty : entries ≠ [])
    (describes : Describes request entries)
    (newer : l.is_newer request.lastLogTerm request.lastLogIndex = true) :
    UpToDate Entry.term entries l.m_entries := by
  have pos := placed.length_pos
  have pos' := List.length_pos_of_ne_nil nonempty
  have index : l.lastEntry.index = l.m_entries.length - 1 := RaftLogger.getLastIndex_eq placed
  rw [RaftLogger.is_newer, lastEntry_term, index, describes.1, describes.2] at newer
  split_ifs at newer with later same
  · exact .inl later
  · exact .inr ⟨same.symm, by have := of_decide_eq_true newer; omega⟩

structure VoteSim (s : Cluster) (l : Book) : Prop where
  term : ∀ i, l.term i = (s.core i).term
  log : ∀ i, l.log i = s.entries i
  reigned : ∀ T r, l.reign T = some r → T ≠ 0 → .leader r.node T r.base ∈ s.votes
  crowned : ∀ i T es, .leader i T es ∈ s.votes →
    ∃ r, l.reign T = some r ∧ r.node = i ∧ r.base = es
  request : ∀ c ∈ s.voteCalls, c.request.term ≤ (s.core c.src).term ∧
    ((s.core c.src).state = .Candidate → (s.core c.src).term = c.request.term →
      l.reign c.request.term = none → Describes c.request (s.entries c.src))
  ballot : ∀ v T c, .granted v T c ∈ s.votes → T ≤ (s.core c).term ∧
    ((s.core c).state = .Candidate → (s.core c).term = T → l.reign T = none →
      l.ballot v T = some (s.entries c))

/-- A step that changes one core and no log, mirrored by a ledger with the same reigns. -/
theorem VoteSim.next {s s' : Cluster} {l l' : Book} (sim : VoteSim s l) {i : Nat}
    {core : VoteCore} (moved : s'.core = Function.update s.core i core)
    (le : (s.core i).term ≤ core.term)
    (stand : core.state = .Candidate → (s.core i).state = .Candidate ∧
      core.term = (s.core i).term ∨ (s.core i).term < core.term)
    (entries : s'.entries = s.entries) (term : ∀ v, l'.term v = (s'.core v).term)
    (log : l'.log = l.log) (reign : l'.reign = l.reign)
    (leaders : ∀ v T es, .leader v T es ∈ s'.votes ↔ .leader v T es ∈ s.votes)
    (grants : ∀ v T c, .granted v T c ∈ s'.votes →
      (.granted v T c ∈ s.votes ∧
        (l.ballot v T = some (s.entries c) → l'.ballot v T = some (s.entries c))) ∨
      (T ≤ (s.core c).term ∧ ((s.core c).state = .Candidate → (s.core c).term = T →
        l.reign T = none → c ≠ i ∧ l'.ballot v T = some (s.entries c))))
    (calls : ∀ c ∈ s'.voteCalls, (∃ d ∈ s.voteCalls, c.src = d.src ∧ c.request = d.request) ∨
      c.request.term = (s.core c.src).term ∧ Describes c.request (s.entries c.src)) :
    VoteSim s' l' := by
  have mono : ∀ v, (s.core v).term ≤ (s'.core v).term := by
    intro v
    rw [moved, Function.update_apply]
    split_ifs with at_
    · exact at_ ▸ le
    · exact le_rfl
  have stands : ∀ v, (s'.core v).state = .Candidate → (s.core v).state = .Candidate ∧
      (s'.core v).term = (s.core v).term ∨ (s.core v).term < (s'.core v).term := by
    intro v h
    rw [moved, Function.update_apply] at h ⊢
    split_ifs at h ⊢ with at_
    · subst at_
      exact stand h
    · exact .inl ⟨h, rfl⟩
  refine ⟨term, fun v => by rw [log, entries, sim.log v], fun T r h pos => ?_, fun v T es h => ?_,
    fun c mem => ?_, fun v T c h => ?_⟩
  · exact (leaders _ _ _).mpr (sim.reigned T r (reign ▸ h) pos)
  · rw [reign]
    exact sim.crowned v T es ((leaders _ _ _).mp h)
  · rw [reign, entries]
    rcases calls c mem with ⟨d, old, src, request⟩ | ⟨same, describes⟩
    · obtain ⟨bound, describes⟩ := sim.request d old
      rw [src, request]
      refine ⟨bound.trans (mono d.src), fun state same fresh => ?_⟩
      rcases stands d.src state with ⟨state', same'⟩ | new
      · exact describes state' (same'.symm.trans same) fresh
      · omega
    · exact ⟨same ▸ mono c.src, fun _ _ _ => describes⟩
  · rw [reign, entries]
    rcases grants v T c h with ⟨old, kept⟩ | ⟨bound, new⟩
    · obtain ⟨bound, ballot⟩ := sim.ballot v T c old
      refine ⟨bound.trans (mono c), fun state same fresh => ?_⟩
      rcases stands c state with ⟨state', same'⟩ | new
      · exact kept (ballot state' (same'.symm.trans same) fresh)
      · omega
    · refine ⟨bound.trans (mono c), fun state same fresh => ?_⟩
      rcases stands c state with ⟨state', same'⟩ | new'
      · exact (new state' (same'.symm.trans same) fresh).2
      · omega

/-- `VoteSim.next` where the ledger only follows the term of the node. -/
theorem VoteSim.raise {s s' : Cluster} {l : Book} (sim : VoteSim s l) {i : Nat} {core : VoteCore}
    (moved : s'.core = Function.update s.core i core) (le : (s.core i).term ≤ core.term)
    (stand : core.state = .Candidate → (s.core i).state = .Candidate ∧
      core.term = (s.core i).term ∨ (s.core i).term < core.term)
    (entries : s'.entries = s.entries)
    (leaders : ∀ v T es, .leader v T es ∈ s'.votes ↔ .leader v T es ∈ s.votes)
    (grants : ∀ v T c, .granted v T c ∈ s'.votes → .granted v T c ∈ s.votes)
    (calls : ∀ c ∈ s'.voteCalls, (∃ d ∈ s.voteCalls, c.src = d.src ∧ c.request = d.request) ∨
      c.request.term = (s.core c.src).term ∧ Describes c.request (s.entries c.src)) :
    VoteSim s' (l.raise i core.term) := by
  refine sim.next moved le stand entries (fun v => ?_) rfl rfl leaders
    (fun v T c h => .inl ⟨grants v T c h, id⟩) calls
  rw [raise_term, moved, Function.update_apply]
  split_ifs with at_
  · rfl
  · exact sim.term v

theorem request_set {s s' : Cluster} {k : Nat} {call : VoteCall}
    (found : s.voteCalls[k]? = some call) (call' : VoteCall) (src : call'.src = call.src)
    (request : call'.request = call.request) (calls : s'.voteCalls = s.voteCalls.set k call') :
    ∀ c ∈ s'.voteCalls, ∃ d ∈ s.voteCalls, c.src = d.src ∧ c.request = d.request := by
  intro c mem
  rw [calls] at mem
  rcases List.mem_or_eq_of_mem_set mem with old | rfl
  · exact ⟨c, old, rfl, rfl⟩
  · exact ⟨call, List.mem_of_getElem? found, src, request⟩

theorem VoteSim.grant {cfg : Config} {s s' : Cluster} {l : Book} {all : Finset Nat}
    {gentle : Prop} (sim : VoteSim s l) (ok : ElectionsOk cfg s) (ok' : ElectionsOk cfg s')
    (positions : Positions s) {k : Nat} {call : VoteCall} (found : s.voteCalls[k]? = some call)
    (guard : (s.core call.dst).term < call.request.term ∨
      ((s.core call.dst).term = call.request.term ∧
        (s.core call.dst).votedFor = call.request.candidateId))
    (newer : (s.nodes call.dst).m_raft_logger.is_newer call.request.lastLogTerm
      call.request.lastLogIndex = true)
    (moved : s'.core = Function.update s.core call.dst
      ⟨if (s.core call.dst).term < call.request.term then .Follower
        else (s.core call.dst).state, call.request.term, call.request.candidateId,
        (s.core call.dst).counters⟩)
    (calls : s'.voteCalls = s.voteCalls.set k { call with reply := some ⟨call.request.term, true⟩ })
    (votes : s'.votes = .granted call.dst call.request.term call.request.candidateId :: s.votes)
    (entries : s'.entries = s.entries) :
    ∃ l', Moves Entry.term all gentle l l' ∧ VoteSim s' l' ∧ l'.reign = l.reign ∧
      l'.ack = l.ack := by
  have mem := List.mem_of_getElem? found
  have own := ok.tally.call k call found
  obtain ⟨bound, describes⟩ := sim.request call mem
  have le : (s.core call.dst).term ≤ call.request.term := by omega
  have raised : Move Entry.term all gentle l (l.raise call.dst call.request.term) :=
    .raise _ _ (sim.term call.dst ▸ le)
  have stand : (⟨if (s.core call.dst).term < call.request.term then .Follower
      else (s.core call.dst).state, call.request.term, call.request.candidateId,
      (s.core call.dst).counters⟩ : VoteCore).state = .Candidate →
      (s.core call.dst).state = .Candidate ∧ call.request.term = (s.core call.dst).term ∨
        (s.core call.dst).term < call.request.term := by
    intro stands
    rcases guard with higher | ⟨same, -⟩
    · exact .inr higher
    · rw [if_neg (by omega)] at stands
      exact .inl ⟨stands, same.symm⟩
  have leaders : ∀ v T es, .leader v T es ∈ s'.votes ↔ .leader v T es ∈ s.votes := by
    simp [votes]
  have same_calls := request_set found { call with reply := some _ } rfl rfl calls
  have term : ∀ v, (l.raise call.dst call.request.term).term v = (s'.core v).term := by
    intro v
    rw [raise_term, moved]
    by_cases at_ : v = call.dst
    · rw [if_pos at_, at_, Function.update_self]
    · rw [if_neg at_, Function.update_of_ne at_]
      exact sim.term v
  -- the vote counts in the ledger while its candidate still stands in that term
  by_cases counts : (s.core call.src).state = .Candidate ∧
      (s.core call.src).term = call.request.term ∧ l.reign call.request.term = none
  · obtain ⟨stands, same, fresh⟩ := counts
    refine ⟨(l.raise call.dst call.request.term).cast call.dst call.src call.request.term,
      .tail (.single raised) (.cast _ _ _ (by simp) fresh ?_), ?_, rfl, rfl⟩
    · rw [raise_log, sim.log, sim.log]
      exact upToDate_of_is_newer (positions.log call.dst) (positions.log call.src).nonempty
        (describes stands same fresh) newer
    · refine sim.next moved le stand entries term rfl rfl leaders (fun v T c h => ?_)
        fun c mem => .inl (same_calls c mem)
      simp only [cast_ballot, raise_ballot, raise_log, sim.log]
      by_cases here : v = call.dst ∧ T = call.request.term
      · obtain ⟨rfl, rfl⟩ := here
        obtain rfl : c = call.src := by
          refine (ok'.ballots call.dst).unique call.request.term c call.src h ?_
          rw [votes, own.candidate]
          exact List.mem_cons_self ..
        exact .inr ⟨bound, fun _ _ _ => ⟨own.ne.symm, by simp⟩⟩
      · rw [if_neg here]
        rw [votes] at h
        rcases List.mem_cons.mp h with new | old
        · cases new
          exact absurd ⟨rfl, rfl⟩ here
        · exact .inl ⟨old, id⟩
  · refine ⟨_, .single raised, ?_, rfl, rfl⟩
    refine sim.next moved le stand entries term rfl rfl leaders (fun v T c h => ?_)
      fun c mem => .inl (same_calls c mem)
    rw [votes] at h
    rcases List.mem_cons.mp h with new | old
    · cases new
      rw [own.candidate]
      exact .inr ⟨bound, fun stands same fresh => absurd ⟨stands, same, fresh⟩ counts⟩
    · exact .inl ⟨old, id⟩

/-- A step that makes no leader and writes no log, mirrored with the same reigns. -/
theorem voteSim_step {cfg : Config} {s s' : Cluster} {a : Action} {l : Book} {all : Finset Nat}
    {gentle : Prop} (sim : VoteSim s l) (ok : ElectionsOk cfg s) (ok' : ElectionsOk cfg s')
    (positions : Positions s) (noWrap : NoWrap s a) (h : step cfg s a = some s')
    (entries : s'.entries = s.entries) (kept : ∀ v, s'.leads v → s.leads v) :
    ∃ l', Moves Entry.term all gentle l l' ∧ VoteSim s' l' ∧ l'.reign = l.reign ∧
      l'.ack = l.ack := by
  have raise : ∀ (i : Nat) (core : VoteCore), (s.core i).term ≤ core.term →
      VoteSim s' (l.raise i core.term) → ∃ l', Moves Entry.term all gentle l l' ∧
        VoteSim s' l' ∧ l'.reign = l.reign ∧ l'.ack = l.ack := fun i core le sim' =>
    ⟨_, .single (.raise i core.term (sim.term i ▸ le)), sim', rfl, rfl⟩
  have quiet : s'.core = s.core → s'.votes = s.votes →
      (∀ c ∈ s'.voteCalls, ∃ d ∈ s.voteCalls, c.src = d.src ∧ c.request = d.request) →
      ∃ l', Moves Entry.term all gentle l l' ∧ VoteSim s' l' ∧ l'.reign = l.reign ∧
        l'.ack = l.ack := by
    intro core votes calls
    refine raise 0 (s.core 0) le_rfl (sim.raise ?_ le_rfl (fun stands => .inl ⟨stands, rfl⟩)
      entries (by simp [votes]) (by simp [votes]) fun c mem => .inl (calls c mem))
    rw [core, Function.update_eq_self]
  have depose : ∀ i T, (s.core i).term ≤ T →
      s'.core = Function.update s.core i ((s.core i).depose T) → s'.votes = s.votes →
      (∀ c ∈ s'.voteCalls, ∃ d ∈ s.voteCalls, c.src = d.src ∧ c.request = d.request) →
      ∃ l', Moves Entry.term all gentle l l' ∧ VoteSim s' l' ∧ l'.reign = l.reign ∧
        l'.ack = l.ack := fun i T le core votes calls =>
    raise i ((s.core i).depose T) le (sim.raise core le (fun stands => by cases stands) entries
      (by simp [votes]) (by simp [votes]) fun c mem => .inl (calls c mem))
  cases step_voteStep h with
  | quiet core calls votes =>
      exact quiet core votes fun c mem => ⟨c, calls ▸ mem, rfl, rfl⟩
  | depose i T _ guard core calls votes =>
      exact depose i T (by omega) core votes fun c mem => ⟨c, calls ▸ mem, rfl, rfl⟩
  | timer i act bound stands core calls votes =>
      subst act
      have fits : u64 ((s.core i).term + 1) = (s.core i).term + 1 := u64_of_lt (noWrap stands)
      rw [fits] at core votes
      exact raise i ⟨.Candidate, (s.core i).term + 1, i, (s.core i).counters⟩ (Nat.le_succ _)
        (sim.raise core (Nat.le_succ _) (fun _ => .inr (Nat.lt_succ_self _)) entries
          (by simp [votes]) (by simp [votes]) fun c mem => .inl ⟨c, calls ▸ mem, rfl, rfl⟩)
  | solicit i act bound core calls votes =>
      refine raise i { s.core i with votedFor := i, counters := (s.core i).counters ++ [1] } le_rfl
        (sim.raise core le_rfl (fun stands => .inl ⟨stands, rfl⟩) entries (by simp [votes])
          (by simp [votes]) fun c mem => ?_)
      rw [calls] at mem
      rcases List.mem_append.mp mem with old | new
      · exact .inl ⟨c, old, rfl, rfl⟩
      · obtain ⟨j, -, rfl⟩ := List.mem_map.mp new
        exact .inr ⟨rfl, RaftLogger.getLastIndex_eq (positions.log i), lastEntry_term _⟩
  | deny k call found fresh core calls votes =>
      have same := request_set found { call with reply := some _ } rfl rfl calls
      rcases core with core | ⟨higher, core⟩
      · exact quiet core votes same
      · exact depose call.dst call.request.term higher.le core votes same
  | grant k call found fresh guard newer core calls votes =>
      exact sim.grant ok ok' positions found guard newer core calls votes entries
  | close k call found waiting core calls votes =>
      have same := request_set found { call with waiting := false } rfl rfl calls
      rcases core with core | ⟨rets, -, higher, core⟩
      · exact quiet core votes same
      · exact depose call.src rets.term higher.le core votes same
  | count k call rets found waiting reply granted core calls votes =>
      have same := request_set found { call with waiting := false } rfl rfl calls
      exact raise call.src ((s.core call.src).count call.election) le_rfl (sim.raise core le_rfl
        (fun stands => .inl ⟨stands, rfl⟩) entries (by simp [votes]) (by simp [votes])
        fun c mem => .inl (same c mem))
  | win k call rets found waiting reply won core calls votes =>
      have leads : s'.leads call.src := by
        rw [Cluster.leads, ← RaftNode.core_state, ← Cluster.core, core, Function.update_self]
      have stands := won.1.2
      rw [kept call.src leads] at stands
      cases stands

/-- A registration handler appends while its node leads. -/
def LeaderRegisters (s : Cluster) : Action → Prop
  | .decodeTriple i => (s.nodes i).decodes = true → (s.nodes i).m_state = .Leader
  | _ => True

/-- A follower that accepts an entry it has already has nothing behind it. -/
def KeepsTail (s : Cluster) : Action → Prop
  | .appendEntriesEnd i => ∀ r ∈ (s.nodes i).accepting,
      ∀ p ∈ (s.nodes i).m_raft_logger.matchPrev r.2.prevLogIndex r.2.prevLogTerm,
      ∀ e ∈ (s.nodes i).m_raft_logger.m_entries[p + 1]?, e.term = r.2.entry.term →
        (s.nodes i).m_raft_logger.m_entries.length = p + 2
  | _ => True

instance (s : Cluster) : DecidablePred (LeaderRegisters s) := by
  rintro ⟨⟩ <;> dsimp only [LeaderRegisters] <;> infer_instance

instance (s : Cluster) : DecidablePred (KeepsTail s) := by
  rintro ⟨⟩ <;> dsimp only [KeepsTail] <;> infer_instance

structure CallSim (s : Cluster) (l : Book) : Prop where
  sent : ∀ c ∈ s.appendCalls, c.dst ≠ c.src ∧ c.request.term ≠ 0 ∧
    ∃ r, l.reign c.request.term = some r ∧ r.node = c.src ∧ c.sent <+: r.log
  acked : ∀ c ∈ s.appendCalls, ∀ T, c.request.entry.op ≠ .heartbeat →
    c.reply = some ⟨true, T⟩ → T = c.request.term ∧ c.request.prevLogIndex + 2 ≤ l.ack c.dst T
  busy : ∀ i k params, s.accepting i = some (k, params) → params.term = (s.core i).term

def Acked (l : Book) (c : AppendCall) : Prop := ∀ T, c.request.entry.op ≠ .heartbeat →
  c.reply = some ⟨true, T⟩ → T = c.request.term ∧ c.request.prevLogIndex + 2 ≤ l.ack c.dst T

/-- The call was there before, with the reply it has or a new one that is right. -/
def OldCall (s : Cluster) (l : Book) (c : AppendCall) : Prop :=
  ∃ d ∈ s.appendCalls, d.Same c ∧ (c.reply = d.reply ∨ Acked l c)

theorem OldCall.of_mem {s : Cluster} {l : Book} {c : AppendCall} (mem : c ∈ s.appendCalls) :
    OldCall s l c := ⟨c, mem, ⟨rfl, rfl, rfl, rfl⟩, .inl rfl⟩

theorem oldCall_answered {s : Cluster} {l : Book} {k : Nat} {call : AppendCall}
    {rets : AppendEntriesRets} (found : s.appendCalls[k]? = some call)
    (right : Acked l { call with reply := some rets }) :
    ∀ c ∈ s.appendCalls.set k { call with reply := some rets }, OldCall s l c := by
  intro c mem
  rcases List.mem_or_eq_of_mem_set mem with old | rfl
  · exact .of_mem old
  · exact ⟨call, List.mem_of_getElem? found, ⟨rfl, rfl, rfl, rfl⟩, .inr right⟩

theorem CallSim.next {s s' : Cluster} {l l' : Book} (sim : CallSim s l) (grows : Grows l l')
    (calls : ∀ c ∈ s'.appendCalls, OldCall s l' c ∨
      (c.reply = none ∧ c.dst ≠ c.src ∧ c.request.term ≠ 0 ∧
        ∃ r, l'.reign c.request.term = some r ∧ r.node = c.src ∧ c.sent <+: r.log))
    (busy : ∀ i k params, s'.accepting i = some (k, params) → params.term = (s'.core i).term) :
    CallSim s' l' := by
  refine ⟨fun c mem => ?_, fun c mem T real reply => ?_, busy⟩
  · rcases calls c mem with ⟨d, old, same, -⟩ | ⟨-, new⟩
    · obtain ⟨ne, pos, r, reign, node, sent⟩ := sim.sent d old
      obtain ⟨r', reign', node', -, longer⟩ := grows.reign _ r reign
      rw [same.src, same.dst, same.request, same.sent]
      exact ⟨ne, pos, r', reign', node'.trans node, sent.trans longer⟩
    · exact new
  · rcases calls c mem with ⟨d, old, same, kept | right⟩ | ⟨none, -⟩
    · rw [same.request] at real ⊢
      rw [same.dst]
      obtain ⟨term, acked⟩ := sim.acked d old T real (kept ▸ reply)
      exact ⟨term, acked.trans (grows.ack d.dst T)⟩
    · exact right T real reply
    · rw [none] at reply
      cases reply

structure Sim (cfg : Config) (s : Cluster) (l : Book) : Prop where
  elections : ElectionsOk cfg s
  positions : Positions s
  latched : Latched s
  inv : Inv Entry.term l
  votes : VoteSim s l
  calls : CallSim s l

/-- The ledger of a cluster that has not moved: the first entry is of term 0. -/
def blank : Book where
  term := fun _ => 0
  log := fun _ => [{}]
  reign := fun T => if T = 0 then some ⟨0, [], [{}]⟩ else none
  ballot := fun _ _ => none
  ack := fun _ T => if T = 0 then 1 else 0

theorem blank_reign {T : Nat} {r : Reign Nat Entry} (h : blank.reign T = some r) :
    T = 0 ∧ r = ⟨0, [], [{}]⟩ := by
  simpa [blank, eq_comm] using h

theorem blank_inv : Inv Entry.term blank := by
  have first : Held Entry.term blank [{}] := by
    intro p e h
    obtain ⟨rfl, rfl⟩ : p = 0 ∧ {} = e := by
      cases p with
      | zero => exact ⟨rfl, by simpa using h⟩
      | succ p => simp at h
    exact ⟨⟨0, [], [{}]⟩, rfl, List.prefix_rfl⟩
  refine ⟨by simp [blank], fun _ => first, fun T r h => ?_, by simp [blank], fun T r h => ?_,
    fun T r h => ?_, fun v T h => ?_, fun T r h => ?_, by simp [blank]⟩
  · obtain ⟨rfl, rfl⟩ := blank_reign h
    exact first
  · obtain ⟨rfl, rfl⟩ := blank_reign h
    exact ⟨le_rfl, fun _ => rfl⟩
  · obtain ⟨rfl, rfl⟩ := blank_reign h
    exact ⟨by simp, [{}], rfl, by simp, by simp⟩
  · obtain rfl : T = 0 := by
      by_contra ne
      simp [blank, ne] at h
    exact ⟨le_rfl, ⟨0, [], [{}]⟩, rfl, le_rfl⟩
  · obtain ⟨rfl, rfl⟩ := blank_reign h
    exact le_rfl

theorem sim_initial (cfg : Config) : Sim cfg {} blank where
  elections := electionsOk_initial cfg
  positions := positions_initial
  latched := fun _ busy => absurd rfl busy
  inv := blank_inv
  votes :=
    { term := fun _ => rfl
      log := fun _ => rfl
      reigned := fun T r h pos => absurd (blank_reign h).1 pos
      crowned := by simp [Cluster.votes]
      request := by simp
      ballot := by simp [Cluster.votes] }
  calls := ⟨by simp, by simp, fun _ _ _ h => by cases h⟩

section Steps

variable {cfg : Config} {s s' : Cluster} {a : Action} {l l' : Book} {gentle : Prop}

theorem Sim.leads (sim : Sim cfg s l) {i : Nat} (leads : s.leads i) :
    (s.core i).term ≠ 0 ∧ ∃ r, l.reign (s.core i).term = some r ∧ r.node = i ∧
      r.log = s.entries i := by
  have ballots := sim.elections.ballots i
  obtain ⟨es, led⟩ := ballots.crowned leads
  have stands := (ballots.stands (by rw [Cluster.core, RaftNode.core_state, leads]; decide)).2
  obtain ⟨r, reign, rfl, -⟩ := sim.votes.crowned i _ es led
  refine ⟨(ballots.candidate _ stands).1.ne', r, reign, rfl, ?_⟩
  rw [← (sim.inv.current _ r reign).2 (sim.votes.term r.node), sim.votes.log]

/-- The elections of a step that rewrites logs and leaves votes and offices alone. -/
theorem VoteSim.rewrite (sim : VoteSim s l) (same : SameVotes s s') (term : l'.term = l.term)
    (log : ∀ i, l'.log i = s'.entries i) (ballot : l'.ballot = l.ballot)
    (reign : ∀ T, (l'.reign T).map (fun r => (r.node, r.base)) =
      (l.reign T).map fun r => (r.node, r.base))
    (others : ∀ i, (s.core i).state = .Candidate → l.reign (s.core i).term = none →
      s'.entries i = s.entries i) : VoteSim s' l' := by
  obtain ⟨core, calls, votes⟩ := same
  have none : ∀ T, l'.reign T = none → l.reign T = none := fun T h => by
    simpa [h] using reign T
  refine ⟨fun i => by rw [term, core, sim.term], log, fun T r h pos => ?_, fun i T es h => ?_,
    fun c mem => ?_, fun v T c h => ?_⟩
  · have at_ := reign T
    rw [h, Option.map_some] at at_
    obtain ⟨q, hq, eq⟩ := Option.map_eq_some_iff.mp at_.symm
    obtain ⟨node, base⟩ := Prod.mk.injEq .. ▸ eq
    rw [votes, ← node, ← base]
    exact sim.reigned T q hq pos
  · obtain ⟨r, hr, rfl, rfl⟩ := sim.crowned i T es (votes ▸ h)
    have at_ := reign T
    rw [hr, Option.map_some] at at_
    obtain ⟨q, hq, eq⟩ := Option.map_eq_some_iff.mp at_
    obtain ⟨node, base⟩ := Prod.mk.injEq .. ▸ eq
    exact ⟨q, hq, node, base⟩
  · rw [core]
    obtain ⟨bound, describes⟩ := sim.request c (calls ▸ mem)
    refine ⟨bound, fun stands at_ fresh => ?_⟩
    rw [others c.src stands (at_ ▸ none _ fresh)]
    exact describes stands at_ (none _ fresh)
  · rw [core, ballot]
    obtain ⟨bound, cast⟩ := sim.ballot v T c (votes ▸ h)
    refine ⟨bound, fun stands at_ fresh => ?_⟩
    rw [others c stands (at_ ▸ none _ fresh)]
    exact cast stands at_ (none _ fresh)

theorem busy_old (sim : Sim cfg s l) (busy : Busy s s') {i k : Nat}
    {params : AppendEntriesParams} (h : s.accepting i = some (k, params)) :
    params.term = (s'.core i).term := by
  rw [busy.1 i (by simp [h])]
  exact sim.calls.busy i k params h

theorem Sim.next (sim : Sim cfg s l) (noWrap : NoWrap s a) (h : step cfg s a = some s')
    (moves : Moves Entry.term (Finset.range cfg.size) gentle l l') (votes : VoteSim s' l')
    (calls : Grows l l' → CallSim s' l') :
    ∃ l', Moves Entry.term (Finset.range cfg.size) gentle l l' ∧ Sim cfg s' l' := by
  obtain ⟨inv, grows⟩ := moves.inv_grows sim.inv
  exact ⟨l', moves, electionsOk_step sim.elections noWrap h, positions_step sim.positions h,
    (step_busy sim.latched h).2, inv, votes, calls grows⟩

theorem Sim.fresh (sim : Sim cfg s l) (ok' : ElectionsOk cfg s') (odd : Odd cfg.size) {i : Nat}
    (stands : (s.core i).state = .Candidate) {es : List Entry}
    (votes : s'.votes = .leader i (s.core i).term es :: s.votes) :
    l.reign (s.core i).term = none := by
  have ballots := sim.elections.ballots i
  have own := (ballots.stands (by rw [stands]; decide)).2
  by_contra some_
  obtain ⟨r, reign⟩ := Option.ne_none_iff_exists'.mp some_
  have led := sim.votes.reigned _ r reign (ballots.candidate _ own).1.ne'
  obtain rfl : r.node = i := leader_unique ok' odd
    (votes ▸ List.mem_cons_of_mem _ led) (votes ▸ List.mem_cons_self ..)
  have := (ballots.leader _ _ led).2 rfl
  rw [stands] at this
  cases this

theorem Sim.win (sim : Sim cfg s l) (odd : Odd cfg.size) (ok' : ElectionsOk cfg s')
    {k : Nat} {call : VoteCall} {rets : RaftVoteRets} {e : Entry}
    (found : s.voteCalls[k]? = some call)
    (won : (s.nodes call.src).wins cfg call.election rets)
    (made : e.term = (s.core call.src).term)
    (entries : s'.entries = Function.update s.entries call.src (s.entries call.src ++ [e]))
    (core : s'.core = Function.update s.core call.src
      { (s.core call.src).count call.election with state := .Leader })
    (calls : s'.voteCalls = s.voteCalls.set k { call with waiting := false })
    (votes : s'.votes = .leader call.src (s.core call.src).term (s.entries call.src) :: s.votes) :
    Move Entry.term (Finset.range cfg.size) gentle l
        (l.elect call.src (s.core call.src).term e) ∧
      VoteSim s' (l.elect call.src (s.core call.src).term e) := by
  have stands : (s.core call.src).state = .Candidate := won.1.2
  have fresh := sim.fresh ok' odd stands votes
  have log := sim.votes.log call.src
  have other : ∀ i, (s'.core i).state = .Candidate → i ≠ call.src ∧ s'.core i = s.core i := by
    intro i stands'
    rw [core, Function.update_apply] at stands' ⊢
    split_ifs at stands' ⊢ with at_
    exact ⟨at_, rfl⟩
  have term : ∀ i, (s'.core i).term = (s.core i).term := by
    intro i
    rw [core, Function.update_apply]
    split_ifs with at_
    · rw [at_]
      rfl
    · rfl
  refine ⟨.elect _ _ e (voters cfg s'.votes call.src (s.core call.src).term)
    (sim.votes.term call.src) fresh made ?_ fun v mem => ?_,
    ⟨fun i => ?_, fun i => ?_, fun T r h pos => ?_, fun i T es h => ?_, fun c mem => ?_,
      fun v T c h => ?_⟩⟩
  · exact threshold_majority (.inl odd) (Finset.filter_subset _ _)
      (ok'.tally.led _ _ _ (votes ▸ List.mem_cons_self ..))
  · rcases (Finset.mem_filter.mp mem).2 with granted | ⟨self, -⟩
    · right
      rw [log]
      exact (sim.votes.ballot v _ call.src (by simpa [votes] using granted)).2 stands rfl fresh
    · exact .inl self
  · rw [elect_term, term, sim.votes.term]
  · rw [elect_log, entries, Function.update_apply, log, sim.votes.log]
  · rw [elect_reign] at h
    rw [votes]
    split_ifs at h with same
    · cases h
      rw [same, log]
      exact List.mem_cons_self ..
    · exact List.mem_cons_of_mem _ (sim.votes.reigned T r h pos)
  · rw [elect_reign]
    rw [votes] at h
    rcases List.mem_cons.mp h with new | old
    · cases new
      rw [if_pos rfl]
      exact ⟨_, rfl, rfl, log⟩
    · obtain ⟨r, hr, node, base⟩ := sim.votes.crowned i T es old
      rw [if_neg]
      · exact ⟨r, hr, node, base⟩
      · rintro rfl
        rw [fresh] at hr
        cases hr
  · obtain ⟨d, old, src, request⟩ :=
      request_set found { call with waiting := false } rfl rfl calls c mem
    obtain ⟨bound, describes⟩ := sim.votes.request d old
    rw [src, request, term]
    refine ⟨bound, fun stands' same none => ?_⟩
    obtain ⟨ne, core'⟩ := other d.src stands'
    rw [entries, Function.update_of_ne ne]
    rw [elect_reign] at none
    split_ifs at none
    exact describes (core' ▸ stands') same none
  · obtain ⟨bound, cast⟩ := sim.votes.ballot v T c (by simpa [votes] using h)
    rw [term]
    refine ⟨bound, fun stands' same none => ?_⟩
    obtain ⟨ne, core'⟩ := other c stands'
    rw [entries, Function.update_of_ne ne, elect_ballot]
    rw [elect_reign] at none
    split_ifs at none with other_
    rw [if_neg (by simp [other_])]
    exact cast (core' ▸ stands') same none

/-- An accepted entry makes the follower's log a prefix of the leader's. -/
theorem Sim.accept (sim : Sim cfg s l) {i k p : Nat} {params : AppendEntriesParams}
    {call : AppendCall} (at_ : s.accepting i = some (k, params))
    (found : s.appendCalls[k]? = some call)
    (hit : (s.nodes i).m_raft_logger.matchPrev params.prevLogIndex params.prevLogTerm = some p)
    (room : p + 1 < maxEntries)
    (tail : gentle → KeepsTail s (.appendEntriesEnd i)) :
    call.request = params ∧ call.dst = i ∧ p = params.prevLogIndex ∧
    ∃ r, l.reign (s.core i).term = some r ∧
      r.log.take (p + 2) = (s.entries i).take (p + 1) ++ [params.entry] ∧
      Move Entry.term (Finset.range cfg.size) gentle l
        (l.accept i (s.core i).term r (p + 2)) := by
  obtain ⟨real, c, hc, rfl, rfl, -⟩ := sim.positions.accepting i k params at_
  obtain rfl : call = c := Option.some.inj (found.symm.trans hc)
  have mem := List.mem_of_getElem? found
  have term : call.request.term = (s.core call.dst).term := sim.calls.busy _ k _ at_
  obtain ⟨ne, -, r, reign, node, sent⟩ := sim.calls.sent call mem
  obtain ⟨prev, e, inside, prevTerm⟩ :=
    (RaftLogger.matchPrev_eq_some (sim.positions.log call.dst)).mp hit
  obtain ⟨next, before⟩ := (sim.positions.call call mem).next real prev (by omega)
  have short := (List.getElem?_eq_some_iff.mp next).1
  obtain ⟨d, hd⟩ : ∃ d, call.sent[p]? = some d := ⟨_, List.getElem?_eq_getElem (by omega)⟩
  have held : Held Entry.term l (s.entries call.dst) :=
    sim.votes.log call.dst ▸ sim.inv.held call.dst
  have same : (s.entries call.dst).take (p + 1) = r.log.take (p + 1) :=
    held.matching (sim.inv.reignHeld _ r reign) inside (prefix_getElem? sent hd)
      (prevTerm.trans (before d hd))
  have next' := prefix_getElem? sent next
  have inside' := (List.getElem?_eq_some_iff.mp next').1
  refine ⟨rfl, rfl, prev, r, term ▸ reign, ?_, .accept _ _ r _ (term ▸ reign)
    (sim.votes.term call.dst) (node ▸ ne) inside' fun g q old new => ?_⟩
  · rw [List.take_succ_eq_append_getElem inside', same]
    exact congrArg (_ ++ [·]) (List.getElem?_eq_some_iff.mp next').2
  · -- what lies behind `p + 1` was not shared with the leader
    rw [sim.votes.log] at old
    by_contra long
    have short' : p + 1 < q.length := by omega
    have entry : q[p + 1] = call.request.entry := by
      have := prefix_getElem? new (List.getElem?_eq_getElem short')
      exact Option.some.inj (this.symm.trans next')
    have there := prefix_getElem? old (List.getElem?_eq_getElem short')
    have := tail g _ at_ p hit _ there (by rw [entry])
    have := old.length_le
    rw [Cluster.entries] at this
    omega

/-- A run of the cluster is mirrored by moves of a ledger: what one step needs. -/
theorem sim_step (sim : Sim cfg s l) (odd : Odd cfg.size) (noWrap : NoWrap s a)
    (leader : LeaderRegisters s a) (tail : gentle → KeepsTail s a)
    (h : step cfg s a = some s') :
    ∃ l', Moves Entry.term (Finset.range cfg.size) gentle l l' ∧ Sim cfg s' l' := by
  have ok' := electionsOk_step sim.elections noWrap h
  have busy := step_busy sim.latched h
  have kept : s'.appendCalls = s.appendCalls → ∀ {l' : Book}, ∀ c ∈ s'.appendCalls,
      OldCall s l' c := fun same _ c mem => .of_mem (same ▸ mem)
  have emptied : ∀ {i : Nat}, s'.accepting = Function.update s.accepting i none →
      ∀ v k params, s'.accepting v = some (k, params) → params.term = (s'.core v).term := by
    intro i accepting v k params at_
    rw [accepting, Function.update_apply] at at_
    split_ifs at at_
    exact busy_old sim busy at_
  cases step_logStep h with
  | still entries accepting calls kept_ =>
      obtain ⟨l', moves, votes, reign, ack⟩ := voteSim_step sim.votes sim.elections ok'
        sim.positions noWrap h entries kept_
      exact sim.next noWrap h moves votes fun grows => sim.calls.next grows
        (fun c mem => .inl (kept calls c mem)) fun i k params at_ =>
          busy_old sim busy (accepting ▸ at_)
  | win k call rets act found reply won room entries accepting calls core voteCalls votes =>
      obtain ⟨move, votes'⟩ := sim.win odd ok' found won rfl entries core voteCalls votes
      exact sim.next noWrap h (.single move) votes' fun grows => sim.calls.next grows
        (fun c mem => .inl (kept calls c mem)) fun i k params at_ =>
          busy_old sim busy (accepting ▸ at_)
  | register i t act decodes room entries accepting calls same =>
      subst act
      have leads : s.leads i := leader decodes
      obtain ⟨-, r, reign, rfl, log⟩ := sim.leads leads
      have term := sim.votes.term r.node
      refine sim.next noWrap h (.single (.append _ r { (s.nodes r.node).registration t with
          index := (s.nodes r.node).m_raft_logger.getLastIndex + 1 } reign term rfl))
        (sim.votes.rewrite same rfl (fun v => ?_) rfl (fun T => ?_) fun v stands _ => ?_)
        fun grows => sim.calls.next grows (fun c mem => .inl (kept calls c mem))
          fun i k params at_ => busy_old sim busy (accepting ▸ at_)
      · rw [append_log, entries, Function.update_apply, log, sim.votes.log]
      · rw [append_reign]
        split_ifs with at_
        · rw [at_, reign]
          rfl
        · rfl
      · rw [entries, Function.update_of_ne]
        rintro rfl
        cases stands.symm.trans leads
  | send i call sends entries accepting calls same =>
      obtain ⟨pos, r, reign, node, log⟩ := sim.leads sends.leads
      obtain ⟨e, request, -⟩ := sends.request
      have term : call.request.term = (s.core i).term := congrArg AppendEntriesParams.term request
      refine sim.next noWrap h .refl (sim.votes.rewrite same rfl (fun v => ?_) rfl (fun _ => rfl)
        fun v _ _ => congrFun entries v) fun grows => sim.calls.next grows (fun c mem => ?_)
          fun i k params at_ => busy_old sim busy (accepting ▸ at_)
      · rw [entries, sim.votes.log]
      · rw [calls] at mem
        rcases List.mem_append.mp mem with old | new
        · exact .inl (.of_mem old)
        · obtain rfl := List.mem_singleton.mp new
          refine .inr ⟨sends.fresh, ?_, term ▸ pos, r, term ▸ reign, node.trans sends.src.symm, ?_⟩
          · rw [sends.src]
            exact ((sim.elections.peers i).2 c.dst sends.dst).2.1
          · rw [sends.sent, log]
            rfl
  | answer k call rets act found fresh idle term beat entries accepting calls kept_ =>
      obtain ⟨l', moves, votes, reign, ack⟩ := voteSim_step sim.votes sim.elections ok'
        sim.positions noWrap h entries kept_
      refine sim.next noWrap h moves votes fun grows => sim.calls.next grows (fun c mem =>
        .inl (oldCall_answered found (fun T real right => ?_) c (calls ▸ mem)))
          fun i k params at_ => busy_old sim busy (accepting ▸ at_)
      exact absurd (beat (by rw [Option.some.inj right])) real
  | accept k call act found fresh idle term real entries accepting calls kept_ =>
      obtain ⟨l', moves, votes, reign, ack⟩ := voteSim_step sim.votes sim.elections ok'
        sim.positions noWrap h entries kept_
      refine sim.next noWrap h moves votes fun grows => sim.calls.next grows
        (fun c mem => .inl (kept calls c mem)) fun i k params at_ => ?_
      rw [accepting, Function.update_apply] at at_
      split_ifs at at_ with here
      · cases at_
        rw [here, term]
      · exact busy_old sim busy at_
  | reject i k params call act at_ found missed entries accepting calls same =>
      refine sim.next noWrap h .refl (sim.votes.rewrite same rfl (fun v => ?_) rfl (fun _ => rfl)
        fun v _ _ => congrFun entries v) fun grows => sim.calls.next grows (fun c mem =>
          .inl (oldCall_answered found (fun T _ right => by cases right) c (calls ▸ mem)))
            (emptied accepting)
      rw [entries, sim.votes.log]
  | append i k p params call act at_ found hit room entries accepting calls same =>
      subst act
      obtain ⟨rfl, rfl, prev, r, reign, log, move⟩ := sim.accept at_ found hit room tail
      refine sim.next noWrap h (.single move) (sim.votes.rewrite same rfl (fun v => ?_) rfl
        (fun _ => rfl) fun v _ none => ?_) fun grows => sim.calls.next grows (fun c mem =>
          .inl (oldCall_answered found (fun T _ right => ?_) c (calls ▸ mem))) (emptied accepting)
      · rw [accept_log, entries, Function.update_apply, log, sim.votes.log]
      · rw [entries, Function.update_of_ne]
        rintro rfl
        rw [reign] at none
        cases none
      · cases right
        refine ⟨(sim.calls.busy _ k _ at_).symm, ?_⟩
        rw [accept_ack, if_pos ⟨rfl, rfl⟩, ← prev]
        exact le_max_right ..

end Steps

end CRpc.Raft
