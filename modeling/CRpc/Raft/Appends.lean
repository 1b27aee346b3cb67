import CRpc.Raft.Locks
import CRpc.Raft.Positions
import CRpc.Raft.Redirects
import CRpc.Raft.Reigns

/-! What a follower makes of a request: where its log is searched, the log it ends up
with, and the leader it knows afterwards. -/
namespace CRpc.Raft

open Cluster Transition

namespace RaftLogger

/-- Where `appendEntry` dereferences `entry_iter`, with `n` entries left to look at. The
last place is read again behind the loop; `-1` is the one before `begin()`. -/
def walk (entries : List Entry) (prevLogIndex : Nat) : Nat → List Int
  | 0 => [-1]
  | n + 1 =>
      match entries[n]? with
      | none => [n]
      | some e =>
          if prevLogIndex < e.index then n :: walk entries prevLogIndex n
          else if e.index = prevLogIndex then [n]
          else n :: walk entries prevLogIndex n

theorem walk_getLast (entries : List Entry) (prevLogIndex n : Nat) (le : n ≤ entries.length) :
    (walk entries prevLogIndex n).getLast? =
      some ((findPrev entries prevLogIndex n).elim (-1) fun p => (p : Int)) := by
  induction n with
  | zero => rfl
  | succ n ih =>
      have at_ : entries[n]? = some entries[n] := List.getElem?_eq_getElem (by omega)
      have rest := ih (by omega)
      have goes : (((n : Int) :: walk entries prevLogIndex n)).getLast? =
          (walk entries prevLogIndex n).getLast? := by
        rw [List.getLast?_cons, rest]
        rfl
      simp only [walk, findPrev, at_]
      split_ifs
      · rw [goes, rest]
      · rfl
      · rw [goes, rest]

theorem walk_length (entries : List Entry) (prevLogIndex n : Nat) :
    (walk entries prevLogIndex n).length ≤ n + 1 := by
  induction n with
  | zero => rfl
  | succ n ih =>
      unfold walk
      split
      · simp
      · split_ifs <;> simp [ih]

/-- On a numbered log the walk stays in it exactly if it meets its index. -/
theorem walk_inside {entries : List Entry}
    (index : ∀ (p : Nat) (e : Entry), entries[p]? = some e → e.index = p) (prevLogIndex n : Nat)
    (le : n ≤ entries.length) :
    (∀ p ∈ walk entries prevLogIndex n, 0 ≤ p ∧ p < entries.length) ↔ prevLogIndex < n := by
  induction n with
  | zero => simp [walk]
  | succ n ih =>
      have at_ : entries[n]? = some entries[n] := List.getElem?_eq_getElem (by omega)
      have here : (entries[n]).index = n := index n _ at_
      have inside : (0 : Int) ≤ n ∧ (n : Int) < entries.length := by omega
      simp only [walk, at_, here]
      rcases Nat.lt_trichotomy prevLogIndex n with lt | rfl | gt
      · rw [if_pos lt, List.forall_mem_cons, ih (by omega)]
        exact ⟨fun h => by omega, fun _ => ⟨inside, lt⟩⟩
      · simp [inside]
      · rw [if_neg (by omega), if_neg (by omega), List.forall_mem_cons, ih (by omega)]
        exact ⟨fun h => by omega, fun h => by omega⟩

/-- What a caller may expect of `appendEntry`. -/
structure AppendsBehind (l : RaftLogger) (new_entry : Entry) (prevLogIndex prevLogTerm : Nat) :
    Prop where
  ends : (walk l.m_entries prevLogIndex l.m_entries.length).length ≤ l.m_entries.length + 1
  inside : ∀ p ∈ walk l.m_entries prevLogIndex l.m_entries.length, 0 ≤ p ∧ p < l.m_entries.length
  rejects : (¬ ∃ e ∈ l.m_entries, e.index = prevLogIndex ∧ e.term = prevLogTerm) →
    ∃ l', l.appendAfter new_entry prevLogIndex prevLogTerm = some (l', false) ∧
      l'.m_entries = l.m_entries
  accepts : (∃ e ∈ l.m_entries, e.index = prevLogIndex ∧ e.term = prevLogTerm) →
    ∃ l', l.appendAfter new_entry prevLogIndex prevLogTerm = some (l', true) ∧
      l'.m_entries = l.m_entries.take (prevLogIndex + 1) ++ [new_entry]

section Numbered

variable {l : RaftLogger} (index : ∀ (p : Nat) (e : Entry), l.m_entries[p]? = some e → e.index = p)
include index

/-- An entry with this index and term is the one at this position. -/
theorem mem_iff_getElem (prevLogIndex prevLogTerm : Nat) :
    (∃ e ∈ l.m_entries, e.index = prevLogIndex ∧ e.term = prevLogTerm) ↔
      ∃ e, l.m_entries[prevLogIndex]? = some e ∧ e.term = prevLogTerm := by
  constructor
  · rintro ⟨e, mem, rfl, term⟩
    obtain ⟨p, at_⟩ := List.mem_iff_getElem?.mp mem
    rw [index p e at_]
    exact ⟨e, at_, term⟩
  · rintro ⟨e, at_, term⟩
    exact ⟨e, List.mem_of_getElem? at_, index _ e at_, term⟩

theorem matchPrev_numbered (prevLogIndex prevLogTerm : Nat) :
    (∃ e, l.m_entries[prevLogIndex]? = some e ∧ e.term = prevLogTerm ∧
      l.matchPrev prevLogIndex prevLogTerm = some prevLogIndex) ∨
    ((¬ ∃ e, l.m_entries[prevLogIndex]? = some e ∧ e.term = prevLogTerm) ∧
      l.matchPrev prevLogIndex prevLogTerm = none) := by
  rw [matchPrev, findPrev_eq index _ _ le_rfl]
  cases at_ : l.m_entries[prevLogIndex]? with
  | none =>
      have outside := List.getElem?_eq_none_iff.mp at_
      right
      simp [not_lt.mpr outside]
  | some e =>
      have inside := (List.getElem?_eq_some_iff.mp at_).1
      have entry : l.getEntry prevLogIndex = e := by rw [getEntry, at_]; rfl
      simp only [if_pos inside, entry]
      by_cases term : e.term = prevLogTerm
      · exact .inl ⟨e, rfl, term, if_pos term⟩
      · right
        simp [term]

/-- `appendEntry` does what its callers expect exactly if `prevLogIndex` is the index of an
entry, and the vector has room behind it where the new one is put. -/
theorem append_behind_iff (new_entry : Entry) (prevLogIndex prevLogTerm : Nat) :
    l.AppendsBehind new_entry prevLogIndex prevLogTerm ↔ prevLogIndex < l.m_entries.length ∧
      (∀ e, l.m_entries[prevLogIndex]? = some e → e.term = prevLogTerm →
        prevLogIndex + 1 < maxEntries) := by
  have stays := walk_inside index prevLogIndex l.m_entries.length le_rfl
  have found := mem_iff_getElem index prevLogIndex prevLogTerm
  constructor
  · rintro ⟨-, inside, -, accepts⟩
    refine ⟨stays.mp inside, fun e at_ term => ?_⟩
    obtain ⟨l', did, -⟩ := accepts (found.mpr ⟨e, at_, term⟩)
    rcases matchPrev_numbered index prevLogIndex prevLogTerm with ⟨-, -, -, hit⟩ | ⟨none, -⟩
    · rw [appendAfter, hit] at did
      exact (Option.ite_none_right_eq_some.mp did).1
    · exact absurd ⟨e, at_, term⟩ none
  · rintro ⟨inside, room⟩
    refine ⟨walk_length .., stays.mpr inside, fun none => ?_, fun some_ => ?_⟩
    · rcases matchPrev_numbered index prevLogIndex prevLogTerm with ⟨e, at_, term, -⟩ | ⟨-, miss⟩
      · exact absurd (found.mpr ⟨e, at_, term⟩) none
      · rw [appendAfter, miss]
        exact ⟨_, rfl, rfl⟩
    · rcases matchPrev_numbered index prevLogIndex prevLogTerm with ⟨e, at_, term, hit⟩ | ⟨none, -⟩
      · rw [appendAfter, hit]
        simp only [if_pos (room e at_ term)]
        exact ⟨_, rfl, rfl⟩
      · exact absurd (found.mp some_) none

end Numbered

def grown : RaftLogger where
  m_entries := [{}, { index := 1, term := 1 }, { index := 2, term := 2 }]

theorem grown_index (p : Nat) (e : Entry) (at_ : grown.m_entries[p]? = some e) : e.index = p := by
  rcases p with _ | _ | _ | p
  · cases at_
    rfl
  · cases at_
    rfl
  · cases at_
    rfl
  · cases at_

/-- Behind an entry in the middle, the one after it is replaced. -/
theorem middle_append_behind : grown.AppendsBehind { index := 2, term := 3 } 1 1 :=
  (append_behind_iff grown_index _ 1 1).mpr ⟨by decide, fun _ _ _ => by decide⟩

end RaftLogger

/-- Node 0 is elected a second time with a no-op that no other node has, and sends the
next one to node 1. -/
def zeroLeavesBehind : List Action :=
  zeroElected ++ [.electionTimer 1, .startElection 1, .raftVote 2, .electionTimer 0,
    .startElection 0, .raftVote 5, .voteReply 5, .replicateSend 0 2]

/-- A request can reach a follower whose log ends before `prevLogIndex`; its search reads
the entry in front of the first. -/
theorem search_leaves_log : ∃ s call, exec (step threeNodes) {} zeroLeavesBehind = some s ∧
    s.appendCalls[0]? = some call ∧ call.reply = none ∧
    RaftLogger.walk (s.entries call.dst) call.request.prevLogIndex (s.entries call.dst).length =
      [0, -1] ∧
    ¬ (s.nodes call.dst).m_raft_logger.AppendsBehind call.request.entry
      call.request.prevLogIndex call.request.prevLogTerm := by
  have done : (exec (step threeNodes) {} zeroLeavesBehind).bind (fun s =>
      s.appendCalls[0]?.map fun call => decide (call.reply = none ∧
        RaftLogger.walk (s.entries call.dst) call.request.prevLogIndex
          (s.entries call.dst).length = [0, -1])) = some true := by decide +kernel
  obtain ⟨s, run, rest⟩ := Option.bind_eq_some_iff.mp done
  obtain ⟨call, found, seen⟩ := Option.map_eq_some_iff.mp rest
  obtain ⟨fresh, walked⟩ := of_decide_eq_true seen
  refine ⟨s, call, run, found, fresh, walked, fun behind => ?_⟩
  have outside := behind.inside (-1) (walked ▸ by simp)
  exact absurd outside.1 (by decide)

section Requests

variable {nd nd' : RaftNode} {params : AppendEntriesParams} {rets : AppendEntriesRets}

theorem handled_cases (handled : (NodeCode.appendEntries params).run nd = some (rets, nd')) :
    nd.appendEntries params = (nd', some rets) ∨
    ∃ r, (nd.appendEntries params).2 = none ∧
      (nd.appendEntries params).1.appendEntriesEnd params = some r ∧ r.2 = rets ∧
      { r.1 with run := nd.run } = nd' := by
  rw [NodeCode.appendEntries_run] at handled
  cases first : nd.appendEntries params with
  | mk mid reply =>
      rw [first] at handled
      cases reply with
      | some answer =>
          cases handled
          exact .inl rfl
      | none =>
          obtain ⟨r, did, same⟩ := Option.map_eq_some_iff.mp handled
          obtain ⟨answer, node⟩ := Prod.mk.inj same
          exact .inr ⟨r, rfl, did, answer, node⟩

theorem accepted_entries (handled : (NodeCode.appendEntries params).run nd = some (rets, nd'))
    (accepted : rets.success = true) :
    (params.entry.op = .heartbeat ∧ nd'.m_raft_logger.m_entries = nd.m_raft_logger.m_entries) ∨
    (params.entry.op ≠ .heartbeat ∧
      ∃ p, nd.m_raft_logger.matchPrev params.prevLogIndex params.prevLogTerm = some p ∧
        nd'.m_raft_logger.m_entries =
          nd.m_raft_logger.m_entries.take (p + 1) ++ [params.entry]) := by
  have entries : (nd.appendEntries params).1.m_raft_logger.m_entries = _ :=
    RaftNode.appendEntries_entries params
  have answers := RaftNode.appendEntries_answer nd params
  rcases handled_cases handled with replied | ⟨r, unreplied, did, rfl, rfl⟩
  · rw [replied] at entries answers
    rcases answers with ⟨-, stale⟩ | ⟨-, -, ⟨beat, -⟩ | ⟨-, none, -⟩⟩
    · cases stale
      cases accepted
    · exact .inl ⟨beat, entries⟩
    · cases none
  · rcases answers with ⟨-, stale⟩ | ⟨-, -, ⟨-, some_⟩ | ⟨real, -, -⟩⟩
    · rw [stale] at unreplied
      cases unreplied
    · cases unreplied.symm.trans some_
    · obtain ⟨-, ⟨-, -, refused⟩ | ⟨p, hit, -, spliced, -⟩⟩ := RaftNode.appendEntriesEnd_cases did
      · rw [refused] at accepted
        cases accepted
      · rw [Piece.appendEntries_matchPrev] at hit
        exact .inr ⟨real, p, hit, entries ▸ spliced⟩

/-- An accepted request for an entry the follower has at its place leaves the log alone
exactly if it is a heartbeat or for the log's last entry, word for word. -/
theorem repeated_append_iff {cfg : Config} {as : List Action} {s : Cluster}
    (run : Run (step cfg) Always {} as s) {i : Nat}
    (handled : (NodeCode.appendEntries params).run (s.nodes i) = some (rets, nd'))
    (accepted : rets.success = true) {e : Entry}
    (present : (s.entries i)[params.prevLogIndex + 1]? = some e)
    (_same : e.index = params.entry.index ∧ e.term = params.entry.term) :
    nd'.m_raft_logger.m_entries = s.entries i ↔ params.entry.op = .heartbeat ∨
      ((s.entries i).length = params.prevLogIndex + 2 ∧ e = params.entry) := by
  have placed : Placed (s.entries i) := (positions_run run).log i
  rcases accepted_entries handled accepted with ⟨beat, same⟩ | ⟨real, p, hit, spliced⟩
  · exact ⟨fun _ => .inl beat, fun _ => same⟩
  · obtain ⟨rfl, -⟩ := (RaftLogger.matchPrev_eq_some placed).mp hit
    obtain ⟨inside, at_⟩ := List.getElem?_eq_some_iff.mp present
    have cut : ((s.entries i).take (params.prevLogIndex + 1)).length = params.prevLogIndex + 1 :=
      List.length_take_of_le (by omega)
    change nd'.m_raft_logger.m_entries = (s.entries i).take (params.prevLogIndex + 1) ++
      [params.entry] at spliced
    rw [spliced, or_iff_right real]
    constructor
    · intro kept
      have length := congrArg List.length kept
      rw [List.length_append, cut] at length
      refine ⟨length.symm, ?_⟩
      rw [← kept, List.getElem?_append_right (by omega), cut, Nat.sub_self] at present
      exact (Option.some.inj present).symm
    · rintro ⟨last, rfl⟩
      conv_rhs => rw [← List.take_length (l := s.entries i), last,
        List.take_succ_eq_append_getElem inside, at_]

/-- A follower's handler leaves it in the term of the request, under the leader that sent it,
exactly if it has just entered that term, has lost an election in it, or knew the leader. -/
theorem leader_learned_iff (handled : (NodeCode.appendEntries params).run nd = some (rets, nd'))
    (current : nd.m_currentTerm ≤ params.term) :
    (nd'.m_currentTerm = params.term ∧ nd'.m_leaderId = params.leaderId) ↔
      nd.m_currentTerm < params.term ∨ nd.m_state = .Candidate ∨
        nd.m_leaderId = params.leaderId := by
  have belief : nd'.belief = (nd.appendEntries params).1.belief := by
    rcases handled_cases handled with replied | ⟨r, -, did, -, rfl⟩
    · rw [replied]
    · exact RaftNode.appendEntriesEnd_belief did
  have adopts : (nd.appendEntries params).1.belief =
      if nd.m_currentTerm < params.term ∨ (params.term = nd.m_currentTerm ∧ nd.m_state = .Candidate)
      then (params.leaderId, params.term) else nd.belief := by
    unfold RaftNode.appendEntries
    simp only [if_neg (not_lt.mpr current), Nat.not_lt_zero, if_false]
    split_ifs <;> rfl
  rw [adopts] at belief
  by_cases enters : nd.m_currentTerm < params.term ∨
      (params.term = nd.m_currentTerm ∧ nd.m_state = .Candidate)
  · rw [if_pos enters] at belief
    obtain ⟨leaderId, term⟩ := Prod.mk.inj belief
    refine iff_of_true ⟨term, leaderId⟩ ?_
    exact enters.imp_right fun lost => .inl lost.2
  · -- the handler leaves both fields as they are
    rw [if_neg enters] at belief
    obtain ⟨leaderId, term⟩ := Prod.mk.inj belief
    obtain ⟨notLower, notLost⟩ := not_or.mp enters
    have same : params.term = nd.m_currentTerm := by omega
    rw [leaderId, term, or_iff_right notLower, or_iff_right fun lost => notLost ⟨same, lost⟩]
    exact and_iff_right same.symm

end Requests

/-- The no-op is the last entry node 1 has when a copy of its request arrives. -/
theorem last_append_repeated : ∃ s call nd', exec (step threeNodes) {}
      (zeroElected ++ [.replicateSend 0 0, .replicateTimeout 0 0] ++ roundToOne 0 1) = some s ∧
    s.appendCalls[0]? = some call ∧
    (NodeCode.appendEntries call.request).run (s.nodes 1) = some (⟨true, 1⟩, nd') ∧
    nd'.m_raft_logger.m_entries = s.entries 1 := by
  have done : (exec (step threeNodes) {} (zeroElected ++ [.replicateSend 0 0,
      .replicateTimeout 0 0] ++ roundToOne 0 1)).bind (fun s =>
        s.appendCalls[0]?.bind fun call =>
          ((NodeCode.appendEntries call.request).run (s.nodes 1)).map fun r =>
            decide (r.1 = ⟨true, 1⟩ ∧ (s.entries 1).length = call.request.prevLogIndex + 2 ∧
              (s.entries 1)[call.request.prevLogIndex + 1]? = some call.request.entry)) =
      some true := by decide +kernel
  obtain ⟨s, run, rest⟩ := Option.bind_eq_some_iff.mp done
  obtain ⟨call, found, rest⟩ := Option.bind_eq_some_iff.mp rest
  obtain ⟨⟨rets, nd'⟩, handled, seen⟩ := Option.map_eq_some_iff.mp rest
  obtain ⟨rfl, length, present⟩ := of_decide_eq_true seen
  exact ⟨s, call, nd', run, found, handled,
    (repeated_append_iff (.of_exec run) handled rfl present ⟨rfl, rfl⟩).mpr
      (.inr ⟨length, rfl⟩)⟩

/-- Node 0 sends its no-op twice; the second request is answered, a registration follows and is
committed, and the first request is still on its way. -/
def zeroRepeats : List Action :=
  zeroElected ++ [.replicateSend 0 0, .replicateTimeout 0 0] ++ roundToOne 0 1 ++
    [.clientMsg 0 .RPC_SERVER_INIT [⟨"f", "ip", 80⟩], .testNoOp 0, .lockLog 0 0, .decodeTriple 0,
      .decodeTriple 0] ++ roundToOne 0 2

/-- The late request takes the committed registration off the follower's log. -/
theorem late_append_truncates : ∃ s call nd', exec (step threeNodes) {} zeroRepeats = some s ∧
    s.appendCalls[0]? = some call ∧ call.dst = 1 ∧ call.reply = none ∧
    (s.entries 1)[call.request.prevLogIndex + 1]? = some call.request.entry ∧
    ((s.nodes 0).m_matchIndexs 1 = 2 ∧ (s.nodes 0).m_raft_logger.m_commitIndex = 2) ∧
    (NodeCode.appendEntries call.request).run (s.nodes 1) = some (⟨true, 1⟩, nd') ∧
    (s.entries 1).length = 3 ∧ nd'.m_raft_logger.m_entries.length = 2 := by
  have done : (exec (step threeNodes) {} zeroRepeats).bind (fun s =>
      s.appendCalls[0]?.bind fun call =>
        ((NodeCode.appendEntries call.request).run (s.nodes 1)).map fun r =>
          decide ((call.dst = 1 ∧ call.reply = none ∧
            (s.entries 1)[call.request.prevLogIndex + 1]? = some call.request.entry ∧
            ((s.nodes 0).m_matchIndexs 1 = 2 ∧ (s.nodes 0).m_raft_logger.m_commitIndex = 2)) ∧
            r.1 = ⟨true, 1⟩ ∧ (s.entries 1).length = 3 ∧
            r.2.m_raft_logger.m_entries.length = 2)) = some true := by decide +kernel
  obtain ⟨s, run, rest⟩ := Option.bind_eq_some_iff.mp done
  obtain ⟨call, found, rest⟩ := Option.bind_eq_some_iff.mp rest
  obtain ⟨⟨rets, nd'⟩, handled, seen⟩ := Option.map_eq_some_iff.mp rest
  obtain ⟨⟨dst, fresh, present, counted⟩, rfl, lengths⟩ := of_decide_eq_true seen
  exact ⟨s, call, nd', run, found, dst, fresh, present, counted, handled, lengths⟩

/-- A node that has not heard of the term learns its leader. -/
theorem leader_learned : ∃ s call nd', exec (step threeNodes) {}
      (zeroElected ++ [.heartbeat 0 2]) = some s ∧ s.appendCalls[0]? = some call ∧
    (NodeCode.appendEntries call.request).run (s.nodes 2) = some (⟨true, 1⟩, nd') ∧
    nd'.m_currentTerm = call.request.term ∧ nd'.m_leaderId = call.request.leaderId := by
  have done : (exec (step threeNodes) {} (zeroElected ++ [.heartbeat 0 2])).bind (fun s =>
      s.appendCalls[0]?.bind fun call =>
        ((NodeCode.appendEntries call.request).run (s.nodes 2)).map fun r =>
          decide (r.1 = ⟨true, 1⟩ ∧ (s.nodes 2).m_currentTerm < call.request.term)) =
      some true := by decide +kernel
  obtain ⟨s, run, rest⟩ := Option.bind_eq_some_iff.mp done
  obtain ⟨call, found, rest⟩ := Option.bind_eq_some_iff.mp rest
  obtain ⟨⟨rets, nd'⟩, handled, seen⟩ := Option.map_eq_some_iff.mp rest
  obtain ⟨rfl, higher⟩ := of_decide_eq_true seen
  exact ⟨s, call, nd', run, found, handled,
    (leader_learned_iff handled higher.le).mpr (.inl higher)⟩

/-- Node 1 loses its election in term 1 to the answer of node 0, which leads term 2 by then and
sends a heartbeat. -/
def oneDeposed : List Action :=
  connected ++ [.electionTimer 1, .startElection 1, .electionTimer 0, .electionTimer 0,
    .startElection 0, .raftVote 3, .voteReply 3, .raftVote 0, .voteReply 0, .heartbeat 0 1]

/-- A node that has the term from a reply does not learn its leader from the leader. -/
theorem leader_unlearned : ∃ s call nd', exec (step threeNodes) {} oneDeposed = some s ∧
    s.appendCalls[0]? = some call ∧ (call.dst = 1 ∧ call.reply = none) ∧
    Reigning call.request.leaderId call.request.term s ∧
    (s.nodes 1).m_currentTerm ≤ call.request.term ∧
    (NodeCode.appendEntries call.request).run (s.nodes 1) = some (⟨true, 2⟩, nd') ∧
    ¬ (nd'.m_currentTerm = call.request.term ∧ nd'.m_leaderId = call.request.leaderId) := by
  have done : (exec (step threeNodes) {} oneDeposed).bind (fun s =>
      s.appendCalls[0]?.bind fun call =>
        ((NodeCode.appendEntries call.request).run (s.nodes 1)).map fun r =>
          decide (((call.dst = 1 ∧ call.reply = none) ∧
            Reigning call.request.leaderId call.request.term s ∧
            (s.nodes 1).m_currentTerm ≤ call.request.term) ∧ r.1 = ⟨true, 2⟩ ∧
            ¬ (r.2.m_currentTerm = call.request.term ∧
              r.2.m_leaderId = call.request.leaderId))) = some true := by decide +kernel
  obtain ⟨s, run, rest⟩ := Option.bind_eq_some_iff.mp done
  obtain ⟨call, found, rest⟩ := Option.bind_eq_some_iff.mp rest
  obtain ⟨⟨rets, nd'⟩, handled, seen⟩ := Option.map_eq_some_iff.mp rest
  obtain ⟨⟨here, reigns, current⟩, rfl, unlearned⟩ := of_decide_eq_true seen
  exact ⟨s, call, nd', run, found, here, reigns, current, handled, unlearned⟩

end CRpc.Raft
