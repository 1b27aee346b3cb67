import CRpc.Raft.Logs

/-! Entries stand at the position their `index` says, in every log and every request.
So the walk of `appendEntry` finds exactly the entry it looks for. -/
namespace CRpc.Raft

open Cluster Transition

/-- A log as the code builds it: not empty, not beyond what a vector holds, without
heartbeats, and every entry's `index` its position. -/
structure Placed (entries : List Entry) : Prop where
  nonempty : entries ≠ []
  room : entries.length ≤ maxEntries
  real : ∀ e ∈ entries, e.op ≠ .heartbeat
  index : ∀ (p : Nat) (e : Entry), entries[p]? = some e → e.index = p

theorem maxEntries_lt : maxEntries < 2 ^ 64 - 1 := by decide

theorem placed_initial : Placed [{}] where
  nonempty := by simp
  room := by decide
  real := by simp
  index := fun p e h => by
    cases p with
    | zero =>
        cases h
        rfl
    | succ p => simp at h

namespace Placed

variable {entries : List Entry}

theorem length_pos (placed : Placed entries) : 0 < entries.length :=
  List.length_pos_of_ne_nil placed.nonempty

theorem snoc (placed : Placed entries) {n : Nat} {e : Entry} (pos : 0 < n)
    (le : n ≤ entries.length) (room : n < maxEntries) (real : e.op ≠ .heartbeat)
    (index : e.index = n) : Placed (entries.take n ++ [e]) where
  nonempty := by simp
  room := by
    rw [List.length_append, List.length_take, min_eq_left le]
    exact room
  real := fun d mem => by
    rcases List.mem_append.mp mem with old | new
    · exact placed.real d (List.mem_of_mem_take old)
    · exact List.mem_singleton.mp new ▸ real
  index := fun p d h => by
    have len : (entries.take n).length = n := by rw [List.length_take, min_eq_left le]
    rcases Nat.lt_or_ge p n with old | new
    · rw [List.getElem?_append_left (old.trans_eq len.symm), List.getElem?_take_of_lt old] at h
      exact placed.index p d h
    · rw [List.getElem?_append_right (len.trans_le new), len] at h
      obtain ⟨rfl, rfl⟩ : p = n ∧ e = d := by
        cases at_ : p - n with
        | zero => exact ⟨by omega, by simpa [at_] using h⟩
        | succ m => simp [at_] at h
      exact index

theorem push (placed : Placed entries) {e : Entry} (room : entries.length < maxEntries)
    (real : e.op ≠ .heartbeat) (index : e.index = entries.length) : Placed (entries ++ [e]) := by
  have := placed.snoc placed.length_pos le_rfl room real index
  rwa [List.take_length] at this

end Placed

namespace RaftLogger

variable {l : RaftLogger}

theorem lastEntry_eq (placed : Placed l.m_entries) :
    l.m_entries[l.m_entries.length - 1]? = some l.lastEntry := by
  obtain ⟨front, e, eq⟩ := (List.eq_nil_or_concat l.m_entries).resolve_left placed.nonempty
  rw [List.concat_eq_append] at eq
  rw [RaftLogger.lastEntry, eq]
  simp

theorem getLastIndex_eq (placed : Placed l.m_entries) :
    l.getLastIndex = l.m_entries.length - 1 :=
  placed.index _ _ (lastEntry_eq placed)

theorem findPrev_eq {entries : List Entry} (index : ∀ (p : Nat) (e : Entry), entries[p]? = some e → e.index = p)
    (prevLogIndex n : Nat) (le : n ≤ entries.length) :
    findPrev entries prevLogIndex n = if prevLogIndex < n then some prevLogIndex else none := by
  induction n with
  | zero => simp [findPrev]
  | succ n ih =>
      have at_ : entries[n]? = some entries[n] := List.getElem?_eq_getElem (by omega)
      have here : (entries[n]).index = n := index n _ at_
      simp only [findPrev, at_, here, ih (by omega)]
      rcases Nat.lt_trichotomy prevLogIndex n with lt | rfl | gt
      · rw [if_pos lt, if_pos lt, if_pos (by omega)]
      · simp
      · rw [if_neg (by omega), if_neg (by omega), if_neg (by omega), if_neg (by omega)]

/-- `appendEntry` accepts behind the entry at `prevLogIndex`, if its term is right. -/
theorem matchPrev_eq_some (placed : Placed l.m_entries) {prevLogIndex prevLogTerm p : Nat} :
    l.matchPrev prevLogIndex prevLogTerm = some p ↔ p = prevLogIndex ∧
      ∃ e, l.m_entries[p]? = some e ∧ e.term = prevLogTerm := by
  rw [matchPrev, findPrev_eq placed.index _ _ le_rfl]
  by_cases inside : prevLogIndex < l.m_entries.length
  · have at_ : l.m_entries[prevLogIndex]? = some l.m_entries[prevLogIndex] :=
      List.getElem?_eq_getElem inside
    simp only [inside, if_true, getEntry, at_, Option.getD_some, Option.ite_none_right_eq_some,
      Option.some.injEq]
    constructor
    · rintro ⟨term, rfl⟩
      exact ⟨rfl, _, at_, term⟩
    · rintro ⟨rfl, e, found, term⟩
      rw [at_] at found
      cases found
      exact ⟨term, rfl⟩
  · simp only [inside, if_false, reduceCtorEq, false_iff]
    rintro ⟨rfl, e, found, -⟩
    exact inside (List.getElem?_eq_some_iff.mp found).1

theorem getEntry_eq {n : Nat} (real : (l.getEntry n).op ≠ .null) :
    l.m_entries[n]? = some (l.getEntry n) := by
  unfold getEntry at real ⊢
  cases at_ : l.m_entries[n]? with
  | none => simp [at_] at real
  | some e => rfl

end RaftLogger

structure CallPlaced (call : AppendCall) : Prop where
  sent : Placed call.sent
  entry : call.request.entry.op ≠ .heartbeat → ∃ n : Nat, call.sent[n]? = some call.request.entry ∧
    call.request.prevLogIndex = pred64 n ∧
    ∀ d : Entry, 0 < n → call.sent[n - 1]? = some d → call.request.prevLogTerm = d.term

structure Positions (s : Cluster) : Prop where
  log : ∀ i, Placed (s.entries i)
  call : ∀ call ∈ s.appendCalls, CallPlaced call
  accepting : ∀ i k params, s.accepting i = some (k, params) → params.entry.op ≠ .heartbeat ∧
    ∃ call, s.appendCalls[k]? = some call ∧ call.request = params ∧ call.dst = i ∧
      call.reply = none

theorem positions_initial : Positions {} where
  log := fun _ => placed_initial
  call := by simp
  accepting := fun _ _ _ h => by cases h

theorem RaftNode.Sends.placed {i : Nat} {nd : RaftNode} {call : AppendCall}
    (sends : nd.Sends i call) (placed : Placed nd.m_raft_logger.m_entries) : CallPlaced call := by
  obtain ⟨e, request, kind⟩ := sends.request
  refine ⟨sends.sent ▸ placed, fun real => ?_⟩
  rw [request] at real ⊢
  obtain ⟨some_, rfl⟩ := kind.resolve_left real
  have at_ := RaftLogger.getEntry_eq some_
  rw [sends.sent]
  refine ⟨_, at_, rfl, fun d pos found => ?_⟩
  have inside := (List.getElem?_eq_some_iff.mp at_).1
  have room := placed.room
  have small := maxEntries_lt
  simp only [RaftNode.appendRequest]
  rw [pred64_of_pos pos (by omega), RaftLogger.getEntry, found]
  rfl

/-- A request whose entry is accepted is for the position behind the match. -/
theorem CallPlaced.next {call : AppendCall} (placed : CallPlaced call)
    (real : call.request.entry.op ≠ .heartbeat) {p : Nat} (at_ : p = call.request.prevLogIndex)
    (small : p < maxEntries) : call.sent[p + 1]? = some call.request.entry ∧
      ∀ d : Entry, call.sent[p]? = some d → call.request.prevLogTerm = d.term := by
  obtain ⟨n, found, prev, term⟩ := placed.entry real
  have inside := (List.getElem?_eq_some_iff.mp found).1
  have room := placed.sent.room
  have fits := maxEntries_lt
  rw [prev] at at_
  cases n with
  | zero =>
      rw [pred64_zero] at at_
      omega
  | succ n =>
      rw [pred64_of_pos (Nat.succ_pos n) (by omega)] at at_
      obtain rfl : p = n := at_
      exact ⟨found, fun d => term d (Nat.succ_pos p)⟩

theorem CallPlaced.same {c d : AppendCall} (placed : CallPlaced c) (same : c.Same d) :
    CallPlaced d := by
  obtain ⟨sent, entry⟩ := placed
  rw [← same.sent] at sent
  rw [← same.sent, ← same.request] at entry
  exact ⟨sent, entry⟩

theorem positions_step {cfg : Config} {s s' : Cluster} {a : Action} (positions : Positions s)
    (h : step cfg s a = some s') : Positions s' := by
  obtain ⟨log, calls, accepting⟩ := positions
  have placed : ∀ c ∈ s'.appendCalls, CallPlaced c := by
    intro c mem
    rcases appendCalls_origin h mem with ⟨d, old, same⟩ | ⟨i, sends⟩
    · exact (calls d old).same same
    · exact sends.placed (log i)
  have last : ∀ i, (s.nodes i).m_raft_logger.getLastIndex + 1 = (s.entries i).length := by
    intro i
    rw [RaftLogger.getLastIndex_eq (log i)]
    exact Nat.succ_pred_eq_of_pos (log i).length_pos
  have pending : ∀ (k : Nat) (call : AppendCall) (rets : AppendEntriesRets) (v n : Nat)
      (params : AppendEntriesParams), s.appendCalls[k]? = some call → v ≠ call.dst →
      s.accepting v = some (n, params) → params.entry.op ≠ .heartbeat ∧
        ∃ c, (s.appendCalls.set k { call with reply := some rets })[n]? = some c ∧
          c.request = params ∧ c.dst = v ∧ c.reply = none := by
    intro k call rets v n params found ne busy
    obtain ⟨real, c, hc, request, dst, reply⟩ := accepting v n params busy
    refine ⟨real, c, ?_, request, dst, reply⟩
    rw [List.getElem?_set_ne, hc]
    rintro rfl
    obtain rfl : call = c := Option.some.inj (found.symm.trans hc)
    exact ne dst.symm
  cases step_logStep h with
  | still entries busy sent _ =>
      rw [← entries] at log
      rw [← sent] at accepting
      exact ⟨log, placed, busy ▸ accepting⟩
  | win k call rets _ _ _ _ room entries busy sent _ _ _ =>
      refine ⟨fun v => ?_, placed, busy ▸ sent ▸ accepting⟩
      rw [entries, Function.update_apply]
      split_ifs with at_
      · exact (log call.src).push room (by simp) (last call.src)
      · exact log v
  | register i t _ _ room entries busy sent _ =>
      refine ⟨fun v => ?_, placed, busy ▸ sent ▸ accepting⟩
      rw [entries, Function.update_apply]
      split_ifs with at_
      · exact (log i).push room (by simp [RaftNode.registration]) (last i)
      · exact log v
  | send i call _ entries busy sent _ =>
      refine ⟨entries ▸ log, placed, fun v n params h => ?_⟩
      rw [busy] at h
      obtain ⟨real, c, hc, rest⟩ := accepting v n params h
      refine ⟨real, c, ?_, rest⟩
      rw [sent, List.getElem?_append_left (List.getElem?_eq_some_iff.mp hc).1, hc]
  | answer k call rets _ found fresh idle _ _ entries busy sent _ =>
      refine ⟨entries ▸ log, placed, fun v n params h => ?_⟩
      rw [busy] at h
      rw [sent]
      refine pending k call rets v n params found ?_ h
      rintro rfl
      rw [idle] at h
      cases h
  | accept k call _ found fresh idle _ real entries busy sent _ =>
      refine ⟨entries ▸ log, placed, fun v n params h => ?_⟩
      rw [sent]
      rw [busy, Function.update_apply] at h
      split_ifs at h with at_
      · cases h
        exact ⟨real, call, found, rfl, at_.symm, fresh⟩
      · exact accepting v n params h
  | reject i k params call _ at_ found _ entries busy sent _ =>
      refine ⟨entries ▸ log, placed, fun v n params' h => ?_⟩
      rw [busy, Function.update_apply] at h
      split_ifs at h with other
      rw [sent]
      obtain ⟨-, c, hc, -, dst, -⟩ := accepting i k params at_
      obtain rfl : call = c := Option.some.inj (found.symm.trans hc)
      exact pending k call _ v n params' found (dst ▸ other) h
  | append i k p params call _ at_ found hit room entries busy sent _ =>
      obtain ⟨real, c, hc, request, dst, -⟩ := accepting i k params at_
      obtain rfl : call = c := Option.some.inj (found.symm.trans hc)
      refine ⟨fun v => ?_, placed, fun v n params' h => ?_⟩
      · rw [entries, Function.update_apply]
        split_ifs with here
        · obtain ⟨prev, e, inside, -⟩ := (RaftLogger.matchPrev_eq_some (log i)).mp hit
          have call_ := calls call (List.mem_of_getElem? found)
          subst request
          obtain ⟨next, -⟩ := call_.next real prev (by omega)
          exact (log i).snoc (Nat.succ_pos p) (List.getElem?_eq_some_iff.mp inside).1 room real
            (call_.sent.index _ _ next)
        · exact log v
      · rw [busy, Function.update_apply] at h
        split_ifs at h with other
        rw [sent]
        exact pending k call _ v n params' found (dst ▸ other) h

theorem positions_run {cfg : Config} {as : List Action} {s : Cluster}
    {ok : Cluster → Action → Prop} (run : Run (step cfg) ok {} as s) : Positions s :=
  run.invariant positions_initial fun _ _ _ positions _ next => positions_step positions next

/-- Whatever names an entry of this log names the same one: its position, its `index`,
the size, the last index and the search of `appendEntry`. -/
structure RaftLogger.Indexed (l : RaftLogger) : Prop where
  nonempty : l.m_entries ≠ []
  index : ∀ (p : Nat) (e : Entry), l.m_entries[p]? = some e → e.index = p
  entry : ∀ k < l.m_entries.length,
    l.m_entries[k]? = some (l.getEntry k) ∧ (l.getEntry k).index = k
  last : l.getLastIndex = l.m_entries.length - 1 ∧ l.getEntry l.getLastIndex = l.lastEntry
  search : ∀ prevLogIndex, findPrev l.m_entries prevLogIndex l.m_entries.length =
    if prevLogIndex < l.m_entries.length then some prevLogIndex else none

theorem Placed.indexed {l : RaftLogger} (placed : Placed l.m_entries) : l.Indexed where
  nonempty := placed.nonempty
  index := placed.index
  entry := fun k inside => by
    have at_ : l.m_entries[k]? = some l.m_entries[k] := List.getElem?_eq_getElem inside
    have entry : l.getEntry k = l.m_entries[k] := by rw [RaftLogger.getEntry, at_]; rfl
    rw [entry]
    exact ⟨at_, placed.index k _ at_⟩
  last := by
    have last := RaftLogger.getLastIndex_eq placed
    refine ⟨last, ?_⟩
    rw [last, RaftLogger.getEntry, RaftLogger.lastEntry_eq placed]
    rfl
  search := fun prevLogIndex => RaftLogger.findPrev_eq placed.index prevLogIndex _ le_rfl

/-- In every run every log is numbered by position. -/
theorem positions_are_indices {cfg : Config} {as : List Action} {s : Cluster}
    (run : Run (step cfg) Always {} as s) (i : Nat) : (s.nodes i).m_raft_logger.Indexed :=
  ((positions_run run).log i).indexed

theorem replicated_no_op_indexed : ∃ s : Cluster, (s.entries 1).length = 2 ∧
    (s.nodes 1).m_raft_logger.Indexed := by
  have done : (exec (step threeNodes) {} (zeroElected ++ roundToOne 0 0)).map
      (fun s => (s.entries 1).length) = some 2 := by decide +kernel
  obtain ⟨s, run, seen⟩ := Option.map_eq_some_iff.mp done
  exact ⟨s, seen, positions_are_indices (.of_exec run) 1⟩

end CRpc.Raft
