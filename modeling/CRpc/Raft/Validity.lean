import CRpc.Lib.Sums
import CRpc.Raft.Registrations

/-! What the logs and the registries hold, whatever happens: what servers have asked for. -/
namespace CRpc.Raft

open Cluster Transition Function

def Triple.service (t : Triple) : String × IpPort := (t.f_name, ⟨t.f_ip, t.f_port⟩)

def Entry.registers (e : Entry) : Option Triple :=
  if e.op = .register then some ⟨e.f_name, e.f_ip, e.f_port⟩ else none

def RunPc.left : RunPc → List Triple
  | .waitNoOp triples | .unlocked triples | .decoding triples _ _ => triples
  | _ => []

namespace Cluster

def left (s : Cluster) (i : Nat) : List Triple := (s.nodes i).run.left

/-- What a node takes in: the triples of a registration that it does not redirect. -/
def taken (s : Cluster) : Action → List Triple
  | .clientMsg i .RPC_SERVER_INIT triples | .clientMsg i .RPC_SERVICE_REGISTER triples =>
      if i = (s.nodes i).m_leaderId then triples else []
  | _ => []

end Cluster

section Steps

variable {cfg : Config} {s s' : Cluster} {a : Action} {i : Nat}

theorem left_put {nd : RaftNode} (nodes : s'.nodes = update s.nodes i nd) :
    s'.left = update s.left i nd.run.left :=
  field_put (fun nd => nd.run.left) nodes

theorem left_put_same {nd : RaftNode} (nodes : s'.nodes = update s.nodes i nd)
    (same : nd.run.left = (s.nodes i).run.left) : s'.left = s.left :=
  field_put_same (fun nd => nd.run.left) nodes same

theorem handleMsg_left (idle : (s.nodes i).run = .idle) (type : MessageType)
    (triples : List Triple) :
    ((s.nodes i).handleMsg i type triples).1.run.left = s.taken (.clientMsg i type triples) := by
  unfold RaftNode.handleMsg
  by_cases own : i = (s.nodes i).m_leaderId
  · cases type <;> simp [taken, ← own, RaftNode.handleServerInit,
      RaftNode.handleServiceRegister, RunPc.left, idle]
  · cases type <;> simp [taken, own, RunPc.left, idle]

/-- A registration comes in where nothing is left of the one before. -/
theorem left_step (h : step cfg s a = some s') (still : ∀ i, a ≠ .decodeTriple i) :
    s'.left = s.left ∨
      ∃ i < cfg.size, s.left i = [] ∧ s'.left = update s.left i (s.taken a) := by
  cases a with
  | connect i j =>
      obtain ⟨-, rfl⟩ := step_connect.mp h
      exact .inl (left_put_same rfl rfl)
  | electionTimer i =>
      obtain ⟨-, rfl⟩ := step_electionTimer.mp h
      exact .inl (left_put_same rfl (congrArg RunPc.left RaftNode.electionTimer_run))
  | startElection i =>
      obtain ⟨-, rfl⟩ := step_startElection.mp h
      exact .inl (left_put_same rfl rfl)
  | raftVote k =>
      obtain ⟨call, -, -, rfl⟩ := step_raftVote.mp h
      exact .inl (left_put_same rfl (congrArg RunPc.left (RaftNode.raftVote_run call.request)))
  | voteTimeout k =>
      obtain ⟨call, -, -, rfl⟩ := step_voteTimeout.mp h
      exact .inl rfl
  | voteReply k =>
      obtain ⟨call, -, rets, -, -, r, did, rfl⟩ := step_voteReply.mp h
      exact .inl (left_put_same rfl (congrArg RunPc.left (RaftNode.voteReply_run did).1))
  | heartbeat i j =>
      obtain ⟨-, rfl⟩ := step_heartbeat.mp h
      exact .inl rfl
  | replicateSend i l =>
      obtain ⟨loop, -, -, ⟨-, rfl⟩ | ⟨-, -, rfl⟩ | ⟨-, -, -, rfl⟩⟩ := step_replicateSend.mp h
      · exact .inl (left_put_same rfl rfl)
      · exact .inl rfl
      · exact .inl (left_put_same rfl rfl)
  | replicateTimeout i l =>
      obtain ⟨loop, k, -, -, rfl⟩ := step_replicateTimeout.mp h
      exact .inl (left_put_same rfl rfl)
  | replicateReply i l =>
      obtain ⟨loop, k, call, rets, -, -, -, -, -, rfl⟩ := step_replicateReply.mp h
      exact .inl (left_put_same rfl
        (congrArg RunPc.left (RaftNode.replicateReply_run loop.nodeId rets)))
  | appendEntries k =>
      obtain ⟨call, -, ⟨-, idle⟩, ⟨rets, -, rfl⟩ | ⟨-, rfl⟩⟩ := step_appendEntries.mp h
      · exact .inl (left_put_same rfl (congrArg RunPc.left
          (RaftNode.appendEntries_run call.request)))
      · exact .inl (left_put_same rfl (by rw [idle]; rfl))
  | appendEntriesEnd i =>
      obtain ⟨k, params, call, r, run, -, did, rfl⟩ := step_appendEntriesEnd.mp h
      refine .inl (left_put_same rfl ?_)
      rw [(RaftNode.appendEntriesEnd_cases did).1, run]
      rfl
  | applyRound i =>
      obtain ⟨-, logger, -, rfl⟩ := step_applyRound.mp h
      exact .inl (left_put_same rfl rfl)
  | clientMsg i type triples =>
      obtain ⟨⟨bound, idle⟩, rfl⟩ := step_clientMsg.mp h
      refine .inr ⟨i, bound, by rw [Cluster.left, idle]; rfl, (left_put rfl).trans ?_⟩
      rw [handleMsg_left idle]
  | testNoOp i =>
      obtain ⟨triples, run, rfl⟩ := step_testNoOp.mp h
      refine .inl (left_put_same rfl ?_)
      rw [RaftNode.testNoOp, run]
      dsimp only
      split_ifs <;> rfl
  | lockLog i garbage =>
      obtain ⟨triples, run, rfl⟩ := step_lockLog.mp h
      exact .inl (left_put_same rfl (by rw [run]; rfl))
  | decodeTriple i => exact absurd rfl (still i)
  | testApplied i =>
      obtain ⟨index, assigned, run, rfl⟩ := step_testApplied.mp h
      refine .inl (left_put_same rfl ?_)
      rw [RaftNode.testApplied, run]
      dsimp only
      split_ifs <;> rfl
  | respond i =>
      obtain ⟨assigned, run, rfl⟩ := step_respond.mp h
      exact .inl (left_put_same rfl (by rw [run]; rfl))

/-- A round of the decoding loop appends the first of the triples that are left, if there is one. -/
theorem decode_appends (h : step cfg s (.decodeTriple i) = some s') :
    (s.left i = [] ∧ s'.left = s.left ∧ s'.entries = s.entries) ∨
    ∃ t rest, s.left i = t :: rest ∧ s'.left = update s.left i rest ∧
      s'.entries = update s.entries i (s.entries i ++ [{ (s.nodes i).registration t with
        index := (s.nodes i).m_raft_logger.getLastIndex + 1 }]) := by
  obtain ⟨triples, index, assigned, nd, run, did, rfl⟩ := step_decodeTriple.mp h
  cases triples with
  | nil =>
    cases did
    exact .inl ⟨by rw [Cluster.left, run]; rfl, left_put_same rfl (by rw [run]; rfl),
      entries_put_same rfl rfl⟩
  | cons t rest =>
    refine .inr ⟨t, rest, by rw [Cluster.left, run]; rfl, (left_put rfl).trans ?_,
      (entries_put rfl).trans ?_⟩
    · rw [(RaftNode.decodeTriple_run did).1]
      rfl
    · obtain ⟨⟨logger, index⟩, appended, rfl⟩ := Option.map_eq_some_iff.mp did
      unfold RaftLogger.appendEntry at appended
      split_ifs at appended
      cases appended
      rfl

/-- Where an entry of a log comes from, if it registers anything. -/
theorem entries_origin (positions : Positions s) (h : step cfg s a = some s') {e : Entry}
    (mem : e ∈ s'.entries i) : e ∈ s.entries i ∨ e.registers = none ∨
      (∃ c ∈ s.appendCalls, c.request.entry = e) ∨
      ∃ t rest, a = .decodeTriple i ∧ s.left i = t :: rest ∧
        e.index = (s.nodes i).m_raft_logger.getLastIndex + 1 ∧ e.registers = some t := by
  have moved : ∀ {v : Nat} {es : List Entry}, s'.entries = update s.entries v es →
      e ∈ s.entries i ∨ i = v ∧ e ∈ es := by
    intro v es entries
    rw [entries, update_apply] at mem
    split_ifs at mem with at_
    · exact .inr ⟨at_, mem⟩
    · exact .inl mem
  cases step_logStep h with
  | still entries => exact .inl (entries ▸ mem)
  | win k call rets _ _ _ _ _ entries =>
    rcases moved entries with old | ⟨rfl, new⟩
    · exact .inl old
    · rcases List.mem_append.mp new with old | last
      · exact .inl old
      · rw [List.mem_singleton.mp last]
        exact .inr (.inl rfl)
  | register v t act _ _ _ =>
    subst act
    rcases decode_appends h with ⟨-, -, entries⟩ | ⟨t, rest, left, -, entries⟩
    · exact .inl (entries ▸ mem)
    · rcases moved entries with old | ⟨rfl, new⟩
      · exact .inl old
      · rcases List.mem_append.mp new with old | last
        · exact .inl old
        · rw [List.mem_singleton.mp last]
          exact .inr (.inr (.inr ⟨t, rest, rfl, left, rfl, rfl⟩))
  | send v call _ entries => exact .inl (entries ▸ mem)
  | answer k call rets _ _ _ _ _ _ entries => exact .inl (entries ▸ mem)
  | accept k call _ _ _ _ _ _ entries => exact .inl (entries ▸ mem)
  | reject v k params call _ _ _ _ entries => exact .inl (entries ▸ mem)
  | append v k p params call _ accepting _ _ _ entries =>
    rcases moved entries with old | ⟨rfl, new⟩
    · exact .inl old
    · rcases List.mem_append.mp new with old | last
      · exact .inl (List.mem_of_mem_take old)
      · obtain ⟨-, call, found, request, -⟩ := positions.accepting i k params accepting
        rw [List.mem_singleton.mp last]
        exact .inr (.inr (.inl ⟨call, List.mem_of_getElem? found, by rw [request]⟩))

def Recorded (book : List (Nat × Triple)) (e : Entry) : Prop :=
  ∀ t ∈ e.registers, (e.index, t) ∈ book

/-- The book lists what has been appended, and together with what is left that is no more than
what was taken in. -/
structure Booked (cfg : Config) (s : Cluster) (given : List Triple) (book : List (Nat × Triple)) :
    Prop where
  log : ∀ i, ∀ e ∈ s.entries i, Recorded book e
  sent : ∀ c ∈ s.appendCalls, Recorded book c.request.entry
  applied : ∀ i, ∀ e ∈ (s.progress i).applied, Recorded book e
  inside : ∀ i, s.left i ≠ [] → i < cfg.size
  count : ∀ t, (book.map Prod.snd).count t + ∑ i ∈ Finset.range cfg.size, (s.left i).count t ≤
    given.count t

theorem booked_initial : Booked cfg {} [] [] where
  log := by simp [Cluster.entries, Recorded, Entry.registers]
  sent := by simp
  applied := by simp [Cluster.progress, RaftNode.progress]
  inside := fun _ some_ => absurd rfl some_
  count := fun t => by simp [Cluster.left, RunPc.left]

variable {given : List Triple} {book book' : List (Nat × Triple)}

theorem Recorded.more {e : Entry} (recorded : Recorded book e) (more : book ⊆ book') :
    Recorded book' e := fun t some_ => more (recorded t some_)

theorem recorded_of_none {e : Entry} (nothing : e.registers = none) : Recorded book e :=
  fun t some_ => by rw [nothing] at some_; cases some_

/-- What is in the logs, the requests and the applied entries comes from there. -/
theorem booked_entries (positions : Positions s) (booked : Booked cfg s given book)
    (h : step cfg s a = some s') (more : book ⊆ book')
    (new : ∀ i t rest, a = .decodeTriple i → s.left i = t :: rest →
      ((s.nodes i).m_raft_logger.getLastIndex + 1, t) ∈ book') :
    (∀ i, ∀ e ∈ s'.entries i, Recorded book' e) ∧
    (∀ c ∈ s'.appendCalls, Recorded book' c.request.entry) ∧
    ∀ i, ∀ e ∈ (s'.progress i).applied, Recorded book' e := by
  refine ⟨fun i e mem => ?_, fun c mem => ?_, fun i e mem => ?_⟩
  · rcases entries_origin positions h mem with old | nothing | ⟨c, call, rfl⟩ | ⟨t, rest, act, left,
      index, registers⟩
    · exact (booked.log i e old).more more
    · exact recorded_of_none nothing
    · exact (booked.sent c call).more more
    · intro u some_
      obtain rfl : t = u := Option.some.inj (registers.symm.trans some_)
      rw [index]
      exact new i t rest act left
  · rcases appendCalls_origin h mem with ⟨d, old, same⟩ | ⟨i, sends⟩
    · rw [same.request]
      exact (booked.sent d old).more more
    · obtain ⟨e, request, beat | ⟨real, rfl⟩⟩ := sends.request
      · rw [request]
        exact recorded_of_none (if_neg (by rw [RaftNode.appendRequest, beat]; decide))
      · rw [request]
        have at_ := RaftLogger.getEntry_eq real
        exact (booked.log i _ (List.mem_of_getElem? at_)).more more
  · rcases applied_step h i with ⟨-, same, -⟩ | ⟨entry, -, at_, -, new', -⟩
    · exact (booked.applied i e (same ▸ mem)).more more
    · rw [new'] at mem
      rcases List.mem_append.mp mem with old | last
      · exact (booked.applied i e old).more more
      · rw [List.mem_singleton.mp last]
        exact (booked.log i _ (List.mem_of_getElem? at_)).more more

theorem Booked.moved (booked : Booked cfg s given book) (bound : i < cfg.size) {x : List Triple}
    (left : s'.left = update s.left i x) (added : List (Nat × Triple)) (came : List Triple)
    (less : ∀ t, (added.map Prod.snd).count t + x.count t ≤ (s.left i).count t + came.count t) :
    (∀ v, s'.left v ≠ [] → v < cfg.size) ∧ ∀ t, ((added ++ book).map Prod.snd).count t +
      ∑ v ∈ Finset.range cfg.size, (s'.left v).count t ≤ (given ++ came).count t := by
  rw [left]
  refine ⟨fun v some_ => ?_, fun t => ?_⟩
  · rw [update_apply] at some_
    split_ifs at some_ with at_
    · exact at_ ▸ bound
    · exact booked.inside v some_
  · have whole := Sums.sum_update_add (Finset.mem_range.mpr bound) (List.count t) s.left x
    have old := booked.count t
    have change := less t
    rw [List.map_append, List.count_append, List.count_append]
    omega

theorem booked_step (positions : Positions s) (booked : Booked cfg s given book)
    (h : step cfg s a = some s') : ∃ book', Booked cfg s' (given ++ s.taken a) book' := by
  have still : s'.left = s.left → (∀ v, s'.left v ≠ [] → v < cfg.size) ∧ ∀ t,
      (book.map Prod.snd).count t + ∑ v ∈ Finset.range cfg.size, (s'.left v).count t ≤
        (given ++ s.taken a).count t := by
    rintro same
    rw [same]
    refine ⟨booked.inside, fun t => (booked.count t).trans ?_⟩
    rw [List.count_append]
    exact Nat.le_add_right ..
  by_cases decodes : ∃ i, a = .decodeTriple i
  · obtain ⟨i, rfl⟩ := decodes
    rcases decode_appends h with ⟨empty, same, -⟩ | ⟨t, rest, left, left', -⟩
    · obtain ⟨log, sent, applied⟩ := booked_entries positions booked h (List.Subset.refl book)
        fun v t rest act left => by
          cases act
          cases empty.symm.trans left
      obtain ⟨inside, count⟩ := still same
      exact ⟨book, log, sent, applied, inside, count⟩
    · obtain ⟨log, sent, applied⟩ := booked_entries positions booked h
        (List.subset_cons_self ((s.nodes i).m_raft_logger.getLastIndex + 1, t) book)
        fun v u more act there => by
          cases act
          cases left.symm.trans there
          exact List.mem_cons_self
      have bound : i < cfg.size := booked.inside i (by rw [left]; exact List.cons_ne_nil t rest)
      obtain ⟨inside, count⟩ := booked.moved bound left'
        [((s.nodes i).m_raft_logger.getLastIndex + 1, t)] (s.taken (.decodeTriple i)) fun u => by
          simp only [left, List.map_cons, List.map_nil, List.count_cons, List.count_nil]
          omega
      exact ⟨_, log, sent, applied, inside, count⟩
  · obtain ⟨log, sent, applied⟩ := booked_entries positions booked h (List.Subset.refl book)
      fun v t rest act _ => absurd ⟨v, act⟩ decodes
    rcases left_step h fun v act => decodes ⟨v, act⟩ with same | ⟨i, bound, empty, left⟩
    · obtain ⟨inside, count⟩ := still same
      exact ⟨book, log, sent, applied, inside, count⟩
    · obtain ⟨inside, count⟩ := booked.moved bound left [] (s.taken a) fun t => by
        rw [List.map_nil, List.count_nil, empty, List.count_nil]
      exact ⟨book, log, sent, applied, inside, count⟩

/-- A node applies the entries of its log one by one, and its registry is what they register. -/
structure Replays (s : Cluster) : Prop where
  index : ∀ i, (s.progress i).applied.map Entry.index = List.range' 1 (s.progress i).lastApplied
  addresses : ∀ i, (s.progress i).addresses = (s.progress i).applied.foldl RaftLogger.applyOp []

theorem replays_initial : Replays {} where
  index := fun _ => rfl
  addresses := fun _ => rfl

theorem replays_step (positions : Positions s) (replays : Replays s)
    (h : step cfg s a = some s') : Replays s' := by
  constructor
  · intro i
    rcases applied_step h i with ⟨last, same, -⟩ | ⟨entry, -, at_, last, new, -⟩
    · rw [last, same]
      exact replays.index i
    · rw [last, new, List.map_append, replays.index i, List.range'_concat, List.map_singleton,
        (positions.log i).index _ _ at_, Nat.one_mul, Nat.add_comm 1]
  · intro i
    rcases applied_step h i with ⟨-, same, addresses⟩ | ⟨entry, -, -, -, new, addresses⟩
    · rw [addresses, same]
      exact replays.addresses i
    · rw [addresses, new, List.foldl_append, ← replays.addresses i]
      rfl

theorem emplaceAddress_perm (name : String) (address : IpPort) (l : List (String × IpPort)) :
    (emplaceAddress name address l).Perm ((name, address) :: l) := by
  induction l with
  | nil => exact .refl _
  | cons p l ih =>
    unfold emplaceAddress
    split_ifs
    · exact .refl _
    · exact (ih.cons p).trans (.swap ..)

theorem replay_perm (es : List Entry) : ∀ l : List (String × IpPort),
    (es.foldl RaftLogger.applyOp l).Perm
      (l ++ (es.filterMap Entry.registers).map Triple.service) := by
  induction es with
  | nil => simp
  | cons e es ih =>
    intro l
    rw [List.foldl_cons]
    refine (ih _).trans ?_
    unfold RaftLogger.applyOp
    cases op : e.op with
    | register =>
      have some_ : e.registers = some ⟨e.f_name, e.f_ip, e.f_port⟩ := if_pos op
      rw [List.filterMap_cons_some some_, List.map_cons]
      exact ((emplaceAddress_perm ..).append_right _).trans List.perm_middle.symm
    | _ =>
      have nothing : e.registers = none := if_neg (by rw [op]; decide)
      rw [List.filterMap_cons_none nothing]

theorem Placed.indices {es : List Entry} (placed : Placed es) :
    es.map Entry.index = List.range es.length := by
  refine List.ext_getElem (by simp) fun n lt _ => ?_
  rw [List.length_map] at lt
  rw [List.getElem_map, List.getElem_range]
  exact placed.index n _ (List.getElem?_eq_getElem lt)

/-- Entries with different indices register no more than the book has. -/
theorem registers_subperm {es : List Entry} (recorded : ∀ e ∈ es, Recorded book e)
    (distinct : (es.map Entry.index).Nodup) :
    (es.filterMap Entry.registers).Subperm (book.map Prod.snd) := by
  have names : (es.filterMap fun e => e.registers.map fun t => (e.index, t)).map Prod.snd =
      es.filterMap Entry.registers := by
    rw [List.map_filterMap]
    simp [Function.comp_def]
  have nodup : (es.filterMap fun e => e.registers.map fun t => (e.index, t)).Nodup := by
    rw [List.Nodup, List.pairwise_filterMap]
    refine (List.pairwise_map.mp distinct).imp ?_
    rintro e d apart p at_ q at_' rfl
    obtain ⟨t, -, rfl⟩ := Option.map_eq_some_iff.mp at_
    obtain ⟨u, -, same⟩ := Option.map_eq_some_iff.mp at_'
    exact apart (congrArg Prod.fst same).symm
  have inside : (es.filterMap fun e => e.registers.map fun t => (e.index, t)) ⊆ book := by
    intro p mem
    obtain ⟨e, here, at_⟩ := List.mem_filterMap.mp mem
    obtain ⟨t, some_, rfl⟩ := Option.map_eq_some_iff.mp at_
    exact recorded e here t some_
  obtain ⟨l, perm, sub⟩ := List.subperm_of_subset nodup inside
  exact ⟨l.map Prod.snd, names ▸ perm.map Prod.snd, sub.map Prod.snd⟩

end Steps

/-- Whatever is lost, delayed, cut off or sent twice, a log has no registration and a registry no
address that no server has asked for, and none more often than asked: registrations that were
redirected do not count. -/
theorem registered_as_asked {cfg : Config} {as : List Action} {s : Cluster}
    (run : Run (step cfg) Always {} as s) (i : Nat) :
    ((s.entries i).filterMap Entry.registers).Subperm (gather (step cfg) taken {} as) ∧
    (s.nodes i).m_raft_logger.m_addresses.Subperm
      ((gather (step cfg) taken {} as).map Triple.service) := by
  obtain ⟨positions, replays, book, booked⟩ := run.gathers taken
    (P := fun s given => Positions s ∧ Replays s ∧ ∃ book, Booked cfg s given book)
    ⟨positions_initial, replays_initial, [], booked_initial⟩
    fun _ _ _ _ ⟨positions, replays, _, booked⟩ _ next =>
      ⟨positions_step positions next, replays_step positions replays next,
        booked_step positions booked next⟩
  have fits : (book.map Prod.snd).Subperm (gather (step cfg) taken {} as) :=
    List.subperm_ext_iff.mpr fun t _ => (Nat.le_add_right ..).trans (booked.count t)
  constructor
  · refine (registers_subperm (booked.log i) ?_).trans fits
    rw [(positions.log i).indices]
    exact List.nodup_range
  · have own : (s.nodes i).m_raft_logger.m_addresses =
        (s.progress i).applied.foldl RaftLogger.applyOp [] := replays.addresses i
    rw [own]
    have some_ : ((s.progress i).applied.filterMap Entry.registers).Subperm
        (gather (step cfg) taken {} as) := by
      refine (registers_subperm (booked.applied i) ?_).trans fits
      rw [replays.index i]
      exact List.nodup_range'
    obtain ⟨l, perm, sub⟩ := some_
    exact (replay_perm _ []).subperm.trans ⟨l.map Triple.service, perm.map _, sub.map _⟩

/-- Node 0 commits and applies its registration, and node 1 redirects a second one. -/
def zeroRegistersOnce : List Action :=
  zeroRegisters ++ [.clientMsg 1 .RPC_SERVICE_REGISTER [⟨"f", "ip", 80⟩]] ++ roundToOne 0 1 ++
    [.applyRound 0, .applyRound 0]

theorem registered_once : ∃ s : Cluster,
    (s.nodes 0).m_raft_logger.m_addresses = [("f", ⟨"ip", 80⟩)] ∧
    gather (step threeNodes) taken {} zeroRegistersOnce = [⟨"f", "ip", 80⟩] ∧
    (s.nodes 0).m_raft_logger.m_addresses.Subperm
      ((gather (step threeNodes) taken {} zeroRegistersOnce).map Triple.service) := by
  have done : (exec (step threeNodes) {} zeroRegistersOnce).map (fun s => decide
      ((s.nodes 0).m_raft_logger.m_addresses = [("f", ⟨"ip", 80⟩)])) = some true := by
    decide +kernel
  obtain ⟨s, run, seen⟩ := Option.map_eq_some_iff.mp done
  exact ⟨s, of_decide_eq_true seen, by decide +kernel, (registered_as_asked (.of_exec run) 0).2⟩

end CRpc.Raft
