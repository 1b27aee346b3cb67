import CRpc.Lib.Majority
import CRpc.Lib.Runs
import CRpc.Raft.Peers
import CRpc.Raft.Voting
import Mathlib.Data.List.GetD

/-! Each election counts the voters it hears from once, so a leader has as many
votes in its term as its counter says. Terms may wrap here. -/
namespace CRpc.Raft

open Cluster

/-- The nodes that voted for `x` in term `T`; a candidate votes for itself. -/
def voters (cfg : Config) (history : List Event) (x T : Nat) : Finset Nat :=
  (Finset.range cfg.size).filter fun v =>
    .granted v T x ∈ history ∨ v = x ∧ .candidate x T ∈ history

theorem voters_mono (cfg : Config) {old new : List Event} (sub : old ⊆ new) (x T : Nat) :
    voters cfg old x T ⊆ voters cfg new x T := by
  intro v hv
  simp only [voters, Finset.mem_filter] at hv ⊢
  exact ⟨hv.1, hv.2.imp (fun h => sub h) (And.imp_right fun h => sub h)⟩

theorem voters_votes (cfg : Config) (s : Cluster) (x T : Nat) :
    voters cfg s.votes x T = voters cfg s.history x T := by
  simp [voters, Cluster.votes]

def VoteCall.closed (call : VoteCall) : Bool :=
  !call.waiting && (call.reply.map RaftVoteRets.voteGranted).getD false

theorem VoteCall.closed_iff {call : VoteCall} : call.closed = true ↔
    call.waiting = false ∧ ∃ T, call.reply = some ⟨T, true⟩ := by
  rcases call with ⟨-, -, -, -, reply, waiting⟩
  rcases reply with - | ⟨T, granted⟩ <;> simp [VoteCall.closed]

def counted (calls : List VoteCall) (i election : Nat) : Finset Nat :=
  ((calls.filter fun call => call.src = i ∧ call.election = election ∧ call.closed).map
    VoteCall.dst).toFinset

theorem mem_counted {calls : List VoteCall} {i election v : Nat} :
    v ∈ counted calls i election ↔ ∃ call ∈ calls,
      call.src = i ∧ call.election = election ∧ call.closed = true ∧ call.dst = v := by
  simp [counted, and_assoc]

structure VoteCall.Same (c d : VoteCall) : Prop where
  src : d.src = c.src
  dst : d.dst = c.dst
  election : d.election = c.election
  request : d.request = c.request

theorem set_same {calls : List VoteCall} {k n : Nat} {call call' c : VoteCall}
    (found : calls[k]? = some call) (same : call.Same call')
    (h : (calls.set k call')[n]? = some c) :
    ∃ old, calls[n]? = some old ∧ old.Same c ∧ (n = k ∧ c = call' ∨ n ≠ k ∧ c = old) := by
  by_cases at_ : n = k
  · subst at_
    have bound : n < calls.length := (List.getElem?_eq_some_iff.mp found).1
    rw [List.getElem?_set_self bound] at h
    cases h
    exact ⟨call, found, same, .inl ⟨rfl, rfl⟩⟩
  · rw [List.getElem?_set_ne (Ne.symm at_)] at h
    exact ⟨c, h, ⟨rfl, rfl, rfl, rfl⟩, .inr ⟨at_, rfl⟩⟩

theorem counted_set {calls : List VoteCall} {k : Nat} {call call' : VoteCall}
    (found : calls[k]? = some call) (same : call.Same call')
    (kept : call.closed = true → call'.closed = true) (i election : Nat) :
    counted calls i election ⊆ counted (calls.set k call') i election := by
  intro v hv
  obtain ⟨c, mem, src, elec, closed, dst⟩ := mem_counted.mp hv
  obtain ⟨n, bound, rfl⟩ := List.mem_iff_getElem.mp mem
  by_cases at_ : n = k
  · subst at_
    obtain rfl : calls[n] = call := (List.getElem?_eq_some_iff.mp found).2
    exact mem_counted.mpr ⟨call', List.mem_set bound _, same.src.trans src,
      same.election.trans elec, kept closed, same.dst.trans dst⟩
  · refine mem_counted.mpr ⟨calls[n], ?_, src, elec, closed, dst⟩
    exact List.mem_iff_getElem.mpr ⟨n, by simpa using bound, by
      rw [List.getElem_set_ne (Ne.symm at_)]⟩

structure CallOk (cfg : Config) (core : Nat → VoteCore) (votes : List Event) (call : VoteCall) :
    Prop where
  src_lt : call.src < cfg.size
  dst_lt : call.dst < cfg.size
  ne : call.dst ≠ call.src
  candidate : call.request.candidateId = call.src
  election : call.election < (core call.src).counters.length
  reply : ∀ T, call.reply = some ⟨T, true⟩ →
    T = call.request.term ∧ .granted call.dst T call.src ∈ votes

/-- The tasks of one election carry one request and go to different nodes. -/
def Distinct (calls : List VoteCall) : Prop :=
  ∀ (k n : Nat) (c d : VoteCall), calls[k]? = some c → calls[n]? = some d → c.src = d.src →
    c.election = d.election → c.request = d.request ∧ (c.dst = d.dst → k = n)

structure Tally (cfg : Config) (core : Nat → VoteCore) (calls : List VoteCall)
    (votes : List Event) : Prop where
  call : ∀ (k : Nat) (call : VoteCall), calls[k]? = some call → CallOk cfg core votes call
  distinct : Distinct calls
  counters : ∀ i e, (core i).counters.getD e 0 ≤ 1 + (counted calls i e).card
  standing : ∀ i, (core i).state ≠ .Follower → .candidate i (core i).term ∈ votes
  led : ∀ i T es, .leader i T es ∈ votes →
    max 2 (RaftNode.threshold cfg) ≤ (voters cfg votes i T).card

theorem tally_initial (cfg : Config) : Tally cfg (fun _ => ({} : RaftNode).core) [] [] where
  call := by simp
  distinct := by simp [Distinct]
  counters := by simp [RaftNode.core]
  standing := by simp [RaftNode.core]
  led := by simp

theorem CallOk.candidate_ne {cfg : Config} {core : Nat → VoteCore} {votes : List Event}
    {call : VoteCall} (ok : CallOk cfg core votes call) : call.request.candidateId ≠ noNode := by
  have bound := cfg.size_lt
  have lt := ok.src_lt
  rw [ok.candidate, noNode]
  omega

theorem CallOk.mono {cfg : Config} {core core' : Nat → VoteCore} {votes votes' : List Event}
    {call : VoteCall} (ok : CallOk cfg core votes call)
    (longer : (core call.src).counters.length ≤ (core' call.src).counters.length)
    (sub : votes ⊆ votes') : CallOk cfg core' votes' call where
  src_lt := ok.src_lt
  dst_lt := ok.dst_lt
  ne := ok.ne
  candidate := ok.candidate
  election := lt_of_lt_of_le ok.election longer
  reply := fun T reply => ⟨(ok.reply T reply).1, sub (ok.reply T reply).2⟩

theorem CallOk.same {cfg : Config} {core : Nat → VoteCore} {votes : List Event}
    {c d : VoteCall} (ok : CallOk cfg core votes c) (same : c.Same d)
    (reply : ∀ T, d.reply = some ⟨T, true⟩ →
      T = c.request.term ∧ .granted c.dst T c.src ∈ votes) : CallOk cfg core votes d where
  src_lt := same.src ▸ ok.src_lt
  dst_lt := same.dst ▸ ok.dst_lt
  ne := by rw [same.src, same.dst]; exact ok.ne
  candidate := by rw [same.src, same.request]; exact ok.candidate
  election := by rw [same.src, same.election]; exact ok.election
  reply := by rw [same.src, same.dst, same.request]; exact reply

theorem Distinct.set {calls : List VoteCall} (distinct : Distinct calls) {k : Nat}
    {call call' : VoteCall} (found : calls[k]? = some call) (same : call.Same call') :
    Distinct (calls.set k call') := by
  intro m n c d hc hd src elec
  obtain ⟨c', hc', sc, -⟩ := set_same found same hc
  obtain ⟨d', hd', sd, -⟩ := set_same found same hd
  have old := distinct m n c' d' hc' hd' (by rw [← sc.src, src, sd.src])
    (by rw [← sc.election, elec, sd.election])
  rw [sc.request, sd.request, sc.dst, sd.dst]
  exact old

namespace Tally

variable {cfg : Config} {core core' : Nat → VoteCore} {calls : List VoteCall}
  {votes votes' : List Event}

theorem set_call (tally : Tally cfg core calls votes) {k : Nat} {call call' : VoteCall}
    (found : calls[k]? = some call) (same : call.Same call')
    (longer : ∀ v, (core v).counters.length ≤ (core' v).counters.length) (sub : votes ⊆ votes')
    (reply : ∀ T, call'.reply = some ⟨T, true⟩ →
      T = call.request.term ∧ .granted call.dst T call.src ∈ votes') (n : Nat) (c : VoteCall)
    (h : (calls.set k call')[n]? = some c) : CallOk cfg core' votes' c := by
  obtain ⟨old, hold, -, ⟨rfl, rfl⟩ | ⟨-, rfl⟩⟩ := set_same found same h
  · exact ((tally.call n call found).mono (longer call.src) sub).same same reply
  · exact (tally.call n c hold).mono (longer c.src) sub

theorem led_mono (tally : Tally cfg core calls votes) (sub : votes ⊆ votes') {i T : Nat}
    {es : List Entry} (led : .leader i T es ∈ votes) :
    max 2 (RaftNode.threshold cfg) ≤ (voters cfg votes' i T).card :=
  (tally.led i T es led).trans (Finset.card_le_card (voters_mono _ sub i T))

/-- The counted votes of a winning election, and the candidate's own. -/
theorem counted_voters (tally : Tally cfg core calls votes) {k : Nat} {call : VoteCall}
    {T : Nat} (found : calls[k]? = some call) (reply : call.reply = some ⟨T, true⟩)
    (own : .candidate call.src T ∈ votes) :
    insert call.dst (insert call.src (counted calls call.src call.election)) ⊆
      voters cfg votes call.src T := by
  have ok := tally.call k call found
  intro v hv
  simp only [Finset.mem_insert] at hv
  rcases hv with rfl | rfl | hv
  · simp only [voters, Finset.mem_filter, Finset.mem_range]
    exact ⟨ok.dst_lt, .inl (ok.reply T reply).2⟩
  · simp only [voters, Finset.mem_filter, Finset.mem_range]
    exact ⟨ok.src_lt, .inr ⟨trivial, own⟩⟩
  · obtain ⟨c, mem, src, elec, closed, rfl⟩ := mem_counted.mp hv
    obtain ⟨n, hn, rfl⟩ := List.mem_iff_getElem.mp mem
    have hc := tally.call n calls[n] (List.getElem?_eq_getElem hn)
    obtain ⟨-, U, granted⟩ := VoteCall.closed_iff.mp closed
    have request := (tally.distinct n k _ _ (List.getElem?_eq_getElem hn) found src elec).1
    have term : U = T := by
      rw [(hc.reply U granted).1, request, ← (ok.reply T reply).1]
    subst term
    simp only [voters, Finset.mem_filter, Finset.mem_range]
    exact ⟨hc.dst_lt, .inl (src ▸ (hc.reply U granted).2)⟩

theorem dst_not_counted (tally : Tally cfg core calls votes) {k : Nat} {call : VoteCall}
    (found : calls[k]? = some call) (waiting : call.waiting = true) :
    call.dst ∉ counted calls call.src call.election := by
  intro hv
  obtain ⟨c, mem, src, elec, closed, dst⟩ := mem_counted.mp hv
  obtain ⟨n, hn, rfl⟩ := List.mem_iff_getElem.mp mem
  have at_ : n = k :=
    (tally.distinct n k _ _ (List.getElem?_eq_getElem hn) found src elec).2 dst
  subst at_
  obtain rfl : calls[n] = call := (List.getElem?_eq_some_iff.mp found).2
  simp [(VoteCall.closed_iff.mp closed).1] at waiting

theorem src_not_counted (tally : Tally cfg core calls votes) (i e : Nat) :
    i ∉ counted calls i e := by
  intro hv
  obtain ⟨c, mem, src, -, -, dst⟩ := mem_counted.mp hv
  obtain ⟨n, hn, rfl⟩ := List.mem_iff_getElem.mp mem
  exact (tally.call n _ (List.getElem?_eq_getElem hn)).ne (dst.trans src.symm)

theorem update_longer {core : Nat → VoteCore} {i : Nat} {c : VoteCore}
    (longer : (core i).counters.length ≤ c.counters.length) (v : Nat) :
    (core v).counters.length ≤ (Function.update core i c v).counters.length := by
  by_cases at_ : v = i
  · subst at_
    rwa [Function.update_self]
  · rw [Function.update_of_ne at_]

theorem update_standing (tally : Tally cfg core calls votes) (sub : votes ⊆ votes') {i : Nat}
    {c : VoteCore} (new : c.state ≠ .Follower → .candidate i c.term ∈ votes') (v : Nat)
    (stands : (Function.update core i c v).state ≠ .Follower) :
    .candidate v (Function.update core i c v).term ∈ votes' := by
  by_cases at_ : v = i
  · subst at_
    rw [Function.update_self] at stands ⊢
    exact new stands
  · rw [Function.update_of_ne at_] at stands ⊢
    exact sub (tally.standing v stands)

theorem update_counters (tally : Tally cfg core calls votes) {calls' : List VoteCall}
    (grown : ∀ i e, counted calls i e ⊆ counted calls' i e) {i : Nat} {c : VoteCore}
    (new : ∀ e, c.counters.getD e 0 ≤ 1 + (counted calls' i e).card) (v e : Nat) :
    (Function.update core i c v).counters.getD e 0 ≤ 1 + (counted calls' v e).card := by
  by_cases at_ : v = i
  · subst at_
    rw [Function.update_self]
    exact new e
  · rw [Function.update_of_ne at_]
    exact (tally.counters v e).trans (Nat.add_le_add_left (Finset.card_le_card (grown v e)) 1)

theorem counters_mono (tally : Tally cfg core calls votes) {calls' : List VoteCall}
    (grown : ∀ i e, counted calls i e ⊆ counted calls' i e) (i e : Nat) :
    (core i).counters.getD e 0 ≤ 1 + (counted calls' i e).card :=
  (tally.counters i e).trans (Nat.add_le_add_left (Finset.card_le_card (grown i e)) 1)

/-- A call changes without a vote, and at most a node steps down. -/
theorem set_quiet (tally : Tally cfg core calls votes) {k : Nat} {call call' : VoteCall}
    (found : calls[k]? = some call) (same : call.Same call')
    (kept : call.closed = true → call'.closed = true)
    (reply : ∀ T, call'.reply = some ⟨T, true⟩ → call.reply = some ⟨T, true⟩)
    (moved : core' = core ∨ ∃ i T, core' = Function.update core i ((core i).depose T)) :
    Tally cfg core' (calls.set k call') votes := by
  have all : votes ⊆ votes := List.Subset.refl _
  have grown := counted_set found same kept
  have granted := fun T h => (tally.call k call found).reply T (reply T h)
  rcases moved with rfl | ⟨i, T, rfl⟩
  · exact ⟨tally.set_call found same (fun _ => le_rfl) all granted,
      tally.distinct.set found same, tally.counters_mono grown, tally.standing, tally.led⟩
  · exact ⟨tally.set_call found same (update_longer le_rfl) all granted,
      tally.distinct.set found same,
      tally.update_counters grown (tally.counters_mono grown i),
      tally.update_standing all fun stands => absurd rfl stands, tally.led⟩

/-- The counter of an election after a vote task has counted its vote. -/
theorem count_le (tally : Tally cfg core calls votes) {k : Nat} {call : VoteCall} {T : Nat}
    (found : calls[k]? = some call) (waiting : call.waiting = true)
    (reply : call.reply = some ⟨T, true⟩) (e : Nat) :
    ((core call.src).count call.election).counters.getD e 0 ≤
      1 + (counted (calls.set k { call with waiting := false }) call.src e).card := by
  have same : call.Same { call with waiting := false } := ⟨rfl, rfl, rfl, rfl⟩
  have open_ : ¬ call.closed = true := by simp [VoteCall.closed, waiting]
  have grown := counted_set found same (fun closed => absurd closed open_) call.src
  by_cases at_ : e = call.election
  · subst at_
    have bound : call.election < (core call.src).counters.length :=
      (tally.call k call found).election
    have new : insert call.dst (counted calls call.src call.election) ⊆
        counted (calls.set k { call with waiting := false }) call.src call.election := by
      refine Finset.insert_subset (mem_counted.mpr ⟨{ call with waiting := false }, ?_, rfl, rfl,
        VoteCall.closed_iff.mpr ⟨rfl, T, reply⟩, rfl⟩) (grown call.election)
      exact List.mem_set (List.getElem?_eq_some_iff.mp found).1 _
    have card := Finset.card_le_card new
    rw [Finset.card_insert_of_notMem (tally.dst_not_counted found waiting)] at card
    have old := tally.counters call.src call.election
    simp only [VoteCore.count, List.getD_eq_getElem?_getD, List.getElem?_set_self bound,
      Option.getD_some] at old ⊢
    omega
  · have kept : ((core call.src).count call.election).counters.getD e 0 =
        (core call.src).counters.getD e 0 := by
      simp only [VoteCore.count, List.getD_eq_getElem?_getD, List.getElem?_set_ne (Ne.symm at_)]
    rw [kept]
    exact (tally.counters call.src e).trans
      (Nat.add_le_add_left (Finset.card_le_card (grown e)) 1)

/-- A full count is a count of voters, the candidate and the node that replied among them. -/
theorem enough_voters (tally : Tally cfg core calls votes) {k : Nat} {call : VoteCall} {T : Nat}
    (found : calls[k]? = some call) (waiting : call.waiting = true)
    (reply : call.reply = some ⟨T, true⟩) (own : .candidate call.src T ∈ votes)
    (enough : RaftNode.threshold cfg ≤ (core call.src).counters.getD call.election 0 + 1) :
    max 2 (RaftNode.threshold cfg) ≤ (voters cfg votes call.src T).card := by
  have card := Finset.card_le_card (tally.counted_voters found reply own)
  have counter := tally.counters call.src call.election
  rw [Finset.card_insert_of_notMem, Finset.card_insert_of_notMem] at card
  · omega
  · exact tally.src_not_counted _ _
  · simp only [Finset.mem_insert, not_or]
    exact ⟨(tally.call k call found).ne, tally.dst_not_counted found waiting⟩

end Tally

theorem tally_solicit {cfg : Config} {s : Cluster} {i : Nat} (peers : Peers cfg s)
    (tally : Tally cfg s.core s.voteCalls s.votes) (bound : i < cfg.size) :
    Tally cfg (Function.update s.core i
        { s.core i with votedFor := i, counters := (s.core i).counters ++ [1] })
      (s.voteCalls ++ voteTasks i (s.nodes i)) (.solicit i (s.core i).term :: s.votes) := by
  have sub : s.votes ⊆ .solicit i (s.core i).term :: s.votes := List.subset_cons_self _ _
  have grown : ∀ v e, counted s.voteCalls v e ⊆
      counted (s.voteCalls ++ voteTasks i (s.nodes i)) v e := by
    intro v e x hx
    obtain ⟨c, mem, rest⟩ := mem_counted.mp hx
    exact mem_counted.mpr ⟨c, List.mem_append_left _ mem, rest⟩
  have longer : ∀ v, (s.core v).counters.length ≤ (Function.update s.core i
      { s.core i with votedFor := i, counters := (s.core i).counters ++ [1] } v).counters.length :=
    Tally.update_longer (by simp)
  -- a new task belongs to an election no old one belongs to
  have apart : ∀ (n m : Nat) (c d : VoteCall), s.voteCalls[n]? = some c →
      (voteTasks i (s.nodes i))[m]? = some d → c.src = d.src → c.election ≠ d.election := by
    intro n m c d hc hd src elec
    obtain ⟨j, -, rfl⟩ := List.mem_map.mp (List.mem_of_getElem? hd)
    have old := (tally.call n c hc).election
    rw [src, elec] at old
    exact absurd old (lt_irrefl _)
  refine ⟨?_, ?_, ?_, ?_, ?_⟩
  · intro k c hc
    rcases List.mem_append.mp (List.mem_of_getElem? hc) with old | new
    · obtain ⟨n, hn⟩ := List.mem_iff_getElem?.mp old
      exact (tally.call n c hn).mono (longer c.src) sub
    · obtain ⟨j, hj, rfl⟩ := List.mem_map.mp new
      obtain ⟨dst, ne, -⟩ := (peers i).2 j hj
      exact ⟨bound, dst, ne, rfl, by simp [Cluster.core], by simp⟩
  · intro k n c d hc hd src elec
    rw [List.getElem?_append] at hc hd
    split_ifs at hc hd with hk hn hn
    · exact tally.distinct k n c d hc hd src elec
    · exact absurd elec (apart k _ c d hc hd src)
    · exact absurd elec.symm (apart n _ d c hd hc src.symm)
    · simp only [voteTasks, List.getElem?_map, Option.map_eq_some_iff] at hc hd
      obtain ⟨j, hj, rfl⟩ := hc
      obtain ⟨j', hj', rfl⟩ := hd
      refine ⟨rfl, fun dst => ?_⟩
      obtain rfl : j = j' := dst
      have := (List.getElem?_inj (List.getElem?_eq_some_iff.mp hj).1 (peers i).1).mp
        (hj.trans hj'.symm)
      omega
  · refine tally.update_counters grown fun e => ?_
    rcases Nat.lt_trichotomy e (s.core i).counters.length with old | new | none
    · rw [List.getD_append _ _ _ _ old]
      exact (tally.counters i e).trans (Nat.add_le_add_left (Finset.card_le_card (grown i e)) 1)
    · subst new
      simp
    · rw [List.getD_eq_default _ _ (by simp; omega)]
      exact Nat.zero_le _
  · exact tally.update_standing sub fun stands => sub (tally.standing i stands)
  · intro v T es mem
    exact tally.led_mono sub (by simpa using mem)

theorem tally_step {cfg : Config} {s s' : Cluster} {a : Action} (peers : Peers cfg s)
    (tally : Tally cfg s.core s.voteCalls s.votes) (h : step cfg s a = some s') :
    Tally cfg s'.core s'.voteCalls s'.votes := by
  have all : s.votes ⊆ s.votes := List.Subset.refl _
  cases step_voteStep h with
  | quiet core calls votes =>
      rw [core, calls, votes]
      exact tally
  | depose i T _ guard core calls votes =>
      rw [core, calls, votes]
      have longer : ∀ v, (s.core v).counters.length ≤
          (Function.update s.core i ((s.core i).depose T) v).counters.length :=
        Tally.update_longer le_rfl
      exact ⟨fun k c hc => (tally.call k c hc).mono (longer c.src) all, tally.distinct,
        tally.update_counters (fun _ _ => subset_rfl) (tally.counters i),
        tally.update_standing all fun stands => absurd rfl stands, tally.led⟩
  | timer i _ bound stands core calls votes =>
      rw [core, calls, votes]
      have sub := List.subset_cons_self (.candidate i (u64 ((s.core i).term + 1))) s.votes
      have longer : ∀ v, (s.core v).counters.length ≤ (Function.update s.core i
          ⟨.Candidate, u64 ((s.core i).term + 1), i, (s.core i).counters⟩ v).counters.length :=
        Tally.update_longer le_rfl
      refine ⟨fun k c hc => (tally.call k c hc).mono (longer c.src) sub, tally.distinct,
        tally.update_counters (fun _ _ => subset_rfl) (tally.counters i),
        tally.update_standing sub fun _ => List.mem_cons_self .., ?_⟩
      intro v T es mem
      exact tally.led_mono sub (by simpa using mem)
  | solicit i _ bound core calls votes =>
      rw [core, calls, votes]
      exact tally_solicit peers tally bound
  | deny k call found fresh core calls votes =>
      rw [calls, votes]
      have open_ : ¬ call.closed = true := by simp [VoteCall.closed, fresh]
      exact tally.set_quiet found ⟨rfl, rfl, rfl, rfl⟩ (fun closed => absurd closed open_) (by simp)
        (core.imp_right fun ⟨_, core⟩ => ⟨_, _, core⟩)
  | grant k call found fresh guard newer core calls votes =>
      rw [core, calls, votes]
      have ok := tally.call k call found
      have same : call.Same { call with reply := some ⟨call.request.term, true⟩ } :=
        ⟨rfl, rfl, rfl, rfl⟩
      have open_ : ¬ call.closed = true := by simp [VoteCall.closed, fresh]
      have grown := counted_set found same (fun closed => absurd closed open_)
      have sub := List.subset_cons_self
        (.granted call.dst call.request.term call.request.candidateId) s.votes
      refine ⟨tally.set_call found same (Tally.update_longer le_rfl) sub ?_,
        tally.distinct.set found same,
        tally.update_counters grown (tally.counters_mono grown call.dst),
        tally.update_standing sub ?_, ?_⟩
      · rintro T reply
        obtain rfl : call.request.term = T := by simpa using reply
        exact ⟨rfl, ok.candidate ▸ List.mem_cons_self ..⟩
      · -- a node that stands keeps its state only in its own term
        intro stands
        by_cases higher : (s.core call.dst).term < call.request.term
        · simp [higher] at stands
        · rw [if_neg higher] at stands
          have own := sub (tally.standing call.dst stands)
          rwa [(guard.resolve_left higher).1] at own
      · intro v T es mem
        exact tally.led_mono sub (by simpa using mem)
  | close k call found waiting core calls votes =>
      rw [calls, votes]
      have open_ : ¬ call.closed = true := by simp [VoteCall.closed, waiting]
      exact tally.set_quiet found ⟨rfl, rfl, rfl, rfl⟩ (fun closed => absurd closed open_)
        (fun _ reply => reply) (core.imp_right fun ⟨_, _, _, core⟩ => ⟨_, _, core⟩)
  | count k call rets found waiting reply granted core calls votes =>
      rw [core, calls, votes]
      obtain ⟨T, _⟩ := rets
      obtain rfl : _ = true := granted
      have same : call.Same { call with waiting := false } := ⟨rfl, rfl, rfl, rfl⟩
      have open_ : ¬ call.closed = true := by simp [VoteCall.closed, waiting]
      have grown := counted_set found same (fun closed => absurd closed open_)
      exact ⟨tally.set_call found same (Tally.update_longer (by simp [VoteCore.count])) all
          (tally.call k call found).reply,
        tally.distinct.set found same,
        tally.update_counters grown (tally.count_le found waiting reply),
        tally.update_standing all (tally.standing call.src), tally.led⟩
  | win k call rets found waiting reply won core calls votes =>
      rw [core, calls, votes]
      obtain ⟨T, _⟩ := rets
      obtain ⟨⟨rfl, stands⟩, rfl, enough⟩ := won
      have same : call.Same { call with waiting := false } := ⟨rfl, rfl, rfl, rfl⟩
      have open_ : ¬ call.closed = true := by simp [VoteCall.closed, waiting]
      have grown := counted_set found same (fun closed => absurd closed open_)
      have sub := List.subset_cons_self (.leader call.src (s.core call.src).term
        (s.nodes call.src).m_raft_logger.m_entries) s.votes
      have own : .candidate call.src (s.core call.src).term ∈ s.votes :=
        tally.standing call.src (by rw [Cluster.core, RaftNode.core_state, stands]; decide)
      refine ⟨tally.set_call found same (Tally.update_longer (by simp [VoteCore.count])) sub
          fun U h => ?_,
        tally.distinct.set found same,
        tally.update_counters grown (tally.count_le found waiting reply),
        tally.update_standing sub fun _ => sub own, ?_⟩
      · obtain ⟨term, granted⟩ := (tally.call k call found).reply U h
        exact ⟨term, sub granted⟩
      · intro v U es mem
        rcases List.mem_cons.mp mem with new | old
        · cases new
          exact (tally.enough_voters found waiting reply own enough).trans
            (Finset.card_le_card (voters_mono cfg sub _ _))
        · exact tally.led_mono sub old

theorem tally_run {cfg : Config} {s : Cluster} {as : List Action}
    {ok : Cluster → Action → Prop} (run : Transition.Run (step cfg) ok {} as s) :
    Peers cfg s ∧ Tally cfg s.core s.voteCalls s.votes :=
  run.invariant (P := fun s => Peers cfg s ∧ Tally cfg s.core s.voteCalls s.votes)
    ⟨peers_initial cfg, tally_initial cfg⟩
    fun _ _ _ ⟨peers, tally⟩ _ next => ⟨peers_step peers next, tally_step peers tally next⟩

end CRpc.Raft
