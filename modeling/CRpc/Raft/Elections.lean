import CRpc.Raft.Quorums

/-! What a node's votes have to do with its term, its `m_votedFor` and its state, as
long as no term wraps; and from it, one leader in a term and one vote in a term. -/
namespace CRpc.Raft

open Cluster Transition Quorum

def Event.node : Event → Nat
  | .candidate i _ => i
  | .solicit i _ => i
  | .granted v _ _ => v
  | .leader i _ _ => i
  | .commit i _ _ _ => i
  | .redirect i _ => i
  | .respond i _ _ => i

@[simp] theorem node_candidate (i T : Nat) : (Event.candidate i T).node = i := rfl
@[simp] theorem node_solicit (i T : Nat) : (Event.solicit i T).node = i := rfl
@[simp] theorem node_granted (v T c : Nat) : (Event.granted v T c).node = v := rfl
@[simp] theorem node_leader (i T : Nat) (es : List Entry) : (Event.leader i T es).node = i := rfl

theorem mem_of_other {votes : List Event} {v : Nat} {ev e : Event} (ne : v ≠ ev.node)
    (at_ : e.node = v) (mem : e ∈ ev :: votes) : e ∈ votes := by
  rcases List.mem_cons.mp mem with rfl | mem
  · exact absurd at_.symm ne
  · exact mem

theorem votes_update {Q : List Event → Nat → VoteCore → Prop}
    (other : ∀ {votes : List Event} {v : Nat} {core : VoteCore}, Q votes v core →
      ∀ {ev : Event}, v ≠ ev.node → Q (ev :: votes) v core)
    {s s' : Cluster} {i : Nat} {core : VoteCore} (evs : List Event)
    (all : ∀ v, Q s.votes v (s.core v)) (moved : s'.core = Function.update s.core i core)
    (votes : s'.votes = evs ++ s.votes) (own : Q s'.votes i core)
    (others : ∀ ev ∈ evs, ev.node = i) (v : Nat) : Q s'.votes v (s'.core v) := by
  by_cases at_ : v = i
  · subst at_
    rw [moved, Function.update_self]
    exact own
  · rw [moved, Function.update_of_ne at_, votes]
    clear votes own
    induction evs with
    | nil => exact all v
    | cons ev evs ih =>
        exact other (ih fun e mem => others e (List.mem_cons_of_mem _ mem))
          (others ev (List.mem_cons_self ..) ▸ at_)

/-- The votes of node `v` against its core. -/
structure Ballots (votes : List Event) (v : Nat) (core : VoteCore) : Prop where
  candidate : ∀ T, .candidate v T ∈ votes → 0 < T ∧ T ≤ core.term ∧
    (core.term = T → core.votedFor = v ∨ core.votedFor = noNode)
  granted : ∀ T c, .granted v T c ∈ votes → T ≤ core.term ∧ c ≠ v ∧ c ≠ noNode ∧
    (core.term = T → core.state = .Follower ∧ (core.votedFor = c ∨ core.votedFor = v))
  leader : ∀ T es, .leader v T es ∈ votes → T ≤ core.term ∧ (core.term = T → core.state = .Leader)
  stands : core.state ≠ .Follower → core.votedFor = v ∧ .candidate v core.term ∈ votes
  crowned : core.state = .Leader → ∃ es, .leader v core.term es ∈ votes
  unique : ∀ T c d, .granted v T c ∈ votes → .granted v T d ∈ votes → c = d
  apart : ∀ T c, .candidate v T ∈ votes → .granted v T c ∉ votes

namespace Ballots

variable {votes : List Event} {v : Nat} {core : VoteCore}

theorem initial (v : Nat) : Ballots [] v ({} : RaftNode).core := by
  constructor <;> simp [RaftNode.core]

theorem other (ballots : Ballots votes v core) {ev : Event} (ne : v ≠ ev.node) :
    Ballots (ev :: votes) v core := by
  have old : ∀ e : Event, e.node = v → e ∈ ev :: votes → e ∈ votes := fun _ => mem_of_other ne
  constructor
  · exact fun T h => ballots.candidate T (old _ rfl h)
  · exact fun T c h => ballots.granted T c (old _ rfl h)
  · exact fun T es h => ballots.leader T es (old _ rfl h)
  · exact fun h => (ballots.stands h).imp_right (List.mem_cons_of_mem _)
  · exact fun h => (ballots.crowned h).imp fun _ => List.mem_cons_of_mem _
  · exact fun T c d hc hd => ballots.unique T c d (old _ rfl hc) (old _ rfl hd)
  · exact fun T c h hc => ballots.apart T c (old _ rfl h) (old _ rfl hc)

theorem higher (ballots : Ballots votes v core) {T : Nat} (h : core.term < T) (state : RaftState)
    (votedFor : Nat) (counters : List Nat) (follows : state = .Follower) :
    Ballots votes v ⟨state, T, votedFor, counters⟩ := by
  subst follows
  constructor
  · intro U hU
    obtain ⟨pos, le, -⟩ := ballots.candidate U hU
    exact ⟨pos, by dsimp only; omega, fun eq => by dsimp only at eq; omega⟩
  · intro U c hU
    obtain ⟨le, ne, real, -⟩ := ballots.granted U c hU
    exact ⟨by dsimp only; omega, ne, real, fun eq => by dsimp only at eq; omega⟩
  · intro U es hU
    have le := (ballots.leader U es hU).1
    exact ⟨by dsimp only; omega, fun eq => by dsimp only at eq; omega⟩
  · exact fun h => absurd rfl h
  · exact fun h => by cases h
  · exact ballots.unique
  · exact ballots.apart

theorem yield (ballots : Ballots votes v core) (stands : core.state = .Candidate) :
    Ballots votes v (core.depose core.term) := by
  constructor
  · exact fun U hU => ⟨(ballots.candidate U hU).1, (ballots.candidate U hU).2.1, fun _ => .inr rfl⟩
  · intro U c hU
    obtain ⟨le, ne, real, holds⟩ := ballots.granted U c hU
    exact ⟨le, ne, real, fun eq => by cases (holds eq).1.symm.trans stands⟩
  · intro U es hU
    exact ⟨(ballots.leader U es hU).1, fun eq => by
      cases ((ballots.leader U es hU).2 eq).symm.trans stands⟩
  · exact fun h => absurd rfl h
  · exact fun h => by cases h
  · exact ballots.unique
  · exact ballots.apart

theorem depose (ballots : Ballots votes v core) {T : Nat}
    (guard : core.term < T ∨ T = core.term ∧ core.state = .Candidate) :
    Ballots votes v (core.depose T) := by
  rcases guard with h | ⟨rfl, stands⟩
  · exact ballots.higher h .Follower noNode core.counters rfl
  · exact ballots.yield stands

theorem timer (ballots : Ballots votes v core) :
    Ballots (.candidate v (core.term + 1) :: votes) v
      ⟨.Candidate, core.term + 1, v, core.counters⟩ := by
  constructor
  · intro U hU
    rcases List.mem_cons.mp hU with new | old
    · cases new
      exact ⟨by omega, le_rfl, fun _ => .inl rfl⟩
    · obtain ⟨pos, le, -⟩ := ballots.candidate U old
      exact ⟨pos, by dsimp only; omega, fun _ => .inl rfl⟩
  · intro U c hU
    have old : Event.granted v U c ∈ votes := by simpa using hU
    obtain ⟨le, ne, real, -⟩ := ballots.granted U c old
    exact ⟨by dsimp only; omega, ne, real, fun eq => by dsimp only at eq; omega⟩
  · intro U es hU
    have le := (ballots.leader U es (by simpa using hU)).1
    exact ⟨by dsimp only; omega, fun eq => by dsimp only at eq; omega⟩
  · exact fun _ => ⟨rfl, List.mem_cons_self ..⟩
  · exact fun h => by cases h
  · exact fun U c d hc hd => ballots.unique U c d (by simpa using hc) (by simpa using hd)
  · intro U c hU hc
    have granted : Event.granted v U c ∈ votes := by simpa using hc
    rcases List.mem_cons.mp hU with new | old
    · cases new
      have := (ballots.granted _ c granted).1
      omega
    · exact ballots.apart U c old granted

theorem solicit (ballots : Ballots votes v core) :
    Ballots (.solicit v core.term :: votes) v
      { core with votedFor := v, counters := core.counters ++ [1] } := by
  constructor
  · intro U hU
    obtain ⟨pos, le, -⟩ := ballots.candidate U (by simpa using hU)
    exact ⟨pos, le, fun _ => .inl rfl⟩
  · intro U c hU
    obtain ⟨le, ne, real, holds⟩ := ballots.granted U c (by simpa using hU)
    exact ⟨le, ne, real, fun eq => ⟨(holds eq).1, .inr rfl⟩⟩
  · exact fun U es hU => ballots.leader U es (by simpa using hU)
  · exact fun h => ⟨rfl, List.mem_cons_of_mem _ (ballots.stands h).2⟩
  · exact fun h => (ballots.crowned h).imp fun _ => List.mem_cons_of_mem _
  · exact fun U c d hc hd => ballots.unique U c d (by simpa using hc) (by simpa using hd)
  · exact fun U c hU hc => ballots.apart U c (by simpa using hU) (by simpa using hc)

theorem recast (ballots : Ballots votes v core) {T c d : Nat} (ne : c ≠ v)
    (guard : core.term < T ∨ core.term = T ∧ core.votedFor = c)
    (cast : .granted v T d ∈ votes) : core.term = T ∧ d = c := by
  obtain ⟨le, -, -, holds⟩ := ballots.granted T d cast
  rcases guard with h | ⟨same, voted⟩
  · omega
  · refine ⟨same, ?_⟩
    rcases (holds same).2 with h | h
    · exact h.symm.trans voted
    · exact absurd (voted.symm.trans h) ne

theorem grant (ballots : Ballots votes v core) {T c : Nat} (ne : c ≠ v) (real : c ≠ noNode)
    (guard : core.term < T ∨ core.term = T ∧ core.votedFor = c) :
    Ballots (.granted v T c :: votes) v
      ⟨if core.term < T then .Follower else core.state, T, c, core.counters⟩ := by
  have le : core.term ≤ T := by omega
  -- a node that votes for `c` in its own term is no candidate there
  have follows : (if core.term < T then .Follower else core.state) = RaftState.Follower := by
    by_cases h : core.term < T
    · rw [if_pos h]
    · rw [if_neg h]
      by_contra stands
      have voted := (guard.resolve_left h).2
      exact ne (voted.symm.trans (ballots.stands stands).1)
  have noCandidate : ∀ U, .candidate v U ∈ votes → U ≠ T := by
    rintro U hU rfl
    obtain ⟨-, le', voted⟩ := ballots.candidate U hU
    rcases guard with h | ⟨same, h⟩
    · omega
    · rcases voted same with own | none
      · exact ne (h.symm.trans own)
      · exact real (h.symm.trans none)
  rw [follows]
  constructor
  · intro U hU
    have old : Event.candidate v U ∈ votes := by simpa using hU
    obtain ⟨pos, le', -⟩ := ballots.candidate U old
    exact ⟨pos, by dsimp only; omega, fun eq => absurd eq.symm (noCandidate U old)⟩
  · intro U d hU
    rcases List.mem_cons.mp hU with new | old
    · cases new
      exact ⟨le_rfl, ne, real, fun _ => ⟨rfl, .inl rfl⟩⟩
    · obtain ⟨le', ne', real', -⟩ := ballots.granted U d old
      refine ⟨by dsimp only; omega, ne', real', fun eq => ⟨rfl, .inl ?_⟩⟩
      obtain rfl : T = U := eq
      exact (ballots.recast ne guard old).2.symm
  · intro U es hU
    obtain ⟨le', leads⟩ := ballots.leader U es (by simpa using hU)
    refine ⟨by dsimp only; omega, fun eq => ?_⟩
    obtain rfl : T = U := eq
    have same : core.term = T := by omega
    rw [if_neg (by omega), leads same] at follows
    cases follows
  · exact fun h => absurd rfl h
  · exact fun h => by cases h
  · intro U d e hd he
    rcases List.mem_cons.mp hd with newd | oldd <;> rcases List.mem_cons.mp he with newe | olde
    · cases newd
      cases newe
      rfl
    · cases newd
      exact (ballots.recast ne guard olde).2.symm
    · cases newe
      exact (ballots.recast ne guard oldd).2
    · exact ballots.unique U d e oldd olde
  · intro U d hU hd
    have cand : Event.candidate v U ∈ votes := by simpa using hU
    rcases List.mem_cons.mp hd with new | old
    · cases new
      exact noCandidate T cand rfl
    · exact ballots.apart U d cand old

theorem win (ballots : Ballots votes v core) (stands : core.state = .Candidate)
    (es : List Entry) (counters : List Nat) : Ballots (.leader v core.term es :: votes) v
      ⟨.Leader, core.term, core.votedFor, counters⟩ := by
  have own := ballots.stands (by rw [stands]; decide)
  constructor
  · exact fun U hU => ballots.candidate U (by simpa using hU)
  · intro U c hU
    obtain ⟨le, ne, real, holds⟩ := ballots.granted U c (by simpa using hU)
    exact ⟨le, ne, real, fun eq => by cases (holds eq).1.symm.trans stands⟩
  · intro U es' hU
    rcases List.mem_cons.mp hU with new | old
    · cases new
      exact ⟨le_rfl, fun _ => rfl⟩
    · exact ⟨(ballots.leader U es' old).1, fun _ => rfl⟩
  · exact fun _ => ⟨own.1, List.mem_cons_of_mem _ own.2⟩
  · exact fun _ => ⟨es, List.mem_cons_self ..⟩
  · exact fun U c d hc hd => ballots.unique U c d (by simpa using hc) (by simpa using hd)
  · exact fun U c hU hc => ballots.apart U c (by simpa using hU) (by simpa using hc)

theorem recount (ballots : Ballots votes v core) (counters : List Nat) :
    Ballots votes v { core with counters } := by
  obtain ⟨h1, h2, h3, h4, h5, h6, h7⟩ := ballots
  exact ⟨h1, h2, h3, h4, h5, h6, h7⟩

end Ballots

def NoWrap (s : Cluster) : Action → Prop
  | .electionTimer i => (s.nodes i).m_state ≠ .Leader → (s.nodes i).m_currentTerm + 1 < 2 ^ 64
  | _ => True

instance (s : Cluster) : DecidablePred (NoWrap s) := by
  rintro ⟨⟩ <;> dsimp only [NoWrap] <;> infer_instance

theorem ballots_step {cfg : Config} {s s' : Cluster} {a : Action}
    (tally : Tally cfg s.core s.voteCalls s.votes) (ballots : ∀ v, Ballots s.votes v (s.core v))
    (noWrap : NoWrap s a) (h : step cfg s a = some s') : ∀ v, Ballots s'.votes v (s'.core v) := by
  cases step_voteStep h with
  | quiet core calls votes =>
      rw [core, votes]
      exact ballots
  | depose i T _ guard core calls votes =>
      refine votes_update Ballots.other [] ballots core votes ?_ (by simp)
      rw [votes]
      exact (ballots i).depose guard
  | timer i act bound stands core calls votes =>
      subst act
      have fits : u64 ((s.core i).term + 1) = (s.core i).term + 1 := u64_of_lt (noWrap stands)
      rw [fits] at core votes
      refine votes_update Ballots.other [_] ballots core votes ?_ (by simp)
      rw [votes]
      exact (ballots i).timer
  | solicit i act bound core calls votes =>
      refine votes_update Ballots.other [_] ballots core votes ?_ (by simp)
      rw [votes]
      exact (ballots i).solicit
  | deny k call found fresh core calls votes =>
      rcases core with core | ⟨higher, core⟩
      · rw [core, votes]
        exact ballots
      · refine votes_update Ballots.other [] ballots core votes ?_ (by simp)
        rw [votes]
        exact (ballots call.dst).depose (.inl higher)
  | grant k call found fresh guard newer core calls votes =>
      have ok := tally.call k call found
      refine votes_update Ballots.other [_] ballots core votes ?_ (by simp)
      rw [votes]
      exact (ballots call.dst).grant (ok.candidate ▸ ok.ne.symm) ok.candidate_ne guard
  | close k call found waiting core calls votes =>
      rcases core with core | ⟨rets, -, higher, core⟩
      · rw [core, votes]
        exact ballots
      · refine votes_update Ballots.other [] ballots core votes ?_ (by simp)
        rw [votes]
        exact (ballots call.src).depose (.inl higher)
  | count k call rets found waiting reply granted core calls votes =>
      refine votes_update Ballots.other [] ballots core votes ?_ (by simp)
      rw [votes]
      exact (ballots call.src).recount _
  | win k call rets found waiting reply won core calls votes =>
      refine votes_update Ballots.other [_] ballots core votes ?_ (by simp)
      rw [votes]
      exact (ballots call.src).win won.1.2 _ _

structure ElectionsOk (cfg : Config) (s : Cluster) : Prop where
  peers : Peers cfg s
  tally : Tally cfg s.core s.voteCalls s.votes
  ballots : ∀ v, Ballots s.votes v (s.core v)

theorem electionsOk_initial (cfg : Config) : ElectionsOk cfg {} :=
  ⟨peers_initial cfg, tally_initial cfg, fun v => .initial v⟩

theorem electionsOk_step {cfg : Config} {s s' : Cluster} {a : Action} (ok : ElectionsOk cfg s)
    (noWrap : NoWrap s a) (h : step cfg s a = some s') : ElectionsOk cfg s' :=
  ⟨peers_step ok.peers h, tally_step ok.peers ok.tally h,
    ballots_step ok.tally ok.ballots noWrap h⟩

theorem electionsOk_run {cfg : Config} {s : Cluster} {as : List Action}
    {ok : Cluster → Action → Prop} (run : Run (step cfg) ok {} as s)
    (noWrap : ∀ s a, ok s a → NoWrap s a) : ElectionsOk cfg s :=
  run.invariant (electionsOk_initial cfg) fun t a _ elections allowed next =>
    electionsOk_step elections (noWrap t a allowed) next

/-- Node `v` voted for `c` in term `T`: it granted its vote, or it asked for votes itself. -/
def Voted (history : List Event) (v T c : Nat) : Prop :=
  .granted v T c ∈ history ∨ c = v ∧ (.candidate v T ∈ history ∨ .solicit v T ∈ history)

/-- `startElection` finds no vote for another node in its term, and no term wraps. -/
def VoteFree (s : Cluster) : Action → Prop
  | .electionTimer i => NoWrap s (.electionTimer i)
  | .startElection i => (s.nodes i).m_votedFor = i ∨ (s.nodes i).m_votedFor = noNode
  | _ => True

instance (s : Cluster) : DecidablePred (VoteFree s) := by
  rintro ⟨⟩ <;> dsimp only [VoteFree] <;> infer_instance

theorem VoteFree.noWrap {s : Cluster} {a : Action} (free : VoteFree s a) : NoWrap s a := by
  cases a with
  | electionTimer i => exact free
  | _ => trivial

/-- The votes a node asked for against its core, where `VoteFree` holds. -/
structure Solicited (votes : List Event) (v : Nat) (core : VoteCore) : Prop where
  solicit : ∀ T, .solicit v T ∈ votes → T ≤ core.term ∧
    (core.term = T → core.votedFor = v ∨ core.votedFor = noNode)
  granted : ∀ T c, .granted v T c ∈ votes → core.term = T → core.votedFor = c
  apart : ∀ T c, .solicit v T ∈ votes → .granted v T c ∉ votes

namespace Solicited

variable {votes : List Event} {v : Nat} {core : VoteCore}

theorem other (asked : Solicited votes v core) {ev : Event} (ne : v ≠ ev.node) :
    Solicited (ev :: votes) v core := by
  have old : ∀ e : Event, e.node = v → e ∈ ev :: votes → e ∈ votes := fun _ => mem_of_other ne
  exact ⟨fun T h => asked.solicit T (old _ rfl h), fun T c h => asked.granted T c (old _ rfl h),
    fun T c h hc => asked.apart T c (old _ rfl h) (old _ rfl hc)⟩

/-- An event of the node itself that is neither a request nor a grant. -/
theorem neutral (asked : Solicited votes v core) {ev : Event}
    (solicit : ∀ T, ev ≠ .solicit v T) (granted : ∀ T c, ev ≠ .granted v T c) :
    Solicited (ev :: votes) v core where
  solicit := fun T h => asked.solicit T ((List.mem_cons.mp h).resolve_left (solicit T).symm)
  granted := fun T c h => asked.granted T c ((List.mem_cons.mp h).resolve_left (granted T c).symm)
  apart := fun T c h hc => asked.apart T c ((List.mem_cons.mp h).resolve_left (solicit T).symm)
    ((List.mem_cons.mp hc).resolve_left (granted T c).symm)

theorem higher (asked : Solicited votes v core) (ballots : Ballots votes v core) {T : Nat}
    (h : core.term < T) (state : RaftState) (votedFor : Nat) (counters : List Nat) :
    Solicited votes v ⟨state, T, votedFor, counters⟩ where
  solicit := fun U hU => by
    have := (asked.solicit U hU).1
    exact ⟨by dsimp only; omega, fun eq => by dsimp only at eq; omega⟩
  granted := fun U c hU eq => by
    have := (ballots.granted U c hU).1
    dsimp only at eq
    omega
  apart := asked.apart

theorem depose (asked : Solicited votes v core) (ballots : Ballots votes v core) {T : Nat}
    (guard : core.term < T ∨ T = core.term ∧ core.state = .Candidate) :
    Solicited votes v (core.depose T) := by
  rcases guard with h | ⟨rfl, stands⟩
  · exact asked.higher ballots h .Follower noNode core.counters
  · refine ⟨fun U hU => ⟨(asked.solicit U hU).1, fun _ => .inr rfl⟩, fun U c hU eq => ?_,
      asked.apart⟩
    cases ((ballots.granted U c hU).2.2.2 eq).1.symm.trans stands

theorem ask (asked : Solicited votes v core) (ballots : Ballots votes v core)
    (free : core.votedFor = v ∨ core.votedFor = noNode) :
    Solicited (.solicit v core.term :: votes) v
      { core with votedFor := v, counters := core.counters ++ [1] } := by
  have none : ∀ c, .granted v core.term c ∉ votes := by
    intro c hc
    obtain ⟨-, ne, real, -⟩ := ballots.granted core.term c hc
    have voted := asked.granted core.term c hc rfl
    rcases free with own | none
    · exact ne (voted.symm.trans own)
    · exact real (voted.symm.trans none)
  refine ⟨fun U hU => ?_, fun U c hU eq => ?_, fun U c hU hc => ?_⟩
  · rcases List.mem_cons.mp hU with new | old
    · cases new
      exact ⟨le_rfl, fun _ => .inl rfl⟩
    · exact ⟨(asked.solicit U old).1, fun _ => .inl rfl⟩
  · obtain rfl : core.term = U := eq
    exact absurd (by simpa using hU) (none c)
  · have granted : Event.granted v U c ∈ votes := by simpa using hc
    rcases List.mem_cons.mp hU with new | old
    · cases new
      exact none c granted
    · exact asked.apart U c old granted

theorem grant (asked : Solicited votes v core) (ballots : Ballots votes v core) {T c : Nat}
    (ne : c ≠ v) (real : c ≠ noNode) (guard : core.term < T ∨ core.term = T ∧ core.votedFor = c)
    (state : RaftState) : Solicited (.granted v T c :: votes) v ⟨state, T, c, core.counters⟩ := by
  have silent : ∀ U, .solicit v U ∈ votes → U < T := by
    intro U hU
    obtain ⟨le, voted⟩ := asked.solicit U hU
    rcases guard with h | ⟨same, h⟩
    · omega
    · refine lt_of_le_of_ne (same ▸ le) ?_
      rintro rfl
      rcases voted same with own | none
      · exact ne (h.symm.trans own)
      · exact real (h.symm.trans none)
  refine ⟨fun U hU => ?_, fun U d hU eq => ?_, fun U d hU hd => ?_⟩
  · have lt := silent U (by simpa using hU)
    exact ⟨lt.le, fun eq => absurd eq.symm lt.ne⟩
  · obtain rfl : T = U := eq
    rcases List.mem_cons.mp hU with new | old
    · cases new
      rfl
    · exact (ballots.recast ne guard old).2.symm
  · have old : Event.solicit v U ∈ votes := by simpa using hU
    rcases List.mem_cons.mp hd with new | granted
    · cases new
      exact absurd (silent T old) (lt_irrefl T)
    · exact asked.apart U d old granted

theorem recount (asked : Solicited votes v core) (state : RaftState) (counters : List Nat) :
    Solicited votes v ⟨state, core.term, core.votedFor, counters⟩ :=
  ⟨asked.solicit, asked.granted, asked.apart⟩

end Solicited

theorem solicited_step {cfg : Config} {s s' : Cluster} {a : Action}
    (tally : Tally cfg s.core s.voteCalls s.votes) (ballots : ∀ v, Ballots s.votes v (s.core v))
    (asked : ∀ v, Solicited s.votes v (s.core v)) (free : VoteFree s a)
    (h : step cfg s a = some s') : ∀ v, Solicited s'.votes v (s'.core v) := by
  cases step_voteStep h with
  | quiet core calls votes =>
      rw [core, votes]
      exact asked
  | depose i T _ guard core calls votes =>
      refine votes_update Solicited.other [] asked core votes ?_ (by simp)
      rw [votes]
      exact (asked i).depose (ballots i) guard
  | timer i act bound stands core calls votes =>
      subst act
      have fits : u64 ((s.core i).term + 1) = (s.core i).term + 1 := u64_of_lt (free stands)
      rw [fits] at core votes
      refine votes_update Solicited.other [_] asked core votes ?_ (by simp)
      rw [votes]
      exact ((asked i).higher (ballots i) (Nat.lt_succ_self _) _ _ _).neutral (by simp) (by simp)
  | solicit i act bound core calls votes =>
      subst act
      refine votes_update Solicited.other [_] asked core votes ?_ (by simp)
      rw [votes]
      exact (asked i).ask (ballots i) free
  | deny k call found fresh core calls votes =>
      rcases core with core | ⟨higher, core⟩
      · rw [core, votes]
        exact asked
      · refine votes_update Solicited.other [] asked core votes ?_ (by simp)
        rw [votes]
        exact (asked call.dst).depose (ballots call.dst) (.inl higher)
  | grant k call found fresh guard newer core calls votes =>
      have ok := tally.call k call found
      refine votes_update Solicited.other [_] asked core votes ?_ (by simp)
      rw [votes]
      exact (asked call.dst).grant (ballots call.dst) (ok.candidate ▸ ok.ne.symm) ok.candidate_ne guard _
  | close k call found waiting core calls votes =>
      rcases core with core | ⟨rets, -, higher, core⟩
      · rw [core, votes]
        exact asked
      · refine votes_update Solicited.other [] asked core votes ?_ (by simp)
        rw [votes]
        exact (asked call.src).depose (ballots call.src) (.inl higher)
  | count k call rets found waiting reply granted core calls votes =>
      refine votes_update Solicited.other [] asked core votes ?_ (by simp)
      rw [votes]
      exact (asked call.src).recount _ _
  | win k call rets found waiting reply won core calls votes =>
      refine votes_update Solicited.other [_] asked core votes ?_ (by simp)
      rw [votes]
      exact ((asked call.src).recount _ _).neutral (by simp) (by simp)

theorem voted_votes {s : Cluster} {v T c : Nat} (voted : Voted s.history v T c) :
    Voted s.votes v T c := by
  simpa [Voted, Cluster.votes] using voted

theorem Ballots.voted_unique {votes : List Event} {v : Nat} {core : VoteCore}
    (ballots : Ballots votes v core) (asked : Solicited votes v core) {T c d : Nat}
    (hc : Voted votes v T c) (hd : Voted votes v T d) : c = d := by
  have clash : ∀ e, .granted v T e ∈ votes →
      ¬ (.candidate v T ∈ votes ∨ .solicit v T ∈ votes) := by
    rintro e granted (own | own)
    · exact ballots.apart T e own granted
    · exact asked.apart T e own granted
  rcases hc with hc | ⟨rfl, hc⟩ <;> rcases hd with hd | ⟨rfl, hd⟩
  · exact ballots.unique T c d hc hd
  · exact absurd hd (clash c hc)
  · exact absurd hc (clash d hd)
  · rfl

/-- A node votes for one node in a term, as long as no `startElection` finds a vote
for another node in the term it reads and no term wraps. -/
theorem one_vote_per_term {cfg : Config} {as : List Action} {s : Cluster}
    (free : Run (step cfg) VoteFree {} as s) {v T c d : Nat} (hc : Voted s.history v T c)
    (hd : Voted s.history v T d) : c = d := by
  have all : ElectionsOk cfg s ∧ ∀ v, Solicited s.votes v (s.core v) :=
    free.invariant (P := fun s => ElectionsOk cfg s ∧ ∀ v, Solicited s.votes v (s.core v))
      ⟨electionsOk_initial cfg, fun v => by constructor <;> simp [Cluster.votes]⟩
      fun t a _ ⟨ok, asked⟩ allowed next => ⟨electionsOk_step ok allowed.noWrap next,
        solicited_step ok.tally ok.ballots asked allowed next⟩
  exact (all.1.ballots v).voted_unique (all.2 v) (voted_votes hc) (voted_votes hd)

theorem zero_voted_once : ∃ s, Run (step threeNodes) VoteFree {} zeroElected s ∧
    Voted s.history 0 1 0 ∧ ∀ c, Voted s.history 0 1 c → c = 0 := by
  have done : (exec (guarded (step threeNodes) VoteFree) {} zeroElected).map Cluster.history =
      some [.leader 0 1 [{}], .granted 1 1 0, .solicit 0 1, .candidate 0 1] := by decide +kernel
  obtain ⟨s, run, seen⟩ := Option.map_eq_some_iff.mp done
  have voted : Voted s.history 0 1 0 := .inr ⟨rfl, .inl (by simp [seen])⟩
  exact ⟨s, .of_guarded run, voted, fun c hc => one_vote_per_term (.of_guarded run) hc voted⟩

/-- Between the timer of node 0 and its `startElection`, node 1 gets its vote in the
term the latter then reads. -/
def zeroVotesTwice : List Action :=
  connected ++ [.electionTimer 0, .electionTimer 1, .startElection 1, .electionTimer 1,
    .startElection 1, .raftVote 2, .startElection 0]

theorem two_votes_in_a_term : ∃ s, Run (step threeNodes) Always {} zeroVotesTwice s ∧
    Voted s.history 0 2 1 ∧ Voted s.history 0 2 0 := by
  have done : (exec (step threeNodes) {} zeroVotesTwice).map (fun s => decide
      (.granted 0 2 1 ∈ s.history ∧ .solicit 0 2 ∈ s.history)) = some true := by decide +kernel
  obtain ⟨s, run, seen⟩ := Option.map_eq_some_iff.mp done
  obtain ⟨granted, asked⟩ := of_decide_eq_true seen
  exact ⟨s, .of_exec run, .inl granted, .inr ⟨rfl, .inr asked⟩⟩

end CRpc.Raft
