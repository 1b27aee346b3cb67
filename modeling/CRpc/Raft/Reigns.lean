import CRpc.Raft.Registrations
import CRpc.Raft.Terms

/-! A leader and its own log. Requests of a term come from its one leader, and no
node sends to itself, so nothing a leader accepts in its own term exists. -/
namespace CRpc.Raft

open Cluster Transition

/-- Every request was built by a leader of its term, and a leader is accepting none. -/
structure Reigns (s : Cluster) : Prop where
  sent : ∀ c ∈ s.appendCalls, c.dst ≠ c.src ∧
    ∃ es, .leader c.src c.request.term es ∈ s.votes
  apart : ∀ i, s.accepting i ≠ none → ¬ s.leads i

theorem reigns_initial : Reigns {} := by
  constructor
  · simp
  · intro i busy
    exact absurd rfl busy

namespace Reigns

variable {cfg : Config} {s s' : Cluster} {a : Action}

theorem sent_step (elections : ElectionsOk cfg s) (reigns : Reigns s)
    (h : step cfg s a = some s') : ∀ c ∈ s'.appendCalls, c.dst ≠ c.src ∧
      ∃ es, .leader c.src c.request.term es ∈ s'.votes := by
  intro c mem
  rcases appendCalls_origin h mem with ⟨d, old, same⟩ | ⟨i, sends⟩
  · obtain ⟨ne, es, led⟩ := reigns.sent d old
    rw [same.src, same.dst, same.request]
    exact ⟨ne, es, votes_step h led⟩
  · obtain ⟨e, request, -⟩ := sends.request
    obtain ⟨es, led⟩ := (elections.ballots i).crowned sends.leads
    have ne := ((elections.peers i).2 c.dst sends.dst).2.1
    rw [sends.src, request]
    exact ⟨ne, es, votes_step h led⟩

/-- A node that was accepting before the step does not lead after it. -/
theorem apart_kept (latched : Latched s) (reigns : Reigns s) (h : step cfg s a = some s')
    {i : Nat} (busy : s.accepting i ≠ none) : ¬ s'.leads i := by
  intro leads
  have core := (step_busy latched h).1 i busy
  have state : (s'.nodes i).m_state = (s.nodes i).m_state := congrArg VoteCore.state core
  exact reigns.apart i busy (state.symm.trans leads)

end Reigns

theorem reigns_step {cfg : Config} {s s' : Cluster} {a : Action} (odd : Odd cfg.size)
    (elections : ElectionsOk cfg s) (latched : Latched s) (reigns : Reigns s) (noWrap : NoWrap s a)
    (h : step cfg s a = some s') : Reigns s' := by
  have sent := reigns.sent_step elections h
  refine ⟨sent, fun i busy => ?_⟩
  have kept := fun busy => reigns.apart_kept latched h (i := i) busy
  have fewer : ∀ v, s'.accepting = Function.update s.accepting v none → ¬ s'.leads i := by
    intro v accepting
    rw [accepting] at busy
    by_cases at_ : i = v
    · subst at_
      rw [Function.update_self] at busy
      exact absurd rfl busy
    · rw [Function.update_of_ne at_] at busy
      exact kept busy
  cases step_logStep h with
  | still _ accepting _ _ => exact kept (accepting ▸ busy)
  | win _ _ _ _ _ _ _ _ _ accepting _ _ _ _ => exact kept (accepting ▸ busy)
  | register _ _ _ _ _ _ accepting _ _ => exact kept (accepting ▸ busy)
  | send _ _ _ _ accepting _ _ => exact kept (accepting ▸ busy)
  | answer _ _ _ _ _ _ _ _ _ _ accepting _ _ => exact kept (accepting ▸ busy)
  | accept k call _ found _ _ term _ _ accepting calls _ =>
      by_cases at_ : i = call.dst
      · subst at_
        intro leads
        have after := electionsOk_step elections noWrap h
        obtain ⟨es, own⟩ := (after.ballots call.dst).crowned leads
        obtain ⟨ne, es', led⟩ := sent call (calls ▸ List.mem_of_getElem? found)
        rw [← term] at led
        exact ne (leader_unique after odd own led)
      · rw [accepting, Function.update_of_ne at_] at busy
        exact kept busy
  | reject v _ _ _ _ _ _ _ _ accepting _ _ => exact fewer v accepting
  | append v _ _ _ _ _ _ _ _ _ _ accepting _ _ => exact fewer v accepting

structure Ruled (cfg : Config) (s : Cluster) : Prop where
  elections : ElectionsOk cfg s
  latched : Latched s
  reigns : Reigns s

theorem ruled_initial (cfg : Config) : Ruled cfg {} := by
  constructor
  · exact electionsOk_initial cfg
  · intro i busy
    exact absurd rfl busy
  · exact reigns_initial

theorem ruled_step {cfg : Config} {s s' : Cluster} {a : Action} (odd : Odd cfg.size)
    (ruled : Ruled cfg s) (noWrap : NoWrap s a) (h : step cfg s a = some s') :
    Ruled cfg s' := by
  obtain ⟨elections, latched, reigns⟩ := ruled
  constructor
  · exact electionsOk_step elections noWrap h
  · exact (step_busy latched h).2
  · exact reigns_step odd elections latched reigns noWrap h

theorem leader_prefix_step {cfg : Config} {s s' : Cluster} {a : Action} (ruled : Ruled cfg s)
    {i : Nat} (leads : s.leads i) (h : step cfg s a = some s') : s.entries i <+: s'.entries i := by
  have grown : ∀ v e, s'.entries = Function.update s.entries v (s.entries v ++ [e]) →
      s.entries i <+: s'.entries i := by
    intro v e entries
    rw [entries]
    by_cases at_ : i = v
    · subst at_
      rw [Function.update_self]
      exact List.prefix_append _ _
    · rw [Function.update_of_ne at_]
  cases step_logStep h with
  | still entries _ _ _ => rw [entries]
  | win _ call _ _ _ _ _ _ entries _ _ _ _ _ => exact grown call.src _ entries
  | register v _ _ _ _ entries _ _ _ => exact grown v _ entries
  | send _ _ _ entries _ _ _ => rw [entries]
  | answer _ _ _ _ _ _ _ _ _ entries _ _ _ => rw [entries]
  | accept _ _ _ _ _ _ _ _ entries _ _ _ => rw [entries]
  | reject _ _ _ _ _ _ _ _ entries _ _ _ => rw [entries]
  | append v k _ params _ _ busy _ _ _ entries _ _ _ =>
      -- the only step that cuts a log, at a node that is accepting
      have ne : i ≠ v := by
        rintro rfl
        exact ruled.reigns.apart i (by rw [busy]; simp) leads
      rw [entries, Function.update_of_ne ne]

/-- Node `i` is leader in term `T`. -/
def Reigning (i T : Nat) (s : Cluster) : Prop :=
  (s.nodes i).m_state = .Leader ∧ (s.nodes i).m_currentTerm = T

instance (i T : Nat) (s : Cluster) : Decidable (Reigning i T s) :=
  inferInstanceAs (Decidable (_ ∧ _))

/-- In a run of an odd number of nodes where no term wraps, the log of a node only
grows at its end as long as the node leads in one term. -/
theorem leader_only_appends {cfg : Config} (odd : Odd cfg.size) {as bs : List Action}
    {s t : Cluster} (run : Run (step cfg) NoWrap {} as s) {i T : Nat}
    (reign : Run (step cfg) (fun u a => NoWrap u a ∧ Reigning i T u) s bs t) :
    s.entries i <+: t.entries i := by
  have ruled : Ruled cfg s := run.invariant (ruled_initial cfg)
    fun _ _ _ ruled noWrap next => ruled_step odd ruled noWrap next
  apply reign.relates_of (P := Ruled cfg) ruled
  · intro u a v ruled allowed next
    exact ruled_step odd ruled allowed.1 next
  · intro u
    exact List.prefix_rfl
  · intro u v w
    exact List.IsPrefix.trans
  · intro u a v ruled allowed next
    exact leader_prefix_step ruled allowed.2.1 next

/-- Node 0 appends a registration in its term. -/
theorem registration_appended : ∃ s t, Reigning 0 1 s ∧ Reigning 0 1 t ∧
    s.entries 0 <+: t.entries 0 ∧ (t.entries 0).length = (s.entries 0).length + 1 := by
  have done : ((exec (guarded (step threeNodes) NoWrap) {} (zeroElected ++ roundToOne 0 0)).bind
      fun s => (exec (guarded (step threeNodes) fun u a => NoWrap u a ∧ Reigning 0 1 u) s
        [.clientMsg 0 .RPC_SERVER_INIT [⟨"f", "ip", 80⟩], .testNoOp 0, .lockLog 0 0,
          .decodeTriple 0]).map fun t => decide (Reigning 0 1 s ∧ Reigning 0 1 t ∧
            (t.entries 0).length = (s.entries 0).length + 1)) = some true := by decide +kernel
  obtain ⟨s, first, rest⟩ := Option.bind_eq_some_iff.mp done
  obtain ⟨t, second, seen⟩ := Option.map_eq_some_iff.mp rest
  obtain ⟨before, after, longer⟩ := of_decide_eq_true seen
  exact ⟨s, t, before, after,
    leader_only_appends threeNodes_odd (.of_guarded first) (.of_guarded second), longer⟩

def Cluster.bare (s : Cluster) : Cluster := { s with history := [] }

theorem step_bare (cfg : Config) (s : Cluster) (a : Action) :
    (step cfg s.bare a).map bare = (step cfg s a).map bare := by
  have bind {α : Type} (o : Option α) (f g : α → Option Cluster)
      (same : ∀ x, (f x).map bare = (g x).map bare) :
      (o.bind f).map bare = (o.bind g).map bare := by
    cases o with
    | none => rfl
    | some x => exact same x
  have ite (c : Prop) [Decidable c] (f g : Option Cluster) (same : f.map bare = g.map bare) :
      (if c then f else none).map bare = (if c then g else none).map bare := by
    split
    · exact same
    · rfl
  have map {α : Type} (o : Option α) (f g : α → Cluster) (same : ∀ x, (f x).bare = (g x).bare) :
      (o.map f).map bare = (o.map g).map bare := by
    cases o with
    | none => rfl
    | some x => exact congrArg some (same x)
  cases a with
  | connect i j => exact ite _ _ _ rfl
  | electionTimer i => exact ite _ _ _ rfl
  | startElection i => exact ite _ _ _ rfl
  | raftVote k => exact bind _ _ _ fun call => ite _ _ _ rfl
  | voteTimeout k => exact bind _ _ _ fun call => ite _ _ _ rfl
  | voteReply k =>
      exact bind _ _ _ fun call => bind _ _ _ fun rets => ite _ _ _ (map _ _ _ fun r => rfl)
  | heartbeat i j => exact ite _ _ _ rfl
  | replicateSend i l =>
      apply bind
      intro loop
      apply ite
      simp only [apply_ite (Option.map bare), Option.map_some, Option.map_none]
      rfl
  | replicateTimeout i l =>
      apply bind
      intro loop
      cases loop.pc <;> rfl
  | replicateReply i l =>
      apply bind
      intro loop
      cases loop.pc with
      | waiting k => exact bind _ _ _ fun call => bind _ _ _ fun rets => ite _ _ _ rfl
      | top => rfl
      | done => rfl
  | appendEntries k =>
      apply bind
      intro call
      apply ite
      cases did : ((s.nodes call.dst).appendEntries call.request).2 <;>
        simp [bare, did, put, setAppendCall]
  | appendEntriesEnd i =>
      simp only [step, bare]
      cases (s.nodes i).run with
      | appendEntries k params => exact bind _ _ _ fun call => map _ _ _ fun r => rfl
      | _ => rfl
  | applyRound i => exact ite _ _ _ (map _ _ _ fun r => rfl)
  | clientMsg i type triples => exact ite _ _ _ rfl
  | testNoOp i =>
      simp only [step, bare]
      cases (s.nodes i).run <;> rfl
  | lockLog i garbage =>
      simp only [step, bare]
      cases (s.nodes i).run <;> rfl
  | decodeTriple i =>
      simp only [step, bare]
      cases (s.nodes i).run with
      | decoding triples index assigned => exact map _ _ _ fun r => rfl
      | _ => rfl
  | testApplied i =>
      simp only [step, bare]
      cases (s.nodes i).run <;> rfl
  | respond i =>
      simp only [step, bare]
      cases (s.nodes i).run <;> rfl

/-- A reign of node `i` goes the same way whatever the history before it. -/
theorem reign_of_bare {cfg : Config} {i T : Nat} {as : List Action} {s t u : Cluster}
    (same : s.bare = t.bare)
    (done : exec (guarded (step cfg) fun v _ => Reigning i T v) t as = some u) :
    ∃ v, Run (step cfg) (fun v _ => Reigning i T v) s as v ∧ v.bare = u.bare := by
  induction as generalizing s t with
  | nil =>
      cases done
      exact ⟨s, .refl, same⟩
  | cons a as ih =>
      obtain ⟨w, next, rest⟩ := Option.bind_eq_some_iff.mp done
      obtain ⟨reigns, next⟩ := Option.ite_none_right_eq_some.mp next
      have both : (step cfg s a).map bare = some w.bare := by
        rw [← step_bare, same, step_bare, next, Option.map_some]
      obtain ⟨x, moved, bare⟩ := Option.map_eq_some_iff.mp both
      obtain ⟨v, run, ends⟩ := ih bare rest
      have nodes : s.bare.nodes = t.bare.nodes := by rw [same]
      change s.nodes = t.nodes at nodes
      have here : Reigning i T s := by rwa [Reigning, nodes]
      have first : Run (step cfg) (fun v _ => Reigning i T v) s [a] x := .single here moved
      exact ⟨v, first.trans run, ends⟩

/-- A candidate after `n` further election timers. -/
def RaftNode.fired (nd : RaftNode) (n : Nat) : RaftNode :=
  { nd with
    m_currentTerm := u64 (nd.m_currentTerm + n)
    pendingElections := nd.pendingElections + n }

/-- The election timer of a candidate fires again and again while node 0 leads. -/
theorem timers_fire {cfg : Config} {s : Cluster} {i T : Nat} (inside : i < cfg.size) (ne : i ≠ 0)
    (free : (s.nodes i).m_raft_mutex = false) (stands : (s.nodes i).m_state = .Candidate)
    (self : (s.nodes i).m_votedFor = i) (unknown : (s.nodes i).m_leaderId = noNode)
    (term : (s.nodes i).m_currentTerm < 2 ^ 64) (reigns : Reigning 0 T s) (n : Nat) :
    ∃ t, Run (step cfg) (fun u _ => Reigning 0 T u) s (List.replicate n (.electionTimer i)) t ∧
      t.bare = { s.bare with nodes := Function.update s.nodes i ((s.nodes i).fired n) } := by
  induction n with
  | zero =>
      refine ⟨s, .refl, ?_⟩
      have still : (s.nodes i).fired 0 = s.nodes i := by
        rw [RaftNode.fired, Nat.add_zero, u64_of_lt term, Nat.add_zero]
      rw [still, Function.update_eq_self]
      rfl
  | succ n ih =>
      obtain ⟨t, run, ends⟩ := ih
      have nodes : t.nodes = Function.update s.nodes i ((s.nodes i).fired n) :=
        congrArg Cluster.nodes ends
      have here : t.nodes i = (s.nodes i).fired n := by rw [nodes, Function.update_self]
      have reign : Reigning 0 T t := by
        rwa [Reigning, nodes, Function.update_of_ne ne.symm]
      have stands' : (t.nodes i).m_state ≠ .Leader := by
        rw [here]
        exact ne_of_eq_of_ne stands (by decide)
      have fires : (t.nodes i).electionTimer i = (s.nodes i).fired (n + 1) := by
        rw [RaftNode.electionTimer, if_pos stands', here, RaftNode.fired, RaftNode.fired]
        simp only [u64, Nat.mod_add_mod, Nat.add_assoc]
        rw [← stands, ← unknown]
        congr
        exact self.symm
      have unlocked : (t.nodes i).m_raft_mutex = false := by
        rw [here]
        exact free
      rw [List.replicate_succ']
      refine ⟨_, run.snoc reign (step_electionTimer.mpr ⟨⟨inside, unlocked⟩, rfl⟩), ?_⟩
      have bare : (t.put i ((s.nodes i).fired (n + 1))).bare =
          { t.bare with nodes := Function.update t.nodes i ((s.nodes i).fired (n + 1)) } := rfl
      rw [fires]
      change (t.put i ((s.nodes i).fired (n + 1))).bare = _
      rw [bare, ends, nodes, Function.update_idem]

/-- Node 0 leads term 1 with a registration that is on no other node. Node 1 stands for
election and node 2 has heard of no term. -/
def zeroHolds : List Action :=
  zeroRegisters ++ [.testApplied 0, .respond 0, .electionTimer 1]

/-- Node 1 is back in term 1, wins it with the vote of node 2 and sends its no-op. -/
def oneOverwrites : List Action :=
  [.startElection 1, .raftVote 3, .voteReply 3, .replicateSend 1 0, .appendEntries 1,
    .appendEntriesEnd 0]

/-- After `2^64` elections node 1 leads term 1 a second time, next to node 0, and has
node 0 drop the registration. -/
theorem wrapped_term_overwrites : ¬ ∀ as bs s t, Run (step threeNodes) Always {} as s →
    Run (step threeNodes) (fun u _ => Reigning 0 1 u) s bs t → s.entries 0 <+: t.entries 0 := by
  have done : ((exec (step threeNodes) {} zeroHolds).bind fun s =>
      (exec (guarded (step threeNodes) fun u _ => Reigning 0 1 u)
        { s.bare with nodes := Function.update s.nodes 1 ((s.nodes 1).fired (2 ^ 64 - 1)) }
        oneOverwrites).map fun t => decide (1 < threeNodes.size ∧ 1 ≠ 0 ∧
          ((s.nodes 1).m_raft_mutex = false ∧ (s.nodes 1).m_state = .Candidate) ∧
          ((s.nodes 1).m_votedFor = 1 ∧ (s.nodes 1).m_leaderId = noNode) ∧
          (s.nodes 1).m_currentTerm < 2 ^ 64 ∧ Reigning 0 1 s ∧
          ¬ s.entries 0 <+: t.entries 0)) = some true := by decide +kernel
  obtain ⟨s, first, rest⟩ := Option.bind_eq_some_iff.mp done
  obtain ⟨t, second, seen⟩ := Option.map_eq_some_iff.mp rest
  obtain ⟨inside, ne, ⟨free, stands⟩, ⟨self, unknown⟩, term, reigns, lost⟩ :=
    of_decide_eq_true seen
  obtain ⟨u, wrap, bare⟩ := timers_fire inside ne free stands self unknown term reigns (2 ^ 64 - 1)
  obtain ⟨v, last, ends⟩ := reign_of_bare bare second
  intro claim
  have kept := claim _ _ s v (.of_exec first) (wrap.trans last)
  have same : v.bare.entries 0 = t.bare.entries 0 := by rw [ends]
  change v.entries 0 = t.entries 0 at same
  exact lost (same ▸ kept)

end CRpc.Raft
