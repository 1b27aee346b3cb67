import CRpc.Coroutine.Timer
import CRpc.Raft.Appends

/-! The two timers of a node and its role: which of them its handlers stop and wake. -/
namespace CRpc.Raft

open Transition

/-- `m_electionTimer` and `m_heartbeatTimer`. -/
inductive RoleTimer
  | election | heartbeat
  deriving DecidableEq

/-- What the handlers call on a timer; the election timer gets a random interval. -/
inductive RoleCall
  | stop (t : RoleTimer)
  | wake (t : RoleTimer)
  | resetTime (t : RoleTimer) (interval : Nat)

/-- What a call does to the two `m_is_stoped`. -/
def RoleCall.flags (stoped : RoleTimer → Bool) : RoleCall → RoleTimer → Bool
  | .stop t => Function.update stoped t true
  | .wake t => Function.update stoped t false
  | .resetTime _ _ => stoped

namespace RaftNode

def stoped (nd : RaftNode) : RoleTimer → Bool
  | .election => nd.electionStoped
  | .heartbeat => nd.heartbeatStoped

/-- The calls of the block that makes a node a follower; two of its four copies stop the one
timer before they wake the other. -/
def becomeFollowerCalls (stopsFirst : Bool) (nd : RaftNode) : List RoleCall :=
  if nd.m_state = .Leader then
    if stopsFirst then [.stop .heartbeat, .wake .election]
    else [.wake .election, .stop .heartbeat]
  else []

def startElectionCalls (random : Nat) : List RoleCall := [.resetTime .election random]

def voteReplyCalls (cfg : Config) (nd : RaftNode) (election : Nat) (result : RaftVoteRets) :
    List RoleCall :=
  if nd.m_currentTerm = result.term ∧ nd.m_state = .Candidate then
    if nd.wins cfg election result then [.stop .election, .wake .heartbeat] else []
  else if nd.m_currentTerm < result.term then nd.becomeFollowerCalls true
  else []

def replicateReplyCalls (nd : RaftNode) (result : AppendEntriesRets) : List RoleCall :=
  if nd.m_state ≠ .Leader then []
  else if nd.m_currentTerm < result.term then nd.becomeFollowerCalls false
  else []

def raftVoteCalls (nd : RaftNode) (params : RaftVoteParams) (random : Nat) : List RoleCall :=
  if params.term < nd.m_currentTerm ∨
      (params.term = nd.m_currentTerm ∧ nd.m_votedFor ≠ params.candidateId) then []
  else
    (if nd.m_currentTerm < params.term then nd.becomeFollowerCalls true else []) ++
    if nd.m_raft_logger.is_newer params.lastLogTerm params.lastLogIndex
      then [.resetTime .election random] else []

def appendEntriesCalls (nd : RaftNode) (params : AppendEntriesParams) (random : Nat) :
    List RoleCall :=
  if params.term < nd.m_currentTerm then []
  else
    (if nd.m_currentTerm < params.term ∨
        (params.term = nd.m_currentTerm ∧ nd.m_state = .Candidate)
      then nd.becomeFollowerCalls false else []) ++ [.resetTime .election random]

/-- A leader's heartbeat timer runs, everybody else's election timer does. -/
def TimersFollow (nd : RaftNode) : Prop :=
  (nd.m_state = .Leader ↔ nd.stoped .heartbeat = false) ∧
    (nd.m_state = .Leader ↔ nd.stoped .election = true)

/-- A handler sets the flags its calls set, and keeps the timers with the role. -/
structure Turns (nd nd' : RaftNode) (calls : List RoleCall) : Prop where
  flags : nd'.stoped = calls.foldl RoleCall.flags nd.stoped
  follow : nd.TimersFollow → nd'.TimersFollow

variable {nd nd' : RaftNode}

theorem Turns.of_same (flags : nd'.stoped = nd.stoped)
    (state : nd'.m_state = .Leader ↔ nd.m_state = .Leader) : Turns nd nd' [] where
  flags := flags
  follow := fun follow => by rwa [TimersFollow, flags, state]

theorem Turns.keeps {calls : List RoleCall} {next : RaftNode} (turns : Turns nd nd' calls)
    (flags : next.stoped = nd'.stoped) (state : next.m_state = nd'.m_state) :
    Turns nd next calls where
  flags := flags.trans turns.flags
  follow := fun follow => by
    have := turns.follow follow
    rwa [TimersFollow, ← flags, ← state] at this

theorem Turns.resets {calls : List RoleCall} (turns : Turns nd nd' calls) (random : Nat) :
    Turns nd nd' (calls ++ [.resetTime .election random]) where
  flags := by
    rw [List.foldl_append]
    exact turns.flags
  follow := turns.follow

theorem becomeFollower_turns (stopsFirst : Bool) (nd : RaftNode) (term leaderId : Nat) :
    Turns nd (nd.becomeFollower term leaderId) (nd.becomeFollowerCalls stopsFirst) := by
  by_cases leads : nd.m_state = .Leader
  · have flags : (nd.becomeFollower term leaderId).stoped = fun
        | .election => false
        | .heartbeat => true := by
      funext t
      cases t <;> simp [stoped, becomeFollower, leads]
    constructor
    · rw [flags, becomeFollowerCalls, if_pos leads]
      funext t
      cases stopsFirst <;> cases t <;> rfl
    · intro _
      rw [TimersFollow, flags]
      have follows : (nd.becomeFollower term leaderId).m_state ≠ .Leader :=
        fun leads => by cases leads
      exact ⟨iff_of_false follows Bool.noConfusion, iff_of_false follows Bool.noConfusion⟩
  · have flags : (nd.becomeFollower term leaderId).stoped = nd.stoped := by
      funext t
      cases t <;> simp [stoped, becomeFollower, leads]
    rw [becomeFollowerCalls, if_neg leads]
    exact .of_same flags (iff_of_false (fun follows => by cases follows) leads)

theorem electionTimer_turns (m_id : Nat) (nd : RaftNode) : Turns nd (nd.electionTimer m_id) [] := by
  unfold electionTimer
  split_ifs with follows
  · exact .of_same rfl (iff_of_false nofun follows)
  · exact .of_same rfl Iff.rfl

theorem startElection_turns (m_id : Nat) (nd : RaftNode) (random : Nat) :
    Turns nd (nd.startElection m_id).1 (startElectionCalls random) :=
  ((Turns.of_same rfl Iff.rfl : Turns nd nd []).resets random).keeps rfl rfl

theorem voteReply_turns {cfg : Config} {m_id election : Nat} {result : RaftVoteRets}
    {r : RaftNode × List Event} (h : nd.voteReply cfg m_id election result = some r) :
    Turns nd r.1 (nd.voteReplyCalls cfg election result) := by
  have start : Turns nd nd [] := .of_same rfl Iff.rfl
  unfold voteReply at h
  unfold voteReplyCalls
  by_cases current : nd.m_currentTerm = result.term ∧ nd.m_state = .Candidate
  · rw [if_pos current] at h ⊢
    by_cases won : nd.wins cfg election result
    · rw [if_pos won.2.1, if_pos won] at h
      rw [if_pos won]
      obtain ⟨next, leads, rfl⟩ := Option.map_eq_some_iff.mp h
      unfold becomeLeader at leads
      split at leads
      · cases leads
      · cases leads
        constructor
        · funext t
          cases t <;> rfl
        · exact fun _ => ⟨iff_of_true rfl rfl, iff_of_true rfl rfl⟩
    · rw [if_neg won] at h ⊢
      split_ifs at h
      · cases h
        exact start.keeps rfl rfl
      · cases h
        exact start
  · rw [if_neg current] at h ⊢
    split_ifs at h ⊢
    · cases h
      exact becomeFollower_turns true nd result.term noNode
    · cases h
      exact start

theorem replicateReply_turns (cfg : Config) (m_id nodeId : Nat) (nd : RaftNode)
    (result : AppendEntriesRets) :
    Turns nd (nd.replicateReply cfg m_id nodeId result).1 (nd.replicateReplyCalls result) := by
  have start : Turns nd nd [] := .of_same rfl Iff.rfl
  unfold replicateReply replicateReplyCalls commitReplicated
  dsimp only
  split_ifs
  · exact start
  · exact becomeFollower_turns false nd result.term noNode
  all_goals exact start.keeps rfl rfl

theorem raftVote_turns (nd : RaftNode) (params : RaftVoteParams) (random : Nat) :
    Turns nd (nd.raftVote params).1 (nd.raftVoteCalls params random) := by
  have start : Turns nd nd [] := .of_same rfl Iff.rfl
  have down := becomeFollower_turns true nd params.term params.candidateId
  have same : (nd.becomeFollower params.term params.candidateId).m_raft_logger =
    nd.m_raft_logger := rfl
  unfold raftVote raftVoteCalls
  by_cases stale : params.term < nd.m_currentTerm ∨
      (params.term = nd.m_currentTerm ∧ nd.m_votedFor ≠ params.candidateId)
  · rw [if_pos stale, if_pos stale]
    exact start.keeps rfl rfl
  · rw [if_neg stale, if_neg stale]
    by_cases higher : nd.m_currentTerm < params.term
    · simp only [if_pos higher, same]
      split_ifs
      · exact (down.resets random).keeps rfl rfl
      · rw [List.append_nil]
        exact down.keeps rfl rfl
    · simp only [if_neg higher]
      split_ifs
      · exact (start.resets random).keeps rfl rfl
      · exact start.keeps rfl rfl

theorem appendEntries_turns {params : AppendEntriesParams} {rets : AppendEntriesRets}
    (h : (NodeCode.appendEntries params).run nd = some (rets, nd')) (random : Nat) :
    Turns nd nd' (nd.appendEntriesCalls params random) := by
  have start : Turns nd nd [] := .of_same rfl Iff.rfl
  have down := becomeFollower_turns false nd params.term params.leaderId
  have first : Turns nd (nd.appendEntries params).1 (nd.appendEntriesCalls params random) := by
    unfold appendEntries appendEntriesCalls
    by_cases stale : params.term < nd.m_currentTerm
    · rw [if_pos stale, if_pos stale]
      exact start.keeps rfl rfl
    · simp only [if_neg stale, Nat.not_lt_zero, if_false]
      split_ifs
      · exact (down.resets random).keeps rfl rfl
      · exact (start.resets random).keeps rfl rfl
      · exact (down.resets random).keeps rfl rfl
      · exact (start.resets random).keeps rfl rfl
  rcases handled_cases h with replied | ⟨r, -, did, -, rfl⟩
  · rwa [replied] at first
  · obtain ⟨_, _, rfl⟩ := Option.map_eq_some_iff.mp did
    exact first.keeps rfl rfl

end RaftNode

/-- A node and the timer that holds its two events, by their numbers. -/
structure TimedNode where
  node : RaftNode := {}
  timer : Timer
  now : Nat
  event : RoleTimer → Nat

/-- What a node's own code does to its role and its timers, and what happens besides: other
coroutines of the node, the clock, the scheduler's polls and other events. -/
inductive RoleAction
  | electionTimer
  | startElection (random : Nat)
  | voteReply (election : Nat) (result : RaftVoteRets)
  | replicateReply (nodeId : Nat) (result : AppendEntriesRets)
  | raftVote (params : RaftVoteParams) (random : Nat)
  | appendEntries (params : AppendEntriesParams) (random : Nat)
  | elsewhere (nd : RaftNode)
  | tick
  | getExpiredcbs (now : Nat)
  | addTimeEvent (now interval : Nat) (is_repeated : Bool)
  | cancel (e : Nat)
  | resetTime (e : Nat)

namespace TimedNode

def constructed (timer : Timer) (now random : Nat) : TimedNode where
  timer := ((timer.addTimeEvent now random true).addTimeEvent now 300 true).stop (timer.created + 1)
  now := now
  event
    | .election => timer.created
    | .heartbeat => timer.created + 1

def call (s : TimedNode) : RoleCall → TimedNode
  | .stop t => { s with timer := s.timer.stop (s.event t) }
  | .wake t => { s with timer := s.timer.wake (s.event t) }
  | .resetTime t interval => { s with timer := s.timer.resetTimeTo s.now (s.event t) interval }

/-- A handler's critical section: what it makes of the node, and its calls. -/
def turn (s : TimedNode) (nd : RaftNode) (calls : List RoleCall) : TimedNode :=
  { calls.foldl call s with node := nd }

def other (s : TimedNode) (e : Nat) : Bool := e ≠ s.event .election && e ≠ s.event .heartbeat

def step (cfg : Config) (m_id : Nat) (s : TimedNode) : RoleAction → Option TimedNode
  | .electionTimer => some (s.turn (s.node.electionTimer m_id) [])
  | .startElection random =>
      some (s.turn (s.node.startElection m_id).1 (RaftNode.startElectionCalls random))
  | .voteReply election result => (s.node.voteReply cfg m_id election result).map fun r =>
      s.turn r.1 (s.node.voteReplyCalls cfg election result)
  | .replicateReply nodeId result =>
      some (s.turn (s.node.replicateReply cfg m_id nodeId result).1
        (s.node.replicateReplyCalls result))
  | .raftVote params random =>
      some (s.turn (s.node.raftVote params).1 (s.node.raftVoteCalls params random))
  | .appendEntries params random => ((NodeCode.appendEntries params).run s.node).map fun r =>
      s.turn r.2 (s.node.appendEntriesCalls params random)
  | .elsewhere nd =>
      if nd.m_state = s.node.m_state ∧ nd.stoped .election = s.node.stoped .election ∧
          nd.stoped .heartbeat = s.node.stoped .heartbeat then some { s with node := nd }
      else none
  | .tick => some { s with now := s.now + 1 }
  | .getExpiredcbs now => some { s with timer := (s.timer.getExpiredcbs now).1 }
  | .addTimeEvent now interval is_repeated =>
      some { s with timer := s.timer.addTimeEvent now interval is_repeated }
  | .cancel e => if s.other e then some { s with timer := s.timer.cancel e } else none
  | .resetTime e => if s.other e then some { s with timer := s.timer.resetTime s.now e } else none

/-- The events of the node are two, their flags are those the handlers set, and they follow
the role. -/
structure Follows (s : TimedNode) : Prop where
  created : ∀ t, s.event t < s.timer.created
  apart : s.event .election ≠ s.event .heartbeat
  shows : ∀ t, (s.timer.event (s.event t)).m_is_stoped = s.node.stoped t
  follow : s.node.TimersFollow

theorem follows_constructed (timer : Timer) (now random : Nat) :
    (constructed timer now random).Follows where
  created := fun t => by
    cases t with
    | election => exact Nat.lt_succ_of_lt (Nat.lt_succ_self _)
    | heartbeat => exact Nat.lt_succ_self _
  apart := Nat.ne_of_lt (Nat.lt_succ_self _)
  shows := fun t => by
    cases t with
    | election => simp [constructed, Timer.stop, Timer.addTimeEvent, Timer.set, RaftNode.stoped]
    | heartbeat => simp [constructed, Timer.stop, Timer.addTimeEvent, Timer.set, RaftNode.stoped]
  follow := ⟨iff_of_false nofun nofun, iff_of_false nofun nofun⟩

variable {cfg : Config} {m_id : Nat} {s s' : TimedNode}

theorem call_frame (s : TimedNode) (c : RoleCall) :
    (s.call c).event = s.event ∧ (s.call c).timer.created = s.timer.created := by
  cases c with
  | stop t => exact ⟨rfl, rfl⟩
  | wake t => exact ⟨rfl, rfl⟩
  | resetTime t interval => exact ⟨rfl, Timer.created_resetTimeTo _ _ _ _⟩

def shown (s : TimedNode) (t : RoleTimer) : Bool := (s.timer.event (s.event t)).m_is_stoped

theorem event_inj (apart : s.event .election ≠ s.event .heartbeat) {t u : RoleTimer}
    (ne : u ≠ t) : s.event u ≠ s.event t := by
  cases t <;> cases u
  · exact absurd rfl ne
  · exact apart.symm
  · exact apart
  · exact absurd rfl ne

theorem call_shown (apart : s.event .election ≠ s.event .heartbeat) (c : RoleCall) :
    (s.call c).shown = c.flags s.shown := by
  funext u
  cases c with
  | stop t =>
    by_cases same : u = t
    · subst same
      simp [shown, call, Timer.stop, RoleCall.flags]
    · simp [shown, call, Timer.stop, RoleCall.flags, same,
        Timer.event_set_ne _ _ (event_inj apart same)]
  | wake t =>
    by_cases same : u = t
    · subst same
      simp [shown, call, Timer.wake, RoleCall.flags]
    · simp [shown, call, Timer.wake, RoleCall.flags, same,
        Timer.event_set_ne _ _ (event_inj apart same)]
  | resetTime t interval => exact Timer.resetTimeTo_stoped _ _ _ _ _

theorem calls_frame (s : TimedNode) (calls : List RoleCall) :
    (calls.foldl call s).event = s.event ∧
      (calls.foldl call s).timer.created = s.timer.created := by
  induction calls generalizing s with
  | nil => exact ⟨rfl, rfl⟩
  | cons c calls ih =>
    obtain ⟨event, created⟩ := s.call_frame c
    exact ⟨(ih _).1.trans event, (ih _).2.trans created⟩

theorem calls_shown (apart : s.event .election ≠ s.event .heartbeat) (calls : List RoleCall) :
    (calls.foldl call s).shown = calls.foldl RoleCall.flags s.shown := by
  induction calls generalizing s with
  | nil => rfl
  | cons c calls ih =>
    rw [List.foldl_cons, List.foldl_cons, ← call_shown apart c]
    apply ih
    rwa [(s.call_frame c).1]

theorem Follows.turn (follows : s.Follows) {nd : RaftNode} {calls : List RoleCall}
    (turns : RaftNode.Turns s.node nd calls) : (s.turn nd calls).Follows := by
  obtain ⟨event, created⟩ := s.calls_frame calls
  constructor
  · intro t
    change (calls.foldl call s).event t < (calls.foldl call s).timer.created
    rw [event, created]
    exact follows.created t
  · change (calls.foldl call s).event _ ≠ (calls.foldl call s).event _
    rw [event]
    exact follows.apart
  · intro t
    have before : s.shown = s.node.stoped := funext follows.shows
    have after : (calls.foldl call s).shown = nd.stoped := by
      rw [calls_shown follows.apart, before, turns.flags]
    exact congrFun after t
  · exact turns.follow follows.follow

/-- A change of the timer alone has to leave the flags of the two events. -/
theorem Follows.timer (follows : s.Follows) {timer : Timer} {now : Nat}
    (created : s.timer.created ≤ timer.created)
    (stoped : ∀ t, (timer.event (s.event t)).m_is_stoped =
      (s.timer.event (s.event t)).m_is_stoped) :
    Follows { s with timer := timer, now := now } where
  created := fun t => Nat.lt_of_lt_of_le (follows.created t) created
  apart := follows.apart
  shows := fun t => (stoped t).trans (follows.shows t)
  follow := follows.follow

theorem follows_step (follows : s.Follows) {a : RoleAction} (h : step cfg m_id s a = some s') :
    s'.Follows := by
  cases a with
  | electionTimer =>
    cases h
    exact follows.turn (RaftNode.electionTimer_turns m_id s.node)
  | startElection random =>
    cases h
    exact follows.turn (RaftNode.startElection_turns m_id s.node random)
  | voteReply election result =>
    obtain ⟨r, replied, rfl⟩ := Option.map_eq_some_iff.mp h
    exact follows.turn (RaftNode.voteReply_turns replied)
  | replicateReply nodeId result =>
    cases h
    exact follows.turn (RaftNode.replicateReply_turns cfg m_id nodeId s.node result)
  | raftVote params random =>
    cases h
    exact follows.turn (RaftNode.raftVote_turns s.node params random)
  | appendEntries params random =>
    obtain ⟨⟨rets, nd⟩, ran, rfl⟩ := Option.map_eq_some_iff.mp h
    exact follows.turn (RaftNode.appendEntries_turns ran random)
  | elsewhere nd =>
    simp only [step, Option.ite_none_right_eq_some, Option.some.injEq] at h
    obtain ⟨⟨state, election, heartbeat⟩, rfl⟩ := h
    have flags : nd.stoped = s.node.stoped := by
      funext t
      cases t with
      | election => exact election
      | heartbeat => exact heartbeat
    exact ⟨follows.created, follows.apart, fun t => (follows.shows t).trans (congrFun flags t).symm,
      (RaftNode.Turns.of_same flags (by rw [state])).follow follows.follow⟩
  | tick =>
    cases h
    exact follows.timer le_rfl fun _ => rfl
  | getExpiredcbs now =>
    cases h
    exact follows.timer (Timer.getExpiredcbs_settings s.timer now).created.ge fun _ =>
      Timer.getExpiredcbs_stoped s.timer now _
  | addTimeEvent now interval is_repeated =>
    cases h
    apply follows.timer (Nat.le_succ _)
    intro t
    have old : s.event t ≠ s.timer.created := Nat.ne_of_lt (follows.created t)
    rw [Timer.addTimeEvent, Timer.event_insert, Timer.event_set_ne _ _ old]
  | cancel e =>
    simp only [step, Option.ite_none_right_eq_some, Option.some.injEq, other, Bool.and_eq_true,
      decide_eq_true_eq] at h
    obtain ⟨⟨election, heartbeat⟩, rfl⟩ := h
    refine follows.timer le_rfl ?_
    intro t
    have old : s.event t ≠ e := by
      cases t with
      | election => exact election.symm
      | heartbeat => exact heartbeat.symm
    rw [Timer.cancel, Timer.event_set_ne _ _ old]
  | resetTime e =>
    simp only [step, Option.ite_none_right_eq_some, Option.some.injEq] at h
    obtain ⟨-, rfl⟩ := h
    exact follows.timer (Timer.created_resetTimeTo _ _ _ _).ge fun t =>
      Timer.resetTimeTo_stoped _ _ _ _ _

theorem timers_follow_role {timer : Timer} {now random : Nat} {as : List RoleAction}
    (run : Run (step cfg m_id) Always (constructed timer now random) as s) :
    (s.node.m_state = .Leader ↔ (s.timer.event (s.event .heartbeat)).m_is_stoped = false) ∧
      (s.node.m_state = .Leader ↔ (s.timer.event (s.event .election)).m_is_stoped = true) := by
  have follows : s.Follows := run.invariant (follows_constructed timer now random)
    fun _ _ _ kept _ next => follows_step kept next
  rw [follows.shows, follows.shows]
  exact follows.follow

/-- Node 0 wins term 1 with the vote of another node, and the old election event expires. -/
def zeroTakesOffice : List RoleAction :=
  [.tick, .electionTimer, .startElection 200, .voteReply 0 ⟨1, true⟩, .getExpiredcbs 400]

theorem leader_timers : ∃ s, exec (step threeNodes 0) (constructed {} 0 150) zeroTakesOffice =
      some s ∧ s.node.m_state = .Leader ∧
    (s.node.m_state = .Leader ↔ (s.timer.event (s.event .heartbeat)).m_is_stoped = false) ∧
    (s.node.m_state = .Leader ↔ (s.timer.event (s.event .election)).m_is_stoped = true) := by
  have done : (exec (step threeNodes 0) (constructed {} 0 150) zeroTakesOffice).map (fun s =>
      decide (s.node.m_state = .Leader)) = some true := by decide +kernel
  obtain ⟨s, run, leads⟩ := Option.map_eq_some_iff.mp done
  exact ⟨s, run, of_decide_eq_true leads, timers_follow_role (.of_exec run)⟩

end TimedNode

end CRpc.Raft
