import CRpc.Raft.Handlers

/-! Every piece of code that takes a mutex, and the mutexes it leaves locked. -/
namespace CRpc.Raft

open Cluster Transition

/-- The operations of `RaftLogger`, and a round of its apply coroutine. -/
inductive LogOp
  | is_newer (term index : Nat)
  | getLastApplied
  | getCommitIndex
  | setCommitIndex (index : Nat)
  | getLastTerm
  | getLastIndex
  | getEntry (index : Nat)
  | size
  | appendAfter (new_entry : Entry) (prevLogIndex prevLogTerm : Nat)
  | appendEntry (new_entry : Entry)
  | applyRound

namespace LogOp

/-- The log an operation returns with; there is none where it throws. -/
def run (l : RaftLogger) : LogOp → Option RaftLogger
  | .is_newer term index => ((LogCode.is_newer term index).run l).map Prod.snd
  | .getLastApplied => (LogCode.getLastApplied.run l).map Prod.snd
  | .getCommitIndex => (LogCode.getCommitIndex.run l).map Prod.snd
  | .setCommitIndex index => ((LogCode.setCommitIndex index).run l).map Prod.snd
  | .getLastTerm => (LogCode.getLastTerm.run l).map Prod.snd
  | .getLastIndex => (LogCode.getLastIndex.run l).map Prod.snd
  | .getEntry index => ((LogCode.getEntry index).run l).map Prod.snd
  | .size => (LogCode.size.run l).map Prod.snd
  | .appendAfter e index term => ((LogCode.appendAfter e index term).run l).map Prod.snd
  | .appendEntry e => ((LogCode.appendEntry e).run l).map Prod.snd
  | .applyRound => (LogCode.applyRound.run l).map Prod.snd

def Refused (l : RaftLogger) : LogOp → Prop
  | .appendAfter _ prevLogIndex prevLogTerm => l.matchPrev prevLogIndex prevLogTerm = none
  | _ => False

/-- A full vector, or an index beyond it. -/
def Throws (l : RaftLogger) : LogOp → Prop
  | .appendAfter _ prevLogIndex prevLogTerm =>
      ∃ p, l.matchPrev prevLogIndex prevLogTerm = some p ∧ maxEntries ≤ p + 1
  | .appendEntry _ => maxEntries ≤ l.m_entries.length
  | .applyRound => l.m_lastApplied < l.m_commitIndex ∧ l.m_entries.length ≤ l.m_lastApplied + 1
  | _ => False

theorem appendAfter_eq_none {l : RaftLogger} {e : Entry} {i t : Nat} :
    l.appendAfter e i t = none ↔ ∃ p, l.matchPrev i t = some p ∧ maxEntries ≤ p + 1 := by
  unfold RaftLogger.appendAfter
  cases l.matchPrev i t with
  | none => simp
  | some p => simp

theorem appendAfter_mutex {l l' : RaftLogger} {e : Entry} {i t : Nat} {success : Bool}
    (h : l.appendAfter e i t = some (l', success)) :
    l'.m_mutex = !success ∧ (success = false ↔ l.matchPrev i t = none) := by
  unfold RaftLogger.appendAfter at h
  cases found : l.matchPrev i t with
  | none =>
      simp [found] at h
      obtain ⟨rfl, rfl⟩ := h
      simp
  | some p =>
      simp [found] at h
      obtain ⟨-, rfl, rfl⟩ := h
      simp

theorem applyRound_mutex {l l' : RaftLogger} (h : l.applyRound = some l') :
    l'.m_mutex = l.m_mutex := by
  unfold RaftLogger.applyRound at h
  split_ifs at h
  · split at h
    · cases h
      rfl
    · cases h
  · cases h
    rfl

theorem run_none {l : RaftLogger} (free : l.m_mutex = false) (op : LogOp) :
    op.run l = none ↔ op.Throws l := by
  cases op with
  | appendAfter e i t =>
      simp only [run, Throws, LogCode.appendAfter_run, Option.map_eq_none_iff, appendAfter_eq_none]
  | appendEntry e =>
      simp [run, Throws, LogCode.appendEntry_run, RaftLogger.appendEntry]
  | applyRound =>
      rw [run, LogCode.applyRound_run l free]
      unfold RaftLogger.applyRound
      by_cases due : l.m_lastApplied < l.m_commitIndex
      · cases found : l.m_entries[l.m_lastApplied + 1]? with
        | none => simp [due, Throws, List.getElem?_eq_none_iff.mp found]
        | some e =>
            have inside := (List.getElem?_eq_some_iff.mp found).1
            simp [due, Throws, inside]
      · simp [due, Throws]
  | _ => exact iff_of_false (Option.some_ne_none _) not_false

theorem run_mutex {l l' : RaftLogger} (free : l.m_mutex = false) (op : LogOp)
    (h : op.run l = some l') : l'.m_mutex = false ↔ ¬ op.Refused l := by
  cases op with
  | is_newer term index =>
      cases h
      simp [Refused, free]
  | appendAfter e i t =>
      rw [run, LogCode.appendAfter_run, Option.map_map] at h
      obtain ⟨⟨l'', success⟩, appended, rfl⟩ := Option.map_eq_some_iff.mp h
      obtain ⟨mutex, refused⟩ := appendAfter_mutex appended
      change l''.m_mutex = false ↔ ¬ l.matchPrev i t = none
      rw [mutex, ← refused]
      cases success <;> simp
  | appendEntry e =>
      rw [run, LogCode.appendEntry_run, RaftLogger.appendEntry] at h
      split at h
      · cases h
        simp [Refused]
      · cases h
  | applyRound =>
      rw [run, LogCode.applyRound_run l free, Option.map_map] at h
      obtain ⟨l'', applied, rfl⟩ := Option.map_eq_some_iff.mp h
      simp [Refused, applyRound_mutex applied, free]
  | _ =>
      cases h
      simp [Refused]

end LogOp

namespace Beat

def isSent (beat : Beat) : Bool :=
  match beat.answer with
  | .unreachable => false
  | _ => true

def after (nd : RaftNode) (beat : Beat) : RaftNode :=
  if beat.isSent then
    (((nd.latch true).waitFor beat.sending).latch false).meanwhile beat.others
  else nd.latch false

/-- `send` makes the callback wait. -/
def Waits : RaftNode → List Beat → Prop
  | _, [] => False
  | nd, beat :: rest => nd.m_state = .Leader ∧
      ((beat.isSent = true ∧ beat.sending.isSome = true) ∨ Waits (beat.after nd) rest)

end Beat

/-- The handlers, the tasks and the timer callbacks a node runs under its mutex. `others`
is what the rest of the node does while the piece waits for a reply. -/
inductive Piece
  | raftVote (params : RaftVoteParams)
  | appendEntries (params : AppendEntriesParams)
  | voteTask (election : Nat) (answer : Answer RaftVoteRets) (others : RaftNode → RaftNode)
  | replicateLog (nodeId : Nat) (answer : Answer AppendEntriesRets)
      (others : RaftNode → RaftNode)
  | heartbeat (beats : List Beat)
  | logger (op : LogOp)

namespace Piece

variable {cfg : Config} {i : Nat} {nd nd' : RaftNode}

/-- The node a piece returns or yields with, and whether it has waited for a call with a mutex
locked; there is none where it throws. -/
def run (cfg : Config) (m_id : Nat) (nd : RaftNode) : Piece → Option (Bool × RaftNode)
  | .raftVote params => ((NodeCode.raftVote params).run nd).map fun r => (false, r.2)
  | .appendEntries params => ((NodeCode.appendEntries params).run nd).map fun r => (false, r.2)
  | .voteTask election answer others => (NodeCode.voteTask cfg m_id election answer others).run nd
  | .replicateLog nodeId answer others =>
      ((NodeCode.replicateLog cfg m_id nodeId answer others).run nd).map fun r => (r.1.2, r.2)
  | .heartbeat beats => (NodeCode.heartbeat beats).run nd
  | .logger op =>
      (op.run nd.m_raft_logger).map fun logger => (false, { nd with m_raft_logger := logger })

/-- `appendEntries` gets as far as its append. -/
def Appends (nd : RaftNode) (params : AppendEntriesParams) : Prop :=
  ¬ params.term < nd.m_currentTerm ∧ params.entry.op ≠ .heartbeat

/-- The piece makes `appendEntry` refuse an entry. -/
def Refused (nd : RaftNode) : Piece → Prop
  | .appendEntries params => Appends nd params ∧
      nd.m_raft_logger.matchPrev params.prevLogIndex params.prevLogTerm = none
  | .logger op => op.Refused nd.m_raft_logger
  | _ => False

/-- A heartbeat call makes the callback wait under `m_raft_mutex`. -/
def Waits (nd : RaftNode) : Piece → Prop
  | .heartbeat beats => Beat.Waits nd beats
  | _ => False

/-- A full log, a missing entry or a missing session. -/
def Throws (cfg : Config) (nd : RaftNode) : Piece → Prop
  | .appendEntries params => Appends nd params ∧
      ∃ p, nd.m_raft_logger.matchPrev params.prevLogIndex params.prevLogTerm = some p ∧
        maxEntries ≤ p + 1
  | .voteTask election (.reply result) others => (nd.meanwhile others).wins cfg election result ∧
      maxEntries ≤ (nd.meanwhile others).m_raft_logger.m_entries.length
  | .replicateLog nodeId _ _ => nd.m_state = .Leader ∧
      (nd.m_raft_logger.getEntry (nd.m_nextIndexs nodeId)).op ≠ .null ∧
      nodeId ∉ nd.m_remote_nodes
  | .logger op => op.Throws nd.m_raft_logger
  | _ => False

theorem raftVote_free (free : nd.free) (params : RaftVoteParams) : (nd.raftVote params).1.free := by
  unfold RaftNode.raftVote
  dsimp only
  split_ifs
  all_goals exact ⟨rfl, free.2⟩

theorem becomeLeader_free (free : nd.free) (h : RaftNode.becomeLeader cfg i nd = some nd') :
    nd'.free := by
  unfold RaftNode.becomeLeader RaftLogger.appendEntry at h
  split_ifs at h
  cases h
  exact ⟨free.1, rfl⟩

theorem voteReply_free {election : Nat} {result : RaftVoteRets} {r : RaftNode × List Event}
    (free : nd.free) (h : nd.voteReply cfg i election result = some r) : r.1.free := by
  unfold RaftNode.voteReply at h
  split_ifs at h
  · obtain ⟨nd', leads, rfl⟩ := Option.map_eq_some_iff.mp h
    have counted : (nd.countVote election).free := free
    exact becomeLeader_free counted leads
  all_goals
    cases h
    exact free

theorem voteReply_none {election : Nat} {result : RaftVoteRets} :
    nd.voteReply cfg i election result = none ↔
      nd.wins cfg election result ∧ maxEntries ≤ nd.m_raft_logger.m_entries.length := by
  have full : RaftNode.becomeLeader cfg i (nd.countVote election) = none ↔
      maxEntries ≤ nd.m_raft_logger.m_entries.length := by
    unfold RaftNode.becomeLeader RaftLogger.appendEntry RaftNode.countVote
    split_ifs with room
    · simp [room]
    · simp [not_lt.mp room]
  unfold RaftNode.voteReply
  split_ifs with current granted won higher
  · simp [won, full]
  all_goals simp_all [RaftNode.wins]

theorem replicateReply_free (free : nd.free) (nodeId : Nat) (result : AppendEntriesRets) :
    (nd.replicateReply cfg i nodeId result).1.free := by
  unfold RaftNode.replicateReply RaftNode.commitReplicated
  dsimp only
  split_ifs
  all_goals first | exact free | exact ⟨free.1, rfl⟩

theorem appendEntries_none (params : AppendEntriesParams) :
    (nd.appendEntries params).2 = none ↔ Appends nd params := by
  unfold RaftNode.appendEntries Appends
  dsimp only
  split_ifs <;> simp_all

theorem appendEntries_free (free : nd.free) {params : AppendEntriesParams}
    (replied : ¬ Appends nd params) : (nd.appendEntries params).1.free := by
  unfold RaftNode.appendEntries
  by_cases stale : params.term < nd.m_currentTerm
  · rw [if_pos stale]
    exact ⟨rfl, free.2⟩
  · have beat : params.entry.op = .heartbeat := not_not.mp fun append => replied ⟨stale, append⟩
    simp only [if_neg stale, if_pos beat]
    exact ⟨rfl, rfl⟩

theorem appendEntries_ends {params : AppendEntriesParams} (appends : Appends nd params) :
    (appendEntries params).run cfg i nd =
      ((nd.appendEntries params).1.appendEntriesEnd params).map fun r =>
        (false, { r.1 with run := nd.run }) := by
  have unreplied := (appendEntries_none params).mpr appends
  rw [run, NodeCode.appendEntries_run]
  split
  · next found => simp [found] at unreplied
  · next found => simp [found, Function.comp_def]

theorem appendEntriesEnd_none (nd : RaftNode) (params : AppendEntriesParams) :
    nd.appendEntriesEnd params = none ↔
      ∃ p, nd.m_raft_logger.matchPrev params.prevLogIndex params.prevLogTerm = some p ∧
        maxEntries ≤ p + 1 := by
  rw [RaftNode.appendEntriesEnd, Option.map_eq_none_iff, LogOp.appendAfter_eq_none]

theorem appendEntriesEnd_mutex {params : AppendEntriesParams} {r : RaftNode × AppendEntriesRets}
    (h : nd.appendEntriesEnd params = some r) :
    r.1.free ↔ nd.m_raft_logger.matchPrev params.prevLogIndex params.prevLogTerm ≠ none := by
  obtain ⟨⟨logger, success⟩, appended, rfl⟩ := Option.map_eq_some_iff.mp h
  obtain ⟨mutex, refused⟩ := LogOp.appendAfter_mutex appended
  rw [ne_eq, ← refused, RaftNode.free, mutex]
  simp

theorem waitFor_mutexes (nd : RaftNode) (waits : Option (RaftNode → RaftNode)) :
    (nd.waitFor waits).m_raft_mutex = nd.m_raft_mutex ∧
      (nd.waitFor waits).m_raft_logger.m_mutex = nd.m_raft_logger.m_mutex := by
  cases waits <;> exact ⟨rfl, rfl⟩

theorem after_free (free : nd.free) (beat : Beat) : (beat.after nd).free := by
  obtain ⟨-, sent⟩ := waitFor_mutexes (nd.latch true) beat.sending
  unfold Beat.after
  split
  · exact ⟨rfl, sent.trans free.2⟩
  · exact ⟨rfl, free.2⟩

/-- A callback of a leader sends the first heartbeat and goes on. -/
theorem heartbeat_leads (free : nd.free) (leads : nd.m_state = .Leader) (beat : Beat)
    (rest : List Beat) : (NodeCode.heartbeat (beat :: rest)).run nd =
      ((NodeCode.heartbeat rest).run (beat.after nd)).map fun r =>
        ((beat.isSent && beat.sending.isSome) || r.1, r.2) := by
  obtain ⟨j, answer, sending, others⟩ := beat
  have sent := waitFor_mutexes (nd.latch true) sending
  rw [NodeCode.heartbeat]
  cases answer <;>
    simp [leads, NodeCode.onLog_getEntry, NodeCode.onLog_getCommitIndex, free.2,
      NodeCode.mayWait_run, Beat.after, Beat.isSent, sent, RaftNode.heartbeatReply]

/-- A heartbeat returns with both mutexes free, and has waited with one where its calls wait. -/
theorem heartbeat_run (beats : List Beat) : ∀ {nd : RaftNode}, nd.free →
    ∃ waited nd', (NodeCode.heartbeat beats).run nd = some (waited, nd') ∧
      (waited = true ↔ Beat.Waits nd beats) ∧ nd'.free := by
  induction beats with
  | nil => exact fun free => ⟨false, _, rfl, by simp [Beat.Waits], free⟩
  | cons beat rest ih =>
      intro nd free
      by_cases leads : nd.m_state = .Leader
      · obtain ⟨later, nd', ran, waits, freed⟩ := ih (after_free free beat)
        refine ⟨_, nd', by rw [heartbeat_leads free leads, ran]; rfl, ?_, freed⟩
        simp [Beat.Waits, leads, waits]
      · refine ⟨false, nd, ?_, by simp [Beat.Waits, leads], free⟩
        unfold NodeCode.heartbeat
        simp [leads, NodeCode.latch_free _ free]

theorem matchPrev_congr {l l' : RaftLogger} (same : l.m_entries = l'.m_entries) (i t : Nat) :
    l.matchPrev i t = l'.matchPrev i t := by
  unfold RaftLogger.matchPrev RaftLogger.getEntry
  rw [same]

theorem appendEntries_matchPrev (params : AppendEntriesParams) (i t : Nat) :
    (nd.appendEntries params).1.m_raft_logger.matchPrev i t = nd.m_raft_logger.matchPrev i t :=
  matchPrev_congr (RaftNode.appendEntries_entries params) i t

theorem appendEntries_replies {params : AppendEntriesParams} (replied : ¬ Appends nd params) :
    (appendEntries params).run cfg i nd = some (false, (nd.appendEntries params).1) := by
  have answered := mt (appendEntries_none params).mp replied
  rw [run, NodeCode.appendEntries_run]
  split
  · next found => simp [found]
  · next found => simp [found] at answered

theorem run_none (free : nd.free) (piece : Piece) :
    piece.run cfg i nd = none ↔ piece.Throws cfg nd := by
  cases piece with
  | raftVote params => simp [run, Throws, NodeCode.raftVote_run]
  | appendEntries params =>
      by_cases appends : Appends nd params
      · simp only [appendEntries_ends appends, Option.map_eq_none_iff, appendEntriesEnd_none,
          appendEntries_matchPrev, Throws, appends, true_and]
      · simp [appendEntries_replies appends, Throws, appends]
  | voteTask election answer others =>
      rw [run, NodeCode.voteTask_run free]
      cases answer with
      | reply result => simp [Throws, voteReply_none]
      | _ => exact iff_of_false (Option.some_ne_none _) not_false
  | replicateLog nodeId answer others =>
      rw [run, NodeCode.replicateLog_run free, Option.map_eq_none_iff]
      change _ ↔ nd.m_state = .Leader ∧ _ ∧ _
      split_ifs with follows null ready
      · simp [follows]
      · simp [null]
      · cases answer <;>
          simp [ready, NodeCode.replicateReply_run (NodeCode.meanwhile_free free others)]
      · simp [not_not.mp follows, null, ready]
  | heartbeat beats =>
      obtain ⟨waited, nd', ran, -⟩ := heartbeat_run beats free
      simp [run, Throws, ran]
  | logger op => simp [run, Throws, LogOp.run_none free.2]

theorem run_free (free : nd.free) (piece : Piece) {waited : Bool}
    (ran : piece.run cfg i nd = some (waited, nd')) :
    (nd'.free ↔ ¬ piece.Refused nd) ∧ (waited = true ↔ piece.Waits nd) := by
  cases piece with
  | raftVote params =>
      rw [run, NodeCode.raftVote_run] at ran
      cases ran
      exact ⟨iff_of_true (raftVote_free free params) id, iff_of_false nofun id⟩
  | appendEntries params =>
      by_cases appends : Appends nd params
      · rw [appendEntries_ends appends] at ran
        obtain ⟨r, ended, same⟩ := Option.map_eq_some_iff.mp ran
        cases same
        have freed := appendEntriesEnd_mutex ended
        rw [appendEntries_matchPrev] at freed
        refine ⟨?_, iff_of_false nofun id⟩
        change r.1.free ↔ _
        simpa [Refused, appends] using freed
      · rw [appendEntries_replies appends] at ran
        cases ran
        exact ⟨iff_of_true (appendEntries_free free appends) fun refused => appends refused.1,
          iff_of_false nofun id⟩
  | voteTask election answer others =>
      rw [run, NodeCode.voteTask_run free] at ran
      cases answer with
      | reply result =>
          obtain ⟨r, replied, same⟩ := Option.map_eq_some_iff.mp ran
          cases same
          have freed := voteReply_free (NodeCode.meanwhile_free free others) replied
          exact ⟨iff_of_true freed id, iff_of_false nofun id⟩
      | _ =>
          cases ran
          exact ⟨iff_of_true (NodeCode.meanwhile_free free others) id, iff_of_false nofun id⟩
  | replicateLog nodeId answer others =>
      have waited_free := NodeCode.meanwhile_free free others
      rw [run, NodeCode.replicateLog_run free] at ran
      split_ifs at ran
      · cases ran
        exact ⟨iff_of_true free id, iff_of_false nofun id⟩
      · cases ran
        exact ⟨iff_of_true free id, iff_of_false nofun id⟩
      · cases answer with
        | reply result =>
            simp only [NodeCode.replicateReply_run waited_free] at ran
            cases ran
            exact ⟨iff_of_true (replicateReply_free waited_free nodeId result) id,
              iff_of_false nofun id⟩
        | _ =>
            cases ran
            exact ⟨iff_of_true waited_free id, iff_of_false nofun id⟩
      · cases ran
  | heartbeat beats =>
      obtain ⟨waited', nd'', beat, waits, freed⟩ := heartbeat_run beats free
      rw [run, beat] at ran
      cases ran
      exact ⟨iff_of_true freed id, waits⟩
  | logger op =>
      obtain ⟨l, operated, same⟩ := Option.map_eq_some_iff.mp ran
      cases same
      have released := LogOp.run_mutex free.2 op operated
      refine ⟨?_, iff_of_false nofun id⟩
      simpa [Refused, RaftNode.free, free.1] using released

end Piece

/-- A piece that starts with both mutexes free returns unless it throws. It leaves both free
unless `appendEntry` refuses an entry, and has waited with one of them locked exactly if a call
of the heartbeat callback made it wait. -/
theorem locks_released (cfg : Config) (m_id : Nat) (nd : RaftNode) (piece : Piece)
    (free : nd.free) :
    (piece.run cfg m_id nd = none ↔ piece.Throws cfg nd) ∧
    ∀ waited nd', piece.run cfg m_id nd = some (waited, nd') →
      (waited = false ∧ nd'.free ↔ ¬ piece.Refused nd ∧ ¬ piece.Waits nd) := by
  constructor
  · exact piece.run_none free
  · intro waited nd' ran
    obtain ⟨freed, waits⟩ := piece.run_free free ran
    rw [freed, ← waits, Bool.not_eq_true, and_comm]

/-- Node 0's request with its no-op, behind the entry every log starts with. -/
def zeroAppends : AppendEntriesParams where
  term := 1
  leaderId := 0
  leaderCommit := 0
  prevLogIndex := 0
  prevLogTerm := 0
  entry := { index := 1, term := 1, op := .noOp }

/-- A node appends the no-op of its leader and is free again. -/
theorem append_releases :
    ∃ nd', (Piece.appendEntries zeroAppends).run threeNodes 1 {} = some (false, nd') ∧
      nd'.free := by
  obtain ⟨throws, released⟩ :=
    locks_released threeNodes 1 {} (.appendEntries zeroAppends) ⟨rfl, rfl⟩
  have found : ({} : RaftLogger).matchPrev 0 0 = some 0 := by decide
  cases ran : (Piece.appendEntries zeroAppends).run threeNodes 1 {} with
  | none =>
      obtain ⟨-, p, at_, full⟩ := throws.mp ran
      obtain rfl := Option.some.inj (found.symm.trans at_)
      exact absurd full (by decide)
  | some r =>
      have kept : ¬ (Piece.appendEntries zeroAppends).Refused {} := by
        rintro ⟨-, missed⟩
        exact absurd (found.symm.trans missed) (by decide)
      obtain ⟨waited, freed⟩ := (released r.1 r.2 ran).mpr ⟨kept, id⟩
      exact ⟨r.2, by rw [← waited], freed⟩

/-- The call of node 0 that node 1 refuses at the end of `zeroRejected`. -/
def zeroRefused : List Action :=
  zeroRejected.take (zeroRejected.length - 3)

/-- Node 1 returns from a call with both mutexes locked, and then neither its election
timer nor its apply coroutine takes another step. -/
theorem refusal_keeps_locks : ∃ s call nd', exec (step threeNodes) {} zeroRefused = some s ∧
    s.appendCalls[0]? = some call ∧ call.dst = 1 ∧ (s.nodes 1).free ∧
    (Piece.appendEntries call.request).run threeNodes 1 (s.nodes 1) = some (false, nd') ∧
    ¬ nd'.free ∧
    step threeNodes (s.put 1 nd') (.electionTimer 1) = none ∧
    step threeNodes (s.put 1 nd') (.applyRound 1) = none := by
  have done : (exec (step threeNodes) {} zeroRefused).bind (fun s =>
      s.appendCalls[0]?.bind fun call =>
        ((Piece.appendEntries call.request).run threeNodes 1 (s.nodes 1)).map fun r =>
          decide (call.dst = 1 ∧ (s.nodes 1).free ∧ r.1 = false ∧ ¬ r.2.free ∧
            (step threeNodes (s.put 1 r.2) (.electionTimer 1)).isNone ∧
            (step threeNodes (s.put 1 r.2) (.applyRound 1)).isNone)) = some true := by
    decide +kernel
  obtain ⟨s, run, rest⟩ := Option.bind_eq_some_iff.mp done
  obtain ⟨call, found, rest⟩ := Option.bind_eq_some_iff.mp rest
  obtain ⟨⟨waited, nd'⟩, ran, seen⟩ := Option.map_eq_some_iff.mp rest
  obtain ⟨dst, free, rfl, held, timer, round⟩ := of_decide_eq_true seen
  exact ⟨s, call, nd', run, found, dst, free, ran, held, Option.isNone_iff_eq_none.mp timer,
    Option.isNone_iff_eq_none.mp round⟩

end CRpc.Raft
