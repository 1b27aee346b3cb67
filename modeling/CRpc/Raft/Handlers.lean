import CRpc.Raft.Deliveries

/-! The code of a node with every `lock` and `unlock` it makes, in the order it makes
them. The two flags of a node tell here which mutexes the running coroutine holds;
what it waits for at a `lock` is not seen, and a `lock` of its own mutex returns at once. -/
namespace CRpc.Raft

open Cluster Transition

/-- Code of `RaftLogger` and of `RaftNode`; there is no result where it throws. -/
abbrev LogCode (α : Type) := StateT RaftLogger Option α
abbrev NodeCode (α : Type) := StateT RaftNode Option α

@[simps] def RaftLogger.latch (held : Bool) (l : RaftLogger) : RaftLogger :=
  { l with m_mutex := held }

@[simps] def RaftNode.latch (held : Bool) (nd : RaftNode) : RaftNode :=
  { nd with m_raft_mutex := held }

theorem RaftLogger.latch_free {l : RaftLogger} (free : l.m_mutex = false) : l.latch false = l := by
  rw [latch, ← free]

namespace LogCode

def lock : LogCode Unit := modify (RaftLogger.latch true)
def unlock : LogCode Unit := modify (RaftLogger.latch false)

@[simp] theorem lock_run (l : RaftLogger) : lock.run l = some ((), l.latch true) := rfl
@[simp] theorem unlock_run (l : RaftLogger) : unlock.run l = some ((), l.latch false) := rfl

def reading {α : Type} (read : RaftLogger → α) : LogCode α := do
  lock
  let result := read (← get)
  unlock
  return result

def getLastApplied : LogCode Nat := reading RaftLogger.m_lastApplied
def getCommitIndex : LogCode Nat := reading RaftLogger.m_commitIndex
def getLastTerm : LogCode Nat := reading RaftLogger.getLastTerm
def getLastIndex : LogCode Nat := reading RaftLogger.getLastIndex
def getEntry (index : Nat) : LogCode Entry := reading fun l => l.getEntry index
def size : LogCode Nat := reading fun l => l.m_entries.length

/-- The one reader without a lock. -/
def is_newer (term index : Nat) : LogCode Bool := do
  return (← get).is_newer term index

def setCommitIndex (index : Nat) : LogCode Unit := do
  lock
  modify fun l => { l with m_commitIndex := index }
  unlock

def appendAfter (new_entry : Entry) (prevLogIndex prevLogTerm : Nat) : LogCode Bool := do
  lock
  match (← get).matchPrev prevLogIndex prevLogTerm with
  | none => return false
  | some p =>
    if p + 1 < maxEntries then
      modify fun l => { l with m_entries := l.m_entries.take (p + 1) ++ [new_entry] }
      unlock
      return true
    else failure

def appendEntry (new_entry : Entry) : LogCode Nat := do
  lock
  if (← get).m_entries.length < maxEntries then
    modify fun l => { l with
      m_entries := l.m_entries ++ [{ new_entry with index := l.getLastIndex + 1 }] }
    let index := (← get).m_entries.length - 1
    unlock
    return index
  else failure

/-- The apply coroutine from one `yield` to the next. -/
def applyRound : LogCode Unit := do
  lock
  let l ← get
  if l.m_lastApplied < l.m_commitIndex then
    match l.m_entries[l.m_lastApplied + 1]? with
    | none => failure
    | some entry => modify fun l => { l with
        m_addresses := RaftLogger.applyOp l.m_addresses entry
        applied := l.applied ++ [entry]
        m_lastApplied := l.m_lastApplied + 1 }
  unlock

@[simp] theorem reading_run {α : Type} (read : RaftLogger → α) (l : RaftLogger) :
    (reading read).run l = some (read (l.latch true), l.latch false) := rfl

@[simp] theorem setCommitIndex_run (index : Nat) (l : RaftLogger) :
    (setCommitIndex index).run l = some ((), l.setCommitIndex index) := rfl

theorem appendAfter_run (e : Entry) (i t : Nat) (l : RaftLogger) :
    (appendAfter e i t).run l = (l.appendAfter e i t).map Prod.swap := by
  have same : (l.latch true).matchPrev i t = l.matchPrev i t := rfl
  unfold appendAfter RaftLogger.appendAfter
  cases found : l.matchPrev i t with
  | none =>
      simp only [lock_run, StateT.run_bind, StateT.run_get, same, found, Option.pure_def,
        Option.bind_eq_bind, Option.bind_some]
      rfl
  | some p =>
      by_cases room : p + 1 < maxEntries
      · simp [same, found, room]
        rfl
      · simp [same, found, room]

theorem appendEntry_run (e : Entry) (l : RaftLogger) :
    (appendEntry e).run l = (l.appendEntry e).map Prod.swap := by
  unfold appendEntry RaftLogger.appendEntry
  by_cases room : l.m_entries.length < maxEntries
  · simp [room, RaftLogger.latch, RaftLogger.getLastIndex, RaftLogger.lastEntry]
  · simp [room]

theorem applyRound_run (l : RaftLogger) (free : l.m_mutex = false) :
    applyRound.run l = l.applyRound.map fun l => ((), l) := by
  unfold applyRound RaftLogger.applyRound
  by_cases due : l.m_lastApplied < l.m_commitIndex
  · cases found : l.m_entries[l.m_lastApplied + 1]? with
    | none => simp [due, found]
    | some e => simp [due, found, free, RaftLogger.latch]
  · simp [due, RaftLogger.latch, ← free]

end LogCode

/-- What other coroutines make of the node while this one is not running. -/
def RaftNode.meanwhile (nd : RaftNode) (others : RaftNode → RaftNode) : RaftNode :=
  { others nd with
    m_raft_mutex := nd.m_raft_mutex
    m_raft_logger := { (others nd).m_raft_logger with m_mutex := nd.m_raft_logger.m_mutex } }

def RaftNode.waitFor (nd : RaftNode) (waits : Option (RaftNode → RaftNode)) : RaftNode :=
  waits.elim nd nd.meanwhile

inductive Answer (ρ : Type)
  | unreachable
  | timeout
  | reply (result : ρ)

/-- A heartbeat to one node: what other coroutines do while `send` waits, if it does, and while the
response is on its way. -/
structure Beat where
  nodeId : Nat
  answer : Answer AppendEntriesRets
  sending : Option (RaftNode → RaftNode) := none
  others : RaftNode → RaftNode := id

namespace NodeCode

def lock : NodeCode Unit := modify (RaftNode.latch true)
def unlock : NodeCode Unit := modify (RaftNode.latch false)

def onLog {α : Type} (code : LogCode α) : NodeCode α := fun nd =>
  (code.run nd.m_raft_logger).map fun r => (r.1, { nd with m_raft_logger := r.2 })

/-- The coroutine waits; the result tells whether it holds a mutex meanwhile. -/
def elsewhere (others : RaftNode → RaftNode) : NodeCode Bool := do
  let nd ← get
  modify fun nd => nd.meanwhile others
  return nd.m_raft_mutex || nd.m_raft_logger.m_mutex

/-- A call that returns at once, or makes the coroutine wait. -/
def mayWait : Option (RaftNode → RaftNode) → NodeCode Bool
  | none => return false
  | some others => elsewhere others

@[simp] theorem lock_run (nd : RaftNode) : lock.run nd = some ((), nd.latch true) := rfl
@[simp] theorem unlock_run (nd : RaftNode) : unlock.run nd = some ((), nd.latch false) := rfl
@[simp] theorem elsewhere_run (others : RaftNode → RaftNode) (nd : RaftNode) :
    (elsewhere others).run nd =
      some (nd.m_raft_mutex || nd.m_raft_logger.m_mutex, nd.meanwhile others) := rfl

theorem mayWait_run (waits : Option (RaftNode → RaftNode)) (nd : RaftNode) :
    (mayWait waits).run nd =
      some (waits.isSome && (nd.m_raft_mutex || nd.m_raft_logger.m_mutex), nd.waitFor waits) := by
  cases waits <;> simp [mayWait, RaftNode.waitFor]

theorem onLog_run {α : Type} (code : LogCode α) (nd : RaftNode) :
    (onLog code).run nd =
      (code.run nd.m_raft_logger).map fun r => (r.1, { nd with m_raft_logger := r.2 }) := rfl

def raftVote (params : RaftVoteParams) : NodeCode RaftVoteRets := do
  lock
  let nd ← get
  if params.term < nd.m_currentTerm ∨
      (params.term = nd.m_currentTerm ∧ nd.m_votedFor ≠ params.candidateId) then
    unlock
    return ⟨nd.m_currentTerm, false⟩
  if nd.m_currentTerm < params.term then
    modify fun nd => nd.becomeFollower params.term params.candidateId
  if !(← onLog (LogCode.is_newer params.lastLogTerm params.lastLogIndex)) then
    let nd ← get
    unlock
    return ⟨nd.m_currentTerm, false⟩
  modify fun nd => { nd with m_votedFor := params.candidateId }
  let nd ← get
  unlock
  return ⟨nd.m_currentTerm, true⟩

/-- `appendEntries` from the append on. -/
def appendEntriesEnd (params : AppendEntriesParams) : NodeCode AppendEntriesRets := do
  if !(← onLog (LogCode.appendAfter params.entry params.prevLogIndex params.prevLogTerm)) then
    return { success := false, term := (← get).m_currentTerm }
  let nd ← get
  unlock
  return { success := true, term := nd.m_currentTerm }

def learnCommit (leaderCommit : Nat) : NodeCode Unit := do
  let last ← onLog LogCode.getLastIndex
  onLog (LogCode.setCommitIndex (min leaderCommit last))

def appendEntries (params : AppendEntriesParams) : NodeCode AppendEntriesRets := do
  lock
  let nd ← get
  if params.term < nd.m_currentTerm then
    unlock
    return { success := false, term := nd.m_currentTerm }
  if nd.m_currentTerm < params.term ∨
      (params.term = nd.m_currentTerm ∧ nd.m_state = .Candidate) then
    modify fun nd => nd.becomeFollower params.term params.leaderId
  modify fun nd => if nd.m_leaderId < 0 then { nd with m_leaderId := params.leaderId } else nd
  learnCommit params.leaderCommit
  let nd ← get
  if params.entry.op = .heartbeat then
    unlock
    return { success := true, term := nd.m_currentTerm }
  appendEntriesEnd params

def initIndexs (j : Nat) : NodeCode Unit := do
  let last ← onLog LogCode.getLastIndex
  modify fun nd => { nd with
    m_nextIndexs := Function.update nd.m_nextIndexs j (last + 1)
    m_matchIndexs := Function.update nd.m_matchIndexs j 0 }

def becomeLeader (cfg : Config) (m_id : Nat) : NodeCode Unit := do
  modify fun nd => { nd with electionStoped := true, m_state := .Leader, m_leaderId := m_id }
  (← get).m_remote_nodes.forM initIndexs
  let _ ← onLog (LogCode.appendEntry { op := .noOp, term := (← get).m_currentTerm })
  modify fun nd => { nd with heartbeatStoped := false }
  modify (RaftNode.startReplicateLog cfg m_id)

def voteReply (cfg : Config) (m_id election : Nat) (result : RaftVoteRets) : NodeCode Unit := do
  lock
  let nd ← get
  if nd.m_currentTerm = result.term ∧ nd.m_state = .Candidate then
    if result.voteGranted then
      modify (RaftNode.countVote election)
      if RaftNode.threshold cfg ≤ nd.grantedVotes.getD election 0 + 1 then
        becomeLeader cfg m_id
  else if nd.m_currentTerm < result.term then
    modify fun nd => nd.becomeFollower result.term noNode
  unlock

/-- The vote task of an election; its call is made without a lock. -/
def voteTask (cfg : Config) (m_id election : Nat) (answer : Answer RaftVoteRets)
    (others : RaftNode → RaftNode) : NodeCode Bool := do
  let waited ← elsewhere others
  match answer with
  | .unreachable => return waited
  | .timeout => return waited
  | .reply result =>
      voteReply cfg m_id election result
      return waited

/-- The counting loop of `replicateLog`, at node `i` with `left` nodes to go. -/
def countReplicas (cfg : Config) (m_id last_index : Nat) : (left i vote : Nat) → NodeCode Unit
  | 0, _, _ => return
  | left + 1, i, vote => do
      let nd ← get
      let vote := if i = m_id then vote + 1
        else if last_index ≤ nd.m_matchIndexs i then vote + 1 else vote
      if RaftNode.threshold cfg ≤ vote then
        let commit ← onLog LogCode.getCommitIndex
        onLog (LogCode.setCommitIndex (max last_index commit))
      else countReplicas cfg m_id last_index left (i + 1) vote

/-- What a successful reply of `nodeId` is followed by. -/
def noteReplica (cfg : Config) (m_id nodeId : Nat) : NodeCode Unit := do
  modify fun nd => nd.advance nodeId
  countReplicas cfg m_id ((← get).m_matchIndexs nodeId) cfg.size 0 0

/-- The second critical section of `replicateLog`, and where the loop goes. -/
def replicateReply (cfg : Config) (m_id nodeId : Nat) (result : AppendEntriesRets) :
    NodeCode LoopPc := do
  lock
  let nd ← get
  if nd.m_state ≠ .Leader then
    unlock
    return .done
  if nd.m_currentTerm < result.term then
    modify fun nd => nd.becomeFollower result.term noNode
    unlock
    return .done
  if result.term < nd.m_currentTerm then
    unlock
    return .top
  if result.success = false then
    modify fun nd => nd.retreat nodeId
    unlock
    return .done
  noteReplica cfg m_id nodeId
  unlock
  return .top

/-- `replicateLog` from one `yield` to the next, or to its return. -/
def replicateLog (cfg : Config) (m_id nodeId : Nat) (answer : Answer AppendEntriesRets)
    (others : RaftNode → RaftNode) : NodeCode (LoopPc × Bool) := do
  lock
  let nd ← get
  if nd.m_state ≠ .Leader then
    unlock
    return (.done, false)
  let send_entry ← onLog (LogCode.getEntry (nd.m_nextIndexs nodeId))
  if send_entry.op = .null then
    unlock
    return (.top, false)
  let _ ← onLog LogCode.getCommitIndex
  let _ ← onLog (LogCode.getEntry (pred64 (nd.m_nextIndexs nodeId)))
  unlock
  -- `m_remote_nodes[nodeId]` is a null pointer without a session
  if nodeId ∉ nd.m_remote_nodes then failure
  let waited ← elsewhere others
  match answer with
  | .unreachable => return (.top, waited)
  | .timeout => return (.top, waited)
  | .reply result =>
      let pc ← replicateReply cfg m_id nodeId result
      return (pc, waited)

/-- The heartbeat callback, over the sessions it still has to go through. `testAndreConnect` and
`send` are called with `m_raft_mutex` locked; the one blocks its thread at most, the other may make
the coroutine wait, which is what the result tells. -/
def heartbeat : List Beat → NodeCode Bool
  | [] => return false
  | beat :: rest => do
      lock
      let nd ← get
      if nd.m_state ≠ .Leader then
        unlock
        return false
      else
        let _ ← onLog LogCode.getCommitIndex
        let _ ← onLog (LogCode.getEntry (pred64 (nd.m_nextIndexs beat.nodeId)))
        match beat.answer with
        | .unreachable =>
            unlock
            heartbeat rest
        | .timeout =>
            let sent ← mayWait beat.sending
            unlock
            let received ← elsewhere beat.others
            let later ← heartbeat rest
            return sent || received || later
        | .reply result =>
            let sent ← mayWait beat.sending
            unlock
            let received ← elsewhere beat.others
            modify fun nd => nd.heartbeatReply result
            let later ← heartbeat rest
            return sent || received || later

variable {cfg : Config} {nd : RaftNode} {i : Nat}

theorem onLog_reading {α : Type} (read : RaftLogger → α) (free : nd.m_raft_logger.m_mutex = false) :
    (onLog (LogCode.reading read)).run nd =
      some (read (nd.m_raft_logger.latch true), nd) := by
  simp [onLog_run, RaftLogger.latch_free free]

theorem onLog_getEntry (index : Nat) (free : nd.m_raft_logger.m_mutex = false) :
    (onLog (LogCode.getEntry index)).run nd = some (nd.m_raft_logger.getEntry index, nd) :=
  onLog_reading _ free

theorem onLog_getCommitIndex (free : nd.m_raft_logger.m_mutex = false) :
    (onLog LogCode.getCommitIndex).run nd = some (nd.m_raft_logger.m_commitIndex, nd) :=
  onLog_reading _ free

@[simp] theorem latch_nextIndexs (held : Bool) :
    (nd.latch held).m_nextIndexs = nd.m_nextIndexs := rfl

@[simp] theorem latch_matchIndexs (held : Bool) :
    (nd.latch held).m_matchIndexs = nd.m_matchIndexs := rfl

@[simp] theorem latch_latch (held : Bool) : (nd.latch held).latch false = nd.latch false := rfl

@[simp] theorem latch_becomeFollower (held : Bool) (term leaderId : Nat) :
    (nd.latch held).becomeFollower term leaderId = (nd.becomeFollower term leaderId).latch held := rfl

@[simp] theorem latch_countVote (held : Bool) (election : Nat) :
    (nd.latch held).countVote election = (nd.countVote election).latch held := rfl

@[simp] theorem latch_retreat (held : Bool) (nodeId : Nat) :
    (nd.latch held).retreat nodeId = (nd.retreat nodeId).latch held := rfl

@[simp] theorem latch_advance (held : Bool) (nodeId : Nat) :
    (nd.latch held).advance nodeId = (nd.advance nodeId).latch held := rfl

theorem becomeLeader_latch (held : Bool) (m_id : Nat) (nd : RaftNode) :
    (RaftNode.becomeLeader cfg m_id nd).map (RaftNode.latch held) =
      RaftNode.becomeLeader cfg m_id (nd.latch held) := by
  unfold RaftNode.becomeLeader
  simp only [RaftNode.latch_m_raft_logger, RaftNode.latch_m_currentTerm]
  split <;> rfl

theorem latch_free (nd : RaftNode) (free : nd.free) : nd.latch false = nd := by
  rw [RaftNode.latch, ← free.1]

theorem raftVote_run (nd : RaftNode) (params : RaftVoteParams) :
    (raftVote params).run nd = some ((nd.raftVote params).2, (nd.raftVote params).1) := by
  unfold raftVote RaftNode.raftVote
  by_cases stale : params.term < nd.m_currentTerm ∨
      (params.term = nd.m_currentTerm ∧ nd.m_votedFor ≠ params.candidateId)
  · simp [stale, RaftNode.latch]
  · by_cases higher : nd.m_currentTerm < params.term <;>
      by_cases newer : nd.m_raft_logger.is_newer params.lastLogTerm params.lastLogIndex <;>
      simp [onLog_run, LogCode.is_newer, stale, higher, newer, RaftNode.becomeFollower, RaftNode.latch]

theorem learnCommit_run (nd : RaftNode) (leaderCommit : Nat) :
    (learnCommit leaderCommit).run nd = some ((), { nd with
      m_raft_logger := nd.m_raft_logger.setCommitIndex
        (min leaderCommit nd.m_raft_logger.getLastIndex) }) := rfl

theorem appendEntriesEnd_run {nd : RaftNode} (params : AppendEntriesParams)
    (locked : nd.m_raft_mutex = true) :
    (appendEntriesEnd params).run nd =
      (nd.appendEntriesEnd params).map fun r => (r.2, { r.1 with run := nd.run }) := by
  unfold appendEntriesEnd RaftNode.appendEntriesEnd
  cases found : nd.m_raft_logger.appendAfter params.entry params.prevLogIndex params.prevLogTerm with
  | none => simp [found, LogCode.appendAfter_run, onLog_run]
  | some result =>
      obtain ⟨logger, success⟩ := result
      cases success <;>
        simp [found, LogCode.appendAfter_run, onLog_run, locked, RaftNode.latch]

theorem appendEntries_run (nd : RaftNode) (params : AppendEntriesParams) :
    (appendEntries params).run nd = match nd.appendEntries params with
      | (nd', some result) => some (result, nd')
      | (nd', none) =>
          (nd'.appendEntriesEnd params).map fun r => (r.2, { r.1 with run := nd.run }) := by
  unfold appendEntries RaftNode.appendEntries
  by_cases stale : params.term < nd.m_currentTerm
  · simp [stale, RaftNode.latch]
  · by_cases adopt : nd.m_currentTerm < params.term ∨
        (params.term = nd.m_currentTerm ∧ nd.m_state = .Candidate) <;>
      by_cases beat : params.entry.op = .heartbeat <;>
      simp [stale, adopt, beat, learnCommit_run]
    · rfl
    · exact appendEntriesEnd_run params rfl
    · rfl
    · exact appendEntriesEnd_run params rfl

theorem initIndexs_run (free : nd.m_raft_logger.m_mutex = false) (j : Nat) :
    (initIndexs j).run nd = some ((), { nd with
      m_nextIndexs := Function.update nd.m_nextIndexs j (nd.m_raft_logger.getLastIndex + 1)
      m_matchIndexs := Function.update nd.m_matchIndexs j 0 }) := by
  unfold initIndexs LogCode.getLastIndex
  rw [StateT.run_bind, onLog_reading _ free]
  rfl

theorem forM_initIndexs (nd : RaftNode) (free : nd.m_raft_logger.m_mutex = false)
    (sessions : List Nat) :
    (forM sessions initIndexs).run nd = some ((), { nd with
      m_nextIndexs := fun j => if j ∈ sessions
        then nd.m_raft_logger.getLastIndex + 1 else nd.m_nextIndexs j
      m_matchIndexs := fun j => if j ∈ sessions then 0 else nd.m_matchIndexs j }) := by
  induction sessions generalizing nd with
  | nil => simp
  | cons j rest ih =>
      have next : (fun k => if k ∈ rest then nd.m_raft_logger.getLastIndex + 1 else
          Function.update nd.m_nextIndexs j (nd.m_raft_logger.getLastIndex + 1) k) =
          fun k => if k ∈ j :: rest
            then nd.m_raft_logger.getLastIndex + 1 else nd.m_nextIndexs k := by
        funext k
        by_cases h : k = j <;> simp [h]
      have matched : (fun k => if k ∈ rest then 0 else Function.update nd.m_matchIndexs j 0 k) =
          fun k => if k ∈ j :: rest then 0 else nd.m_matchIndexs k := by
        funext k
        by_cases h : k = j <;> simp [h]
      rw [List.forM_cons, StateT.run_bind, initIndexs_run free]
      simp only [Option.bind_eq_bind, Option.bind_some]
      rw [ih]
      · simp only [next, matched]
      · exact free

theorem becomeLeader_run (cfg : Config) (m_id : Nat) (nd : RaftNode)
    (free : nd.m_raft_logger.m_mutex = false) :
    (becomeLeader cfg m_id).run nd = (RaftNode.becomeLeader cfg m_id nd).map fun nd => ((), nd) := by
  unfold becomeLeader RaftNode.becomeLeader
  cases appended : nd.m_raft_logger.appendEntry { op := .noOp, term := nd.m_currentTerm } with
  | none => simp [forM_initIndexs, free, LogCode.appendEntry_run, onLog_run, appended]
  | some result => simp [forM_initIndexs, free, LogCode.appendEntry_run, onLog_run, appended]

theorem voteReply_run (free : nd.free) (cfg : Config) (m_id election : Nat)
    (result : RaftVoteRets) :
    (voteReply cfg m_id election result).run nd =
      (nd.voteReply cfg m_id election result).map fun r => ((), r.1) := by
  unfold voteReply RaftNode.voteReply RaftNode.wins
  by_cases current : nd.m_currentTerm = result.term ∧ nd.m_state = .Candidate
  · by_cases granted : result.voteGranted
    · by_cases quorum : RaftNode.threshold cfg ≤ nd.grantedVotes.getD election 0 + 1
      · simp [current, granted, quorum, -List.getD_eq_getElem?_getD]
        have same : ((nd.countVote election).latch true).latch false = nd.countVote election :=
          latch_free (nd.countVote election) free
        rw [becomeLeader_run]
        · conv_rhs => rw [← same, ← becomeLeader_latch]
          cases RaftNode.becomeLeader cfg m_id ((nd.countVote election).latch true) <;> rfl
        · exact free.2
      · simp [current, granted, quorum, -List.getD_eq_getElem?_getD]
        exact latch_free _ free
    · simp [current, granted]
      exact latch_free _ free
  · by_cases higher : nd.m_currentTerm < result.term
    · simp [current, higher]
      exact latch_free _ free
    · simp [current, higher]
      exact latch_free _ free

theorem meanwhile_free (free : nd.free) (others : RaftNode → RaftNode) :
    (nd.meanwhile others).free := free

theorem voteTask_run (free : nd.free) (cfg : Config) (m_id election : Nat)
    (answer : Answer RaftVoteRets) (others : RaftNode → RaftNode) :
    (voteTask cfg m_id election answer others).run nd = match answer with
      | .reply result =>
          ((nd.meanwhile others).voteReply cfg m_id election result).map fun r => (false, r.1)
      | _ => some (false, nd.meanwhile others) := by
  unfold voteTask
  cases answer with
  | reply result =>
      simp [free.1, free.2, voteReply_run (meanwhile_free free others), Function.comp_def]
  | _ => simp [free.1, free.2]

theorem countReplicas_run (cfg : Config) (m_id last_index left i vote : Nat) (nd : RaftNode)
    (free : nd.m_raft_logger.m_mutex = false) :
    (countReplicas cfg m_id last_index left i vote).run nd = some ((),
      if RaftNode.countReplicas (RaftNode.threshold cfg) m_id last_index nd.m_matchIndexs left i vote
      then { nd with
        m_raft_logger := nd.m_raft_logger.setCommitIndex
          (max last_index nd.m_raft_logger.m_commitIndex) }
      else nd) := by
  induction left generalizing i vote with
  | zero => rfl
  | succ left ih =>
      unfold countReplicas RaftNode.countReplicas
      simp only [StateT.run_bind, StateT.run_get, Option.pure_def, Option.bind_eq_bind,
        Option.bind_some]
      generalize (if i = m_id then vote + 1
        else if last_index ≤ nd.m_matchIndexs i then vote + 1 else vote) = counted
      by_cases full : RaftNode.threshold cfg ≤ counted
      · simp only [full, if_true, StateT.run_bind, onLog_getCommitIndex free]
        rfl
      · simp only [full, if_false, ih]

theorem noteReplica_run (cfg : Config) (m_id nodeId : Nat) (nd : RaftNode)
    (free : nd.m_raft_logger.m_mutex = false) :
    (noteReplica cfg m_id nodeId).run nd = some ((), (nd.commitReplicated cfg m_id nodeId).1) := by
  have counted := countReplicas_run cfg m_id ((nd.advance nodeId).m_matchIndexs nodeId) cfg.size 0 0
    (nd.advance nodeId) free
  unfold noteReplica RaftNode.commitReplicated RaftNode.replicated
  apply counted.trans
  split <;> rfl

theorem commitReplicated_latch (held : Bool) (m_id nodeId : Nat) (nd : RaftNode) :
    (RaftNode.commitReplicated cfg m_id (nd.latch held) nodeId).1 =
      (nd.commitReplicated cfg m_id nodeId).1.latch held := by
  unfold RaftNode.commitReplicated RaftNode.replicated
  simp only [latch_advance, latch_matchIndexs, RaftNode.latch_m_raft_logger]
  split <;> rfl

theorem replicateReply_run (free : nd.free) (cfg : Config) (m_id nodeId : Nat)
    (result : AppendEntriesRets) :
    (replicateReply cfg m_id nodeId result).run nd =
      some ((nd.replicateReply cfg m_id nodeId result).2.1,
        (nd.replicateReply cfg m_id nodeId result).1) := by
  unfold replicateReply RaftNode.replicateReply
  by_cases leads : nd.m_state = .Leader
  · by_cases higher : nd.m_currentTerm < result.term
    · simp [leads, higher]
      exact latch_free _ free
    · by_cases lower : result.term < nd.m_currentTerm
      · simp [leads, higher, lower, latch_free _ free]
      · cases success : result.success
        · simp [leads, higher, lower]
          exact latch_free _ free
        · simp [leads, higher, lower]
          have same : (nd.commitReplicated cfg m_id nodeId).1.latch false =
              (nd.commitReplicated cfg m_id nodeId).1 := by
            rw [← commitReplicated_latch, latch_free _ free]
          rw [noteReplica_run]
          · simp [commitReplicated_latch, same]
          · exact free.2
  · simp [leads, latch_free _ free]

theorem replicateLog_run (free : nd.free) (cfg : Config) (m_id nodeId : Nat)
    (answer : Answer AppendEntriesRets) (others : RaftNode → RaftNode) :
    (replicateLog cfg m_id nodeId answer others).run nd =
      if nd.m_state ≠ .Leader then some ((.done, false), nd)
      else if (nd.m_raft_logger.getEntry (nd.m_nextIndexs nodeId)).op = .null then
        some ((.top, false), nd)
      else if nodeId ∉ nd.m_remote_nodes then none
      else match answer with
        | .reply result => ((replicateReply cfg m_id nodeId result).run (nd.meanwhile others)).map
            fun r => ((r.1, false), r.2)
        | _ => some ((.top, false), nd.meanwhile others) := by
  unfold replicateLog
  by_cases leads : nd.m_state = .Leader
  · by_cases null : (nd.m_raft_logger.getEntry (nd.m_nextIndexs nodeId)).op = .null
    · simp [leads, null, onLog_getEntry, free.2, latch_free _ free]
    · simp [leads, null, onLog_getEntry, onLog_getCommitIndex, free.2, latch_free _ free]
      by_cases ready : nodeId ∈ nd.m_remote_nodes
      · cases answer <;> simp [ready, free.1, free.2]
      · simp [ready]
  · simp [leads, latch_free _ free]

end NodeCode
end CRpc.Raft
