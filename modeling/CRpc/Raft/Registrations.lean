import CRpc.Raft.Bounds

/-! The registration handlers inside `run()`, from the first append to the response. -/
namespace CRpc.Raft

open Cluster Transition

def Event.isRespond : Event → Bool
  | .respond .. => true
  | _ => false

/-- `run()` is not between the first append of a registration and its response. -/
def RunPc.outside : RunPc → Bool
  | .idle | .appendEntries .. | .waitNoOp _ | .unlocked _ => true
  | .decoding .. | .waitApplied .. | .replying _ => false

namespace Cluster

def run (s : Cluster) (i : Nat) : RunPc := (s.nodes i).run
def responds (s : Cluster) : List Event := s.history.filter Event.isRespond

end Cluster

@[simp] theorem responds_put (s : Cluster) (i : Nat) (nd : RaftNode) (evs : List Event) :
    (s.put i nd evs).responds = evs.filter Event.isRespond ++ s.responds := by
  simp [Cluster.responds]
@[simp] theorem responds_setVoteCall (s : Cluster) (k : Nat) (call : VoteCall) :
    (s.setVoteCall k call).responds = s.responds := rfl
@[simp] theorem responds_setAppendCall (s : Cluster) (k : Nat) (call : AppendCall) :
    (s.setAppendCall k call).responds = s.responds := rfl
@[simp] theorem responds_addVoteCalls (s : Cluster) (calls : List VoteCall) :
    (s.addVoteCalls calls).responds = s.responds := rfl
@[simp] theorem responds_addAppendCall (s : Cluster) (call : AppendCall) :
    (s.addAppendCall call).responds = s.responds := rfl

namespace RaftNode

variable {cfg : Config} {nd nd' : RaftNode} {i : Nat}

theorem voteReply_run {election : Nat} {rets : RaftVoteRets} {r : RaftNode × List Event}
    (h : voteReply cfg i nd election rets = some r) :
    r.1.run = nd.run ∧ r.2.filter Event.isRespond = [] := by
  rcases voteReply_cases h with ⟨-, leads, events⟩ | ⟨-, -, rfl⟩ | ⟨-, rfl⟩ | rfl
  · exact ⟨(becomeLeader_log leads).2.1, by rw [events]; rfl⟩
  · exact ⟨rfl, rfl⟩
  · exact ⟨rfl, rfl⟩
  · exact ⟨rfl, rfl⟩

theorem replicateReply_responds (nodeId : Nat) (rets : AppendEntriesRets) :
    (nd.replicateReply cfg i nodeId rets).2.2.filter Event.isRespond = [] := by
  unfold replicateReply commitReplicated
  dsimp only
  split_ifs <;> rfl

theorem handleMsg_run (idle : nd.run = .idle) (type : MessageType) (triples : List Triple) :
    (nd.handleMsg i type triples).1.run.outside = true ∧
      (nd.handleMsg i type triples).2.filter Event.isRespond = [] := by
  unfold handleMsg
  split_ifs
  · exact ⟨by rw [idle]; rfl, rfl⟩
  · cases type
    · exact ⟨rfl, rfl⟩
    · exact ⟨rfl, rfl⟩
    · exact ⟨by rw [idle]; rfl, rfl⟩

/-- A triple is appended at the end of the log, and its index is kept. -/
theorem decodeTriple_run {index : Nat} {assigned : List Nat} {t : Triple} {rest : List Triple}
    (h : nd.decodeTriple index assigned (t :: rest) = some nd') :
    nd'.run = .decoding rest nd.m_raft_logger.m_entries.length
        (assigned ++ [nd.m_raft_logger.m_entries.length]) ∧
      nd'.m_raft_logger.m_entries.length = nd.m_raft_logger.m_entries.length + 1 := by
  obtain ⟨⟨logger, index⟩, did, rfl⟩ := Option.map_eq_some_iff.mp h
  unfold RaftLogger.appendEntry at did
  split_ifs at did
  cases did
  exact ⟨rfl, List.length_append⟩

end RaftNode

theorem run_put {s s' : Cluster} {i : Nat} {nd : RaftNode}
    (nodes : s'.nodes = Function.update s.nodes i nd) :
    s'.run = Function.update s.run i nd.run :=
  field_put RaftNode.run nodes

inductive RunStep (s : Cluster) (a : Action) (s' : Cluster) : Prop
  | apart : s'.run = s.run → s'.responds = s.responds → RunStep s a s'
  | around (i : Nat) (pc : RunPc) : s'.run = Function.update s.run i pc → pc.outside = true →
      s'.responds = s.responds → RunStep s a s'
  | lock (i garbage : Nat) (triples : List Triple) :
      s'.run = Function.update s.run i (.decoding triples garbage []) →
      s'.responds = s.responds → RunStep s a s'
  | decode (i index : Nat) (rest : List Triple) (assigned : List Nat) (t : Triple) :
      s.run i = .decoding (t :: rest) index assigned →
      s'.run = Function.update s.run i (.decoding rest (s.entries i).length
        (assigned ++ [(s.entries i).length])) →
      (s'.entries i).length = (s.entries i).length + 1 → s'.responds = s.responds →
      RunStep s a s'
  | decoded (i index : Nat) (assigned : List Nat) : s.run i = .decoding [] index assigned →
      s'.run = Function.update s.run i (.waitApplied index assigned) →
      s'.responds = s.responds → RunStep s a s'
  | test (i index : Nat) (assigned : List Nat) : a = .testApplied i →
      s.run i = .waitApplied index assigned →
      s'.run = Function.update s.run i (if index < (s.progress i).lastApplied
        then .waitApplied index assigned else .replying assigned) →
      s'.responds = s.responds → RunStep s a s'
  | respond (i : Nat) (assigned : List Nat) : s.run i = .replying assigned →
      s'.run = Function.update s.run i .idle →
      s'.responds = .respond i assigned (s.progress i).lastApplied :: s.responds → RunStep s a s'

theorem RunStep.of_put {s s' : Cluster} {a : Action} {i : Nat} {nd : RaftNode}
    (nodes : s'.nodes = Function.update s.nodes i nd) (same : nd.run = (s.nodes i).run)
    (responds : s'.responds = s.responds) : RunStep s a s' :=
  .apart (field_put_same RaftNode.run nodes same) responds

theorem step_runStep {cfg : Config} {s s' : Cluster} {a : Action}
    (h : step cfg s a = some s') : RunStep s a s' := by
  cases a with
  | connect i j =>
      obtain ⟨-, rfl⟩ := step_connect.mp h
      exact .of_put rfl rfl (responds_put ..)
  | electionTimer i =>
      obtain ⟨-, rfl⟩ := step_electionTimer.mp h
      refine .of_put rfl RaftNode.electionTimer_run ?_
      rw [responds_put]
      split_ifs <;> rfl
  | startElection i =>
      obtain ⟨-, rfl⟩ := step_startElection.mp h
      exact .of_put rfl rfl ((responds_addVoteCalls ..).trans (responds_put ..))
  | raftVote k =>
      obtain ⟨call, -, -, rfl⟩ := step_raftVote.mp h
      refine .of_put rfl (RaftNode.raftVote_run call.request) ?_
      rw [responds_setVoteCall, responds_put, voteEvents]
      split_ifs <;> rfl
  | voteTimeout k =>
      obtain ⟨call, -, -, rfl⟩ := step_voteTimeout.mp h
      exact .apart rfl rfl
  | voteReply k =>
      obtain ⟨call, -, rets, -, -, r, did, rfl⟩ := step_voteReply.mp h
      obtain ⟨run, events⟩ := RaftNode.voteReply_run did
      refine .of_put rfl run ?_
      rw [responds_setVoteCall, responds_put, events]
      rfl
  | heartbeat i j =>
      obtain ⟨-, rfl⟩ := step_heartbeat.mp h
      exact .apart rfl rfl
  | replicateSend i l =>
      obtain ⟨loop, -, -, ⟨-, rfl⟩ | ⟨-, -, rfl⟩ | ⟨-, -, -, rfl⟩⟩ := step_replicateSend.mp h
      · exact .of_put rfl rfl (responds_put ..)
      · exact .apart rfl rfl
      · exact .of_put rfl rfl ((responds_addAppendCall ..).trans (responds_put ..))
  | replicateTimeout i l =>
      obtain ⟨loop, k, -, -, rfl⟩ := step_replicateTimeout.mp h
      exact .of_put rfl rfl (responds_put ..)
  | replicateReply i l =>
      obtain ⟨loop, k, call, rets, -, -, -, -, -, rfl⟩ := step_replicateReply.mp h
      refine .of_put rfl (RaftNode.replicateReply_run loop.nodeId rets) ?_
      rw [responds_put, RaftNode.replicateReply_responds]
      rfl
  | appendEntries k =>
      obtain ⟨call, -, -, ⟨rets, -, rfl⟩ | ⟨-, rfl⟩⟩ := step_appendEntries.mp h
      · exact .of_put rfl (RaftNode.appendEntries_run call.request)
          ((responds_setAppendCall ..).trans (responds_put ..))
      · exact .around call.dst _ (run_put rfl) rfl (responds_put ..)
  | appendEntriesEnd i =>
      obtain ⟨k, params, call, r, -, -, did, rfl⟩ := step_appendEntriesEnd.mp h
      refine .around i _ (run_put rfl) ?_ ((responds_setAppendCall ..).trans (responds_put ..))
      rw [(RaftNode.appendEntriesEnd_cases did).1]
      rfl
  | applyRound i =>
      obtain ⟨-, logger, -, rfl⟩ := step_applyRound.mp h
      exact .of_put rfl rfl (responds_put ..)
  | clientMsg i type triples =>
      obtain ⟨⟨-, idle⟩, rfl⟩ := step_clientMsg.mp h
      obtain ⟨outside, events⟩ := RaftNode.handleMsg_run (i := i) idle type triples
      refine .around i _ (run_put rfl) outside ?_
      rw [responds_put, events]
      rfl
  | testNoOp i =>
      obtain ⟨triples, -, rfl⟩ := step_testNoOp.mp h
      refine .around i _ (run_put rfl) ?_ (responds_put ..)
      rw [RaftNode.testNoOp]
      split_ifs <;> rfl
  | lockLog i garbage =>
      obtain ⟨triples, -, rfl⟩ := step_lockLog.mp h
      exact .lock i garbage triples ((run_put rfl).trans rfl) (responds_put ..)
  | decodeTriple i =>
      obtain ⟨triples, index, assigned, nd, run, did, rfl⟩ := step_decodeTriple.mp h
      cases triples with
      | nil =>
          cases did
          exact .decoded i index assigned run ((run_put rfl).trans rfl) (responds_put ..)
      | cons t rest =>
          obtain ⟨run', length⟩ := RaftNode.decodeTriple_run did
          refine .decode i index rest assigned t run ((run_put rfl).trans (by rw [run']; rfl)) ?_
            (responds_put ..)
          rw [entries_put rfl, Function.update_self]
          exact length
  | testApplied i =>
      obtain ⟨index, assigned, run, rfl⟩ := step_testApplied.mp h
      exact .test i index assigned rfl run ((run_put rfl).trans rfl) (responds_put ..)
  | respond i =>
      obtain ⟨assigned, run, rfl⟩ := step_respond.mp h
      exact .respond i assigned run ((run_put rfl).trans rfl) (responds_put ..)

/-- `index` is the last of the assigned indices, and the greatest. -/
def Assigned (index : Nat) (assigned : List Nat) : Prop :=
  (∀ n ∈ assigned, n ≤ index) ∧ (assigned ≠ [] → index ∈ assigned)

/-- What `run()` knows of the indices it has assigned, while the log has `length` entries. -/
def IndexOk (length : Nat) : RunPc → Prop
  | .decoding _ index assigned => Assigned index assigned ∧ ∀ n ∈ assigned, n < length
  | .waitApplied index assigned => Assigned index assigned
  | _ => True

theorem IndexOk.of_outside {length : Nat} {pc : RunPc} (outside : pc.outside = true) :
    IndexOk length pc := by
  cases pc <;> trivial

theorem IndexOk.longer {m n : Nat} {pc : RunPc} (ok : IndexOk m pc) (le : m ≤ n) :
    IndexOk n pc := by
  cases pc with
  | decoding triples index assigned => exact ⟨ok.1, fun k mem => (ok.2 k mem).trans_le le⟩
  | waitApplied index assigned => exact ok
  | _ => trivial

/-- Only `run()` itself shortens a log, outside the registration handlers. -/
theorem indexOk_kept {cfg : Config} {s s' : Cluster} {a : Action} (h : step cfg s a = some s')
    {i : Nat} (ok : IndexOk (s.entries i).length (s.run i)) (same : s'.run i = s.run i) :
    IndexOk (s'.entries i).length (s'.run i) := by
  rcases entries_step h i with grows | ⟨k, params, p, rfl, at_, -, -⟩
  · rw [same]
    exact ok.longer grows.length_le
  · rw [same, Cluster.run, RaftNode.run_of_accepting at_]
    trivial

theorem indexOk_step {cfg : Config} {s s' : Cluster} {a : Action}
    (ok : ∀ i, IndexOk (s.entries i).length (s.run i)) (h : step cfg s a = some s') (i : Nat) :
    IndexOk (s'.entries i).length (s'.run i) := by
  have moved : ∀ {v : Nat} {pc : RunPc}, s'.run = Function.update s.run v pc →
      (i = v → IndexOk (s'.entries i).length pc) → IndexOk (s'.entries i).length (s'.run i) := by
    intro v pc eq own
    by_cases at_ : i = v
    · rw [eq, at_, Function.update_self]
      exact at_ ▸ own at_
    · exact indexOk_kept h (ok i) (by rw [eq, Function.update_of_ne at_])
  cases step_runStep h with
  | apart same _ => exact indexOk_kept h (ok i) (by rw [same])
  | around v pc run outside _ => exact moved run fun _ => .of_outside outside
  | lock v garbage triples run _ => exact moved run fun _ => ⟨⟨by simp, by simp⟩, by simp⟩
  | decode v index rest assigned t was run length _ =>
      refine moved run fun at_ => ?_
      subst at_
      have old := ok i
      rw [was] at old
      refine ⟨⟨fun n mem => ?_, fun _ => by simp⟩, fun n mem => ?_⟩
      all_goals
        rcases List.mem_append.mp mem with mem | mem
      · exact (old.2 n mem).le
      · exact (List.mem_singleton.mp mem).le
      · exact (old.2 n mem).trans (length ▸ Nat.lt_succ_self _)
      · rw [List.mem_singleton.mp mem, length]
        exact Nat.lt_succ_self _
  | decoded v index assigned was run _ =>
      refine moved run fun at_ => ?_
      subst at_
      have old := ok i
      rw [was] at old
      exact old.1
  | test v index assigned _ was run _ =>
      refine moved run fun at_ => ?_
      subst at_
      have old := ok i
      rw [was] at old
      split_ifs
      · exact old
      · trivial
  | respond v assigned _ run _ => exact moved run fun _ => trivial

/-- The index `run()` waits for, with the indices it has assigned. -/
def RaftNode.awaited (nd : RaftNode) : Option (Nat × List Nat) :=
  match nd.run with
  | .waitApplied index assigned => some (index, assigned)
  | _ => none

/-- A handler that has appended something tests its loop when that is applied. -/
def WaitsApplied (s : Cluster) : Action → Prop
  | .testApplied i => ∀ r ∈ (s.nodes i).awaited, r.2 = [] ∨
      r.1 ≤ (s.nodes i).m_raft_logger.m_lastApplied
  | _ => True

instance (s : Cluster) : DecidablePred (WaitsApplied s) := by
  rintro ⟨⟩ <;> dsimp only [WaitsApplied] <;> infer_instance

theorem awaited_eq {nd : RaftNode} {index : Nat} {assigned : List Nat}
    (h : nd.run = .waitApplied index assigned) : nd.awaited = some (index, assigned) := by
  simp [RaftNode.awaited, h]

def Acknowledged (s : Cluster) : Prop :=
  ∀ i assigned lastApplied, .respond i assigned lastApplied ∈ s.history →
    ∀ n ∈ assigned, n ≤ lastApplied

/-- What `run()` is about to respond to is applied. -/
def ReplyOk (lastApplied : Nat) : RunPc → Prop
  | .replying assigned => ∀ n ∈ assigned, n ≤ lastApplied
  | _ => True

theorem ReplyOk.later {m n : Nat} {pc : RunPc} (ok : ReplyOk m pc) (le : m ≤ n) :
    ReplyOk n pc := by
  cases pc with
  | replying assigned => exact fun k mem => (ok k mem).trans le
  | _ => trivial

theorem ReplyOk.of_outside {lastApplied : Nat} {pc : RunPc} (outside : pc.outside = true) :
    ReplyOk lastApplied pc := by
  cases pc <;> trivial

theorem replyOk_step {cfg : Config} {s s' : Cluster} {a : Action}
    (index : ∀ i, IndexOk (s.entries i).length (s.run i))
    (reply : ∀ i, ReplyOk (s.progress i).lastApplied (s.run i)) (ok : WaitsApplied s a)
    (h : step cfg s a = some s') (i : Nat) : ReplyOk (s'.progress i).lastApplied (s'.run i) := by
  have moved : ∀ {v : Nat} {pc : RunPc}, s'.run = Function.update s.run v pc →
      (i = v → ReplyOk (s.progress i).lastApplied pc) →
      ReplyOk (s'.progress i).lastApplied (s'.run i) := by
    intro v pc eq own
    refine ReplyOk.later ?_ (lastApplied_mono h i)
    rw [eq, Function.update_apply]
    split_ifs with at_
    · exact own at_
    · exact reply i
  cases step_runStep h with
  | apart same _ => exact (same ▸ reply i).later (lastApplied_mono h i)
  | around v pc run outside _ => exact moved run fun _ => .of_outside outside
  | lock v garbage triples run _ => exact moved run fun _ => trivial
  | decode v index rest assigned t _ run _ _ => exact moved run fun _ => trivial
  | decoded v index assigned _ run _ => exact moved run fun _ => trivial
  | test v last assigned act was run _ =>
      subst act
      refine moved run fun at_ => ?_
      subst at_
      have old := index i
      rw [was] at old
      split_ifs
      · trivial
      · -- the loop ends: everything assigned is at most the awaited index
        intro n mem
        rcases ok _ (awaited_eq was) with none | applied
        · have none : assigned = [] := none
          rw [none] at mem
          cases mem
        · exact (old.1 n mem).trans applied
  | respond v assigned _ run _ => exact moved run fun _ => trivial

theorem acknowledged_step {cfg : Config} {s s' : Cluster} {a : Action} (right : Acknowledged s)
    (reply : ∀ i, ReplyOk (s.progress i).lastApplied (s.run i))
    (h : step cfg s a = some s') : Acknowledged s' := by
  intro i assigned lastApplied mem
  have mem : .respond i assigned lastApplied ∈ s'.responds := List.mem_filter.mpr ⟨mem, rfl⟩
  have old : .respond i assigned lastApplied ∈ s.responds → ∀ n ∈ assigned, n ≤ lastApplied :=
    fun mem => right i assigned lastApplied (List.mem_filter.mp mem).1
  cases step_runStep h with
  | apart _ same => exact old (same ▸ mem)
  | around _ _ _ _ same => exact old (same ▸ mem)
  | lock _ _ _ _ same => exact old (same ▸ mem)
  | decode _ _ _ _ _ _ _ _ same => exact old (same ▸ mem)
  | decoded _ _ _ _ _ same => exact old (same ▸ mem)
  | test _ _ _ _ _ _ same => exact old (same ▸ mem)
  | respond v replied was _ responds =>
      rw [responds] at mem
      rcases List.mem_cons.mp mem with new | mem
      · cases new
        have ok := reply i
        rw [was] at ok
        exact ok
      · exact old mem

/-- In a run where a handler that has appended something tests its loop only when that
is applied, every response leaves with everything it answers for applied. -/
theorem acknowledged_when_applied {cfg : Config} {as : List Action} {s : Cluster}
    (run : Run (step cfg) WaitsApplied {} as s) : Acknowledged s := by
  obtain ⟨-, -, right⟩ := run.invariant
    (P := fun s => (∀ i, IndexOk (s.entries i).length (s.run i)) ∧
      (∀ i, ReplyOk (s.progress i).lastApplied (s.run i)) ∧ Acknowledged s)
    ⟨fun _ => .of_outside rfl, fun _ => .of_outside rfl, by simp [Acknowledged]⟩
    fun _ _ _ ⟨index, reply, right⟩ ok next =>
      ⟨indexOk_step index next, replyOk_step index reply ok next,
        acknowledged_step right reply next⟩
  exact right

/-- A registration of node 0 is committed and applied before the handler looks. -/
def zeroRegisters : List Action :=
  zeroElected ++ roundToOne 0 0 ++ [.clientMsg 0 .RPC_SERVER_INIT [⟨"f", "ip", 80⟩], .testNoOp 0,
    .lockLog 0 0, .decodeTriple 0, .decodeTriple 0]

theorem registration_acknowledged : ∃ s, .respond 0 [2] 2 ∈ s.history ∧ Acknowledged s := by
  have done : (exec (guarded (step threeNodes) WaitsApplied) {} (zeroRegisters ++ roundToOne 0 1 ++
      [.applyRound 0, .applyRound 0, .testApplied 0, .respond 0])).map (fun s =>
        decide (.respond 0 [2] 2 ∈ s.history)) = some true := by decide +kernel
  obtain ⟨s, run, seen⟩ := Option.map_eq_some_iff.mp done
  exact ⟨s, of_decide_eq_true seen, acknowledged_when_applied (.of_guarded run)⟩

/-- The loop waits for the wrong order: a registration can be acknowledged while it is
neither committed nor applied. -/
theorem unapplied_acknowledged : ∃ s,
    Run (step threeNodes) Always {} (zeroRegisters ++ [.testApplied 0, .respond 0]) s ∧
      ¬ Acknowledged s := by
  have done : (exec (step threeNodes) {} (zeroRegisters ++ [.testApplied 0, .respond 0])).map
      (fun s => decide (.respond 0 [2] 0 ∈ s.history)) = some true := by decide +kernel
  obtain ⟨s, run, seen⟩ := Option.map_eq_some_iff.mp done
  refine ⟨s, .of_exec run, fun right => ?_⟩
  have := right 0 [2] 0 (of_decide_eq_true seen) 2 (List.mem_singleton_self 2)
  omega

/-- Where the condition fails in a run, the run can go on to a response that is wrong. -/
theorem acknowledged_too_early {cfg : Config} {as : List Action} {s : Cluster}
    (run : Run (step cfg) Always {} as s) {i index : Nat} {assigned : List Nat}
    (waits : (s.nodes i).run = .waitApplied index assigned)
    (early : ¬ WaitsApplied s (.testApplied i)) :
    ∃ t, Run (step cfg) Always s [.testApplied i, .respond i] t ∧ ¬ Acknowledged t := by
  have ok : ∀ i, IndexOk (s.entries i).length (s.run i) :=
    run.invariant (P := fun s => ∀ i, IndexOk (s.entries i).length (s.run i))
      (fun _ => .of_outside rfl) fun _ _ _ ok _ next => indexOk_step ok next
  have own : Assigned index assigned := by
    have := ok i
    rwa [show s.run i = .waitApplied index assigned from waits] at this
  obtain ⟨some_, short⟩ : assigned ≠ [] ∧ (s.nodes i).m_raft_logger.m_lastApplied < index := by
    simpa [WaitsApplied, awaited_eq waits] using early
  have tested : step cfg s (.testApplied i) = some _ :=
    step_testApplied.mpr ⟨index, assigned, waits, rfl⟩
  refine ⟨_, (Run.single trivial tested).trans (Run.single trivial (step_respond.mpr
    ⟨assigned, ?_, rfl⟩)), fun right => ?_⟩
  · simp [RaftNode.testApplied, Nat.lt_asymm short]
  · have := right i assigned _ (List.mem_cons_self ..) index (own.2 some_)
    simp [RaftNode.testApplied] at this
    omega

end CRpc.Raft
