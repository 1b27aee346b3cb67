import CRpc.Coroutine.Callbacks

/-! From `getExpiredcbs` to `m_tasks`: the callbacks that `getTaskFromTimer` takes and adds. -/
namespace CRpc
open Function Transition

namespace Scheduler

def Awake (s : Scheduler) : Prop := ∀ k, s.worker k ≠ .ended → s.m_stop = false

/-- What `stop` writes and where the other workers are, a worker does not change. -/
structure KeepsStop (s t : Scheduler) (k : ℕ) : Prop where
  stop : t.m_stop = s.m_stop
  others : ∀ j, j ≠ k → t.worker j = s.worker j

theorem keepsStop_runInstr {s t : Scheduler} {k c : ℕ} (h : s.runInstr k c = some t) :
    KeepsStop s t k := by
  have same : KeepsStop s s k := ⟨rfl, fun _ _ => rfl⟩
  cases code : s.code c with
  | nil => simp [runInstr, code] at h
  | cons instr rest =>
    cases instr with
    | lock m | unlock m | tryLock m | release m | cvLock v | cvPop v | cvPopAll v =>
      simp only [runInstr, code] at h
      split at h <;> cases h <;> exact ⟨rfl, fun _ _ => rfl⟩
    | enqueue m | own m | setWaiting | terminate | cvPush v mutex =>
      simp only [runInstr, code] at h
      cases h
      exact ⟨rfl, fun _ _ => rfl⟩
    | free spin =>
      simp only [runInstr, code] at h
      cases h
      cases spin <;> exact ⟨rfl, fun _ _ => rfl⟩
    | yield =>
      simp only [runInstr, code] at h
      cases h
      exact ⟨rfl, fun j ne => update_of_ne ne ..⟩
    | halt => simp [runInstr, code] at h

theorem keepsStop_runCoroutine {s t : Scheduler} {k c : ℕ} (h : s.runCoroutine k c = some t) :
    KeepsStop s t k := by
  cases now : s.hand c with
  | empty =>
    simp only [runCoroutine, now] at h
    exact keepsStop_runInstr h
  | freeing spin w =>
    simp only [runCoroutine, now] at h
    cases h
    cases spin <;> exact ⟨rfl, fun _ _ => rfl⟩
  | adding w =>
    simp only [runCoroutine, now] at h
    split at h <;> cases h <;> exact ⟨rfl, fun _ _ => rfl⟩
  | readying w | pushing w =>
    simp only [runCoroutine, now] at h
    cases h
    exact ⟨rfl, fun _ _ => rfl⟩

theorem keepsStop_work {s t : Scheduler} {k : ℕ} (h : s.work k = some t) :
    KeepsStop s t k ∧ (s.worker k = .ended → s.m_stop = false) := by
  have moves : ∀ (pc : WorkerPc) j, j ≠ k → update s.worker k pc j = s.worker j :=
    fun pc j ne => update_of_ne ne ..
  cases now : s.worker k with
  | ended =>
    simp only [work, now] at h
    obtain ⟨⟨-, started⟩, h⟩ := Option.ite_none_right_eq_some.mp h
    cases h
    exact ⟨⟨rfl, moves _⟩, fun _ => started⟩
  | running c => simp [work, now] at h
  | idle | looking | returned c | adding c =>
    simp only [work, now] at h
    split at h <;> cases h <;> exact ⟨⟨rfl, moves _⟩, fun ended => by cases ended⟩
  | popped c | pushing c =>
    simp only [work, now] at h
    cases h
    exact ⟨⟨rfl, moves _⟩, fun ended => by cases ended⟩
  | timing c =>
    cases c <;>
    · simp only [work, now] at h
      cases h
      exact ⟨⟨rfl, moves _⟩, fun ended => by cases ended⟩

theorem Awake.moves {s t : Scheduler} {k : ℕ} (awake : s.Awake) (keeps : KeepsStop s t k)
    (runs : s.worker k ≠ .ended ∨ s.m_stop = false) : t.Awake := by
  intro j running
  rw [keeps.stop]
  by_cases same : j = k
  · exact runs.elim (awake k) id
  · rw [keeps.others j same] at running
    exact awake j running

theorem awake_step {s t : Scheduler} {a : SchedulerAction} (awake : s.Awake) (goes : a ≠ .stop)
    (h : s.step a = some t) : t.Awake := by
  cases a with
  | start =>
    cases h
    exact fun _ _ => rfl
  | stop => exact absurd rfl goes
  | spawn =>
    obtain ⟨-, h⟩ := Option.ite_none_right_eq_some.mp h
    cases h
    exact awake
  | work k =>
    obtain ⟨keeps, started⟩ := keepsStop_work h
    refine awake.moves keeps ?_
    by_cases ended : s.worker k = .ended
    · exact .inr (started ended)
    · exact .inl ended
  | run k =>
    simp only [step] at h
    split at h
    · rename_i c here
      refine awake.moves (keepsStop_runCoroutine h) (.inl ?_)
      rw [here]
      exact fun ended => by cases ended
    · cases h
  | call k call =>
    simp only [step] at h
    split at h
    · split at h <;> cases h
      exact awake
    · cases h

end Scheduler

/-- What the workers took from the timer and what they pushed to `m_tasks`, beside the scheduler
and its timer. -/
structure Expiries where
  alarms : Alarms
  taken : ℕ → List ℕ := fun _ => []
  pushed : ℕ → List ℕ := fun _ => []

namespace Expiries

/-- A worker takes what `getExpiredcbs` gives it; it pushes what `addTask` does not refuse. -/
def record (s : Expiries) : AlarmAction → Expiries
  | .scan k => match s.alarms.scan k with
    | .locking now => { s with
        taken := update s.taken k (s.taken k ++ (s.alarms.timer.getExpiredcbs now).2) }
    | .adding (e :: _) => match s.alarms.scheduler.spawn with
      | some _ => { s with pushed := update s.pushed k (s.pushed k ++ [e]) }
      | none => s
    | _ => s
  | _ => s

def step (s : Expiries) (a : AlarmAction) : Option Expiries :=
  (s.alarms.step a).map fun alarms => { s.record a with alarms }

/-- Each callback a worker took it has pushed once, or has yet to push. -/
def Reach (s : Expiries) : Prop := ∀ k, s.taken k = s.pushed k ++ (s.alarms.scan k).cbs

/-- The call of `stop`. -/
def stops : AlarmAction → Bool
  | .scheduler .stop => true
  | _ => false

def NotStopped (_ : Expiries) (a : AlarmAction) : Prop := stops a = false

def adds (s : Expiries) : AlarmAction → Bool
  | .scan k => !(s.alarms.scan k).cbs.isEmpty
  | _ => false

def Counted (s : Expiries) (a : AlarmAction) : Prop := NotStopped s a ∧
  (s.adds a = true → s.alarms.scheduler.m_runningThreads = s.alarms.scheduler.m_threads)

instance (s : Expiries) (a : AlarmAction) : Decidable (NotStopped s a) :=
  inferInstanceAs (Decidable (_ = _))

instance (s : Expiries) (a : AlarmAction) : Decidable (Counted s a) :=
  inferInstanceAs (Decidable (_ ∧ (_ → _)))

/-- What the step of a worker does to its callbacks: it has more, pushes its next one, or loses
it. -/
inductive Moves (s t : Expiries) (a : AlarmAction) (k : ℕ) : Prop
  | takes (cbs : List ℕ) (taken : t.taken k = s.taken k ++ cbs)
      (rest : t.pushed k ++ (t.alarms.scan k).cbs = s.pushed k ++ (s.alarms.scan k).cbs ++ cbs)
      (accepted : a = .scan k → s.adds a = true → s.alarms.scheduler.accepts = true)
  | loses (e : ℕ) (adds : s.adds a = true) (refused : s.alarms.scheduler.accepts = false)
      (taken : t.taken k = s.taken k) (pushed : t.pushed k = s.pushed k)
      (rest : (s.alarms.scan k).cbs = e :: (t.alarms.scan k).cbs)

section Steps
variable {s t : Expiries} {a : AlarmAction}

theorem Moves.of_same {k : ℕ} (idle : a = .scan k → s.adds a = false)
    (taken : t.taken k = s.taken k) (pushed : t.pushed k = s.pushed k)
    (cbs : (t.alarms.scan k).cbs = (s.alarms.scan k).cbs) :
    Moves s t a k := by
  apply Moves.takes []
  · rw [taken, List.append_nil]
  · rw [pushed, cbs, List.append_nil]
  · exact fun own adds => absurd adds (Bool.eq_false_iff.mp (idle own))

theorem cbs_work {s t : Alarms} {j : ℕ} (h : s.work j = some t) (k : ℕ) :
    (t.scan k).cbs = (s.scan k).cbs := by
  cases Alarms.worked_of_work h with
  | leaves scheduler added moved =>
    by_cases same : k = j
    · subst same
      change (update s.scan k Scan.reading k).cbs = _
      rw [update_self, added]
      rfl
    · change (update s.scan j Scan.reading k).cbs = _
      rw [update_of_ne same]
  | _ => rfl

theorem moves_scan {j : ℕ} (h : s.step (.scan j) = some t) (k : ℕ) : Moves s t (.scan j) k := by
  obtain ⟨alarms, moved, rfl⟩ := Option.map_eq_some_iff.mp h
  have other : ∀ {k}, k ≠ j → AlarmAction.scan j = .scan k → s.adds (.scan j) = false :=
    fun ne own => absurd (AlarmAction.scan.inj own).symm ne
  cases (Alarms.scanned_of_scanStep moved).2 with
  | reads reading =>
    have recorded : s.record (.scan j) = s := by simp only [record, reading]
    have none : s.adds (.scan j) = false := by simp only [adds, reading, Scan.cbs]; rfl
    refine .of_same (fun _ => none) (by rw [recorded]) (by rw [recorded]) ?_
    by_cases same : k = j
    · subst same
      change (update s.alarms.scan k (Scan.locking _) k).cbs = _
      rw [update_self, reading]
      rfl
    · change (update s.alarms.scan j (Scan.locking _) k).cbs = _
      rw [update_of_ne same]
  | extracts now locking =>
    simp only [record, locking]
    by_cases same : k = j
    · subst same
      refine .takes (s.alarms.timer.getExpiredcbs now).2 (update_self ..) ?_ ?_
      · change _ ++ (update s.alarms.scan k (Scan.adding _) k).cbs = _
        rw [update_self, locking, Scan.cbs, Scan.cbs, List.append_nil]
      · intro _ adds
        simp only [Expiries.adds, locking, Scan.cbs] at adds
        cases adds
    · exact .of_same (other same) (update_of_ne same ..) rfl
        (congrArg Scan.cbs (update_of_ne same ..))
  | adds e cbs scheduler adding spawned =>
    simp only [record, adding, spawned]
    by_cases same : k = j
    · subst same
      apply Moves.takes []
      · exact (List.append_nil _).symm
      · change update s.pushed k _ k ++ (update s.alarms.scan k (Scan.adding cbs) k).cbs = _
        rw [update_self, update_self, adding, List.append_nil, List.append_assoc]
        rfl
      · exact fun _ _ => (Option.ite_none_right_eq_some.mp spawned).1
    · exact .of_same (other same) rfl (update_of_ne same ..)
        (congrArg Scan.cbs (update_of_ne same ..))
  | loses e cbs adding refused =>
    have adds : s.adds (.scan j) = true := by
      simp only [Expiries.adds, adding]
      rfl
    have recorded : s.record (.scan j) = s := by simp only [record, adding, refused]
    rw [recorded]
    by_cases same : k = j
    · subst same
      refine .loses e adds ?_ rfl rfl ?_
      · by_contra accepted
        rw [Bool.not_eq_false] at accepted
        rw [Scheduler.spawn, if_pos accepted] at refused
        cases refused
      · change _ = e :: (update s.alarms.scan k (Scan.adding cbs) k).cbs
        rw [update_self, adding]
        rfl
    · exact .of_same (other same) rfl rfl (congrArg Scan.cbs (update_of_ne same ..))

theorem moves_step (h : s.step a = some t) (k : ℕ) : Moves s t a k := by
  cases a with
  | scan j => exact moves_scan h k
  | scheduler a =>
    obtain ⟨alarms, moved, rfl⟩ := Option.map_eq_some_iff.mp h
    refine .of_same (fun own => by cases own) rfl rfl ?_
    cases a with
    | work j => exact cbs_work moved k
    | _ =>
      simp only [Alarms.step] at moved
      obtain ⟨scheduler, -, rfl⟩ := Option.map_eq_some_iff.mp moved
      rfl
  | _ =>
    obtain ⟨alarms, moved, rfl⟩ := Option.map_eq_some_iff.mp h
    have framed := Alarms.framed_of_step moved (fun _ e => by cases e) (fun _ e => by cases e)
    refine .of_same (fun own => by cases own) rfl rfl ?_
    change (alarms.scan k).cbs = _
    rw [framed.scan]

/-- A callback is added by a worker, and so not in a scheduler that is stopped. -/
theorem started_of_adds (awake : s.alarms.scheduler.Awake) (adds : s.adds a = true)
    (h : s.step a = some t) : s.alarms.scheduler.m_stop = false := by
  cases a with
  | scan j =>
    obtain ⟨alarms, moved, rfl⟩ := Option.map_eq_some_iff.mp h
    obtain ⟨⟨c, timing⟩, -⟩ := Alarms.scanned_of_scanStep moved
    apply awake j
    rw [timing]
    exact fun ended => by cases ended
  | _ => cases adds

theorem accepts_iff {s : Scheduler} (started : s.m_stop = false) :
    s.accepts = true ↔ s.m_runningThreads = s.m_threads := by
  simp [Scheduler.accepts, started]

/-- What a worker has pushed and has yet to push are callbacks it took, in this order. -/
def Within (s : Expiries) : Prop :=
  ∀ k, (s.pushed k ++ (s.alarms.scan k).cbs).Sublist (s.taken k)

theorem within_step (within : s.Within) (h : s.step a = some t) : t.Within := by
  intro k
  cases moves_step h k with
  | takes cbs taken rest accepted =>
    rw [taken, rest]
    exact (within k).append_right cbs
  | loses e adds refused taken pushed rest =>
    rw [taken, pushed]
    refine List.Sublist.trans ?_ (within k)
    rw [rest]
    exact (List.Sublist.refl _).append (List.sublist_cons_self ..)

theorem reach_step (awake : s.alarms.scheduler.Awake) (within : s.Within)
    (h : s.step a = some t) : t.Reach ↔ s.Reach ∧
      (s.adds a = true → s.alarms.scheduler.m_runningThreads = s.alarms.scheduler.m_threads) := by
  constructor
  · intro reach
    constructor
    · intro k
      have all := reach k
      cases moves_step h k with
      | takes cbs taken rest accepted =>
        rw [taken, rest] at all
        exact List.append_cancel_right all
      | loses e adds refused taken pushed rest =>
        have length := (within k).length_le
        rw [← taken, all, pushed, rest] at length
        simp only [List.length_append, List.length_cons] at length
        omega
    · intro adds
      have started := started_of_adds awake adds h
      cases a with
      | scan j =>
        cases moves_step h j with
        | takes cbs taken rest accepted => exact (accepts_iff started).mp (accepted rfl adds)
        | loses e adds refused taken pushed rest =>
          have length := (within j).length_le
          have all := reach j
          rw [← taken, all, pushed, rest] at length
          simp only [List.length_append, List.length_cons] at length
          omega
      | _ => cases adds
  · rintro ⟨reach, counted⟩ k
    cases moves_step h k with
    | takes cbs taken rest accepted => rw [taken, rest, reach k]
    | loses e adds refused taken pushed rest =>
      have accepted := (accepts_iff (started_of_adds awake adds h)).mpr (counted adds)
      cases accepted.symm.trans refused

theorem awake_step (awake : s.alarms.scheduler.Awake) (goes : NotStopped s a)
    (h : s.step a = some t) : t.alarms.scheduler.Awake := by
  obtain ⟨alarms, moved, rfl⟩ := Option.map_eq_some_iff.mp h
  have going : ∀ b, a = .scheduler b → b ≠ .stop := by
    rintro b rfl rfl
    cases goes
  cases a with
  | scheduler a =>
    cases a with
    | work j =>
      cases Alarms.worked_of_work moved <;>
        exact Scheduler.awake_step awake (going _ rfl) ‹_›
    | _ =>
      simp only [Alarms.step] at moved
      obtain ⟨scheduler, steps, rfl⟩ := Option.map_eq_some_iff.mp moved
      exact Scheduler.awake_step awake (going _ rfl) steps
  | scan j =>
    cases (Alarms.scanned_of_scanStep moved).2 with
    | adds e cbs scheduler adding spawned =>
      exact Scheduler.awake_step (a := .spawn) awake (fun stops => by cases stops) spawned
    | _ => exact awake
  | _ =>
    have framed := Alarms.framed_of_step moved (fun _ e => by cases e) (fun _ e => by cases e)
    exact framed.scheduler ▸ awake

end Steps

/-- While `stop` is not called, every callback a worker takes from the timer is pushed to `m_tasks`
once or waits for its `addTask`, if and only if each `addTask` has found all workers counted. -/
theorem expired_pushed_iff {m_threads : ℕ} {as : List AlarmAction} {s : Expiries}
    (run : Run step NotStopped { alarms := { scheduler := { m_threads } } } as s) :
    s.Reach ↔ Run step Counted { alarms := { scheduler := { m_threads } } } as s := by
  have kept : s.alarms.scheduler.Awake ∧ s.Within ∧
      (s.Reach ↔ Run step Counted { alarms := { scheduler := { m_threads } } } as s) := by
    induction run with
    | refl =>
      exact ⟨fun _ live => absurd rfl live, fun _ => List.Sublist.slnil,
        iff_of_true (fun _ => rfl) .refl⟩
    | @snoc as t a u before goes next ih =>
      obtain ⟨awake, within, same⟩ := ih
      refine ⟨awake_step awake goes next, within_step within next, ?_⟩
      rw [reach_step awake within next, same]
      constructor
      · exact fun ⟨counted, fits⟩ => counted.snoc ⟨goes, fits⟩ next
      · intro whole
        obtain ⟨v, first, counted, -⟩ := Run.snoc_iff.mp whole
        obtain rfl : t = v := Option.some.inj (before.ends.symm.trans first.ends)
        exact ⟨first, counted.2⟩
  exact kept.2.2

/-- With one worker, counted from its start on, the event of `extraction` reaches `m_tasks`. -/
theorem extraction_pushed : ∃ s, Run step NotStopped { alarms := { scheduler :=
      { m_threads := 1 } } } Alarms.extraction s ∧ s.pushed 0 = [0] ∧ s.Reach := by
  have done : (exec (guarded step Counted) { alarms := { scheduler := { m_threads := 1 } } }
      Alarms.extraction).map (fun s => decide (s.pushed 0 = [0])) = some true := by decide +kernel
  obtain ⟨s, run, pushed⟩ := Option.map_eq_some_iff.mp done
  have counted := Run.of_guarded run
  have going : Run step NotStopped _ _ s := counted.mono fun _ _ allowed => allowed.1
  exact ⟨s, going, of_decide_eq_true pushed, (expired_pushed_iff going).mpr counted⟩

/-- With two workers, one of which has yet to count itself, the event is taken and lost. -/
theorem extraction_lost : ∃ s, Run step NotStopped { alarms := { scheduler :=
      { m_threads := 2 } } } Alarms.extraction s ∧ s.alarms.timer.m_timeEvents = [] ∧
    s.alarms.scheduler.m_tasks = [] ∧ ¬ s.Reach := by
  have done : (exec (guarded step NotStopped) { alarms := { scheduler := { m_threads := 2 } } }
      Alarms.extraction).map (fun s => decide ((s.alarms.timer.m_timeEvents = [] ∧
        s.alarms.scheduler.m_tasks = []) ∧
        s.taken 0 ≠ s.pushed 0 ++ (s.alarms.scan 0).cbs)) = some true := by decide +kernel
  obtain ⟨s, run, seen⟩ := Option.map_eq_some_iff.mp done
  obtain ⟨⟨gone, idle⟩, lost⟩ := of_decide_eq_true seen
  exact ⟨s, .of_guarded run, gone, idle, fun reach => lost (reach 0)⟩

end Expiries

end CRpc
