import CRpc.Coroutine.Scheduler
import CRpc.Coroutine.Timer

/-! The callbacks of timer events, from `getExpiredcbs` to their end. -/
namespace CRpc
open Function Transition

/-- Where a worker is in `getTaskFromTimer`. -/
inductive Scan
  | reading
  | locking (now : ℕ)
  | adding (cbs : List ℕ)

def Scan.cbs : Scan → List ℕ
  | .adding cbs => cbs
  | .reading | .locking _ => []

/-- An event is `off` from a `cancel` on, and `left` when the function that made it has cancelled it
and returned; `wake` and `resetTime` end both. -/
inductive EventUse
  | live | off | left
  deriving DecidableEq

/-- A scheduler and its timer. `callback` is the event whose callback a coroutine is made of,
`begun` whether it has been resumed. `setRepeated` and `cancleRepeated` are left out: they neither
cancel an event nor begin a callback. -/
structure Alarms where
  scheduler : Scheduler
  timer : Timer := {}
  now : ℕ := 0
  scan : ℕ → Scan := fun _ => .reading
  callback : ℕ → Option ℕ := fun _ => none
  begun : ℕ → Bool := fun _ => false
  usage : ℕ → EventUse := fun _ => .live

/-- A step of the scheduler; time passes; a step of a worker in `getTaskFromTimer`; a call of the
timer or an event; the return of the function that made an event. -/
inductive AlarmAction
  | scheduler (a : SchedulerAction)
  | tick
  | scan (k : ℕ)
  | addTimeEvent (now interval : ℕ) (is_repeated : Bool)
  | resetTime (e : ℕ)
  | resetTimeTo (e interval : ℕ)
  | wake (e : ℕ)
  | cancel (e : ℕ)
  | stop (e : ℕ)
  | leave (e : ℕ)

namespace Alarms

/-- A step of a worker in `run`: it stays in `getTaskFromTimer` until all is added, and may begin a
coroutine. -/
def work (s : Alarms) (k : ℕ) : Option Alarms :=
  match s.scheduler.worker k with
  | .timing _ => match s.scan k with
    | .adding [] => (s.scheduler.work k).map fun scheduler =>
      { s with scheduler, scan := update s.scan k .reading }
    | _ => none
  | .popped c => (s.scheduler.work k).map fun scheduler =>
    { s with scheduler, begun := update s.begun c true }
  | _ => (s.scheduler.work k).map fun scheduler => { s with scheduler }

/-- A step of a worker in `getTaskFromTimer`: the clock is read before the timer is locked, and the
callbacks are added when it no longer is. -/
def scanStep (s : Alarms) (k : ℕ) : Option Alarms :=
  match s.scheduler.worker k with
  | .timing _ => match s.scan k with
    | .reading => some { s with scan := update s.scan k (.locking s.now) }
    | .locking now => some { s with
        timer := (s.timer.getExpiredcbs now).1
        scan := update s.scan k (.adding (s.timer.getExpiredcbs now).2) }
    | .adding [] => none
    | .adding (e :: cbs) => match s.scheduler.spawn with
      | some scheduler => some { s with
          scheduler
          callback := update s.callback scheduler.m_coroutine_id (some e)
          scan := update s.scan k (.adding cbs) }
      | none => some { s with scan := update s.scan k (.adding cbs) }
  | _ => none

def use (s : Alarms) (e : ℕ) (timer : Timer) (usage : EventUse) : Option Alarms :=
  if e < s.timer.created then some { s with timer, usage := update s.usage e usage } else none

/-- The constructor of an event reads the clock before the timer is locked. -/
def step (s : Alarms) : AlarmAction → Option Alarms
  | .scheduler (.work k) => s.work k
  | .scheduler a => (s.scheduler.step a).map fun scheduler => { s with scheduler }
  | .tick => some { s with now := s.now + 1 }
  | .scan k => s.scanStep k
  | .addTimeEvent now interval is_repeated =>
    if now ≤ s.now then some { s with timer := s.timer.addTimeEvent now interval is_repeated }
    else none
  | .resetTime e => s.use e (s.timer.resetTime s.now e) .live
  | .resetTimeTo e interval => s.use e (s.timer.resetTimeTo s.now e interval) .live
  | .wake e => s.use e (s.timer.wake e) .live
  | .cancel e => s.use e (s.timer.cancel e) (if s.usage e = .left then .left else .off)
  | .stop e => s.use e (s.timer.stop e) (s.usage e)
  | .leave e => if s.usage e = .off then s.use e s.timer .left else none

/-- An event is cancelled when none of its callbacks waits to begin, and its function returns when
all have ended. -/
def Keeps (s : Alarms) : AlarmAction → Prop
  | .cancel e => (∀ k, e ∉ (s.scan k).cbs) ∧ ∀ c, s.callback c = some e → s.begun c = true
  | .leave e => ∀ c, s.callback c = some e → .halt ∈ s.scheduler.code c
  | _ => True

/-- No callback waits to begin for an event that is off, none is left of one that is left. -/
structure Quiet (s : Alarms) : Prop where
  created : ∀ e, s.usage e ≠ .live → e < s.timer.created
  cancled : ∀ e, s.usage e ≠ .live → (s.timer.event e).m_is_cancled = true
  scanned : ∀ k, ∀ e ∈ (s.scan k).cbs, s.usage e = .live
  waiting : ∀ c e, s.callback c = some e → s.begun c = false → s.usage e = .live
  ended : ∀ c e, s.callback c = some e → s.usage e = .left → .halt ∈ s.scheduler.code c

end Alarms

namespace Scheduler

/-- What is left to do of a call stays after the steps of the call. -/
theorem code_runInstr {s t : Scheduler} {k c : ℕ} (h : s.runInstr k c = some t) :
    (∀ d, d ≠ c → t.code d = s.code d) ∧ (.halt ∈ s.code c → .halt ∈ t.code c) := by
  have others : ∀ code : List CoroutineInstr, ∀ d, d ≠ c → update s.code c code d = s.code d :=
    fun code d ne => update_of_ne ne ..
  cases code : s.code c with
  | nil => simp [runInstr, code] at h
  | cons instr rest =>
    cases instr with
    | lock m | unlock m | tryLock m | release m | cvLock v | cvPop v =>
      simp only [runInstr, code] at h
      split at h <;> cases h <;> exact ⟨others _, by simp⟩
    | enqueue m | own m | setWaiting | yield | terminate =>
      simp only [runInstr, code] at h
      cases h
      exact ⟨others _, by simp⟩
    | cvPush v mutex =>
      simp only [runInstr, code] at h
      cases h
      refine ⟨others _, ?_⟩
      cases mutex <;> simp [waitCode]
    | cvPopAll v =>
      simp only [runInstr, code] at h
      split at h <;> cases h
      · exact ⟨others _, by simp⟩
      · exact ⟨fun _ _ => rfl, fun ended => code ▸ ended⟩
    | free spin =>
      simp only [runInstr, code] at h
      cases h
      cases spin <;> exact ⟨others _, by simp⟩
    | halt => simp [runInstr, code] at h

theorem code_work {s t : Scheduler} {k : ℕ} (h : s.work k = some t) : t.code = s.code := by
  cases now : s.worker k with
  | ended =>
    simp only [work, now] at h
    obtain ⟨-, h⟩ := Option.ite_none_right_eq_some.mp h
    cases h
    rfl
  | running c => simp [work, now] at h
  | idle | looking | returned c | adding c =>
    simp only [work, now] at h
    split at h <;> cases h <;> rfl
  | popped c | pushing c =>
    simp only [work, now] at h
    cases h
    rfl
  | timing c =>
    cases c <;>
    · simp only [work, now] at h
      cases h
      rfl

theorem halt_runCoroutine {s t : Scheduler} {k d c : ℕ} (h : s.runCoroutine k d = some t)
    (ended : .halt ∈ s.code c) : .halt ∈ t.code c := by
  cases now : s.hand d with
  | empty =>
    simp only [runCoroutine, now] at h
    obtain ⟨others, kept⟩ := code_runInstr h
    by_cases same : c = d
    · exact same ▸ kept (same ▸ ended)
    · exact others c same ▸ ended
  | freeing spin w =>
    simp only [runCoroutine, now] at h
    cases h
    cases spin <;> exact ended
  | adding w =>
    simp only [runCoroutine, now] at h
    split at h <;> cases h <;> exact ended
  | readying w | pushing w =>
    simp only [runCoroutine, now] at h
    cases h
    exact ended

theorem halt_step {s t : Scheduler} {a : SchedulerAction} {c : ℕ} (h : s.step a = some t)
    (ended : .halt ∈ s.code c) : .halt ∈ t.code c := by
  cases a with
  | start | stop =>
    cases h
    exact ended
  | spawn =>
    obtain ⟨-, h⟩ := Option.ite_none_right_eq_some.mp h
    cases h
    exact ended
  | work k => exact code_work h ▸ ended
  | run k =>
    simp only [step] at h
    split at h
    · exact halt_runCoroutine h ended
    · cases h
  | call k call =>
    simp only [step] at h
    split at h
    · rename_i d here
      split at h <;> cases h
      rename_i code
      by_cases same : c = d
      · subst same
        rw [code] at ended
        cases ended
      · change .halt ∈ update s.code d call.code c
        rwa [update_of_ne same]
    · cases h

end Scheduler

namespace Alarms

section Cases
variable {s t : Alarms} {k : ℕ}

/-- What a worker does in `run`: it leaves `getTaskFromTimer` when all is added, begins a coroutine,
or goes on. -/
inductive Worked (s : Alarms) (k : ℕ) : Alarms → Prop
  | leaves (scheduler : Scheduler) (added : s.scan k = .adding [])
      (moved : s.scheduler.step (.work k) = some scheduler) :
      Worked s k { s with scheduler, scan := update s.scan k .reading }
  | begins (c : ℕ) (scheduler : Scheduler)
      (moved : s.scheduler.step (.work k) = some scheduler) :
      Worked s k { s with scheduler, begun := update s.begun c true }
  | goes (scheduler : Scheduler) (moved : s.scheduler.step (.work k) = some scheduler) :
      Worked s k { s with scheduler }

theorem worked_of_work (h : s.work k = some t) : Worked s k t := by
  unfold work at h
  split at h
  · split at h
    · rename_i added
      obtain ⟨scheduler, moved, rfl⟩ := Option.map_eq_some_iff.mp h
      exact .leaves scheduler added moved
    · cases h
  · rename_i c now
    obtain ⟨scheduler, moved, rfl⟩ := Option.map_eq_some_iff.mp h
    exact .begins c scheduler moved
  · obtain ⟨scheduler, moved, rfl⟩ := Option.map_eq_some_iff.mp h
    exact .goes scheduler moved

/-- What a worker does in `getTaskFromTimer`. -/
inductive Scanned (s : Alarms) (k : ℕ) : Alarms → Prop
  | reads (reading : s.scan k = .reading) :
      Scanned s k { s with scan := update s.scan k (.locking s.now) }
  | extracts (now : ℕ) (locking : s.scan k = .locking now) :
      Scanned s k { s with
        timer := (s.timer.getExpiredcbs now).1
        scan := update s.scan k (.adding (s.timer.getExpiredcbs now).2) }
  | adds (e : ℕ) (cbs : List ℕ) (scheduler : Scheduler) (adding : s.scan k = .adding (e :: cbs))
      (spawned : s.scheduler.spawn = some scheduler) :
      Scanned s k { s with
        scheduler
        callback := update s.callback scheduler.m_coroutine_id (some e)
        scan := update s.scan k (.adding cbs) }
  | loses (e : ℕ) (cbs : List ℕ) (adding : s.scan k = .adding (e :: cbs))
      (refused : s.scheduler.spawn = none) :
      Scanned s k { s with scan := update s.scan k (.adding cbs) }

theorem scanned_of_scanStep (h : s.scanStep k = some t) :
    (∃ c, s.scheduler.worker k = .timing c) ∧ Scanned s k t := by
  unfold scanStep at h
  split at h
  · rename_i c timing
    refine ⟨⟨c, timing⟩, ?_⟩
    split at h
    · rename_i reading
      cases h
      exact .reads reading
    · rename_i now locking
      cases h
      exact .extracts now locking
    · cases h
    · rename_i e cbs adding
      split at h
      · rename_i scheduler spawned
        cases h
        exact .adds e cbs scheduler adding spawned
      · rename_i refused
        cases h
        exact .loses e cbs adding refused
  · cases h

structure Framed (s t : Alarms) : Prop where
  scheduler : t.scheduler = s.scheduler
  scan : t.scan = s.scan
  callback : t.callback = s.callback
  begun : t.begun = s.begun

theorem framed_of_use {e : ℕ} {timer : Timer} {usage : EventUse}
    (h : s.use e timer usage = some t) : Framed s t := by
  obtain ⟨-, h⟩ := Option.ite_none_right_eq_some.mp h
  cases h
  exact ⟨rfl, rfl, rfl, rfl⟩

theorem framed_of_step {a : AlarmAction} (h : s.step a = some t) (apart : ∀ b, a ≠ .scheduler b)
    (busy : ∀ k, a ≠ .scan k) : Framed s t := by
  cases a with
  | scheduler b => exact absurd rfl (apart b)
  | scan k => exact absurd rfl (busy k)
  | tick =>
    cases h
    exact ⟨rfl, rfl, rfl, rfl⟩
  | addTimeEvent now interval is_repeated =>
    obtain ⟨-, h⟩ := Option.ite_none_right_eq_some.mp h
    cases h
    exact ⟨rfl, rfl, rfl, rfl⟩
  | leave e =>
    obtain ⟨-, h⟩ := Option.ite_none_right_eq_some.mp h
    exact framed_of_use h
  | resetTime | resetTimeTo | wake | cancel | stop => exact framed_of_use h

end Cases

theorem quiet_initial (m_threads : ℕ) : Quiet { scheduler := { m_threads } } :=
  ⟨fun _ off => absurd rfl off, fun _ off => absurd rfl off,
    fun _ _ mem => absurd mem List.not_mem_nil, nofun, nofun⟩

section Steps
variable {s t : Alarms} (quiet : s.Quiet)
include quiet

/-- A step of the scheduler that may begin coroutines of live events. -/
theorem Quiet.schedules {a : SchedulerAction} {scheduler : Scheduler} {scan : ℕ → Scan}
    {begun : ℕ → Bool} (h : s.scheduler.step a = some scheduler)
    (scans : ∀ k, ∀ e ∈ (scan k).cbs, e ∈ (s.scan k).cbs)
    (begins : ∀ c, begun c = false → s.begun c = false) :
    Quiet { s with scheduler, scan, begun } := by
  constructor
  · exact quiet.created
  · exact quiet.cancled
  · exact fun k e mem => quiet.scanned k e (scans k e mem)
  · exact fun c e made fresh => quiet.waiting c e made (begins c fresh)
  · exact fun c e made left => Scheduler.halt_step h (quiet.ended c e made left)

theorem quiet_work {k : ℕ} (h : s.work k = some t) : t.Quiet := by
  cases worked_of_work h with
  | leaves scheduler added moved =>
    refine quiet.schedules moved ?_ fun _ => id
    intro j e mem
    by_cases same : j = k
    · subst same
      rw [update_self] at mem
      cases mem
    · rwa [update_of_ne same] at mem
  | begins c scheduler moved =>
    refine quiet.schedules moved (fun _ _ => id) ?_
    intro d fresh
    by_cases same : d = c
    · subst same
      rw [update_self] at fresh
      cases fresh
    · rwa [update_of_ne same] at fresh
  | goes scheduler moved => exact quiet.schedules moved (fun _ _ => id) fun _ => id

/-- The callbacks of a worker are of live events, and so are the coroutines made of them. -/
theorem quiet_scanStep {k : ℕ} (h : s.scanStep k = some t) : t.Quiet := by
  have scanned : ∀ scan : Scan, (∀ e ∈ scan.cbs, s.usage e = .live) →
      ∀ j, ∀ e ∈ (update s.scan k scan j).cbs, s.usage e = .live := by
    intro scan live j e mem
    by_cases same : j = k
    · subst same
      rw [update_self] at mem
      exact live e mem
    · rw [update_of_ne same] at mem
      exact quiet.scanned j e mem
  have held : ∀ e cbs, s.scan k = .adding (e :: cbs) → ∀ x ∈ e :: cbs, s.usage x = .live := by
    intro e cbs adding x mem
    apply quiet.scanned k x
    rw [adding]
    exact mem
  cases (scanned_of_scanStep h).2 with
  | reads reading =>
    exact ⟨quiet.created, quiet.cancled, scanned _ fun _ mem => absurd mem List.not_mem_nil,
      quiet.waiting, quiet.ended⟩
  | extracts now locking =>
    have same := s.timer.getExpiredcbs_settings now
    refine ⟨?_, ?_, scanned _ ?_, quiet.waiting, quiet.ended⟩
    · exact fun e off => same.created ▸ quiet.created e off
    · exact fun e off => (same.cancled e).trans (quiet.cancled e off)
    · intro e mem
      by_contra off
      cases (Timer.uncancled_of_mem mem).symm.trans (quiet.cancled e off)
  | adds e cbs scheduler adding spawned =>
    have live := held e cbs adding
    have rest := scanned (.adding cbs) fun x mem => live x (List.mem_cons_of_mem e mem)
    have made : ∀ c x, update s.callback scheduler.m_coroutine_id (some e) c = some x →
        x = e ∨ s.callback c = some x := by
      intro c x made
      by_cases same : c = scheduler.m_coroutine_id
      · rw [same, update_self] at made
        exact .inl (Option.some.inj made).symm
      · rw [update_of_ne same] at made
        exact .inr made
    refine ⟨quiet.created, quiet.cancled, rest, ?_, ?_⟩
    · intro c x new fresh
      rcases made c x new with rfl | old
      · exact live x List.mem_cons_self
      · exact quiet.waiting c x old fresh
    · intro c x new left
      rcases made c x new with rfl | old
      · cases (live x List.mem_cons_self).symm.trans left
      · exact Scheduler.halt_step (a := .spawn) spawned (quiet.ended c x old left)
  | loses e cbs adding refused =>
    have rest := scanned (.adding cbs) fun x mem =>
      held e cbs adding x (List.mem_cons_of_mem e mem)
    exact ⟨quiet.created, quiet.cancled, rest, quiet.waiting, quiet.ended⟩

/-- A call of an event whose callbacks are where its new use allows them to be. -/
theorem Quiet.uses {e : ℕ} {timer : Timer} {usage : EventUse} (h : s.use e timer usage = some t)
    (created : timer.created = s.timer.created)
    (others : ∀ x, x ≠ e → timer.event x = s.timer.event x)
    (off : usage ≠ .live → (timer.event e).m_is_cancled = true ∧ (∀ k, e ∉ (s.scan k).cbs) ∧
      ∀ c, s.callback c = some e → s.begun c = true)
    (left : usage = .left → ∀ c, s.callback c = some e → .halt ∈ s.scheduler.code c) :
    t.Quiet := by
  obtain ⟨known, h⟩ := Option.ite_none_right_eq_some.mp h
  cases h
  have self : update s.usage e usage e = usage := update_self ..
  have other : ∀ x, x ≠ e → update s.usage e usage x = s.usage x := fun x ne => update_of_ne ne ..
  constructor
  · intro x (not_live : update s.usage e usage x ≠ .live)
    change x < timer.created
    rw [created]
    by_cases same : x = e
    · exact same ▸ known
    · rw [other x same] at not_live
      exact quiet.created x not_live
  · intro x (not_live : update s.usage e usage x ≠ .live)
    change (timer.event x).m_is_cancled = true
    by_cases same : x = e
    · subst same
      rw [self] at not_live
      exact (off not_live).1
    · rw [other x same] at not_live
      rw [others x same]
      exact quiet.cancled x not_live
  · intro k x mem
    change update s.usage e usage x = .live
    by_cases same : x = e
    · subst same
      rw [self]
      by_contra not_live
      exact (off not_live).2.1 k mem
    · rw [other x same]
      exact quiet.scanned k x mem
  · intro c x made fresh
    change update s.usage e usage x = .live
    by_cases same : x = e
    · subst same
      rw [self]
      by_contra not_live
      cases ((off not_live).2.2 c made).symm.trans fresh
    · rw [other x same]
      exact quiet.waiting c x made fresh
  · intro c x made (gone : update s.usage e usage x = .left)
    by_cases same : x = e
    · subst same
      rw [self] at gone
      exact left gone c made
    · rw [other x same] at gone
      exact quiet.ended c x made gone

theorem off_of_usage {e : ℕ} (off : s.usage e ≠ .live) : (s.timer.event e).m_is_cancled = true ∧
    (∀ k, e ∉ (s.scan k).cbs) ∧ ∀ c, s.callback c = some e → s.begun c = true := by
  refine ⟨quiet.cancled e off, fun k mem => off (quiet.scanned k e mem), ?_⟩
  intro c made
  by_contra fresh
  exact off (quiet.waiting c e made (Bool.eq_false_iff.mpr fresh))

theorem quiet_step {a : AlarmAction} (keeps : s.Keeps a) (h : s.step a = some t) : t.Quiet := by
  cases a with
  | scheduler a =>
    cases a with
    | work k => exact quiet_work quiet h
    | _ =>
      simp only [step] at h
      obtain ⟨scheduler, moved, rfl⟩ := Option.map_eq_some_iff.mp h
      exact quiet.schedules moved (fun _ _ => id) fun _ => id
  | tick =>
    cases h
    exact ⟨quiet.created, quiet.cancled, quiet.scanned, quiet.waiting, quiet.ended⟩
  | scan k => exact quiet_scanStep quiet h
  | addTimeEvent now interval is_repeated =>
    obtain ⟨-, h⟩ := Option.ite_none_right_eq_some.mp h
    cases h
    refine ⟨?_, ?_, quiet.scanned, quiet.waiting, quiet.ended⟩
    · exact fun e off => Nat.lt_succ_of_lt (quiet.created e off)
    · intro e off
      have other : e ≠ s.timer.created := Nat.ne_of_lt (quiet.created e off)
      change ((s.timer.addTimeEvent now interval is_repeated).event e).m_is_cancled = true
      rw [Timer.addTimeEvent, Timer.event_insert, Timer.event_set_ne _ _ other]
      exact quiet.cancled e off
  | resetTime e =>
    exact quiet.uses h (s.timer.created_resetTimeTo ..) (fun x => s.timer.event_resetTimeTo_ne)
      (fun off => absurd rfl off) nofun
  | resetTimeTo e interval =>
    exact quiet.uses h (s.timer.created_resetTimeTo ..) (fun x => s.timer.event_resetTimeTo_ne)
      (fun off => absurd rfl off) nofun
  | wake e =>
    exact quiet.uses h rfl (fun x => s.timer.event_set_ne _) (fun off => absurd rfl off) nofun
  | cancel e =>
    refine quiet.uses h rfl (fun x => s.timer.event_set_ne _) (fun _ => ⟨?_, keeps⟩) ?_
    · rw [Timer.cancel, Timer.event_set_same]
    · intro left c made
      split at left
      · exact quiet.ended c e made ‹_›
      · cases left
  | stop e =>
    refine quiet.uses h rfl (fun x => s.timer.event_set_ne _) (fun off => ?_) ?_
    · rw [Timer.stop, Timer.event_set_same]
      exact off_of_usage quiet off
    · exact fun left c made => quiet.ended c e made left
  | leave e =>
    obtain ⟨off, h⟩ := Option.ite_none_right_eq_some.mp h
    exact quiet.uses h rfl (fun _ _ => rfl)
      (fun _ => off_of_usage quiet (by rw [off]; nofun)) fun _ => keeps

end Steps

theorem begun_step {s t : Alarms} {a : AlarmAction} (h : s.step a = some t) (c : ℕ) :
    t.begun c = s.begun c ∨ (t.callback = s.callback ∧ t.begun c = true) := by
  cases a with
  | scheduler a =>
    cases a with
    | work k =>
      cases worked_of_work h with
      | begins d scheduler moved =>
        by_cases same : c = d
        · subst same
          exact .inr ⟨rfl, update_self ..⟩
        · exact .inl (update_of_ne same ..)
      | _ => exact .inl rfl
    | _ =>
      simp only [step] at h
      obtain ⟨scheduler, -, rfl⟩ := Option.map_eq_some_iff.mp h
      exact .inl rfl
  | scan k => cases (scanned_of_scanStep h).2 <;> exact .inl rfl
  | _ =>
    have framed := framed_of_step h (fun _ e => by cases e) (fun _ e => by cases e)
    exact .inl (congrFun framed.begun c)

/-- In a run whose events are cancelled when none of their callbacks waits to begin, and whose
functions return when the callbacks of their events have ended, no callback of an event that is off
begins, and none goes on after the return of the function that made its event. -/
theorem cancelled_never_begins {m_threads : ℕ} {as : List AlarmAction} {s : Alarms}
    (run : Run step Keeps { scheduler := { m_threads } } as s) :
    (∀ e, s.usage e ≠ .live → ∀ a t, step s a = some t →
      ∀ c, t.callback c = some e → t.begun c = s.begun c) ∧
    ∀ e, s.usage e = .left → ∀ c, s.callback c = some e →
      s.begun c = true ∧ .halt ∈ s.scheduler.code c := by
  have quiet : s.Quiet := run.invariant (quiet_initial m_threads) fun _ _ _ quiet keeps next =>
    quiet_step quiet keeps next
  constructor
  · intro e off a t next c made
    rcases begun_step next c with same | ⟨same, begins⟩
    · exact same
    · rw [same] at made
      exact begins.trans ((off_of_usage quiet off).2.2 c made).symm
  · intro e left c made
    have off : s.usage e ≠ .live := by
      rw [left]
      nofun
    exact ⟨(off_of_usage quiet off).2.2 c made, quiet.ended c e made left⟩

/-- A worker without a task takes the callback of an expired event from the timer. -/
def taking : List AlarmAction :=
  [.addTimeEvent 0 1 false, .tick, .scheduler (.work 0), .scheduler (.work 0), .scan 0, .scan 0,
    .scan 0]

def extraction : List AlarmAction := [.scheduler .start, .scheduler (.work 0)] ++ taking

def extractionOfTwo : List AlarmAction :=
  [.scheduler .start, .scheduler (.work 0), .scheduler (.work 1)] ++ taking

def resumption : List AlarmAction :=
  [.scheduler (.work 0), .scheduler (.work 0), .scheduler (.work 0)]

/-- On the other worker the event is cancelled and its function returns; then the first begins the
callback. -/
theorem cancelled_begins : ∃ s t, exec step { scheduler := { m_threads := 2 } }
    (extractionOfTwo ++ [.cancel 0, .leave 0] ++ resumption) = some s ∧ s.usage 0 = .left ∧
      step s (.scheduler (.work 0)) = some t ∧ t.callback 3 = some 0 ∧ s.begun 3 = false ∧
      t.begun 3 = true :=
  ⟨_, _, rfl, rfl, rfl, rfl, rfl, rfl⟩

def plain : AlarmAction → Bool
  | .cancel _ | .leave _ => false
  | _ => true

theorem keeps_of_plain {s : Alarms} {a : AlarmAction} (plain : Alarms.plain a = true) :
    s.Keeps a := by
  cases a with
  | cancel => cases plain
  | leave => cases plain
  | _ => trivial

/-- The callback has ended when the event is cancelled and its function returns. -/
theorem cancelled_never_begins_ended : ∃ as s,
    Run step Keeps { scheduler := { m_threads := 2 } } as s ∧ s.usage 0 = .left ∧
      s.callback 3 = some 0 ∧
      (∀ a t, step s a = some t → ∀ c, t.callback c = some 0 → t.begun c = s.begun c) ∧
      s.begun 3 = true ∧ .halt ∈ s.scheduler.code 3 := by
  have reached : ∃ s t u, exec (guarded step fun _ a => plain a = true)
      { scheduler := { m_threads := 2 } } (extractionOfTwo ++ resumption ++ [.scheduler (.work 0),
        .scheduler (.call 0 .finish), .scheduler (.run 0)]) = some s ∧
      (∀ k, (s.scan k).cbs = []) ∧ (∀ c, c ≠ 3 → s.callback c = none) ∧ s.begun 3 = true ∧
      .halt ∈ s.scheduler.code 3 ∧ step s (.cancel 0) = some t ∧
      t.scheduler = s.scheduler ∧ t.callback = s.callback ∧
      step t (.leave 0) = some u ∧ u.usage 0 = .left ∧ u.callback 3 = some 0 := by
    refine ⟨_, _, _, rfl, ?_, ?_, rfl, ?_, rfl, rfl, rfl, rfl, rfl, rfl⟩
    · intro k
      cases k <;> rfl
    · exact fun c ne => update_of_ne ne ..
    · exact List.mem_cons_of_mem _ (List.mem_singleton_self _)
  obtain ⟨s, t, u, before, scans, callbacks, begun, ended, cancels, kept, same, leaves, left,
    callback⟩ := reached
  have only : ∀ c, s.callback c = some 0 → c = 3 := by
    intro c made
    by_contra ne
    cases (callbacks c ne).symm.trans made
  have cancel : s.Keeps (.cancel 0) := by
    constructor
    · intro k
      rw [scans]
      exact List.not_mem_nil
    · exact fun c made => only c made ▸ begun
  have leave : t.Keeps (.leave 0) := by
    intro c made
    rw [same] at made
    rw [kept, only c made]
    exact ended
  have start : Run step Keeps _ _ s := (Run.of_guarded before).mono fun _ _ => keeps_of_plain
  have run := (start.snoc cancel cancels).snoc leave leaves
  have result := cancelled_never_begins run
  have both := result.2 0 left 3 callback
  exact ⟨_, u, run, left, callback, result.1 0 (by rw [left]; nofun), both⟩

end Alarms

end CRpc
