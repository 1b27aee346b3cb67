import CRpc.Coroutine.Callbacks

/-! `coroutine_sleep` of `util/utils.cpp`, between `Scheduler::run` and the timer. -/
namespace CRpc
open Function Transition

/-- Where a coroutine is in `coroutine_sleep`; `e` is the event of the call. -/
inductive SleepPc
  | awake
  /-- at the three assertions -/
  | ensuring
  /-- the constructor of the event reads the clock -/
  | creating
  /-- `addTimeEvent` inserts it -/
  | adding (now : ℕ)
  | yielding (e : ℕ)
  | asleep (e : ℕ)
  /-- with what the clock shows then -/
  | returned (e ended : ℕ)
  | thrown
  deriving DecidableEq

def SleepPc.settled : SleepPc → Bool
  | awake | returned _ _ | thrown => true
  | ensuring | creating | adding _ | yielding _ | asleep _ => false

/-- The last call of a coroutine: its argument, the time it began, and how often the coroutine has
been pushed into `m_tasks` since. -/
structure SleepCall where
  ms : ℕ := 0
  start : ℕ := 0
  pc : SleepPc := .awake
  enqueued : ℕ := 0

/-- `sleeper` is the coroutine that the callback of an event adds, `woken` whether a coroutine made
of the callback has come to `addTask`. -/
structure Sleeping where
  alarms : Alarms
  call : ℕ → SleepCall := fun _ => {}
  sleeper : ℕ → Option ℕ := fun _ => none
  woken : ℕ → Bool := fun _ => false

/-- A step of the scheduler or the timer; a worker's coroutine calls `coroutine_sleep(ms)`, goes on
in it, or comes to `addTask` in the callback. -/
inductive SleepAction
  | alarm (a : AlarmAction)
  | sleep (k ms : ℕ)
  | go (k : ℕ)
  | wake (k : ℕ)

/-- `ENSURE(GetCurrentCoroutine()!=nullptr)`, then
`ENSURE(GetCurrentCoroutine()!=GetCurrentCoroutine())`; the third one, that there is a scheduler,
holds. -/
def ensures (ENSURE_ENABLED : Bool) (GetCurrentCoroutine : Option ℕ) : Bool :=
  !ENSURE_ENABLED ||
    (GetCurrentCoroutine != none && GetCurrentCoroutine != GetCurrentCoroutine)

namespace Sleeping

def current (s : Sleeping) (k : ℕ) : Option ℕ :=
  match s.alarms.scheduler.worker k with
  | .running c => some c
  | _ => none

def wakes (s : Sleeping) (d : ℕ) : Option ℕ := (s.alarms.callback d).bind s.sleeper

def setPc (s : Sleeping) (c : ℕ) (pc : SleepPc) : Sleeping :=
  { s with call := update s.call c { s.call c with pc } }

/-- The scheduler and the timer have gone on; what is new in `m_tasks` is counted. -/
def advance (s : Sleeping) (alarms : Alarms) : Sleeping :=
  { s with
    alarms
    call := fun c => { s.call c with
      enqueued := (s.call c).enqueued + (alarms.scheduler.m_tasks.count c -
        s.alarms.scheduler.m_tasks.count c) } }

/-- In `coroutine_sleep` a coroutine takes the steps of that call alone; the callback of a sleeper
adds it and ends. -/
def allows (s : Sleeping) : AlarmAction → Bool
  | .scheduler (.run k) => match s.current k with
    | some c => (s.call c).pc.settled
    | none => true
  | .scheduler (.call k call) => match s.current k with
    | some c => (s.call c).pc.settled && match s.wakes c, call with
      | none, _ => true
      | some _, .finish => s.woken c
      | some _, _ => false
    | none => true
  -- `coroutine_sleep` gives its event to nobody
  | .resetTime e | .resetTimeTo e _ | .wake e | .cancel e | .stop e | .leave e => s.sleeper e = none
  | _ => true

def goStep (ENSURE_ENABLED : Bool) (s : Sleeping) (k c : ℕ) : Option Sleeping :=
  match (s.call c).pc with
  | .ensuring =>
    if ensures ENSURE_ENABLED (s.current k) then some (s.setPc c .creating)
    else some (s.setPc c .thrown)
  | .creating => some (s.setPc c (.adding s.alarms.now))
  | .adding now => (s.alarms.step (.addTimeEvent now (s.call c).ms false)).map fun alarms =>
    { s with
      alarms
      sleeper := update s.sleeper s.alarms.timer.created (some c)
      : Sleeping }.setPc c (.yielding s.alarms.timer.created)
  | .yielding e => ((s.alarms.scheduler.step (.call k .yield)).bind fun scheduler =>
      scheduler.step (.run k)).map fun scheduler =>
    { s with alarms := { s.alarms with scheduler } : Sleeping }.setPc c (.asleep e)
  | .asleep e => some (s.setPc c (.returned e s.alarms.now))
  | .awake | .returned _ _ | .thrown => none

/-- With `ENSURE_ENABLED` the assertions are compiled in, as `config.h` has them. -/
def step (ENSURE_ENABLED : Bool) (s : Sleeping) : SleepAction → Option Sleeping
  | .alarm a => if s.allows a then (s.alarms.step a).map s.advance else none
  | .sleep k ms => match s.current k with
    | some c =>
      if (s.call c).pc.settled ∧ s.wakes c = none ∧ s.alarms.scheduler.hand c = .empty ∧
          s.alarms.scheduler.code c = [] then
        some { s with call := update s.call c { ms, start := s.alarms.now, pc := .ensuring } }
      else none
    | none => none
  | .go k => match s.current k with
    | some c => s.goStep ENSURE_ENABLED k c
    | none => none
  | .wake k => match s.current k with
    | some d => match s.wakes d with
      | some c =>
        if s.woken d then none
        else some { s with
          alarms := { s.alarms with scheduler := { s.alarms.scheduler with
            hand := update s.alarms.scheduler.hand d (.adding c) } }
          woken := update s.woken d true }
      | none => none
    | none => none

/-- The last call of `c` has returned, not before its time, after its callback has run, and with one
push of `c`. -/
def SleptOnce (s : Sleeping) (c : ℕ) : Prop :=
  ∃ e ended, (s.call c).pc = .returned e ended ∧ (s.call c).start + (s.call c).ms ≤ ended ∧
    (∃ d, s.alarms.callback d = some e ∧ s.woken d = true) ∧ (s.call c).enqueued = 1

/-- Yielding, a coroutine goes back to its worker in the state it has. -/
theorem yield_returns {s t : Scheduler} {k c : ℕ} (here : s.worker k = .running c)
    (yields : ((s.step (.call k .yield)).bind fun scheduler => scheduler.step (.run k)) = some t) :
    t.worker k = .returned c ∧ t.m_state = s.m_state := by
  obtain ⟨u, called, ran⟩ := Option.bind_eq_some_iff.mp yields
  simp only [Scheduler.step, here] at called
  split at called
  · rename_i empty nothing
    cases called
    simp only [Scheduler.step, here, Scheduler.runCoroutine, empty, Scheduler.runInstr,
      CoroutineCall.code, update_self] at ran
    cases ran
    exact ⟨update_self .., rfl⟩
  · cases called

/-- Past the assertions nothing marks the sleeper as waiting: its worker goes on to queue it again,
whatever the timer does. -/
theorem sleeper_requeued {ENSURE_ENABLED : Bool} {s t : Sleeping} {k c e : ℕ}
    (here : s.current k = some c) (yielding : (s.call c).pc = .yielding e)
    (ready : s.alarms.scheduler.m_state c = .READY)
    (next : step ENSURE_ENABLED s (.go k) = some t) :
    ∃ u, step ENSURE_ENABLED t (.alarm (.scheduler (.work k))) = some u ∧
      u.alarms.scheduler.worker k = .timing (some c) := by
  have running : s.alarms.scheduler.worker k = .running c := by
    unfold current at here
    split at here
    · cases here
      assumption
    · cases here
  simp only [step, here, goStep, yielding] at next
  obtain ⟨scheduler, yields, rfl⟩ := Option.map_eq_some_iff.mp next
  obtain ⟨returned, same⟩ := yield_returns running yields
  have moved : scheduler.work k =
      some { scheduler with worker := update scheduler.worker k (.timing (some c)) } := by
    rw [Scheduler.work, returned]
    simp only [same, ready, if_true]
  have worked : Alarms.work { s.alarms with scheduler } k = some { s.alarms with
      scheduler := { scheduler with worker := update scheduler.worker k (.timing (some c)) } } := by
    simp only [Alarms.work, returned, moved, Option.map_some]
  let t := { s with alarms := { s.alarms with scheduler } : Sleeping }.setPc c (.asleep e)
  have free : t.allows (.scheduler (.work k)) = true := rfl
  have goes : step ENSURE_ENABLED t (.alarm (.scheduler (.work k))) =
      (Alarms.work { s.alarms with scheduler } k).map t.advance := by
    rw [step, if_pos free]
    rfl
  rw [worked] at goes
  exact ⟨_, goes, update_self ..⟩

/-- The second assertion compares the current coroutine with itself. -/
theorem ensures_enabled (GetCurrentCoroutine : Option ℕ) :
    ensures true GetCurrentCoroutine = false := by
  simp [ensures]

structure Barred (s : Sleeping) : Prop where
  pc : ∀ c, (s.call c).pc = .awake ∨ (s.call c).pc = .ensuring ∨ (s.call c).pc = .thrown
  sleeper : ∀ e, s.sleeper e = none

theorem barred_initial (m_threads : ℕ) :
    Barred { alarms := { scheduler := { m_threads } } } :=
  ⟨fun _ => .inl rfl, fun _ => rfl⟩

theorem goStep_throws {s : Sleeping} {k c : ℕ} (ensuring : (s.call c).pc = .ensuring) :
    s.goStep true k c = some (s.setPc c .thrown) := by
  rw [goStep, ensuring]
  simp only [ensures_enabled, Bool.false_eq_true, if_false]

section Steps
variable {s t : Sleeping} (barred : s.Barred)
include barred

theorem barred_set {c : ℕ} {call : SleepCall}
    (pc : call.pc = .awake ∨ call.pc = .ensuring ∨ call.pc = .thrown) :
    Barred { s with call := update s.call c call } := by
  refine ⟨fun d => ?_, barred.sleeper⟩
  by_cases same : d = c
  · subst same
    simpa only [update_self] using pc
  · simpa only [update_of_ne same] using barred.pc d

theorem barred_goStep {k c : ℕ} (h : s.goStep true k c = some t) : t.Barred := by
  rcases barred.pc c with awake | ensuring | thrown
  · rw [goStep, awake] at h
    cases h
  · rw [goStep_throws ensuring] at h
    cases h
    exact barred_set barred (.inr (.inr rfl))
  · rw [goStep, thrown] at h
    cases h

theorem barred_wakes (d : ℕ) : s.wakes d = none := by
  cases made : s.alarms.callback d with
  | none => rw [wakes, made, Option.bind_none]
  | some e => rw [wakes, made, Option.bind_some, barred.sleeper]

theorem barred_step {a : SleepAction} (h : step true s a = some t) : t.Barred := by
  cases a with
  | alarm a =>
    obtain ⟨-, h⟩ := Option.ite_none_right_eq_some.mp h
    obtain ⟨alarms, -, rfl⟩ := Option.map_eq_some_iff.mp h
    exact ⟨barred.pc, barred.sleeper⟩
  | sleep k ms =>
    simp only [step] at h
    split at h
    · obtain ⟨-, h⟩ := Option.ite_none_right_eq_some.mp h
      cases h
      exact barred_set barred (.inr (.inl rfl))
    · cases h
  | go k =>
    simp only [step] at h
    split at h
    · exact barred_goStep barred h
    · cases h
  | wake k =>
    simp only [step, barred_wakes barred] at h
    split at h <;> cases h

end Steps

theorem barred_run {m_threads : ℕ} {as : List SleepAction} {s : Sleeping}
    (run : Run (step true) Always { alarms := { scheduler := { m_threads } } } as s) : s.Barred :=
  run.invariant (barred_initial m_threads) fun _ _ _ barred _ next => barred_step barred next

/-- In every run, a call of `coroutine_sleep` throws at once: it makes no event, it never returns,
and nobody adds its coroutine. -/
theorem sleep_throws (m_threads : ℕ) (as : List SleepAction) (s : Sleeping)
    (run : Run (step true) Always { alarms := { scheduler := { m_threads } } } as s) (c : ℕ) :
    ¬ s.SleptOnce c ∧ (∀ e, s.sleeper e ≠ some c) ∧
    ((s.call c).pc = .awake ∨ (s.call c).pc = .thrown ∨
      (s.call c).pc = .ensuring ∧ ∀ k, s.current k = some c →
        step true s (.go k) = some (s.setPc c .thrown)) := by
  have barred := barred_run run
  refine ⟨?_, ?_, ?_⟩
  · rintro ⟨e, ended, returned, -⟩
    rcases barred.pc c with other | other | other <;> cases returned.symm.trans other
  · intro e adds
    cases (barred.sleeper e).symm.trans adds
  · rcases barred.pc c with awake | ensuring | thrown
    · exact .inl awake
    · refine .inr (.inr ⟨ensuring, fun k current => ?_⟩)
      rw [step, current]
      exact goStep_throws ensuring
    · exact .inr (.inl thrown)

def beginning : List SleepAction :=
  [.alarm (.scheduler .start), .alarm (.scheduler (.work 0)), .alarm (.scheduler .spawn),
    .alarm (.scheduler (.work 0)), .alarm (.scheduler (.work 0)), .alarm (.scheduler (.work 0))]

theorem sleep_throws_two : ∃ s,
    Run (step true) Always { alarms := { scheduler := { m_threads := 1 } } }
      (beginning ++ [.sleep 0 1]) s ∧ (s.call 2).pc = .ensuring ∧
    ¬ s.SleptOnce 2 ∧ ∀ e, s.sleeper e ≠ some 2 := by
  obtain ⟨s, run, ensuring⟩ : ∃ s, Run (step true) Always
      { alarms := { scheduler := { m_threads := 1 } } } (beginning ++ [.sleep 0 1]) s ∧
      (s.call 2).pc = .ensuring := ⟨_, .of_exec rfl, rfl⟩
  have throws := sleep_throws 1 _ s run 2
  exact ⟨s, run, ensuring, throws.1, throws.2.1⟩

/-- It calls `coroutine_sleep(1)`, comes to the yield where nothing stops it, and is resumed as soon
as the worker has queued it again. -/
def napping : List SleepAction :=
  [.sleep 0 1, .go 0, .go 0, .go 0, .go 0, .alarm (.scheduler (.work 0)), .alarm (.scan 0),
    .alarm (.scan 0), .alarm (.scheduler (.work 0)), .alarm (.scheduler (.work 0)),
    .alarm (.scheduler (.work 0)), .alarm (.scheduler (.work 0)), .alarm (.scheduler (.work 0)),
    .alarm (.scheduler (.work 0)), .go 0]

/-- It ends. A millisecond later the worker comes to the callback. -/
def waking : List SleepAction :=
  [.alarm (.scheduler (.call 0 .finish)), .alarm (.scheduler (.run 0)),
    .alarm (.scheduler (.run 0)), .alarm (.scheduler (.work 0)), .alarm .tick,
    .alarm (.scheduler (.work 0)), .alarm (.scheduler (.work 0)), .alarm (.scan 0),
    .alarm (.scan 0), .alarm (.scan 0), .alarm (.scheduler (.work 0)),
    .alarm (.scheduler (.work 0)), .alarm (.scheduler (.work 0)), .alarm (.scheduler (.work 0)),
    .wake 0, .alarm (.scheduler (.run 0)), .alarm (.scheduler (.run 0))]

/-- The call throws. Without assertions it would return before its time, and its coroutine be queued
twice, the second time when it has ended. -/
theorem thrown_or_early : ∃ s t u,
    exec (step true) { alarms := { scheduler := { m_threads := 1 } } }
      (beginning ++ [.sleep 0 1, .go 0]) = some s ∧
    (s.call 2).pc = .thrown ∧ s.alarms.timer.created = 0 ∧
    exec (step false) { alarms := { scheduler := { m_threads := 1 } } }
      (beginning ++ napping) = some t ∧
    (t.call 2).pc = .returned 0 0 ∧ (t.call 2).ms = 1 ∧
    exec (step false) t waking = some u ∧ (u.call 2).enqueued = 2 ∧
    u.alarms.scheduler.m_state 2 = .TERMINATED :=
  ⟨_, _, _, rfl, rfl, rfl, rfl, rfl, rfl, rfl, rfl, rfl⟩

end Sleeping

end CRpc
