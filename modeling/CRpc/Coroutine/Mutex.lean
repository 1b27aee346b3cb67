import CRpc.Lib.Runs
import Mathlib.Algebra.Group.Nat.Defs
import Mathlib.Logic.Function.Basic

/-! `CoroutineMutex`, step by step. -/
namespace CRpc

/-- `Coroutine::State`. -/
inductive CoroutineState
  | READY | BLOCKED | WAITING | TERMINATED
  deriving DecidableEq

/-- `CoroutineMutex`. A coroutine is known by its id, which is not zero; `m_mutex` knows who holds
the spin lock. -/
structure CoroutineMutex where
  m_mutex : Option ℕ := none
  m_coroutineId : ℕ := 0
  m_waitQueue : List ℕ := []
  deriving DecidableEq

namespace CoroutineMutex

/-- `tryLock` of the coroutine `c`; `none` if it fails. -/
def tryLock (m : CoroutineMutex) (c : ℕ) : Option CoroutineMutex :=
  match m.m_mutex with
  | none => some { m with m_mutex := some c }
  | some _ => none

/-- What a failed try does under `m_gaurd`. -/
def enqueue (m : CoroutineMutex) (c : ℕ) : CoroutineMutex :=
  { m with m_waitQueue := m.m_waitQueue ++ [c] }

/-- What `lock` does under `m_gaurd` at its end. -/
def own (m : CoroutineMutex) (c : ℕ) : CoroutineMutex := { m with m_coroutineId := c }

/-- What `unlock` does under `m_gaurd`: `wait_coroutine` is the front of the queue. -/
def release (m : CoroutineMutex) : CoroutineMutex :=
  { m with m_coroutineId := 0, m_waitQueue := m.m_waitQueue.tail }

/-- `m_mutex.unlock()`. -/
def free (m : CoroutineMutex) : CoroutineMutex := { m with m_mutex := none }

end CoroutineMutex

/-- What a coroutine is about to do in `lock` or `unlock`; `again` after the first yield. -/
inductive LockPc
  | outside
  | lockTest
  | trying (again : Bool)
  | enqueueing (again : Bool)
  | yielding
  | suspended
  | owning
  | unlockTest
  | releasing
  | freeing (wait_coroutine : Option ℕ)
  | waking (wait_coroutine : ℕ)
  deriving DecidableEq

/-- A mutex and the coroutines that use it. `inside` from the return of a `lock` to the next call
of `unlock`. -/
structure Locking where
  mutex : CoroutineMutex := {}
  pc : ℕ → LockPc := fun _ => .outside
  m_state : ℕ → CoroutineState := fun _ => .READY
  inside : ℕ → Bool := fun _ => false

/-- A coroutine calls a function, takes its next step there, or is run again. -/
inductive LockAction
  | lock | unlock | next | resume
  deriving DecidableEq

namespace Locking

def goto (s : Locking) (c : ℕ) (pc : LockPc) : Locking :=
  { s with pc := Function.update s.pc c pc }

def setState (s : Locking) (c : ℕ) (m_state : CoroutineState) : Locking :=
  { s with m_state := Function.update s.m_state c m_state }

def setInside (s : Locking) (c : ℕ) (inside : Bool) : Locking :=
  { s with inside := Function.update s.inside c inside }

/-- The next step of `c` in `lock` or `unlock`. -/
def next (s : Locking) (c : ℕ) : Option Locking :=
  match s.pc c with
  | .outside | .suspended => none
  | .lockTest =>
    if s.mutex.m_coroutineId = c then some ((s.setInside c true).goto c .outside)
    else some (s.goto c (.trying false))
  | .trying again =>
    match s.mutex.tryLock c with
    | some mutex => some ({ s with mutex }.goto c .owning)
    | none => some (s.goto c (.enqueueing again))
  | .enqueueing _ =>
    some (({ s with mutex := s.mutex.enqueue c }.setState c .BLOCKED).goto c .yielding)
  | .yielding => some (s.goto c .suspended)
  | .owning =>
    some (({ s with mutex := s.mutex.own c }.setInside c true).goto c .outside)
  | .unlockTest =>
    if s.mutex.m_coroutineId = c then some (s.goto c .releasing) else some (s.goto c .outside)
  | .releasing =>
    some ({ s with mutex := s.mutex.release }.goto c (.freeing s.mutex.m_waitQueue.head?))
  | .freeing none => some ({ s with mutex := s.mutex.free }.goto c .outside)
  | .freeing (some w) => some ({ s with mutex := s.mutex.free }.goto c (.waking w))
  | .waking w => some ((s.setState w .READY).goto c .outside)

/-- A call, a step in it, or a resumption: `Scheduler::run` does not look at the state of what it
takes from `m_tasks`. -/
def step (s : Locking) : ℕ × LockAction → Option Locking
  | (c, .lock) => if c ≠ 0 ∧ s.pc c = .outside then some (s.goto c .lockTest) else none
  | (c, .unlock) =>
    if c ≠ 0 ∧ s.pc c = .outside then some ((s.setInside c false).goto c .unlockTest) else none
  | (c, .next) => s.next c
  | (c, .resume) =>
    if s.pc c = .suspended then some (s.goto c (.trying true)) else none

section Fields
variable (s : Locking) (c d : ℕ) (pc : LockPc) (m_state : CoroutineState) (inside : Bool)

@[simp] theorem mutex_goto : (s.goto c pc).mutex = s.mutex := rfl
@[simp] theorem state_goto : (s.goto c pc).m_state = s.m_state := rfl
@[simp] theorem inside_goto : (s.goto c pc).inside = s.inside := rfl
@[simp] theorem mutex_setState : (s.setState c m_state).mutex = s.mutex := rfl
@[simp] theorem pc_setState : (s.setState c m_state).pc = s.pc := rfl
@[simp] theorem inside_setState : (s.setState c m_state).inside = s.inside := rfl
@[simp] theorem mutex_setInside : (s.setInside c inside).mutex = s.mutex := rfl
@[simp] theorem pc_setInside : (s.setInside c inside).pc = s.pc := rfl
@[simp] theorem state_setInside : (s.setInside c inside).m_state = s.m_state := rfl

@[simp] theorem pc_goto_self : (s.goto c pc).pc c = pc := Function.update_self ..

@[simp] theorem state_setState_self : (s.setState c m_state).m_state c = m_state :=
  Function.update_self ..

@[simp] theorem inside_setInside_self : (s.setInside c inside).inside c = inside :=
  Function.update_self ..

variable {c d}

@[simp] theorem pc_goto_ne (ne : d ≠ c) : (s.goto c pc).pc d = s.pc d := Function.update_of_ne ne ..

@[simp] theorem state_setState_ne (ne : d ≠ c) :
    (s.setState c m_state).m_state d = s.m_state d := Function.update_of_ne ne ..

@[simp] theorem inside_setInside_ne (ne : d ≠ c) : (s.setInside c inside).inside d = s.inside d :=
  Function.update_of_ne ne ..

end Fields

/-- What a step of `c` may do. -/
inductive Turn (s : Locking) (c : ℕ) : LockAction → Locking → Prop
  | lock : c ≠ 0 → s.pc c = .outside → Turn s c .lock (s.goto c .lockTest)
  | unlock : c ≠ 0 → s.pc c = .outside →
      Turn s c .unlock ((s.setInside c false).goto c .unlockTest)
  | again : s.pc c = .lockTest → s.mutex.m_coroutineId = c →
      Turn s c .next ((s.setInside c true).goto c .outside)
  | lockTest : s.pc c = .lockTest → s.mutex.m_coroutineId ≠ c →
      Turn s c .next (s.goto c (.trying false))
  | take (again : Bool) : s.pc c = .trying again → s.mutex.m_mutex = none →
      Turn s c .next
        ({ s with mutex := { s.mutex with m_mutex := some c } }.goto c .owning)
  | miss (again : Bool) : s.pc c = .trying again →
      Turn s c .next (s.goto c (.enqueueing again))
  | enqueue (again : Bool) : s.pc c = .enqueueing again →
      Turn s c .next
        (({ s with mutex := s.mutex.enqueue c }.setState c .BLOCKED).goto c .yielding)
  | yield : s.pc c = .yielding → Turn s c .next (s.goto c .suspended)
  | own : s.pc c = .owning →
      Turn s c .next (({ s with mutex := s.mutex.own c }.setInside c true).goto c .outside)
  | unlockTest : s.pc c = .unlockTest → s.mutex.m_coroutineId = c →
      Turn s c .next (s.goto c .releasing)
  | refuse : s.pc c = .unlockTest → s.mutex.m_coroutineId ≠ c →
      Turn s c .next (s.goto c .outside)
  | release : s.pc c = .releasing →
      Turn s c .next
        ({ s with mutex := s.mutex.release }.goto c (.freeing s.mutex.m_waitQueue.head?))
  | free : s.pc c = .freeing none →
      Turn s c .next ({ s with mutex := s.mutex.free }.goto c .outside)
  | hand (w : ℕ) : s.pc c = .freeing (some w) →
      Turn s c .next ({ s with mutex := s.mutex.free }.goto c (.waking w))
  | wake (w : ℕ) : s.pc c = .waking w → Turn s c .next ((s.setState w .READY).goto c .outside)
  | resume : s.pc c = .suspended → Turn s c .resume (s.goto c (.trying true))

theorem turn_of_next {s t : Locking} {c : ℕ} (h : s.next c = some t) : Turn s c .next t := by
  unfold next at h
  split at h
  · cases h
  · cases h
  · rename_i pc
    split at h <;> cases h
    · exact .again pc ‹_›
    · exact .lockTest pc ‹_›
  · rename_i again pc
    unfold CoroutineMutex.tryLock at h
    split at h
    · rename_i mutex taken
      split at taken <;> cases taken
      cases h
      exact .take again pc ‹_›
    · cases h
      exact .miss again pc
  · rename_i again pc
    cases h
    exact .enqueue again pc
  · rename_i pc
    cases h
    exact .yield pc
  · rename_i pc
    cases h
    exact .own pc
  · rename_i pc
    split at h <;> cases h
    · exact .unlockTest pc ‹_›
    · exact .refuse pc ‹_›
  · rename_i pc
    cases h
    exact .release pc
  · rename_i pc
    cases h
    exact .free pc
  · rename_i w pc
    cases h
    exact .hand w pc
  · rename_i w pc
    cases h
    exact .wake w pc

theorem turn_of_step {s t : Locking} {c : ℕ} {a : LockAction} (h : s.step (c, a) = some t) :
    Turn s c a t := by
  cases a with
  | lock =>
    obtain ⟨⟨ne, pc⟩, h⟩ := Option.ite_none_right_eq_some.mp h
    cases h
    exact .lock ne pc
  | unlock =>
    obtain ⟨⟨ne, pc⟩, h⟩ := Option.ite_none_right_eq_some.mp h
    cases h
    exact .unlock ne pc
  | next => exact turn_of_next h
  | resume =>
    obtain ⟨pc, h⟩ := Option.ite_none_right_eq_some.mp h
    cases h
    exact .resume pc

end Locking

end CRpc
