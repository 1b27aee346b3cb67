import CRpc.Coroutine.Channal
import CRpc.Lib.Runs
import Mathlib.Data.List.Nodup
import Mathlib.Data.Nat.Basic
import Mathlib.Logic.Function.Basic

/-! `push`, `pop` and `close` of a `CoroutineChannal`, step by step. -/
namespace CRpc
open Transition

variable {α : Type}

inductive ChannalOp
  | push | pop
  deriving DecidableEq

namespace ChannalOp

def other : ChannalOp → ChannalOp
  | push => pop
  | pop => push

@[simp] theorem other_ne (op : ChannalOp) : op.other ≠ op := by cases op <;> decide

theorem eq_or_other (op k : ChannalOp) : k = op ∨ k = op.other := by
  cases op <;> cases k <;> decide

end ChannalOp

/-- A call with the argument `arg`; `t` is the argument as it is now. -/
structure ChannalCall (α : Type) where
  op : ChannalOp
  arg : α
  t : α

namespace CoroutineChannal

def waits (ch : CoroutineChannal α) : ChannalOp → Bool
  | .push => ch.m_capacity ≤ ch.m_queue.length
  | .pop => ch.m_queue.isEmpty

/-- What a call does to the queue and its argument; there is no front of an empty queue. -/
def act (ch : CoroutineChannal α) (call : ChannalCall α) :
    Option (CoroutineChannal α × ChannalCall α) :=
  match call.op with
  | .push => some ({ ch with m_queue := ch.m_queue ++ [call.t] }, call)
  | .pop => match ch.m_queue with
    | [] => none
    | front :: rest => some ({ ch with m_queue := rest }, { call with t := front })

end CoroutineChannal

/-- What a coroutine is about to do; `woken` after a wait. -/
inductive TrafficPc (α : Type)
  | outside
  | locking (call : ChannalCall α) (woken : Bool)
  | checking (call : ChannalCall α) (woken : Bool)
  | testing (call : ChannalCall α) (woken : Bool)
  | waiting (call : ChannalCall α)
  | acting (call : ChannalCall α) (woken : Bool)
  | unlocking (call : ChannalCall α) (result : Bool)
  | notifying (call : ChannalCall α)
  | closeLocking
  | closeChecking
  | closing
  | rousing (op : ChannalOp)
  | closeUnlocking

def TrafficPc.wake : TrafficPc α → TrafficPc α
  | .waiting call => .locking call true
  | pc => pc

/-- A call of the coroutine `id` that returned. -/
structure Returned (α : Type) where
  id : ℕ
  call : ChannalCall α
  result : Bool

/-- A channel and the coroutines that use it. `m_mutex` excludes, `cv` are the queues of the
condition variables, `done` the coroutines and values of the operations in their order. -/
structure Traffic (α : Type) where
  channal : CoroutineChannal α
  m_mutex : Option ℕ := none
  cv : ChannalOp → List ℕ := fun _ => []
  pc : ℕ → TrafficPc α := fun _ => .outside
  done : ChannalOp → List (ℕ × α) := fun _ => []
  returned : List (Returned α) := []

/-- A call, the next step in it, or the end of a wait without a notification. -/
inductive TrafficAction (α : Type)
  | call (op : ChannalOp) (t : α)
  | close
  | next
  | spurious

namespace Traffic

def goto (s : Traffic α) (c : ℕ) (pc : TrafficPc α) : Traffic α :=
  { s with pc := Function.update s.pc c pc }

def lock (s : Traffic α) (c : ℕ) (pc : TrafficPc α) : Option (Traffic α) :=
  match s.m_mutex with
  | none => some ({ s with m_mutex := some c }.goto c pc)
  | some _ => none

def unlock (s : Traffic α) : Traffic α := { s with m_mutex := none }

/-- The waiters `ws` leave the queue of a condition variable, `rest` stay. -/
def wake (s : Traffic α) (op : ChannalOp) (ws rest : List ℕ) : Traffic α :=
  { s with
    cv := Function.update s.cv op rest
    pc := fun d => if d ∈ ws then (s.pc d).wake else s.pc d }

def notify (s : Traffic α) (op : ChannalOp) : Traffic α :=
  match s.cv op with
  | [] => s
  | w :: rest => s.wake op [w] rest

def notifyAll (s : Traffic α) (op : ChannalOp) : Traffic α := s.wake op (s.cv op) []

/-- The wait is enqueued and the lock released at once. -/
def wait (s : Traffic α) (c : ℕ) (call : ChannalCall α) : Traffic α :=
  { s.unlock with cv := Function.update s.cv call.op (s.cv call.op ++ [c]) }.goto c (.waiting call)

def record (s : Traffic α) (c : ℕ) (channal : CoroutineChannal α) (call : ChannalCall α) :
    Traffic α :=
  { s with
    channal
    done := Function.update s.done call.op (s.done call.op ++ [(c, call.t)]) }

def finish (s : Traffic α) (c : ℕ) (call : ChannalCall α) (result : Bool) : Traffic α :=
  { s with returned := s.returned ++ [Returned.mk c call result] }.goto c .outside

/-- The next step of `c`. -/
def next (s : Traffic α) (c : ℕ) : Option (Traffic α) :=
  match s.pc c with
  | .outside | .waiting _ => none
  | .locking call woken => s.lock c (.checking call woken)
  | .checking call woken =>
    if s.channal.m_is_close then some (s.goto c (.unlocking call false))
    else some (s.goto c (.testing call woken))
  | .testing call woken =>
    if s.channal.waits call.op then some (s.wait c call) else some (s.goto c (.acting call woken))
  | .acting call _ => (s.channal.act call).map fun (channal, call) =>
    (s.record c channal call).goto c (.unlocking call true)
  | .unlocking call false => some (s.unlock.finish c call false)
  | .unlocking call true => some (s.unlock.goto c (.notifying call))
  | .notifying call => some ((s.notify call.op.other).finish c call true)
  | .closeLocking => s.lock c .closeChecking
  | .closeChecking =>
    if s.channal.m_is_close then some (s.goto c .closeUnlocking) else some (s.goto c .closing)
  | .closing => some ({ s with channal := s.channal.close }.goto c (.rousing .push))
  | .rousing .push => some ((s.notifyAll .push).goto c (.rousing .pop))
  | .rousing .pop => some ((s.notifyAll .pop).goto c .closeUnlocking)
  | .closeUnlocking => some (s.unlock.goto c .outside)

def step (s : Traffic α) : ℕ × TrafficAction α → Option (Traffic α)
  | (c, .call op t) => match s.pc c with
    | .outside => some (s.goto c (.locking ⟨op, t, t⟩ false))
    | _ => none
  | (c, .close) => match s.pc c with
    | .outside => some (s.goto c .closeLocking)
    | _ => none
  | (c, .next) => s.next c
  | (c, .spurious) => match s.pc c with
    | .waiting call => some (s.wake call.op [c] ((s.cv call.op).erase c))
    | _ => none

section Fields
variable (s : Traffic α) (c : ℕ) (pc : TrafficPc α) (op : ChannalOp) (ws rest : List ℕ)

@[simp] theorem pc_goto_self : (s.goto c pc).pc c = pc := Function.update_self ..

variable {c} in
@[simp] theorem pc_goto_ne {d : ℕ} (ne : d ≠ c) : (s.goto c pc).pc d = s.pc d :=
  Function.update_of_ne ne ..

@[simp] theorem channal_wake : (s.wake op ws rest).channal = s.channal := rfl
@[simp] theorem mutex_wake : (s.wake op ws rest).m_mutex = s.m_mutex := rfl
@[simp] theorem done_wake : (s.wake op ws rest).done = s.done := rfl
@[simp] theorem returned_wake : (s.wake op ws rest).returned = s.returned := rfl

@[simp] theorem cv_wake_self : (s.wake op ws rest).cv op = rest := Function.update_self ..

variable {op} in
theorem cv_wake_ne {k : ChannalOp} (ne : k ≠ op) : (s.wake op ws rest).cv k = s.cv k :=
  Function.update_of_ne ne ..

variable {ws}

theorem pc_wake_mem {d : ℕ} (mem : d ∈ ws) : (s.wake op ws rest).pc d = (s.pc d).wake := if_pos mem

theorem pc_wake_not_mem {d : ℕ} (out : d ∉ ws) : (s.wake op ws rest).pc d = s.pc d := if_neg out

theorem pc_wake_ne {d : ℕ} (ne : ∀ call, s.pc d ≠ .waiting call) :
    (s.wake op ws rest).pc d = s.pc d := by
  have same : (s.pc d).wake = s.pc d := by
    unfold TrafficPc.wake
    split
    · exact absurd ‹_› (ne _)
    · rfl
  change (if d ∈ ws then (s.pc d).wake else s.pc d) = s.pc d
  rw [same, ite_self]

/-- A notification wakes the front of the queue, if there is one. -/
theorem notify_eq : ∃ ws rest, s.cv op = ws ++ rest ∧ (ws = [] → rest = []) ∧
    s.notify op = s.wake op ws rest := by
  unfold notify
  cases waiters : s.cv op with
  | nil =>
    refine ⟨[], [], rfl, id, ?_⟩
    have cv : Function.update s.cv op [] = s.cv := waiters ▸ Function.update_eq_self op s.cv
    rw [wake, cv]
    rfl
  | cons w rest => exact ⟨[w], rest, rfl, fun nil => absurd nil (List.cons_ne_nil _ _), rfl⟩

end Fields

/-- What a step of `c` may do. -/
inductive Turn (s : Traffic α) (c : ℕ) : Traffic α → Prop
  | call (op : ChannalOp) (t : α) : s.pc c = .outside →
      Turn s c (s.goto c (.locking ⟨op, t, t⟩ false))
  | lock (call : ChannalCall α) (woken : Bool) : s.pc c = .locking call woken →
      s.m_mutex = none → Turn s c ({ s with m_mutex := some c }.goto c (.checking call woken))
  | refuse (call : ChannalCall α) (woken : Bool) : s.pc c = .checking call woken →
      s.channal.m_is_close = true → Turn s c (s.goto c (.unlocking call false))
  | check (call : ChannalCall α) (woken : Bool) : s.pc c = .checking call woken →
      s.channal.m_is_close = false → Turn s c (s.goto c (.testing call woken))
  | wait (call : ChannalCall α) (woken : Bool) : s.pc c = .testing call woken →
      s.channal.waits call.op = true → Turn s c (s.wait c call)
  | test (call : ChannalCall α) (woken : Bool) : s.pc c = .testing call woken →
      s.channal.waits call.op = false → Turn s c (s.goto c (.acting call woken))
  | act (call : ChannalCall α) (woken : Bool) (channal : CoroutineChannal α)
      (call' : ChannalCall α) : s.pc c = .acting call woken →
      s.channal.act call = some (channal, call') →
      Turn s c ((s.record c channal call').goto c (.unlocking call' true))
  | fail (call : ChannalCall α) : s.pc c = .unlocking call false →
      Turn s c (s.unlock.finish c call false)
  | unlock (call : ChannalCall α) : s.pc c = .unlocking call true →
      Turn s c (s.unlock.goto c (.notifying call))
  | notify (call : ChannalCall α) : s.pc c = .notifying call →
      Turn s c ((s.notify call.op.other).finish c call true)
  | close : s.pc c = .outside → Turn s c (s.goto c .closeLocking)
  | closeLock : s.pc c = .closeLocking → s.m_mutex = none →
      Turn s c ({ s with m_mutex := some c }.goto c .closeChecking)
  | closed : s.pc c = .closeChecking → s.channal.m_is_close = true →
      Turn s c (s.goto c .closeUnlocking)
  | closeCheck : s.pc c = .closeChecking → s.channal.m_is_close = false →
      Turn s c (s.goto c .closing)
  | shut : s.pc c = .closing →
      Turn s c ({ s with channal := s.channal.close }.goto c (.rousing .push))
  | rousePush : s.pc c = .rousing .push →
      Turn s c ((s.notifyAll .push).goto c (.rousing .pop))
  | rousePop : s.pc c = .rousing .pop → Turn s c ((s.notifyAll .pop).goto c .closeUnlocking)
  | closeUnlock : s.pc c = .closeUnlocking → Turn s c (s.unlock.goto c .outside)
  | spurious (call : ChannalCall α) : s.pc c = .waiting call →
      Turn s c (s.wake call.op [c] ((s.cv call.op).erase c))

theorem turn_of_next {s t : Traffic α} {c : ℕ} (h : s.next c = some t) : Turn s c t := by
  unfold next at h
  split at h
  · cases h
  · cases h
  · rename_i call woken pc
    unfold lock at h
    split at h <;> cases h
    exact .lock call woken pc ‹_›
  · rename_i call woken pc
    split at h <;> cases h
    · exact .refuse call woken pc ‹_›
    · exact .check call woken pc (Bool.eq_false_iff.mpr ‹_›)
  · rename_i call woken pc
    split at h <;> cases h
    · exact .wait call woken pc ‹_›
    · exact .test call woken pc (Bool.eq_false_iff.mpr ‹_›)
  · rename_i call woken pc
    obtain ⟨⟨channal, call'⟩, act, h⟩ := Option.map_eq_some_iff.mp h
    cases h
    exact .act call woken channal call' pc act
  · rename_i call pc
    cases h
    exact .fail call pc
  · rename_i call pc
    cases h
    exact .unlock call pc
  · rename_i call pc
    cases h
    exact .notify call pc
  · rename_i pc
    unfold lock at h
    split at h <;> cases h
    exact .closeLock pc ‹_›
  · rename_i pc
    split at h <;> cases h
    · exact .closed pc ‹_›
    · exact .closeCheck pc (Bool.eq_false_iff.mpr ‹_›)
  · rename_i pc
    cases h
    exact .shut pc
  · rename_i pc
    cases h
    exact .rousePush pc
  · rename_i pc
    cases h
    exact .rousePop pc
  · rename_i pc
    cases h
    exact .closeUnlock pc

theorem turn_of_step {s t : Traffic α} {c : ℕ} {a : TrafficAction α}
    (h : s.step (c, a) = some t) : Turn s c t := by
  cases a with
  | call op v =>
    simp only [step] at h
    split at h <;> cases h
    exact .call op v ‹_›
  | close =>
    simp only [step] at h
    split at h <;> cases h
    exact .close ‹_›
  | next => exact turn_of_next h
  | spurious =>
    simp only [step] at h
    split at h <;> cases h
    exact .spurious _ ‹_›

def start (m_capacity : ℕ) : Traffic α := { channal := { m_capacity } }

end Traffic

end CRpc
