import CRpc.Coroutine.Delivery
import Mathlib.Data.Finset.Card

/-! For whom the waiters of a `CoroutineChannal` wait. -/
namespace CRpc
open Transition

variable {α : Type}

namespace CoroutineChannal

def stock (ch : CoroutineChannal α) : ChannalOp → ℕ
  | .push => ch.m_capacity - ch.m_queue.length
  | .pop => ch.m_queue.length

theorem waits_iff (ch : CoroutineChannal α) (op : ChannalOp) :
    ch.waits op = true ↔ ch.stock op = 0 := by
  cases op with
  | push => exact decide_eq_true_iff.trans Nat.sub_eq_zero_iff_le.symm
  | pop => exact List.isEmpty_iff.trans List.length_eq_zero_iff.symm

/-- An operation takes from its own stock and adds to the other's. -/
theorem stock_act {ch ch' : CoroutineChannal α} {call call' : ChannalCall α}
    (bounded : ch.m_queue.length ≤ ch.m_capacity) (free : ch.waits call.op = false)
    (act : ch.act call = some (ch', call')) :
    call'.op = call.op ∧ ch'.m_is_close = ch.m_is_close ∧
      ch'.stock call.op + 1 = ch.stock call.op ∧
      ch'.stock call.op.other = ch.stock call.op.other + 1 := by
  unfold CoroutineChannal.act at act
  cases op : call.op with
  | push =>
    rw [op] at act free
    cases act
    have room : ch.m_queue.length < ch.m_capacity := Nat.lt_of_not_le (of_decide_eq_false free)
    refine ⟨op, rfl, ?_, ?_⟩
    · simp only [stock, List.length_append, List.length_singleton]
      omega
    · simp [stock, ChannalOp.other]
  | pop =>
    rw [op] at act
    cases queue : ch.m_queue with
    | nil =>
      rw [queue] at act
      cases act
    | cons front rest =>
      rw [queue] at act bounded
      cases act
      refine ⟨rfl, rfl, ?_, ?_⟩
      · simp [stock, queue]
      · rw [List.length_cons] at bounded
        simp only [stock, ChannalOp.other, queue, List.length_cons]
        omega

end CoroutineChannal

namespace TrafficPc

/-- A notification of `op` is to come, or a coroutine woken from it has yet to do what it waited
for or to wait again. -/
@[simp] def Rouses (op : ChannalOp) : TrafficPc α → Prop
  | .unlocking call true | .notifying call => call.op.other = op
  | .locking call true | .checking call true | .testing call true | .acting call true =>
    call.op = op
  | _ => False

/-- `close` has still to wake those who wait there. -/
@[simp] def Clears (op : ChannalOp) : TrafficPc α → Prop
  | .rousing .push => True
  | .rousing .pop => op = .pop
  | _ => False

theorem rouses_wake {op : ChannalOp} {pc : TrafficPc α} (rouses : pc.Rouses op) :
    pc.wake.Rouses op := by
  cases pc <;> first | exact rouses | exact rouses.elim

theorem clears_wake {op : ChannalOp} {pc : TrafficPc α} (clears : pc.Clears op) :
    pc.wake.Clears op := by
  cases pc <;> exact clears

end TrafficPc

namespace Traffic

/-- Nobody waits in vain: as many as could do what they wait for are about to be woken or to try,
and none waits on a closed channel but for who is about to be woken. -/
structure Roused (s : Traffic α) : Prop where
  counted : ∀ op, s.channal.m_is_close = false → s.cv op ≠ [] →
    ∃ l : Finset ℕ, (∀ c ∈ l, (s.pc c).Rouses op) ∧ s.channal.stock op ≤ l.card
  closed : ∀ op, s.channal.m_is_close = true → s.cv op ≠ [] → ∃ c, (s.pc c).Clears op

theorem roused_start (m_capacity : ℕ) : (start m_capacity : Traffic α).Roused :=
  ⟨fun _ _ ne => absurd rfl ne, fun _ _ ne => absurd rfl ne⟩

section Roused
variable {s t : Traffic α} {c : ℕ} (roused : s.Roused)
include roused

theorem Roused.goto {u : Traffic α} {pc : TrafficPc α} (channal : u.channal = s.channal)
    (cv : u.cv = s.cv) (pcs : u.pc = s.pc)
    (rouses : ∀ op, s.channal.m_is_close = false → (s.pc c).Rouses op → pc.Rouses op)
    (clears : ∀ op, (s.pc c).Clears op → pc.Clears op) : (u.goto c pc).Roused := by
  have others : ∀ d, d ≠ c → (u.goto c pc).pc d = s.pc d := by
    intro d ne
    rw [pc_goto_ne _ _ ne, pcs]
  constructor
  · intro op live ne
    change u.channal.m_is_close = false at live
    rw [channal] at live
    obtain ⟨l, mem, le⟩ := roused.counted op live (cv ▸ ne)
    refine ⟨l, ?_, ?_⟩
    · intro d inside
      by_cases same : d = c
      · rw [same, pc_goto_self]
        exact rouses op live (same ▸ mem d inside)
      · rw [others d same]
        exact mem d inside
    · change u.channal.stock op ≤ _
      rwa [channal]
  · intro op closed ne
    change u.channal.m_is_close = true at closed
    obtain ⟨d, here⟩ := roused.closed op (channal ▸ closed) (cv ▸ ne)
    refine ⟨d, ?_⟩
    by_cases same : d = c
    · rw [same, pc_goto_self]
      exact clears op (same ▸ here)
    · rwa [others d same]

/-- A step of one coroutine that touches nothing but the mutex. -/
theorem Roused.goes (m_mutex : Option ℕ) {pc : TrafficPc α}
    (rouses : ∀ op, s.channal.m_is_close = false → (s.pc c).Rouses op → pc.Rouses op)
    (clears : ∀ op, (s.pc c).Clears op → pc.Clears op) : ({ s with m_mutex }.goto c pc).Roused :=
  roused.goto rfl rfl rfl rouses clears

theorem Roused.wake {op : ChannalOp} {ws rest : List ℕ} (parts : (s.cv op).Perm (ws ++ rest)) :
    (s.wake op ws rest).Roused := by
  have less : ∀ k, (s.wake op ws rest).cv k ≠ [] → s.cv k ≠ [] := by
    intro k ne
    by_cases same : k = op
    · subst same
      rw [cv_wake_self] at ne
      intro nil
      rw [nil] at parts
      exact ne (List.append_eq_nil_iff.mp parts.nil_eq.symm).2
    · rwa [cv_wake_ne s ws rest same] at ne
  constructor
  · intro k live ne
    obtain ⟨l, mem, le⟩ := roused.counted k live (less k ne)
    refine ⟨l, ?_, le⟩
    intro d inside
    by_cases woken : d ∈ ws
    · rw [pc_wake_mem s op rest woken]
      exact TrafficPc.rouses_wake (mem d inside)
    · rw [pc_wake_not_mem s op rest woken]
      exact mem d inside
  · intro k closed ne
    obtain ⟨d, here⟩ := roused.closed k closed (less k ne)
    refine ⟨d, ?_⟩
    by_cases woken : d ∈ ws
    · rw [pc_wake_mem s op rest woken]
      exact TrafficPc.clears_wake here
    · rwa [pc_wake_not_mem s op rest woken]

theorem Roused.wait {call : ChannalCall α} {woken : Bool} (sound : s.Sound)
    (pc : s.pc c = .testing call woken) (waits : s.channal.waits call.op = true) :
    (s.wait c call).Roused := by
  have knows := sound.knows c
  rw [pc] at knows
  constructor
  · intro op live ne
    by_cases same : op = call.op
    · refine ⟨∅, fun d mem => absurd mem (Finset.notMem_empty d), ?_⟩
      have none_left := (s.channal.waits_iff call.op).mp waits
      exact same ▸ none_left.le
    · have cv : (s.wait c call).cv op = s.cv op := Function.update_of_ne same ..
      rw [cv] at ne
      obtain ⟨l, mem, le⟩ := roused.counted op live ne
      refine ⟨l, ?_, le⟩
      intro d inside
      by_cases this : d = c
      · have rouses := mem d inside
        rw [this, pc] at rouses
        cases woken
        · exact rouses.elim
        · exact absurd rouses.symm same
      · have other : (s.wait c call).pc d = s.pc d := pc_goto_ne _ _ this
        rw [other]
        exact mem d inside
  · intro op closed
    cases closed.symm.trans knows.2

/-- An operation leaves one fewer of its kind, and has yet to notify the other. -/
theorem Roused.act {call call' : ChannalCall α} {woken : Bool} {channal : CoroutineChannal α}
    (pc : s.pc c = .acting call woken)
    (bounded : s.channal.m_queue.length ≤ s.channal.m_capacity)
    (live : s.channal.m_is_close = false) (free : s.channal.waits call.op = false)
    (act : s.channal.act call = some (channal, call')) :
    ((s.record c channal call').goto c (.unlocking call' true)).Roused := by
  obtain ⟨op', closed, own, other⟩ := CoroutineChannal.stock_act bounded free act
  have self : ((s.record c channal call').goto c (.unlocking call' true)).pc c =
      .unlocking call' true := pc_goto_self ..
  have others : ∀ d, d ≠ c →
      ((s.record c channal call').goto c (.unlocking call' true)).pc d = s.pc d :=
    fun d ne => pc_goto_ne _ _ ne
  constructor
  · intro op _ ne
    obtain ⟨l, mem, le⟩ := roused.counted op live ne
    rcases call.op.eq_or_other op with rfl | rfl
    · refine ⟨l.erase c, ?_, ?_⟩
      · intro d inside
        obtain ⟨ne, inside⟩ := Finset.mem_erase.mp inside
        rw [others d ne]
        exact mem d inside
      · have fewer := Finset.pred_card_le_card_erase (s := l) (a := c)
        change channal.stock call.op ≤ _
        omega
    · have out : c ∉ l := by
        intro inside
        have rouses := mem c inside
        rw [pc] at rouses
        cases woken
        · exact rouses
        · exact call.op.other_ne rouses.symm
      refine ⟨insert c l, ?_, ?_⟩
      · intro d inside
        rcases Finset.mem_insert.mp inside with rfl | inside
        · rw [self]
          exact congrArg ChannalOp.other op'
        · have ne : d ≠ c := ne_of_mem_of_not_mem inside out
          rw [others d ne]
          exact mem d inside
      · rw [Finset.card_insert_of_notMem out]
        exact other.le.trans (Nat.succ_le_succ le)
  · intro op shut
    cases (closed.symm.trans shut).symm.trans live

theorem Roused.notify {call : ChannalCall α} (sound : s.Sound) (pc : s.pc c = .notifying call) :
    ((s.notify call.op.other).finish c call true).Roused := by
  obtain ⟨ws, rest, parts, front, eq⟩ := s.notify_eq call.op.other
  have woken := roused.wake (.of_eq parts)
  have waker : (s.wake call.op.other ws rest).pc c = .notifying call :=
    pc ▸ pc_wake_ne s call.op.other rest (by simp [pc])
  rw [eq]
  have others : ∀ d, d ≠ c → ((s.wake call.op.other ws rest).finish c call true).pc d =
      (s.wake call.op.other ws rest).pc d := fun d ne => pc_goto_ne _ _ ne
  constructor
  · intro op live ne
    by_cases same : op = call.op.other
    · subst same
      have left : rest ≠ [] := by
        change Function.update s.cv call.op.other rest call.op.other ≠ [] at ne
        rwa [Function.update_self] at ne
      obtain ⟨l, mem, le⟩ := roused.counted _ live
        (parts ▸ List.append_ne_nil_of_right_ne_nil ws left)
      obtain ⟨w, mem_w⟩ := List.exists_mem_of_ne_nil ws fun nil => left (front nil)
      obtain ⟨call', pc_w, own⟩ :=
        (sound.waiting _ w).mp (parts ▸ List.mem_append_left rest mem_w)
      have ne_w : w ≠ c := by
        rintro rfl
        cases pc_w.symm.trans pc
      have out : w ∉ l.erase c := by
        intro inside
        have rouses := mem w (Finset.mem_of_mem_erase inside)
        rw [pc_w] at rouses
        exact rouses
      refine ⟨insert w (l.erase c), ?_, ?_⟩
      · intro d inside
        rcases Finset.mem_insert.mp inside with rfl | inside
        · rw [others d ne_w, pc_wake_mem s _ rest mem_w, pc_w]
          exact own
        · obtain ⟨ne, inside⟩ := Finset.mem_erase.mp inside
          rw [others d ne]
          by_cases taken : d ∈ ws
          · rw [pc_wake_mem s _ rest taken]
            exact TrafficPc.rouses_wake (mem d inside)
          · rw [pc_wake_not_mem s _ rest taken]
            exact mem d inside
      · have fewer := Finset.pred_card_le_card_erase (s := l) (a := c)
        rw [Finset.card_insert_of_notMem out]
        change s.channal.stock call.op.other ≤ _
        omega
    · obtain ⟨l, mem, le⟩ := woken.counted op live ne
      refine ⟨l, ?_, le⟩
      intro d inside
      rw [others d]
      · exact mem d inside
      · rintro rfl
        have rouses := mem d inside
        rw [waker] at rouses
        exact same rouses.symm
  · intro op closed ne
    obtain ⟨d, clears⟩ := woken.closed op closed ne
    refine ⟨d, ?_⟩
    rw [others d]
    · exact clears
    · rintro rfl
      rw [waker] at clears
      exact clears

omit roused in
theorem roused_close :
    ({ s with channal := s.channal.close }.goto c (.rousing .push)).Roused := by
  constructor
  · intro op live
    cases live
  · intro op _ _
    refine ⟨c, ?_⟩
    rw [pc_goto_self]
    trivial

theorem Roused.notifyAll {op : ChannalOp} {pc' : TrafficPc α} (pc : s.pc c = .rousing op)
    (after : ∀ k, k ≠ op → (TrafficPc.rousing op : TrafficPc α).Clears k → pc'.Clears k) :
    ((s.notifyAll op).goto c pc').Roused := by
  have woken : (s.notifyAll op).Roused := roused.wake (.of_eq (List.append_nil _).symm)
  have waker : (s.notifyAll op).pc c = .rousing op := pc ▸ pc_wake_ne s op [] (by simp [pc])
  have others : ∀ d, d ≠ c → ((s.notifyAll op).goto c pc').pc d = (s.notifyAll op).pc d :=
    fun d ne => pc_goto_ne _ _ ne
  constructor
  · intro k live ne
    obtain ⟨l, mem, le⟩ := woken.counted k live ne
    refine ⟨l, ?_, le⟩
    intro d inside
    rw [others d]
    · exact mem d inside
    · rintro rfl
      have rouses := mem d inside
      rw [waker] at rouses
      exact rouses
  · intro k closed ne
    have other : k ≠ op := by
      rintro rfl
      exact ne (Function.update_self ..)
    obtain ⟨d, clears⟩ := woken.closed k closed ne
    refine ⟨d, ?_⟩
    by_cases same : d = c
    · rw [same, waker] at clears
      rw [same, pc_goto_self]
      exact after k other clears
    · rw [others d same]
      exact clears

theorem roused_step {m_capacity : ℕ} {a : TrafficAction α} (sound : s.Sound)
    (delivered : Delivered m_capacity s) (h : s.step (c, a) = some t) : t.Roused := by
  have knows := sound.knows c
  cases turn_of_step h with
  | call op v pc => exact roused.goes _ (by simp [pc]) (by simp [pc])
  | lock call woken pc free => exact roused.goes _ (by cases woken <;> simp [pc]) (by simp [pc])
  | refuse call woken pc closed => exact roused.goes _ (by simp [closed]) (by simp [pc])
  | check call woken pc live => exact roused.goes _ (by cases woken <;> simp [pc]) (by simp [pc])
  | wait call woken pc waits => exact roused.wait sound pc waits
  | test call woken pc free => exact roused.goes _ (by cases woken <;> simp [pc]) (by simp [pc])
  | act call woken channal call' pc act =>
    rw [pc] at knows
    exact roused.act pc (delivered.bounded.trans_eq delivered.capacity.symm) knows.1 knows.2 act
  | fail call pc => exact roused.goto rfl rfl rfl (by simp [pc]) (by simp [pc])
  | unlock call pc => exact roused.goes _ (by simp [pc]) (by simp [pc])
  | notify call pc => exact roused.notify sound pc
  | close pc => exact roused.goes _ (by simp [pc]) (by simp [pc])
  | closeLock pc free => exact roused.goes _ (by simp [pc]) (by simp [pc])
  | closed pc closed => exact roused.goes _ (by simp [pc]) (by simp [pc])
  | closeCheck pc live => exact roused.goes _ (by simp [pc]) (by simp [pc])
  | shut pc => exact roused_close
  | rousePush pc =>
    refine roused.notifyAll pc fun k ne _ => ?_
    cases k
    · exact absurd rfl ne
    · rfl
  | rousePop pc => exact roused.notifyAll pc fun k ne clears => absurd clears ne
  | closeUnlock pc => exact roused.goes _ (by simp [pc]) (by simp [pc])
  | spurious call pc =>
    exact roused.wake (List.perm_cons_erase ((sound.waiting _ _).mpr ⟨call, pc, rfl⟩))

end Roused

end Traffic

namespace TrafficPc

@[simp] def Notifies : TrafficPc α → Prop
  | .unlocking _ true | .notifying _ | .rousing _ => True
  | _ => False

/-- Woken, and yet to do what it waited for or to find that it cannot. -/
@[simp] def Woken : TrafficPc α → Prop
  | .locking _ true | .checking _ true | .testing _ true | .acting _ true => True
  | _ => False

theorem notifies_or_woken {op : ChannalOp} {pc : TrafficPc α} (rouses : pc.Rouses op) :
    pc.Notifies ∨ pc.Woken := by
  unfold Rouses at rouses
  split at rouses <;> first | exact .inl trivial | exact .inr trivial | exact rouses.elim

theorem notifies_of_clears {op : ChannalOp} {pc : TrafficPc α} (clears : pc.Clears op) :
    pc.Notifies := by
  unfold Clears at clears
  split at clears
  · trivial
  · trivial
  · exact clears.elim

end TrafficPc

namespace Traffic

/-- While no notification is to come and nobody woken has yet to look again, no consumer waits for
a queue that holds something, no producer for one with room, and nobody on a closed channel. -/
theorem no_waiter_stranded {m_capacity : ℕ} {as : List (ℕ × TrafficAction α)} {s : Traffic α}
    (run : Run step Always (start m_capacity) as s) (notified : ∀ c, ¬ (s.pc c).Notifies)
    (looked : ∀ c, ¬ (s.pc c).Woken) :
    ¬ (s.cv .pop ≠ [] ∧ s.channal.m_queue ≠ []) ∧
    ¬ (s.cv .push ≠ [] ∧ s.channal.m_queue.length < m_capacity) ∧
    ¬ (s.channal.m_is_close = true ∧ ∃ op, s.cv op ≠ []) := by
  have all : (s.Sound ∧ Delivered m_capacity s) ∧ s.Roused := by
    apply run.invariant (P := fun s => (s.Sound ∧ Delivered m_capacity s) ∧ s.Roused)
    · exact ⟨⟨sound_start m_capacity, delivered_start m_capacity⟩, roused_start m_capacity⟩
    · rintro s ⟨c, a⟩ t ⟨⟨sound, delivered⟩, roused⟩ - next
      exact ⟨⟨sound_step sound next, delivered_step delivered sound next⟩,
        roused_step roused sound delivered next⟩
  obtain ⟨⟨-, delivered⟩, roused⟩ := all
  have shut : ¬ (s.channal.m_is_close = true ∧ ∃ op, s.cv op ≠ []) := by
    rintro ⟨closed, op, ne⟩
    obtain ⟨c, clears⟩ := roused.closed op closed ne
    exact notified c (TrafficPc.notifies_of_clears clears)
  have none_left : ∀ op, s.cv op ≠ [] → s.channal.stock op = 0 := by
    intro op ne
    cases live : s.channal.m_is_close with
    | true => exact absurd ⟨live, op, ne⟩ shut
    | false =>
      obtain ⟨l, mem, le⟩ := roused.counted op live ne
      have empty : l = ∅ := by
        apply Finset.eq_empty_of_forall_notMem
        intro c inside
        exact (TrafficPc.notifies_or_woken (mem c inside)).elim (notified c) (looked c)
      rw [empty] at le
      exact Nat.le_zero.mp le
  refine ⟨?_, ?_, shut⟩
  · rintro ⟨waits, ne⟩
    exact ne (List.length_eq_zero_iff.mp (none_left .pop waits))
  · rintro ⟨waits, room⟩
    rw [← delivered.capacity] at room
    exact absurd (none_left .push waits) (Nat.sub_ne_zero_of_lt room)

theorem outside_step {s t : Traffic α} {c d : ℕ} {a : TrafficAction α}
    (h : s.step (c, a) = some t) (ne : d ≠ c) (out : s.pc d = .outside) : t.pc d = .outside := by
  have woken : ∀ op ws rest, (s.wake op ws rest).pc d = .outside := by
    intro op ws rest
    rw [pc_wake_ne s op rest (by simp [out]), out]
  cases turn_of_step h with
  | notify call =>
    obtain ⟨ws, rest, -, -, eq⟩ := s.notify_eq call.op.other
    rw [eq]
    exact (pc_goto_ne _ _ ne).trans (woken call.op.other ws rest)
  | rousePush => exact (pc_goto_ne _ _ ne).trans (woken _ _ _)
  | rousePop => exact (pc_goto_ne _ _ ne).trans (woken _ _ _)
  | spurious => exact woken _ _ _
  | _ => exact (pc_goto_ne _ _ ne).trans out

theorem forall_pc {m_capacity : ℕ} {as : List (ℕ × TrafficAction α)} {s : Traffic α}
    (run : Run step Always (start m_capacity) as s) {P : TrafficPc α → Prop} (outside : P .outside)
    (acting : ∀ a ∈ as, P (s.pc a.1)) (c : ℕ) : P (s.pc c) := by
  by_cases acts : ∃ a ∈ as, a.1 = c
  · obtain ⟨a, mem, rfl⟩ := acts
    exact acting a mem
  · have out : s.pc c = .outside := by
      clear acting
      induction run with
      | refl => rfl
      | @snoc as t a u _ _ next ih =>
        apply outside_step next
        · exact fun same => acts ⟨a, by simp, same.symm⟩
        · exact ih fun ⟨b, mem, same⟩ => acts ⟨b, List.mem_append_left _ mem, same⟩
    exact out ▸ outside

/-- Two consumers wait; a value is pushed and the first of them woken. -/
def awakening : List (ℕ × TrafficAction ℕ) :=
  [(1, .call .pop 0), (1, .next), (1, .next), (1, .next),
    (2, .call .pop 0), (2, .next), (2, .next), (2, .next),
    (3, .call .push 5), (3, .next), (3, .next), (3, .next), (3, .next), (3, .next), (3, .next)]

/-- The second waits still; the first has the lock and has yet to look at the queue. -/
theorem waiter_of_awakening : ∃ s : Traffic ℕ,
    Run step Always (start 1) (awakening ++ [(1, .next)]) s ∧ (∀ c, ¬ (s.pc c).Notifies) ∧
      (∀ c call, s.pc c ≠ .locking call true) ∧ s.cv .pop ≠ [] ∧ s.channal.m_queue ≠ [] := by
  have reached : ∃ s : Traffic ℕ, Run step Always (start 1) (awakening ++ [(1, .next)]) s ∧
      s.pc 1 = .checking ⟨.pop, 0, 0⟩ true ∧ s.pc 2 = .waiting ⟨.pop, 0, 0⟩ ∧
      s.pc 3 = .outside ∧ s.cv .pop = [2] ∧ s.channal.m_queue = [5] :=
    ⟨_, .of_exec rfl, rfl, rfl, rfl, rfl, rfl⟩
  obtain ⟨s, run, one, two, three, waiters, queue⟩ := reached
  refine ⟨s, run, ?_, ?_, by simp [waiters], by simp [queue]⟩
  · exact forall_pc run (P := fun pc => ¬ pc.Notifies) id (by simp [awakening, one, two, three])
  · exact forall_pc run (P := fun pc => ∀ call, pc ≠ .locking call true) (fun _ => nofun)
      (by simp [awakening, one, two, three])

/-- The first has taken the value and notified a producer. -/
theorem no_waiter_stranded_awakening : ∃ s : Traffic ℕ,
    Run step Always (start 1) (awakening ++ List.replicate 6 (1, .next)) s ∧ s.cv .pop = [2] ∧
      ¬ (s.cv .pop ≠ [] ∧ s.channal.m_queue ≠ []) ∧
      ¬ (s.cv .push ≠ [] ∧ s.channal.m_queue.length < 1) ∧
      ¬ (s.channal.m_is_close = true ∧ ∃ op, s.cv op ≠ []) := by
  have reached : ∃ s : Traffic ℕ,
      Run step Always (start 1) (awakening ++ List.replicate 6 (1, .next)) s ∧
      s.pc 1 = .outside ∧ s.pc 2 = .waiting ⟨.pop, 0, 0⟩ ∧ s.pc 3 = .outside ∧ s.cv .pop = [2] :=
    ⟨_, .of_exec rfl, rfl, rfl, rfl, rfl⟩
  obtain ⟨s, run, one, two, three, waiters⟩ := reached
  have still := forall_pc run (P := fun pc => ¬ pc.Notifies ∧ ¬ pc.Woken) ⟨id, id⟩
    (by simp [awakening, List.replicate, one, two, three])
  exact ⟨s, run, waiters, no_waiter_stranded run (fun c => (still c).1) fun c => (still c).2⟩

end Traffic

end CRpc
