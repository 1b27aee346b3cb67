import CRpc.Coroutine.Exclusion
import Mathlib.Data.List.Nodup

/-! Which waiters of a `CoroutineMutex` are woken. -/
namespace CRpc.Locking
open Transition

/-- Between the enqueueing of a coroutine and its resumption. -/
@[simp] def LockPc.Parked : LockPc → Prop
  | .yielding | .suspended => True
  | _ => False

/-- Between the enqueueing of a coroutine and its next success or enqueueing. -/
@[simp] def LockPc.Back : LockPc → Prop
  | .yielding | .suspended | .trying true | .enqueueing true => True
  | _ => False

/-- `wait_coroutine`, not yet `READY`. -/
@[simp] def LockPc.hand : LockPc → Option ℕ
  | .freeing wait_coroutine => wait_coroutine
  | .waking wait_coroutine => some wait_coroutine
  | _ => none

/-- Past the look at the queue, the spin lock not yet released. -/
@[simp] def LockPc.Inspected : LockPc → Prop
  | .freeing _ => True
  | _ => False

theorem back_of_parked {pc : LockPc} (parked : LockPc.Parked pc) : LockPc.Back pc := by
  cases pc <;> trivial

def Blocked (s : Locking) (w : ℕ) : Prop := LockPc.Parked (s.pc w) ∧ s.m_state w = .BLOCKED

/-- Some holder of the spin lock will look at the queue. -/
def Served (s : Locking) : Prop :=
  ∃ d, s.mutex.m_mutex = some d ∧ ¬ LockPc.Inspected (s.pc d)

/-- Taken out of the queue to try again, and not done with it. -/
def Coming (s : Locking) (w : ℕ) : Prop :=
  (∃ c, LockPc.hand (s.pc c) = some w) ∨ (LockPc.Back (s.pc w) ∧ s.m_state w = .READY)

def Awake (s : Locking) : Prop := s.mutex.m_waitQueue ≠ [] → s.Served ∨ ∃ w, s.Coming w

/-- `Scheduler::run` resumes what is `READY`. -/
def Scheduled (s : Locking) : ℕ × LockAction → Prop
  | (c, .resume) => s.m_state c = .READY
  | _ => True

def Joins (s : Locking) : ℕ × LockAction → Prop
  | (c, .next) => s.pc c = .enqueueing false ∨ s.pc c = .enqueueing true
  | _ => False

def Keeps (s : Locking) (a : ℕ × LockAction) : Prop :=
  s.Joins a → s.Served ∨ ∃ w, w ≠ a.1 ∧ s.Coming w

/-- Whom the queue, and the coroutines that took from it, know. -/
structure Lined (s : Locking) : Prop where
  blocked : ∀ w ∈ s.mutex.m_waitQueue, s.Blocked w
  nodup : s.mutex.m_waitQueue.Nodup
  hand : ∀ c w, LockPc.hand (s.pc c) = some w → s.Blocked w ∧ w ∉ s.mutex.m_waitQueue
  apart : ∀ c d w, LockPc.hand (s.pc c) = some w → LockPc.hand (s.pc d) = some w → c = d

/-- A step of `c` that moves no waiter. -/
structure Calm (s t : Locking) (c : ℕ) : Prop where
  others : ∀ d, d ≠ c → t.pc d = s.pc d
  queue : t.mutex.m_waitQueue = s.mutex.m_waitQueue
  state : t.m_state = s.m_state
  hand : LockPc.hand (t.pc c) = LockPc.hand (s.pc c)
  parked : s.Blocked c → LockPc.Parked (t.pc c)
  served : s.Served → t.Served
  back : LockPc.Back (s.pc c) → s.m_state c = .READY → LockPc.Back (t.pc c) ∨ t.Served

section Calm
variable {s t : Locking} {c : ℕ} (calm : Calm s t c)
include calm

theorem Calm.hands (d : ℕ) : LockPc.hand (t.pc d) = LockPc.hand (s.pc d) := by
  by_cases same : d = c
  · exact same ▸ calm.hand
  · rw [calm.others d same]

theorem Calm.blocked {w : ℕ} (blocked : s.Blocked w) : t.Blocked w := by
  constructor
  · by_cases same : w = c
    · exact same ▸ calm.parked (same ▸ blocked)
    · rw [calm.others w same]
      exact blocked.1
  · rw [calm.state]
    exact blocked.2

theorem Calm.lined (lined : s.Lined) : t.Lined := by
  constructor
  · rw [calm.queue]
    exact fun w mem => calm.blocked (lined.blocked w mem)
  · rw [calm.queue]
    exact lined.nodup
  · intro d w hand
    rw [calm.hands] at hand
    obtain ⟨blocked, out⟩ := lined.hand d w hand
    exact ⟨calm.blocked blocked, calm.queue ▸ out⟩
  · intro d e w first second
    rw [calm.hands] at first second
    exact lined.apart d e w first second

theorem Calm.awake (awake : s.Awake) : t.Awake := by
  intro ne
  rw [calm.queue] at ne
  rcases awake ne with served | ⟨w, ⟨d, hand⟩ | ⟨back, ready⟩⟩
  · exact .inl (calm.served served)
  · exact .inr ⟨w, .inl ⟨d, (calm.hands d).trans hand⟩⟩
  · by_cases same : w = c
    · subst same
      rcases calm.back back ready with back | served
      · exact .inr ⟨w, .inr ⟨back, by rwa [calm.state]⟩⟩
      · exact .inl served
    · refine .inr ⟨w, .inr ⟨?_, ?_⟩⟩
      · rwa [calm.others w same]
      · rwa [calm.state]

end Calm

theorem Served.moves {s t : Locking} {c : ℕ} (served : s.Served)
    (others : ∀ d, d ≠ c → t.pc d = s.pc d) (mutex : t.mutex.m_mutex = s.mutex.m_mutex)
    (self : ¬ LockPc.Inspected (t.pc c)) : t.Served := by
  obtain ⟨d, held, before⟩ := served
  refine ⟨d, mutex.trans held, ?_⟩
  by_cases same : d = c
  · exact same ▸ self
  · rwa [others d same]

inductive Moves (s : Locking) (c : ℕ) : Locking → Prop
  | enqueue (again : Bool) : s.pc c = .enqueueing again →
      Moves s c (({ s with mutex := s.mutex.enqueue c }.setState c .BLOCKED).goto c .yielding)
  | release : s.pc c = .releasing →
      Moves s c
        ({ s with mutex := s.mutex.release }.goto c (.freeing s.mutex.m_waitQueue.head?))
  | wake (w : ℕ) : s.pc c = .waking w → Moves s c ((s.setState w .READY).goto c .outside)

/-- A step of `c` alone that leaves the queue and the spin lock. -/
theorem calm_goto {s u : Locking} {c : ℕ} {pc : LockPc} (others : u.pc = s.pc)
    (queue : u.mutex.m_waitQueue = s.mutex.m_waitQueue)
    (mutex : u.mutex.m_mutex = s.mutex.m_mutex) (state : u.m_state = s.m_state)
    (hand : LockPc.hand pc = LockPc.hand (s.pc c)) (before : ¬ LockPc.Inspected pc)
    (parked : s.Blocked c → LockPc.Parked pc) (back : LockPc.Back (s.pc c) → LockPc.Back pc) :
    Calm s (u.goto c pc) c := by
  have ne : ∀ d, d ≠ c → (u.goto c pc).pc d = s.pc d := by
    intro d ne
    rw [pc_goto_ne _ _ ne, others]
  constructor
  · exact ne
  · exact queue
  · exact state
  · rwa [pc_goto_self]
  · rwa [pc_goto_self]
  · intro served
    apply served.moves ne mutex
    rwa [pc_goto_self]
  · intro old _
    rw [pc_goto_self]
    exact .inl (back old)

/-- The holder frees the spin lock after its look at the queue. -/
theorem calm_free {s : Locking} {c : ℕ} {w : Option ℕ} {pc : LockPc} (owned : s.Owned)
    (now : s.pc c = .freeing w) (hand : LockPc.hand pc = w) :
    Calm s ({ s with mutex := s.mutex.free }.goto c pc) c := by
  constructor
  · exact fun d ne => pc_goto_ne _ _ ne
  · rfl
  · rfl
  · rw [pc_goto_self, now]
    exact hand
  · rintro ⟨parked, -⟩
    rw [now] at parked
    exact parked.elim
  · rintro ⟨d, held, before⟩
    cases held.symm.trans ((owned.all c).freeing w now).1
    rw [now] at before
    exact absurd trivial before
  · intro back
    rw [now] at back
    exact back.elim

theorem step_cases {s t : Locking} {c : ℕ} {a : LockAction} (owned : s.Owned)
    (scheduled : s.Scheduled (c, a)) (h : s.step (c, a) = some t) :
    Calm s t c ∨ (a = .next ∧ Moves s c t) := by
  cases turn_of_step h with
  | enqueue again pc => exact .inr ⟨rfl, .enqueue again pc⟩
  | release pc => exact .inr ⟨rfl, .release pc⟩
  | wake w pc => exact .inr ⟨rfl, .wake w pc⟩
  | take again pc free =>
    have taken : Served ({ s with mutex := { s.mutex with m_mutex := some c } }.goto c .owning) :=
      ⟨c, rfl, by simp⟩
    left
    refine ⟨fun d ne => by simp [ne], rfl, rfl, ?_, ?_, fun _ => taken, fun _ _ => .inr taken⟩
    · simp [pc]
    · simp [pc, Blocked]
  | miss again pc =>
    left
    refine calm_goto rfl rfl rfl rfl ?_ ?_ ?_ ?_ <;> cases again <;> simp [pc, Blocked]
  | free pc => exact .inl (calm_free owned pc rfl)
  | hand w pc => exact .inl (calm_free owned pc rfl)
  | resume pc =>
    have ready : s.m_state c = .READY := scheduled
    left
    refine calm_goto rfl rfl rfl rfl ?_ ?_ ?_ ?_ <;> simp [pc, Blocked, ready]
  | _ =>
    left
    refine calm_goto rfl rfl rfl rfl ?_ ?_ ?_ ?_ <;> simp [*, Blocked]

theorem ne_of_blocked {s : Locking} {c w : ℕ} (h : ¬ LockPc.Parked (s.pc c))
    (blocked : s.Blocked w) : w ≠ c := by
  rintro rfl
  exact h blocked.1

section Moves
variable {s : Locking} {c : ℕ} (lined : s.Lined)
include lined

theorem unknown_of_pc (h : ¬ LockPc.Parked (s.pc c)) :
    c ∉ s.mutex.m_waitQueue ∧ ∀ d, LockPc.hand (s.pc d) ≠ some c := by
  constructor
  · exact fun mem => h (lined.blocked c mem).1
  · exact fun d hand => h (lined.hand d c hand).1.1

theorem lined_enqueue (idle : LockPc.hand (s.pc c) = none) (out : ¬ LockPc.Parked (s.pc c)) :
    Lined (({ s with mutex := s.mutex.enqueue c }.setState c .BLOCKED).goto c .yielding) := by
  obtain ⟨absent, free⟩ := unknown_of_pc lined out
  have hands : ∀ d, LockPc.hand ((s.goto c .yielding).pc d) = LockPc.hand (s.pc d) := by
    intro d
    by_cases same : d = c
    · subst same
      rw [pc_goto_self, idle]
      rfl
    · rw [pc_goto_ne _ _ same]
  have kept : ∀ w, s.Blocked w →
      Blocked (({ s with mutex := s.mutex.enqueue c }.setState c .BLOCKED).goto c .yielding) w := by
    intro w blocked
    have ne := ne_of_blocked out blocked
    constructor
    · rw [pc_goto_ne _ _ ne]
      exact blocked.1
    · rw [state_goto, state_setState_ne _ _ ne]
      exact blocked.2
  constructor
  · intro w mem
    rcases List.mem_append.mp mem with old | new
    · exact kept w (lined.blocked w old)
    · cases List.mem_singleton.mp new
      exact ⟨by simp, by simp⟩
  · exact List.nodup_append.mpr ⟨lined.nodup, List.nodup_singleton c,
      fun a mem b new => by rintro rfl; exact absent (List.mem_singleton.mp new ▸ mem)⟩
  · intro d w hand
    obtain ⟨blocked, apart⟩ := lined.hand d w ((hands d).symm.trans hand)
    refine ⟨kept w blocked, ?_⟩
    intro mem
    rcases List.mem_append.mp mem with old | new
    · exact apart old
    · exact ne_of_blocked out blocked (List.mem_singleton.mp new)
  · intro d e w first second
    exact lined.apart d e w ((hands d).symm.trans first) ((hands e).symm.trans second)

theorem lined_release (pc : s.pc c = .releasing) :
    Lined ({ s with mutex := s.mutex.release }.goto c (.freeing s.mutex.m_waitQueue.head?)) := by
  have kept : ∀ w, s.Blocked w → Blocked
      ({ s with mutex := s.mutex.release }.goto c (.freeing s.mutex.m_waitQueue.head?)) w := by
    intro w blocked
    have ne := ne_of_blocked (c := c) (by simp [pc]) blocked
    refine ⟨?_, blocked.2⟩
    rw [pc_goto_ne _ _ ne]
    exact blocked.1
  have head : ∀ w, s.mutex.m_waitQueue.head? = some w →
      w ∈ s.mutex.m_waitQueue ∧ w ∉ s.mutex.m_waitQueue.tail := by
    intro w front
    have nodup := lined.nodup
    obtain ⟨ws, eq⟩ := List.head?_eq_some_iff.mp front
    rw [eq] at nodup ⊢
    exact ⟨List.mem_cons_self, (List.nodup_cons.mp nodup).1⟩
  constructor
  · exact fun w mem => kept w (lined.blocked w (List.mem_of_mem_tail mem))
  · exact lined.nodup.tail
  · intro d w hand
    by_cases same : d = c
    · subst same
      rw [pc_goto_self] at hand
      obtain ⟨mem, out⟩ := head w hand
      exact ⟨kept w (lined.blocked w mem), out⟩
    · rw [pc_goto_ne _ _ same] at hand
      obtain ⟨blocked, out⟩ := lined.hand d w hand
      exact ⟨kept w blocked, fun mem => out (List.mem_of_mem_tail mem)⟩
  · -- the front of the queue was in no other hand
    have front : ∀ d w, d ≠ c → s.mutex.m_waitQueue.head? = some w →
        LockPc.hand (s.pc d) ≠ some w :=
      fun d w _ front hand => (lined.hand d w hand).2 (head w front).1
    intro d e w first second
    by_cases same : d = c
    · subst same
      by_cases ne : e = d
      · exact ne.symm
      · rw [pc_goto_self] at first
        rw [pc_goto_ne _ _ ne] at second
        exact absurd second (front e w ne first)
    · rw [pc_goto_ne _ _ same] at first
      by_cases ne : e = c
      · subst ne
        rw [pc_goto_self] at second
        exact absurd first (front d w same second)
      · rw [pc_goto_ne _ _ ne] at second
        exact lined.apart d e w first second

theorem lined_wake {w : ℕ} (pc : s.pc c = .waking w) :
    Lined ((s.setState w .READY).goto c .outside) := by
  have mine : LockPc.hand (s.pc c) = some w := by rw [pc]; rfl
  have kept : ∀ v, v ≠ w → s.Blocked v → Blocked ((s.setState w .READY).goto c .outside) v := by
    intro v ne blocked
    constructor
    · rw [pc_goto_ne _ _ (ne_of_blocked (c := c) (by simp [pc]) blocked)]
      exact blocked.1
    · rw [state_goto, state_setState_ne _ _ ne]
      exact blocked.2
  have hands : ∀ d v, LockPc.hand (((s.setState w .READY).goto c .outside).pc d) = some v →
      d ≠ c ∧ LockPc.hand (s.pc d) = some v := by
    intro d v hand
    by_cases same : d = c
    · subst same
      rw [pc_goto_self] at hand
      cases hand
    · rw [pc_goto_ne _ _ same] at hand
      exact ⟨same, hand⟩
  constructor
  · intro v mem
    apply kept v _ (lined.blocked v mem)
    rintro rfl
    exact (lined.hand c v mine).2 mem
  · exact lined.nodup
  · intro d v hand
    obtain ⟨ne, before⟩ := hands d v hand
    obtain ⟨blocked, out⟩ := lined.hand d v before
    refine ⟨kept v ?_ blocked, out⟩
    rintro rfl
    exact ne (lined.apart d c v before mine)
  · intro d e v first second
    exact lined.apart d e v (hands d v first).2 (hands e v second).2

theorem lined_moves {t : Locking} (moves : Moves s c t) : t.Lined := by
  cases moves with
  | enqueue again pc => exact lined_enqueue lined (by simp [pc]) (by simp [pc])
  | release pc => exact lined_release lined pc
  | wake w pc => exact lined_wake lined pc

theorem awake_enqueue {again : Bool} (pc : s.pc c = .enqueueing again) :
    Awake (({ s with mutex := s.mutex.enqueue c }.setState c .BLOCKED).goto c .yielding) ↔
      s.Served ∨ ∃ w, w ≠ c ∧ s.Coming w := by
  have out : ¬ LockPc.Parked (s.pc c) := by cases again <;> simp [pc]
  have hands : ∀ d, LockPc.hand ((s.goto c .yielding).pc d) = LockPc.hand (s.pc d) := by
    intro d
    by_cases same : d = c
    · subst same
      rw [pc_goto_self, pc]
      rfl
    · rw [pc_goto_ne _ _ same]
  have served : Served (({ s with mutex := s.mutex.enqueue c }.setState c .BLOCKED).goto c
      .yielding) ↔ s.Served := by
    apply exists_congr
    intro d
    apply and_congr_right
    intro _
    by_cases same : d = c
    · subst same
      simp [pc]
    · rw [pc_goto_ne _ _ same]
      rfl
  have coming : ∀ w, Coming (({ s with mutex := s.mutex.enqueue c }.setState c .BLOCKED).goto c
      .yielding) w ↔ w ≠ c ∧ s.Coming w := by
    intro w
    by_cases same : w = c
    · subst same
      apply iff_of_false
      · rintro (⟨d, hand⟩ | ⟨-, ready⟩)
        · exact (unknown_of_pc lined out).2 d ((hands d).symm.trans hand)
        · rw [state_goto, state_setState_self] at ready
          cases ready
      · exact fun both => both.1 rfl
    · rw [Coming, state_goto, state_setState_ne _ _ same, pc_goto_ne _ _ same]
      have same_hands : (∃ d, LockPc.hand ((s.goto c .yielding).pc d) = some w) ↔
          ∃ d, LockPc.hand (s.pc d) = some w := exists_congr fun d => by rw [hands]
      exact (or_congr_left same_hands).trans (and_iff_right same).symm
  have waits : (s.mutex.m_waitQueue ++ [c]) ≠ [] := by simp
  rw [Awake, served]
  simp only [coming]
  exact ⟨fun awake => awake waits, fun keeps _ => keeps⟩

omit lined in
theorem awake_release :
    Awake ({ s with mutex := s.mutex.release }.goto c (.freeing s.mutex.m_waitQueue.head?)) := by
  intro left
  right
  change s.mutex.m_waitQueue.tail ≠ [] at left
  cases queue : s.mutex.m_waitQueue with
  | nil =>
    rw [queue] at left
    exact absurd rfl left
  | cons w ws => exact ⟨w, .inl ⟨c, by simp⟩⟩

theorem awake_wake {w : ℕ} (pc : s.pc c = .waking w) :
    Awake ((s.setState w .READY).goto c .outside) := by
  intro _
  right
  have parked := (lined.hand c w (by rw [pc]; rfl)).1
  have ne : w ≠ c := ne_of_blocked (by simp [pc]) parked
  refine ⟨w, .inr ⟨?_, by simp⟩⟩
  rw [pc_goto_ne _ _ ne, pc_setState]
  exact back_of_parked parked.1

theorem awake_step {t : Locking} {a : LockAction} (owned : s.Owned) (awake : s.Awake)
    (scheduled : s.Scheduled (c, a)) (h : s.step (c, a) = some t) :
    t.Awake ↔ s.Keeps (c, a) := by
  rcases step_cases owned scheduled h with calm | ⟨rfl, moves⟩
  · apply iff_of_true (calm.awake awake)
    intro joins
    have more := calm.queue
    cases a with
    | lock => exact joins.elim
    | unlock => exact joins.elim
    | resume => exact joins.elim
    | next =>
      rcases joins with pc | pc <;> simp only [step, next, pc, Option.some.injEq] at h <;>
        subst h <;> simp [CoroutineMutex.enqueue] at more
  · cases moves with
    | enqueue again pc =>
      rw [awake_enqueue lined pc]
      refine ⟨fun kept _ => kept, fun kept => kept ?_⟩
      cases again
      · exact .inl pc
      · exact .inr pc
    | release pc =>
      apply iff_of_true awake_release
      rintro (other | other) <;> cases pc.symm.trans other
    | wake w pc =>
      apply iff_of_true (awake_wake lined pc)
      rintro (other | other) <;> cases pc.symm.trans other

theorem lined_step {t : Locking} {a : LockAction} (owned : s.Owned)
    (scheduled : s.Scheduled (c, a)) (h : s.step (c, a) = some t) : t.Lined := by
  rcases step_cases owned scheduled h with calm | ⟨-, moves⟩
  · exact calm.lined lined
  · exact lined_moves lined moves

end Moves

theorem lined_initial : Lined {} := by
  constructor
  · exact fun w mem => absurd mem List.not_mem_nil
  · exact .nil
  · intro c w hand
    cases hand
  · intro c d w first
    cases first

/-- Nobody is inside `lock` before its yield or inside `unlock`. -/
def Quiet (s : Locking) : Prop :=
  ∀ c, s.pc c = .outside ∨ s.pc c = .suspended ∨ s.pc c = .trying true ∨ s.pc c = .owning

/-- A blocked waiter waits for a holder, or behind another that will try again. -/
def Awaited (s : Locking) : Prop :=
  ∀ c ∈ s.mutex.m_waitQueue, s.m_state c = .BLOCKED → s.mutex.m_mutex ≠ none ∨
    ∃ w, w ∉ s.mutex.m_waitQueue ∧ s.m_state w = .READY ∧
      (s.pc w = .suspended ∨ s.pc w = .trying true)

theorem awaited_of_awake {s : Locking} (lined : s.Lined) (awake : s.Awake) (quiet : s.Quiet) :
    s.Awaited := by
  intro c mem _
  rcases awake (List.ne_nil_of_mem mem) with ⟨d, held, -⟩ | ⟨w, ⟨d, hand⟩ | ⟨back, ready⟩⟩
  · exact .inl (by simp [held])
  · rcases quiet d with pc | pc | pc | pc <;> rw [pc] at hand <;> cases hand
  · refine .inr ⟨w, ?_, ready, ?_⟩
    · intro queued
      cases ready.symm.trans (lined.blocked w queued).2
    · rcases quiet w with pc | pc | pc | pc
      · rw [pc] at back
        exact back.elim
      · exact .inl pc
      · exact .inr pc
      · rw [pc] at back
        exact back.elim

/-- No waiter is left behind while every coroutine that joins the queue finds a holder that has
still to look at it, or another that was woken and is not done; and the first to join it otherwise
is. -/
theorem waiters_awaited {as : List (ℕ × LockAction)} {s : Locking}
    (run : Run step (fun s a => s.Scheduled a ∧ s.Keeps a) {} as s) :
    (s.Quiet → s.Awaited) ∧
      ∀ a t, s.Scheduled a → step s a = some t → (t.Awake ↔ s.Keeps a) := by
  have all : s.Owned ∧ s.Lined ∧ s.Awake := by
    apply run.invariant (P := fun s => s.Owned ∧ s.Lined ∧ s.Awake)
    · exact ⟨owned_initial, lined_initial, fun ne => absurd rfl ne⟩
    · rintro s ⟨c, a⟩ t ⟨owned, lined, awake⟩ ⟨scheduled, keeps⟩ next
      exact ⟨owned_step owned next, lined_step lined owned scheduled next,
        (awake_step lined owned awake scheduled next).mpr keeps⟩
  obtain ⟨owned, lined, awake⟩ := all
  refine ⟨awaited_of_awake lined awake, ?_⟩
  rintro ⟨c, a⟩ t scheduled next
  exact awake_step lined owned awake scheduled next

instance (s : Locking) : Decidable s.Served :=
  match held : s.mutex.m_mutex with
  | none => isFalse fun ⟨_, other, _⟩ => nomatch held.symm.trans other
  | some d => match pc : s.pc d with
    | .freeing _ => isFalse fun ⟨_, other, before⟩ => by
        cases held.symm.trans other
        exact before (by simp [pc])
    | .outside | .lockTest | .trying _ | .enqueueing _ | .yielding | .suspended | .owning
    | .unlockTest | .releasing | .waking _ => isTrue ⟨d, held, by simp [pc]⟩

instance (s : Locking) : DecidablePred s.Scheduled
  | (_, .lock) | (_, .unlock) | (_, .next) => isTrue trivial
  | (c, .resume) => inferInstanceAs (Decidable (s.m_state c = .READY))

instance (s : Locking) : DecidablePred s.Joins
  | (_, .lock) | (_, .unlock) | (_, .resume) => isFalse id
  | (c, .next) =>
    inferInstanceAs (Decidable (s.pc c = .enqueueing false ∨ s.pc c = .enqueueing true))

theorem waiters_awaited_handover : ∃ s,
    Run step (fun s a => s.Scheduled a ∧ s.Keeps a) {} handover s ∧ (s.Quiet → s.Awaited) ∧
      ∀ a t, s.Scheduled a → step s a = some t → (t.Awake ↔ s.Keeps a) := by
  have held : Run step (fun s a => s.Scheduled a ∧ (s.Joins a → s.Served)) {} handover _ :=
    .of_guarded rfl
  have run : Run step (fun s a => s.Scheduled a ∧ s.Keeps a) {} handover _ :=
    held.mono fun _ _ allowed => ⟨allowed.1, fun joins => .inl (allowed.2 joins)⟩
  exact ⟨_, run, waiters_awaited run⟩

/-- The coroutine 2 fails to lock; 1 finds nobody waiting and frees the spin lock; 2 joins the
queue. -/
def stranded : List (ℕ × LockAction) :=
  [(1, .lock), (1, .next), (1, .next), (1, .next), (2, .lock), (2, .next), (2, .next),
    (1, .unlock), (1, .next), (1, .next), (1, .next), (2, .next), (2, .next)]

theorem waiter_stranded : ∃ s, exec step {} stranded = some s ∧ s.Quiet ∧ ¬ s.Awaited := by
  refine ⟨_, rfl, ?_, ?_⟩
  · intro c
    by_cases two : c = 2
    · subst two
      exact .inr (.inl rfl)
    · by_cases one : c = 1
      · subst one
        exact .inl rfl
      · exact .inl (by simp [one, two])
  · intro awaited
    rcases awaited 2 (by decide) rfl with held | ⟨w, out, ready, pc⟩
    · exact held rfl
    · have ne : w ≠ 2 := by
        rintro rfl
        exact out (by decide)
      by_cases one : w = 1
      · subst one
        rcases pc with pc | pc <;> cases pc
      · simp [ne, one] at pc

end CRpc.Locking
