import CRpc.Coroutine.Mutex

/-! At most one coroutine is inside a `CoroutineMutex`. -/
namespace CRpc.Locking
open Transition

structure At (m : CoroutineMutex) (c : ℕ) (pc : LockPc) (inside : Bool) : Prop where
  busy : pc ≠ .outside → c ≠ 0
  inside : inside = true →
    m.m_coroutineId = c ∧ c ≠ 0 ∧ (pc = .outside ∨ pc = .lockTest)
  owning : pc = .owning → m.m_mutex = some c ∧ m.m_coroutineId = 0
  releasing : pc = .releasing → m.m_coroutineId = c
  freeing : ∀ w, pc = .freeing w → m.m_mutex = some c ∧ m.m_coroutineId = 0

structure Owned (s : Locking) : Prop where
  held : s.mutex.m_coroutineId ≠ 0 → s.mutex.m_mutex = some s.mutex.m_coroutineId
  all : ∀ c, At s.mutex c (s.pc c) (s.inside c)

def LockPc.Outer : LockPc → Prop
  | .owning | .releasing | .freeing _ => False
  | _ => True

theorem At.outer {m : CoroutineMutex} {c : ℕ} {pc : LockPc} {inside : Bool} (ne : c ≠ 0)
    (outer : LockPc.Outer pc) (out : inside = false) : At m c pc inside := by
  constructor
  · exact fun _ => ne
  · intro in_
    cases out.symm.trans in_
  · rintro rfl
    exact outer.elim
  · rintro rfl
    exact outer.elim
  · rintro w rfl
    exact outer.elim

/-- Who does not hold the spin lock knows nothing of the mutex that could change. -/
theorem At.elsewhere {m : CoroutineMutex} {d : ℕ} {pc : LockPc} {inside : Bool}
    (known : At m d pc inside) (held : m.m_coroutineId ≠ 0 → m.m_mutex = some m.m_coroutineId)
    (other : m.m_mutex ≠ some d) (m' : CoroutineMutex) : At m' d pc inside := by
  constructor
  · exact known.busy
  · intro in_
    obtain ⟨rfl, ne, -⟩ := known.inside in_
    exact absurd (held ne) other
  · exact fun pc => absurd (known.owning pc).1 other
  · intro pc
    have own := known.releasing pc
    have ne : d ≠ 0 := known.busy (by simp [pc])
    subst own
    exact absurd (held ne) other
  · exact fun w pc => absurd (known.freeing w pc).1 other

section Step
variable {s : Locking} {c : ℕ} (owned : s.Owned)
include owned

theorem out_of_pc (h : s.pc c ≠ .outside ∧ s.pc c ≠ .lockTest) : s.inside c = false := by
  cases in_ : s.inside c with
  | false => rfl
  | true => exact absurd ((owned.all c).inside in_).2.2 (by simp [h])

theorem Owned.moves {t : Locking} (others : ∀ d, d ≠ c → t.pc d = s.pc d ∧ t.inside d = s.inside d)
    (mutex : t.mutex.m_mutex = s.mutex.m_mutex)
    (id : t.mutex.m_coroutineId = s.mutex.m_coroutineId)
    (self : At t.mutex c (t.pc c) (t.inside c)) : t.Owned := by
  constructor
  · rw [mutex, id]
    exact owned.held
  · intro d
    by_cases same : d = c
    · exact same ▸ self
    · obtain ⟨busy, inside, owning, releasing, freeing⟩ := owned.all d
      rw [(others d same).1, (others d same).2]
      constructor
      · exact busy
      · rwa [id]
      · rwa [mutex, id]
      · rwa [id]
      · rwa [mutex, id]

/-- A step of the coroutine that holds the spin lock, or of one that takes it. -/
theorem Owned.changes {t : Locking}
    (others : ∀ d, d ≠ c → t.pc d = s.pc d ∧ t.inside d = s.inside d)
    (mine : s.mutex.m_mutex = none ∨ s.mutex.m_mutex = some c)
    (held : t.mutex.m_coroutineId ≠ 0 → t.mutex.m_mutex = some t.mutex.m_coroutineId)
    (self : At t.mutex c (t.pc c) (t.inside c)) : t.Owned := by
  refine ⟨held, ?_⟩
  intro d
  by_cases same : d = c
  · exact same ▸ self
  · rw [(others d same).1, (others d same).2]
    apply (owned.all d).elsewhere owned.held
    intro other
    rcases mine with free | mine
    · cases free.symm.trans other
    · exact same (Option.some.inj (other.symm.trans mine))

/-- A step to a place where nothing is known of the mutex, which it leaves but for its queue. -/
theorem Owned.goes {u : Locking} {pc : LockPc} (pcs : u.pc = s.pc) (insides : u.inside = s.inside)
    (mutex : u.mutex.m_mutex = s.mutex.m_mutex)
    (id : u.mutex.m_coroutineId = s.mutex.m_coroutineId) (ne : c ≠ 0) (outer : LockPc.Outer pc)
    (out : s.inside c = false) : (u.goto c pc).Owned := by
  refine owned.moves (c := c) ?_ mutex id ?_
  · exact fun d ne => ⟨by rw [pc_goto_ne _ _ ne, pcs], congrFun insides d⟩
  · rw [pc_goto_self]
    exact At.outer ne outer ((congrFun insides c).trans out)

theorem owned_step {t : Locking} {a : ℕ × LockAction} (h : s.step a = some t) : t.Owned := by
  obtain ⟨c, a⟩ := a
  have known := owned.all c
  have busy : s.pc c ≠ .outside → c ≠ 0 := known.busy
  have out : s.pc c ≠ .outside ∧ s.pc c ≠ .lockTest → s.inside c = false := out_of_pc owned
  cases turn_of_step h with
  | lock ne pc =>
    refine owned.moves (c := c) (fun d ne => by simp [ne]) rfl rfl ?_
    constructor <;> simp_all [known.inside]
  | unlock ne pc =>
    refine owned.moves (c := c) (fun d ne => by simp [ne]) rfl rfl ?_
    constructor <;> simp [ne]
  | again pc own =>
    refine owned.moves (c := c) (fun d ne => by simp [ne]) rfl rfl ?_
    constructor <;> simp [busy (by simp [pc]), own]
  | lockTest pc other =>
    have out : s.inside c = false := by
      cases in_ : s.inside c with
      | false => rfl
      | true => exact absurd (known.inside in_).1 other
    exact owned.goes rfl rfl rfl rfl (busy (by simp [pc])) trivial out
  | take again pc free =>
    have zero : s.mutex.m_coroutineId = 0 := by
      by_contra ne
      cases free.symm.trans (owned.held ne)
    refine owned.changes (c := c) (fun d ne => by simp [ne]) (.inl free) ?_ ?_
    · exact fun ne => absurd zero ne
    · constructor <;> simp [busy (by simp [pc]), zero, out (by simp [pc])]
  | miss again pc =>
    exact owned.goes rfl rfl rfl rfl (busy (by simp [pc])) trivial (out (by simp [pc]))
  | enqueue again pc =>
    exact owned.goes rfl rfl rfl rfl (busy (by simp [pc])) trivial (out (by simp [pc]))
  | yield pc =>
    exact owned.goes rfl rfl rfl rfl (busy (by simp [pc])) trivial (out (by simp [pc]))
  | own pc =>
    obtain ⟨mine, -⟩ := known.owning pc
    refine owned.changes (c := c) (fun d ne => by simp [ne]) (.inr mine) (fun _ => mine) ?_
    constructor <;> simp [busy (by simp [pc]), CoroutineMutex.own]
  | unlockTest pc own =>
    refine owned.moves (c := c) (fun d ne => by simp [ne]) rfl rfl ?_
    constructor <;> simp [busy (by simp [pc]), own, out (by simp [pc])]
  | refuse pc other =>
    exact owned.goes rfl rfl rfl rfl (busy (by simp [pc])) trivial (out (by simp [pc]))
  | release pc =>
    have ne : c ≠ 0 := busy (by simp [pc])
    have own := known.releasing pc
    have mine : s.mutex.m_mutex = some c := own ▸ owned.held (own ▸ ne)
    refine owned.changes (c := c) (fun d ne => by simp [ne]) (.inr mine) (fun ne => ?_) ?_
    · exact absurd rfl ne
    · constructor <;> simp [ne, mine, CoroutineMutex.release, out (by simp [pc])]
  | free pc =>
    obtain ⟨mine, zero⟩ := known.freeing none pc
    refine owned.changes (c := c) (fun d ne => by simp [ne]) (.inr mine)
      (fun ne => absurd zero ne) ?_
    constructor <;> simp [out (by simp [pc])]
  | hand w pc =>
    obtain ⟨mine, zero⟩ := known.freeing (some w) pc
    refine owned.changes (c := c) (fun d ne => by simp [ne]) (.inr mine)
      (fun ne => absurd zero ne) ?_
    rw [pc_goto_self]
    exact At.outer (busy (by simp [pc])) trivial (out (by simp [pc]))
  | wake w pc =>
    exact owned.goes rfl rfl rfl rfl (busy (by simp [pc])) trivial (out (by simp [pc]))
  | resume pc =>
    exact owned.goes rfl rfl rfl rfl (busy (by simp [pc])) trivial (out (by simp [pc]))

end Step

theorem owned_initial : Owned {} := by
  constructor
  · exact fun ne => absurd rfl ne
  · intro c
    constructor <;> simp

/-- Two coroutines are never between a `lock` that returned and the next `unlock`, and the one
whose id the mutex names holds the spin lock. -/
theorem lock_excludes {as : List (ℕ × LockAction)} {s : Locking} (run : Run step Always {} as s) :
    (∀ c d, s.inside c = true → s.inside d = true → c = d) ∧
      ∀ c, c ≠ 0 → s.mutex.m_coroutineId = c → s.mutex.m_mutex = some c := by
  have owned : s.Owned :=
    run.invariant owned_initial fun _ _ _ owned _ next => owned_step owned next
  constructor
  · intro c d first second
    exact ((owned.all c).inside first).1.symm.trans ((owned.all d).inside second).1
  · rintro c ne rfl
    exact owned.held ne

/-- The coroutine 1 locks twice while 2 waits, whom an `unlock` of 1 wakes. -/
def handover : List (ℕ × LockAction) :=
  [(1, .lock), (1, .next), (1, .next), (1, .next), (2, .lock), (2, .next), (2, .next), (2, .next),
    (1, .lock), (1, .next), (2, .next), (1, .unlock), (1, .next), (1, .next), (1, .next),
    (1, .next), (2, .resume), (2, .next), (2, .next)]

theorem lock_excludes_handover : ∃ s, Run step Always {} handover s ∧ s.inside 2 = true ∧
    (∀ c d, s.inside c = true → s.inside d = true → c = d) ∧
      ∀ c, c ≠ 0 → s.mutex.m_coroutineId = c → s.mutex.m_mutex = some c := by
  have run : Run step Always {} handover _ := .of_exec rfl
  exact ⟨_, run, rfl, lock_excludes run⟩

end CRpc.Locking
