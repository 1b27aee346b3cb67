import CRpc.Coroutine.Places

/-! The spin lock of a `CoroutineCV`: one coroutine at a time is in the critical section, and leaves
it before it does anything else. -/
namespace CRpc

/-- Outside of the critical section of a `CoroutineCV`. -/
def CoroutineInstr.outer : CoroutineInstr → Bool
  | .cvLock _ | .cvPush _ _ | .cvPop _ | .cvPopAll _ | .setWaiting | .free (.cv _) => false
  | _ => true

/-- In the critical section of `v`, which the code leaves before anything else. -/
@[simp] def Within (v : ℕ) : List CoroutineInstr → Prop
  | .cvPush v' _ :: rest | .cvPop v' :: rest | .cvPopAll v' :: rest | .free (.cv v') :: rest =>
    v' = v ∧ ∀ i ∈ rest, i.outer = true
  | .setWaiting :: rest | .unlock _ :: rest | .release _ :: rest | .free (.mutex _) :: rest =>
    Within v rest
  | _ => False

@[simp] def Before (v : ℕ) : List CoroutineInstr → Prop
  | .cvLock v' :: rest => v' = v ∧ Within v rest ∧ ¬ SetsWaiting rest
  | _ => False

namespace Scheduler
open Function

/-- The spin lock of a `CoroutineCV` is held by who is in the critical section, and who becomes
`WAITING` there is in the queue. -/
structure Latched (s : Scheduler) : Prop where
  phase : ∀ c, (∀ i ∈ s.code c, i.outer = true) ∨ ∃ v, Before v (s.code c) ∨ Within v (s.code c)
  held : ∀ c v, Within v (s.code c) → (s.cv v).m_mutex = some c
  freeing : ∀ c v w, s.hand c = .freeing (.cv v) w →
    (s.cv v).m_mutex = some c ∧ ∀ i ∈ s.code c, i.outer = true
  joined : ∀ c v, Within v (s.code c) → SetsWaiting (s.code c) → c ∈ (s.cv v).m_waitQueue

section Steps
variable {s t : Scheduler} {k c : ℕ}

theorem not_within {code : List CoroutineInstr} (outer : ∀ i ∈ code, i.outer = true) {v : ℕ} :
    ¬ Within v code := by
  induction code with
  | nil => exact id
  | cons i rest ih =>
    have first := outer i (List.mem_cons_self ..)
    have later := ih fun j mem => outer j (List.mem_cons_of_mem i mem)
    cases i with
    | free spin => cases spin <;> simp_all [CoroutineInstr.outer]
    | _ => simp_all [CoroutineInstr.outer]

theorem not_setsWaiting {code : List CoroutineInstr} (outer : ∀ i ∈ code, i.outer = true) :
    ¬ SetsWaiting code := by
  induction code with
  | nil => exact id
  | cons i rest ih =>
    have first := outer i (List.mem_cons_self ..)
    have later := ih fun j mem => outer j (List.mem_cons_of_mem i mem)
    cases i <;> simp_all [CoroutineInstr.outer]

theorem within_unique {code : List CoroutineInstr} {v v' : ℕ} (one : Within v code)
    (other : Within v' code) : v' = v := by
  induction code with
  | nil => exact one.elim
  | cons i rest ih =>
    cases i with
    | free spin => cases spin <;> simp_all
    | _ => simp_all

theorem Latched.goes (latched : s.Latched) (cv : t.cv = s.cv) (hand : ∀ d v w,
      t.hand d = .freeing (.cv v) w → s.hand d = .freeing (.cv v) w)
    (code : ∀ d, d ≠ c → t.code d = s.code d)
    (phase : (∀ i ∈ t.code c, i.outer = true) ∨ ∃ v, Before v (t.code c) ∨ Within v (t.code c))
    (within : ∀ v, Within v (t.code c) → Within v (s.code c) ∧
      (SetsWaiting (t.code c) → SetsWaiting (s.code c)))
    (outer : ∀ v w, s.hand c = .freeing (.cv v) w → ∀ i ∈ t.code c, i.outer = true) :
    t.Latched := by
  constructor
  · intro d
    by_cases same : d = c
    · exact same ▸ phase
    · exact code d same ▸ latched.phase d
  · intro d v inside
    rw [cv]
    by_cases same : d = c
    · subst same
      exact latched.held d v (within v inside).1
    · exact latched.held d v (code d same ▸ inside)
  · intro d v w freeing
    have freeing := hand d v w freeing
    obtain ⟨held, out⟩ := latched.freeing d v w freeing
    rw [cv]
    refine ⟨held, ?_⟩
    by_cases same : d = c
    · subst same
      exact outer v w freeing
    · exact code d same ▸ out
  · intro d v inside waits
    rw [cv]
    by_cases same : d = c
    · subst same
      obtain ⟨inside, earlier⟩ := within v inside
      exact latched.joined d v inside (earlier waits)
    · rw [code d same] at inside waits
      exact latched.joined d v inside waits

/-- A step of `c` that changes a variable whose spin lock nobody else holds. -/
theorem Latched.turns {v : ℕ} {cv : CoroutineCV} (latched : s.Latched)
    (alone : ∀ d, d ≠ c → (s.cv v).m_mutex ≠ some d) (cvs : t.cv = update s.cv v cv)
    (hand : ∀ d, d ≠ c → t.hand d = s.hand d) (code : ∀ d, d ≠ c → t.code d = s.code d)
    (phase : (∀ i ∈ t.code c, i.outer = true) ∨ ∃ v, Before v (t.code c) ∨ Within v (t.code c))
    (held : ∀ v', Within v' (t.code c) → v' = v ∧ cv.m_mutex = some c ∧
      (SetsWaiting (t.code c) → c ∈ cv.m_waitQueue))
    (freeing : ∀ v' w, t.hand c = .freeing (.cv v') w → v' = v ∧ cv.m_mutex = some c ∧
      ∀ i ∈ t.code c, i.outer = true) : t.Latched := by
  have other : ∀ d v', d ≠ c → (s.cv v').m_mutex = some d → t.cv v' = s.cv v' := by
    intro d v' ne holds
    have apart : v' ≠ v := by
      rintro rfl
      exact alone d ne holds
    rw [cvs, update_of_ne apart]
  constructor
  · intro d
    by_cases same : d = c
    · exact same ▸ phase
    · exact code d same ▸ latched.phase d
  · intro d v' inside
    by_cases same : d = c
    · subst same
      obtain ⟨rfl, holds, -⟩ := held v' inside
      rw [cvs, update_self]
      exact holds
    · have holds := latched.held d v' (code d same ▸ inside)
      rw [other d v' same holds]
      exact holds
  · intro d v' w frees
    by_cases same : d = c
    · subst same
      obtain ⟨rfl, holds, out⟩ := freeing v' w frees
      rw [cvs, update_self]
      exact ⟨holds, out⟩
    · obtain ⟨holds, out⟩ := latched.freeing d v' w (hand d same ▸ frees)
      rw [other d v' same holds, code d same]
      exact ⟨holds, out⟩
  · intro d v' inside waits
    by_cases same : d = c
    · subst same
      obtain ⟨rfl, -, joined⟩ := held v' inside
      rw [cvs, update_self]
      exact joined waits
    · rw [code d same] at inside waits
      rw [other d v' same (latched.held d v' inside)]
      exact latched.joined d v' inside waits

theorem Latched.stays (latched : s.Latched) (cv : t.cv = s.cv) (hand : ∀ d v w,
      t.hand d = .freeing (.cv v) w → s.hand d = .freeing (.cv v) w)
    (code : ∀ d, d ≠ c → t.code d = s.code d) (out : ∀ i ∈ t.code c, i.outer = true) :
    t.Latched :=
  latched.goes cv hand code (.inl out) (fun _ inside => absurd inside (not_within out))
    fun _ _ _ => out

/-- What has no business with a `CoroutineCV` is outside of it. -/
theorem Latched.outside (latched : s.Latched) {code : List CoroutineInstr} (at_ : s.code c = code)
    (apart : ∀ v, ¬ Before v code ∧ ¬ Within v code) : ∀ i ∈ code, i.outer = true := by
  rcases latched.phase c with out | ⟨v, before | within⟩
  · exact at_ ▸ out
  · exact absurd (at_ ▸ before) (apart v).1
  · exact absurd (at_ ▸ within) (apart v).2

/-- A step over an instruction that may stand inside or outside. -/
theorem Latched.skips {code : List CoroutineInstr} (latched : s.Latched) (at_ : s.code c = code)
    (before : ∀ v, ¬ Before v code) (cv : t.cv = s.cv) (hand : ∀ d v w,
      t.hand d = .freeing (.cv v) w → s.hand d = .freeing (.cv v) w)
    (others : ∀ d, d ≠ c → t.code d = s.code d)
    (within : ∀ v, Within v (t.code c) ↔ Within v code)
    (waits : SetsWaiting (t.code c) → SetsWaiting code)
    (outer : (∀ i ∈ code, i.outer = true) → ∀ i ∈ t.code c, i.outer = true) : t.Latched := by
  subst at_
  refine latched.goes cv hand others ?_ (fun v inside => ⟨(within v).mp inside, waits⟩)
    fun v w frees => outer (latched.freeing c v w frees).2
  rcases latched.phase c with out | ⟨v, first | inside⟩
  · exact .inl (outer out)
  · exact absurd first (before v)
  · exact .inr ⟨v, .inr ((within v).mpr inside)⟩

theorem latched_runInstr (latched : s.Latched) (empty : s.hand c = .empty)
    (h : s.runInstr k c = some t) : t.Latched := by
  have others : ∀ (code : List CoroutineInstr) d, d ≠ c → update s.code c code d = s.code d :=
    fun _ d ne => update_of_ne ne ..
  have alone : ∀ v, Within v (s.code c) → ∀ d, d ≠ c → (s.cv v).m_mutex ≠ some d := by
    intro v inside d ne holds
    exact ne (Option.some.inj (holds.symm.trans (latched.held c v inside)))
  have inner : ∀ {instr rest} v, (∃ mutex, instr = .cvPush v mutex) ∨ instr = .cvPop v ∨
      instr = .cvPopAll v ∨ instr = .free (.cv v) → s.code c = instr :: rest →
      Within v (s.code c) ∧ ∀ i ∈ rest, i.outer = true := by
    intro instr rest v which code
    have at_ := latched.phase c
    rw [code] at at_ ⊢
    rcases which with ⟨mutex, rfl⟩ | rfl | rfl | rfl <;> simpa [CoroutineInstr.outer] using at_
  cases code : s.code c with
  | nil => simp [runInstr, code] at h
  | cons instr rest =>
    cases instr with
    | lock m | tryLock m =>
      have out := latched.outside code (by simp)
      simp only [runInstr, code] at h
      split at h <;> cases h
      · refine latched.stays (c := c) rfl (fun _ _ _ => id) (others _) ?_
        simp_all [CoroutineInstr.outer]
      · refine latched.stays (c := c) rfl (fun _ _ _ => id) (others _) ?_
        simp_all [CoroutineInstr.outer]
    | enqueue m | own m | yield =>
      have out := latched.outside code (by simp)
      simp only [runInstr, code] at h
      cases h
      refine latched.stays (c := c) rfl (fun _ _ _ => id) (others _) ?_
      simp_all [CoroutineInstr.outer]
    | unlock m =>
      simp only [runInstr, code] at h
      split at h <;> cases h
      · refine latched.skips code (by simp) rfl (fun _ _ _ => id) (others _) ?_ ?_ ?_ <;>
          simp [CoroutineInstr.outer]
      · refine latched.skips code (by simp) rfl (fun _ _ _ => id) (others _) ?_ ?_ ?_ <;>
          simp [CoroutineInstr.outer]
    | release m =>
      simp only [runInstr, code] at h
      split at h <;> cases h
      · refine latched.skips code (by simp) rfl (fun _ _ _ => id) (others _) ?_ ?_ ?_ <;>
          simp [CoroutineInstr.outer]
      · refine latched.skips code (by simp) rfl ?_ (others _) ?_ ?_ ?_
        · intro d v w frees
          by_cases same : d = c
          · subst same
            simp at frees
          · simpa [same] using frees
        all_goals simp [CoroutineInstr.outer]
    | cvLock v =>
      have enters : Within v rest ∧ ¬ SetsWaiting rest := by
        rcases latched.phase c with out | ⟨v', before | within⟩
        · simp [code, CoroutineInstr.outer] at out
        · rw [code] at before
          obtain ⟨rfl, inside⟩ := before
          exact inside
        · simp [code] at within
      simp only [runInstr, code] at h
      split at h <;> cases h
      rename_i free
      refine latched.turns (c := c) (v := v) (by simp [free]) rfl (fun _ _ => rfl) (others _)
        ?_ ?_ ?_
      · exact .inr ⟨v, .inr (by simpa using enters.1)⟩
      · intro v' inside
        simp only [update_self] at inside
        exact ⟨within_unique enters.1 inside, rfl,
          fun waits => absurd (by simpa using waits) enters.2⟩
      · simp [empty]
    | cvPush v mutex =>
      obtain ⟨inside, out⟩ := inner v (.inl ⟨mutex, rfl⟩) code
      simp only [runInstr, code] at h
      cases h
      have waits : Within v (waitCode v mutex rest) := by
        cases mutex <;> simpa [waitCode, CoroutineInstr.outer] using out
      refine latched.turns (c := c) (v := v) (alone v inside) rfl (fun _ _ => rfl) (others _)
        ?_ ?_ ?_
      · exact .inr ⟨v, .inr (by simpa using waits)⟩
      · intro v' inside'
        simp only [update_self] at inside'
        exact ⟨within_unique waits inside', latched.held c v inside, fun _ => by simp⟩
      · simp [empty]
    | setWaiting =>
      simp only [runInstr, code] at h
      cases h
      refine latched.goes (c := c) rfl (fun _ _ _ => id) (others _) ?_ ?_ ?_
      · rcases latched.phase c with out | ⟨v, before | within⟩
        · simp [code, CoroutineInstr.outer] at out
        · simp [code] at before
        · exact .inr ⟨v, .inr (by simpa [code] using within)⟩
      · simp [code]
      · simp [empty]
    | cvPop v =>
      obtain ⟨inside, out⟩ := inner v (.inr (.inl rfl)) code
      simp only [runInstr, code] at h
      split at h <;> cases h
      · refine latched.goes (c := c) rfl (fun _ _ _ => id) (others _) ?_ ?_ ?_
        · exact .inr ⟨v, .inr (by simpa using out)⟩
        · simpa [code] using fun out' => ⟨out', not_setsWaiting out⟩
        · simp [empty]
      · refine latched.turns (c := c) (v := v) (alone v inside) rfl ?_ (others _) ?_ ?_ ?_
        · exact fun d ne => update_of_ne ne ..
        · exact .inl (by simpa using out)
        · intro v' inside'
          simp only [update_self] at inside'
          exact absurd inside' (not_within out)
        · intro v' w frees
          simp only [update_self] at frees
          cases frees
          exact ⟨rfl, latched.held c v inside, by simpa using out⟩
    | cvPopAll v =>
      obtain ⟨inside, out⟩ := inner v (.inr (.inr (.inl rfl))) code
      simp only [runInstr, code] at h
      split at h <;> cases h
      · refine latched.goes (c := c) rfl (fun _ _ _ => id) (others _) ?_ ?_ ?_
        · exact .inr ⟨v, .inr (by simpa using out)⟩
        · simpa [code] using fun out' => ⟨out', not_setsWaiting out⟩
        · simp [empty]
      · refine latched.turns (c := c) (v := v) (alone v inside) rfl ?_ (fun _ _ => rfl) ?_ ?_ ?_
        · exact fun d ne => update_of_ne ne ..
        · exact .inr ⟨v, .inr inside⟩
        · exact fun v' inside' => ⟨within_unique inside inside', latched.held c v inside,
            fun waits => absurd waits (by simp [code])⟩
        · simp
    | free spin =>
      cases spin with
      | mutex m =>
        simp only [runInstr, code] at h
        cases h
        refine latched.skips code (by simp) rfl (fun _ _ _ => id) (others _) ?_ ?_ ?_ <;>
          simp [CoroutineInstr.outer]
      | cv v =>
        obtain ⟨inside, out⟩ := inner v (.inr (.inr (.inr rfl))) code
        simp only [runInstr, code] at h
        cases h
        refine latched.turns (c := c) (v := v) (alone v inside) rfl (fun _ _ => rfl) (others _)
          ?_ ?_ ?_
        · exact .inl (by simpa using out)
        · intro v' inside'
          simp only [update_self] at inside'
          exact absurd inside' (not_within out)
        · simp [unlockSpin, empty]
    | terminate =>
      simp only [runInstr, code] at h
      cases h
      refine latched.stays (c := c) rfl (fun _ _ _ => id) (others _) ?_
      simp [CoroutineInstr.outer]
    | halt => simp [runInstr, code] at h

theorem latched_runCoroutine (latched : s.Latched) (h : s.runCoroutine k c = some t) :
    t.Latched := by
  have hands : ∀ (t : Scheduler) (v : Hand), (∀ x w, v ≠ .freeing (.cv x) w) →
      t.hand = update s.hand c v → t.code = s.code → t.cv = s.cv → t.Latched := by
    intro t v other hand code cv
    refine latched.goes (c := c) cv ?_ (fun d _ => congrFun code d) (code ▸ latched.phase c) ?_ ?_
    · intro d x w frees
      rw [hand] at frees
      by_cases same : d = c
      · subst same
        exact absurd (by simpa using frees) (other x w)
      · rwa [update_of_ne same] at frees
    · rw [code]
      exact fun _ inside => ⟨inside, id⟩
    · rw [code]
      exact fun x w frees => (latched.freeing c x w frees).2
  cases now : s.hand c with
  | empty =>
    simp only [runCoroutine, now] at h
    exact latched_runInstr latched now h
  | freeing spin w =>
    simp only [runCoroutine, now] at h
    cases h
    cases spin with
    | mutex m => exact hands _ (.readying w) (by simp) rfl rfl rfl
    | cv v =>
      obtain ⟨holds, out⟩ := latched.freeing c v w now
      refine latched.turns (c := c) (v := v) ?_ rfl (fun d ne => update_of_ne ne ..)
        (fun _ _ => rfl) (.inl out) ?_ ?_
      · exact fun d ne other => ne (Option.some.inj (other.symm.trans holds))
      · exact fun v' inside => absurd inside (not_within out)
      · simp
  | readying w =>
    simp only [runCoroutine, now] at h
    cases h
    exact hands _ (.adding w) (by simp) rfl rfl rfl
  | adding w =>
    simp only [runCoroutine, now] at h
    split at h <;> cases h
    · exact hands _ (.pushing w) (by simp) rfl rfl rfl
    · exact hands _ .empty (by simp) rfl rfl rfl
  | pushing w =>
    simp only [runCoroutine, now] at h
    cases h
    exact hands _ .empty (by simp) rfl rfl rfl

theorem Latched.same (latched : s.Latched) (code : t.code = s.code) (hand : t.hand = s.hand)
    (cv : t.cv = s.cv) : t.Latched := by
  obtain ⟨phase, held, freeing, joined⟩ := latched
  constructor
  · exact code ▸ phase
  · rw [code, cv]
    exact held
  · rw [code, cv, hand]
    exact freeing
  · rw [code, cv]
    exact joined

theorem latched_work (latched : s.Latched) (h : s.work k = some t) : t.Latched := by
  have same : t.code = s.code ∧ t.hand = s.hand ∧ t.cv = s.cv := by
    unfold work at h
    split at h
    all_goals first
      | (cases h <;> exact ⟨rfl, rfl, rfl⟩)
      | (split at h <;> cases h <;> exact ⟨rfl, rfl, rfl⟩)
  exact latched.same same.1 same.2.1 same.2.2

theorem latched_initial (m_threads : ℕ) : Latched { m_threads } :=
  ⟨fun _ => .inl nofun, fun _ _ => nofun, fun _ _ _ => nofun, fun _ _ => nofun⟩

theorem latched_step {a : SchedulerAction} (latched : s.Latched) (h : s.step a = some t) :
    t.Latched := by
  cases a with
  | start | stop =>
    cases h
    exact latched.same rfl rfl rfl
  | spawn =>
    obtain ⟨-, h⟩ := Option.ite_none_right_eq_some.mp h
    cases h
    exact latched.same rfl rfl rfl
  | work k => exact latched_work latched h
  | run k =>
    simp only [step] at h
    split at h
    · exact latched_runCoroutine latched h
    · cases h
  | call k call =>
    simp only [step] at h
    split at h
    · rename_i c here
      split at h <;> cases h
      rename_i empty code
      refine latched.goes (c := c) rfl (fun _ _ _ => id) (fun d ne => update_of_ne ne ..) ?_ ?_ ?_
      · cases call <;> simp [CoroutineCall.code, CoroutineInstr.outer]
      · cases call <;> simp [CoroutineCall.code]
      · simp [empty]
    · cases h

end Steps

end Scheduler

end CRpc
