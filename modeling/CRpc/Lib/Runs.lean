import Mathlib.Data.List.Basic

/-! Runs of a machine whose step is a partial function of the state and an action. -/
namespace Transition

variable {σ α : Type*} {step : σ → α → Option σ} {ok : σ → α → Prop}

/-- The state a list of actions leads to, if every one of them can happen. -/
def exec (step : σ → α → Option σ) : σ → List α → Option σ
  | s, [] => some s
  | s, a :: as => (step s a).bind fun t => exec step t as

theorem exec_append (step : σ → α → Option σ) (s : σ) (as bs : List α) :
    exec step s (as ++ bs) = (exec step s as).bind fun t => exec step t bs := by
  induction as generalizing s with
  | nil => rfl
  | cons a as ih => simp [exec, ih, Option.bind_assoc]

def gather {β : Type*} (step : σ → α → Option σ) (give : σ → α → List β) : σ → List α → List β
  | _, [] => []
  | s, a :: as => give s a ++ (step s a).elim [] fun t => gather step give t as

theorem gather_snoc {β : Type*} {give : σ → α → List β} {s t : σ} {as : List α} (a : α)
    (done : exec step s as = some t) :
    gather step give s (as ++ [a]) = gather step give s as ++ give t a := by
  induction as generalizing s with
  | nil =>
    cases done
    cases next : step t a <;> simp [gather, next]
  | cons b as ih =>
    obtain ⟨u, next, rest⟩ := Option.bind_eq_some_iff.mp done
    simp only [List.cons_append, gather, next, Option.elim_some, ih rest, List.append_assoc]

/-- `as` leads from `s` to the last state, each action taken where `ok` allows it. -/
inductive Run (step : σ → α → Option σ) (ok : σ → α → Prop) (s : σ) : List α → σ → Prop
  | refl : Run step ok s [] s
  | snoc {as t a u} : Run step ok s as t → ok t a → step t a = some u →
      Run step ok s (as ++ [a]) u

def Always : σ → α → Prop := fun _ _ => True

/-- The step, kept where `ok` allows it. -/
def guarded (step : σ → α → Option σ) (ok : σ → α → Prop) [∀ s, DecidablePred (ok s)] (s : σ)
    (a : α) : Option σ := if ok s a then step s a else none

namespace Run

/-- What holds at first and is kept by every allowed step holds at the end. -/
theorem invariant {P : σ → Prop} {s t : σ} {as : List α} (run : Run step ok s as t)
    (initial : P s) (kept : ∀ t a u, P t → ok t a → step t a = some u → P u) : P t := by
  induction run with
  | refl => exact initial
  | snoc _ allowed next ih => exact kept _ _ _ ih allowed next

theorem relates {R : σ → σ → Prop} {s t : σ} {as : List α} (run : Run step ok s as t)
    (refl : ∀ t, R t t) (trans : ∀ t u v, R t u → R u v → R t v)
    (moves : ∀ t a u, ok t a → step t a = some u → R t u) : R s t := by
  induction run with
  | refl => exact refl s
  | snoc _ allowed next ih => exact trans _ _ _ ih (moves _ _ _ allowed next)

theorem relates_of {P : σ → Prop} {R : σ → σ → Prop} {s t : σ} {as : List α}
    (run : Run step ok s as t) (initial : P s)
    (kept : ∀ t a u, P t → ok t a → step t a = some u → P u)
    (refl : ∀ t, R t t) (trans : ∀ t u v, R t u → R u v → R t v)
    (moves : ∀ t a u, P t → ok t a → step t a = some u → R t u) : R s t := by
  have both : P t ∧ R s t := by
    induction run with
    | refl => exact ⟨initial, refl s⟩
    | snoc _ allowed next ih =>
        exact ⟨kept _ _ _ ih.1 allowed next, trans _ _ _ ih.2 (moves _ _ _ ih.1 allowed next)⟩
  exact both.2

theorem mono {ok' : σ → α → Prop} {s t : σ} {as : List α} (run : Run step ok s as t)
    (more : ∀ s a, ok s a → ok' s a) : Run step ok' s as t := by
  induction run with
  | refl => exact .refl
  | snoc _ allowed next ih => exact ih.snoc (more _ _ allowed) next

theorem trans {s t u : σ} {as bs : List α} (first : Run step ok s as t)
    (second : Run step ok t bs u) : Run step ok s (as ++ bs) u := by
  induction second with
  | refl => simpa using first
  | snoc _ allowed next ih =>
      rw [← List.append_assoc]
      exact .snoc ih allowed next

theorem single {s t : σ} {a : α} (allowed : ok s a) (next : step s a = some t) :
    Run step ok s [a] t := by
  have start : Run step ok s [] s := .refl
  simpa using start.snoc allowed next

theorem snoc_iff {s u : σ} {as : List α} {a : α} :
    Run step ok s (as ++ [a]) u ↔ ∃ t, Run step ok s as t ∧ ok t a ∧ step t a = some u := by
  constructor
  · intro run
    generalize whole : as ++ [a] = bs at run
    cases run with
    | refl => simp at whole
    | snoc before allowed next =>
      obtain ⟨rfl, same⟩ := List.append_inj' whole rfl
      cases same
      exact ⟨_, before, allowed, next⟩
  · rintro ⟨t, before, allowed, next⟩
    exact before.snoc allowed next

theorem split {s t : σ} {as bs cs : List α} (run : Run step ok s as t) (parts : as = bs ++ cs) :
    ∃ u, Run step ok s bs u ∧ Run step ok u cs t := by
  induction run generalizing cs with
  | refl =>
      obtain ⟨rfl, rfl⟩ := List.append_eq_nil_iff.mp parts.symm
      exact ⟨s, .refl, .refl⟩
  | @snoc as t a u run allowed next ih =>
      rcases List.eq_nil_or_concat cs with rfl | ⟨cs, b, rfl⟩
      · rw [List.append_nil] at parts
        subst parts
        exact ⟨u, run.snoc allowed next, .refl⟩
      · rw [List.concat_eq_append, ← List.append_assoc] at parts
        obtain ⟨rfl, same⟩ := List.append_inj' parts rfl
        obtain ⟨v, first, second⟩ := ih rfl
        cases same
        exact ⟨v, first, List.concat_eq_append ▸ second.snoc allowed next⟩

theorem ends {s t : σ} {as : List α} (run : Run step ok s as t) : exec step s as = some t := by
  induction run with
  | refl => rfl
  | snoc _ _ next ih => simp [exec_append, ih, exec, next]

/-- What holds at first of nothing given, and is kept with what every step gives, holds of the end
and all that was given. -/
theorem gathers {β : Type*} {P : σ → List β → Prop} {s t : σ} {as : List α}
    (run : Run step ok s as t) (give : σ → α → List β) (initial : P s [])
    (kept : ∀ t given a u, P t given → ok t a → step t a = some u → P u (given ++ give t a)) :
    P t (gather step give s as) := by
  induction run with
  | refl => exact initial
  | @snoc as t a u before allowed next ih =>
    rw [gather_snoc a before.ends]
    exact kept _ _ _ _ ih allowed next

theorem of_guarded [∀ s, DecidablePred (ok s)] {s t : σ} {as : List α}
    (done : exec (guarded step ok) s as = some t) : Run step ok s as t := by
  induction as generalizing s with
  | nil =>
      cases done
      exact .refl
  | cons a as ih =>
      obtain ⟨u, next, rest⟩ := Option.bind_eq_some_iff.mp done
      obtain ⟨allowed, next⟩ := Option.ite_none_right_eq_some.mp next
      exact (single allowed next).trans (ih rest)

theorem of_exec {s t : σ} {as : List α} (done : exec step s as = some t) :
    Run step Always s as t := by
  induction as generalizing s with
  | nil =>
      cases done
      exact .refl
  | cons a as ih =>
      obtain ⟨u, next, rest⟩ := Option.bind_eq_some_iff.mp done
      exact (single trivial next).trans (ih rest)

end Run
end Transition
