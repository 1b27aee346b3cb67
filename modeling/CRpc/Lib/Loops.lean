import Mathlib.Data.Nat.Basic
import Mathlib.Tactic.TypeStar

/-! `while` loops whose body may throw, run for as many rounds as one likes. -/
namespace Loops

inductive Round (α : Type*)
  | next (a : α)
  | thrown (a : α)

inductive Outcome (α : Type*)
  | running (a : α)
  | thrown (a : α)
  | ended (a : α)

variable {α : Type*}

def Outcome.Over : Outcome α → Prop
  | running _ => False
  | thrown _ | ended _ => True

def Outcome.toOption : Outcome α → Option α
  | ended a => some a
  | running _ | thrown _ => none

/-- `while(cond) body`, for at most `n` rounds and the test after them. -/
def loop (cond : α → Bool) (body : α → Round α) : ℕ → α → Outcome α
  | 0, a => .running a
  | n + 1, a =>
    if cond a then
      match body a with
      | .next b => loop cond body n b
      | .thrown b => .thrown b
    else .ended a

variable {cond : α → Bool} {body : α → Round α}

theorem loop_end (n : ℕ) {a : α} (last : ¬ cond a = true) :
    loop cond body (n + 1) a = .ended a := if_neg last

theorem loop_next (n : ℕ) {a b : α} (more : cond a = true) (round : body a = .next b) :
    loop cond body (n + 1) a = loop cond body n b := by
  rw [loop, if_pos more, round]

theorem loop_thrown (n : ℕ) {a b : α} (more : cond a = true) (round : body a = .thrown b) :
    loop cond body (n + 1) a = .thrown b := by
  rw [loop, if_pos more, round]

theorem loop_over {measure : α → ℕ}
    (lowers : ∀ a b, cond a = true → body a = .next b → measure b < measure a) {n : ℕ} :
    ∀ {a : α}, measure a < n → (loop cond body n a).Over := by
  induction n with
  | zero => exact fun lt => absurd lt (Nat.not_lt_zero _)
  | succ n ih =>
    intro a lt
    by_cases more : cond a = true
    · cases round : body a with
      | next b =>
        rw [loop_next n more round]
        exact ih (Nat.lt_of_lt_of_le (lowers a b more round) (Nat.le_of_lt_succ lt))
      | thrown b =>
        rw [loop_thrown n more round]
        trivial
    · rw [loop_end n more]
      trivial

theorem loop_stuck {a : α} (more : cond a = true) (same : body a = .next a) (n : ℕ) :
    loop cond body n a = .running a := by
  induction n with
  | zero => rfl
  | succ n ih => rw [loop_next n more same, ih]

end Loops
