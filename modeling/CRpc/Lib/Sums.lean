import Mathlib.Algebra.BigOperators.Group.Finset.Piecewise
import Mathlib.Algebra.Order.BigOperators.Group.Finset
import Mathlib.Tactic.Linarith

/-! Sums of weights over a family one member of which changes. -/
namespace Sums
open Finset Function

variable {ι κ : Type*}

theorem sum_update_add [DecidableEq ι] {I : Finset ι} {i : ι} (mem : i ∈ I) (w : κ → ℕ)
    (f : ι → κ) (x : κ) :
    ∑ j ∈ I, w (update f i x j) + w (f i) = ∑ j ∈ I, w (f j) + w x := by
  have same : (fun j => w (update f i x j)) = update (fun j => w (f j)) i (w x) := by
    funext j
    exact apply_update (fun _ => w) f i x j
  have whole := sum_eq_add_sum_sdiff_singleton_of_mem mem fun j => w (f j)
  rw [same, sum_update_of_mem mem, whole]
  omega

theorem weight_le {I : Finset ι} {i : ι} (mem : i ∈ I) (w : κ → ℕ) (f : ι → κ) :
    w (f i) ≤ ∑ j ∈ I, w (f j) :=
  single_le_sum (f := fun j => w (f j)) (fun _ _ => Nat.zero_le _) mem

end Sums
