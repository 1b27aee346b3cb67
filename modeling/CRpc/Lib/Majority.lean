import Mathlib.Data.Finset.Card

/-! Strict majorities of a finite set. -/
namespace Quorum

variable {ι : Type*} [DecidableEq ι]

/-- `Q` holds more than half of `all`. -/
def Majority (all Q : Finset ι) : Prop := Q ⊆ all ∧ all.card < 2 * Q.card

theorem Majority.meet {all Q R : Finset ι} (hQ : Majority all Q) (hR : Majority all R) :
    ∃ v, v ∈ Q ∧ v ∈ R := by
  have sum : all.card < Q.card + R.card := by
    have := hQ.2
    have := hR.2
    omega
  obtain ⟨v, hv⟩ := Finset.inter_nonempty_of_card_lt_card_add_card hQ.1 hR.1 sum
  exact ⟨v, Finset.mem_inter.mp hv⟩

omit [DecidableEq ι] in
theorem Majority.mono {all Q R : Finset ι} (hQ : Majority all Q) (sub : Q ⊆ R) (hR : R ⊆ all) :
    Majority all R :=
  ⟨hR, lt_of_lt_of_le hQ.2 (Nat.mul_le_mul_left 2 (Finset.card_le_card sub))⟩

end Quorum
