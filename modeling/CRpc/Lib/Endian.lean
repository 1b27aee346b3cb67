import Mathlib.Data.Nat.ModEq
import Mathlib.Data.List.Basic
import Mathlib.Tactic.Ring

/-! Numbers as bytes, least significant first, and the reversal of their order. -/
namespace Endian

/-- The `k` low bytes of `n`, least significant first. -/
def little : ℕ → ℕ → List UInt8
  | 0, _ => []
  | k + 1, n => UInt8.ofNat n :: little k (n / 256)

/-- The number whose bytes these are, least significant first. -/
def ofLittle : List UInt8 → ℕ
  | [] => 0
  | b :: bs => b.toNat + 256 * ofLittle bs

@[simp] theorem length_little (k n : ℕ) : (little k n).length = k := by
  induction k generalizing n with
  | zero => rfl
  | succ k ih => simp [little, ih]

theorem ofLittle_little (k n : ℕ) : ofLittle (little k n) = n % 256 ^ k := by
  induction k generalizing n with
  | zero => simp [little, ofLittle, Nat.mod_one]
  | succ k ih =>
    have low : (UInt8.ofNat n).toNat = n % 256 := by simp
    rw [little, ofLittle, ih, low, pow_succ', Nat.mod_mul]

theorem ofLittle_lt (bs : List UInt8) : ofLittle bs < 256 ^ bs.length := by
  induction bs with
  | nil => simp [ofLittle]
  | cons b bs ih =>
    have lt : b.toNat < 256 := b.toNat_lt
    rw [ofLittle, List.length_cons, pow_succ']
    omega

theorem little_ofLittle (bs : List UInt8) : little bs.length (ofLittle bs) = bs := by
  induction bs with
  | nil => rfl
  | cons b bs ih =>
    have lt : b.toNat < 256 := b.toNat_lt
    have low : UInt8.ofNat (b.toNat + 256 * ofLittle bs) = b := by
      apply UInt8.toNat.inj
      simp
    have high : (b.toNat + 256 * ofLittle bs) / 256 = ofLittle bs := by omega
    rw [List.length_cons, ofLittle, little, low, high, ih]

theorem ofLittle_append (xs ys : List UInt8) :
    ofLittle (xs ++ ys) = ofLittle xs + 256 ^ xs.length * ofLittle ys := by
  induction xs with
  | nil => simp [ofLittle]
  | cons x xs ih =>
    rw [List.cons_append, ofLittle, ih, ofLittle, List.length_cons]
    ring

theorem little_add (j k n : ℕ) : little (j + k) n = little j n ++ little k (n / 256 ^ j) := by
  induction j generalizing n with
  | zero => simp [little]
  | succ j ih =>
    rw [Nat.succ_add, little, ih, little, List.cons_append, Nat.div_div_eq_div_mul, pow_succ']

theorem little_mod (k n : ℕ) : little k (n % 256 ^ k) = little k n := by
  have := little_ofLittle (little k n)
  rwa [length_little, ofLittle_little] at this

/-- The `k` low bytes of `n`, most significant first. -/
def big (k n : ℕ) : List UInt8 := (little k n).reverse

@[simp] theorem length_big (k n : ℕ) : (big k n).length = k := by simp [big]

/-- The number with the `k` low bytes of `n` in the other order. -/
def swap (k n : ℕ) : ℕ := ofLittle (big k n)

theorem swap_lt (k n : ℕ) : swap k n < 256 ^ k := by
  simpa [swap] using ofLittle_lt (big k n)

theorem swap_mod (k n : ℕ) : swap k (n % 256 ^ k) = swap k n := by
  rw [swap, big, little_mod, swap, big]

theorem little_swap (k n : ℕ) : little k (swap k n) = big k n := by
  simpa [swap, big] using little_ofLittle (little k n).reverse

theorem swap_swap (k n : ℕ) : swap k (swap k n) = n % 256 ^ k := by
  rw [swap, big, little_swap, big, List.reverse_reverse, ofLittle_little]

/-- Bytes taken for a number and swapped are those bytes, most significant first. -/
theorem big_swap_ofLittle {k : ℕ} {bs : List UInt8} (length : bs.length = k) :
    big k (swap k (ofLittle bs)) = bs := by
  subst length
  rw [big, little_swap, big, List.reverse_reverse, little_ofLittle]

theorem ofLittle_big (k n : ℕ) : ofLittle (big k n) = swap k n := rfl

theorem swap_add (j k n : ℕ) :
    swap (j + k) n = swap k (n / 256 ^ j) + 256 ^ k * swap j n := by
  rw [swap, big, little_add, List.reverse_append, ofLittle_append]
  simp [swap, big]

end Endian
