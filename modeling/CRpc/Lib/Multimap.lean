import Mathlib.Data.List.Perm.Basic
import Mathlib.Order.Lattice

/-! Multimaps: pairs in the order of their keys, those of one key in the order they came. -/
namespace Multimaps

variable {κ ν : Type*} [LinearOrder κ]

structure Multimap (κ ν : Type*) [LinearOrder κ] where
  pairs : List (κ × ν)
  sorted : pairs.Pairwise fun a b => a.1 ≤ b.1

def insert (k : κ) (v : ν) : List (κ × ν) → List (κ × ν)
  | [] => [(k, v)]
  | p :: l => if k < p.1 then (k, v) :: p :: l else p :: insert k v l

theorem insert_perm (k : κ) (v : ν) (l : List (κ × ν)) : (insert k v l).Perm ((k, v) :: l) := by
  induction l with
  | nil => exact .refl _
  | cons p l ih =>
    unfold insert
    split
    · exact .refl _
    · exact (ih.cons p).trans (.swap (k, v) p l)

theorem insert_sorted (k : κ) (v : ν) {l : List (κ × ν)}
    (sorted : l.Pairwise fun a b => a.1 ≤ b.1) :
    (insert k v l).Pairwise fun a b => a.1 ≤ b.1 := by
  induction l with
  | nil => exact List.pairwise_singleton _ _
  | cons p l ih =>
    have least : ∀ q ∈ l, p.1 ≤ q.1 := (List.pairwise_cons.mp sorted).1
    unfold insert
    split
    · rename_i lt
      apply List.Pairwise.cons _ sorted
      intro q mem
      rcases List.mem_cons.mp mem with rfl | later
      · exact lt.le
      · exact lt.le.trans (least q later)
    · rename_i above
      apply List.Pairwise.cons _ (ih sorted.of_cons)
      intro q mem
      rcases List.mem_cons.mp ((insert_perm k v l).mem_iff.mp mem) with rfl | later
      · exact not_lt.mp above
      · exact least q later

theorem filter_below {k : κ} {p : κ × ν} {l : List (κ × ν)}
    (sorted : (p :: l).Pairwise fun a b => a.1 ≤ b.1) (lt : k < p.1) :
    (p :: l).filter (fun q => q.1 = k) = [] := by
  rw [List.filter_eq_nil_iff]
  intro q mem
  have le : p.1 ≤ q.1 := by
    rcases List.mem_cons.mp mem with rfl | later
    · exact le_rfl
    · exact (List.pairwise_cons.mp sorted).1 q later
  simpa using (lt.trans_le le).ne'

theorem filter_insert (k j : κ) (v : ν) {l : List (κ × ν)}
    (sorted : l.Pairwise fun a b => a.1 ≤ b.1) :
    (insert k v l).filter (fun p => p.1 = j) =
      l.filter (fun p => p.1 = j) ++ if k = j then [(k, v)] else [] := by
  induction l with
  | nil => by_cases same : k = j <;> simp [insert, same]
  | cons p l ih =>
    unfold insert
    split
    · rename_i lt
      by_cases same : k = j
      · subst same
        have none := filter_below sorted lt
        rw [if_pos rfl, none, List.filter_cons_of_pos (by simp), none]
        rfl
      · rw [if_neg same, List.append_nil, List.filter_cons_of_neg (by simpa using same)]
    · rw [List.filter_cons, List.filter_cons, ih sorted.of_cons]
      split
      · rw [List.cons_append]
      · rfl

namespace Multimap

def empty : Multimap κ ν := ⟨[], .nil⟩

def emplace (m : Multimap κ ν) (k : κ) (v : ν) : Multimap κ ν :=
  ⟨insert k v m.pairs, insert_sorted k v m.sorted⟩

/-- Without the first of the pairs of a key whose value satisfies `p`. -/
def eraseFirst (m : Multimap κ ν) (k : κ) (p : ν → Bool) : Multimap κ ν :=
  ⟨m.pairs.eraseP fun q => q.1 = k && p q.2, m.sorted.sublist List.eraseP_sublist⟩

def equalRange (m : Multimap κ ν) (k : κ) : List ν :=
  ((m.pairs.dropWhile fun p => p.1 < k).takeWhile fun p => ¬ k < p.1).map Prod.snd

def emplaceAll (m : Multimap κ ν) (l : List (κ × ν)) : Multimap κ ν :=
  l.foldl (fun m p => m.emplace p.1 p.2) m

theorem range_eq_filter (k : κ) {l : List (κ × ν)} (sorted : l.Pairwise fun a b => a.1 ≤ b.1) :
    ((l.dropWhile fun p => p.1 < k).takeWhile fun p => ¬ k < p.1) =
      l.filter fun p => p.1 = k := by
  induction l with
  | nil => rfl
  | cons p l ih =>
    have least : ∀ q ∈ l, p.1 ≤ q.1 := (List.pairwise_cons.mp sorted).1
    have later := ih sorted.of_cons
    rcases lt_trichotomy p.1 k with lt | eq | gt
    · rw [List.dropWhile_cons_of_pos (by simpa using lt), later,
        List.filter_cons_of_neg (by simpa using lt.ne)]
    · have stop : (l.dropWhile fun q => q.1 < k) = l := by
        cases l with
        | nil => rfl
        | cons q l =>
          apply List.dropWhile_cons_of_neg
          simpa using eq ▸ least q List.mem_cons_self
      rw [stop] at later
      rw [List.dropWhile_cons_of_neg (by simpa using eq.ge),
        List.takeWhile_cons_of_pos (by simpa using eq.le), later,
        List.filter_cons_of_pos (by simpa using eq)]
    · rw [filter_below sorted gt, List.dropWhile_cons_of_neg (by simpa using gt.le),
        List.takeWhile_cons_of_neg (by simpa using gt)]

/-- The range of a key holds its values, all of them and in order. -/
theorem equalRange_eq (m : Multimap κ ν) (k : κ) :
    m.equalRange k = (m.pairs.filter fun p => p.1 = k).map Prod.snd :=
  congrArg (List.map Prod.snd) (range_eq_filter k m.sorted)

theorem equalRange_emplace (m : Multimap κ ν) (k j : κ) (v : ν) :
    (m.emplace k v).equalRange j = m.equalRange j ++ if k = j then [v] else [] := by
  rw [equalRange_eq, equalRange_eq, emplace, filter_insert k j v m.sorted, List.map_append]
  split <;> rfl

theorem equalRange_emplaceAll (m : Multimap κ ν) (l : List (κ × ν)) (k : κ) :
    (m.emplaceAll l).equalRange k =
      m.equalRange k ++ (l.filter fun p => p.1 = k).map Prod.snd := by
  induction l generalizing m with
  | nil => exact (List.append_nil _).symm
  | cons p l ih =>
    have rest := ih (m.emplace p.1 p.2)
    rw [equalRange_emplace, List.append_assoc] at rest
    rw [List.filter_cons]
    change ((m.emplace p.1 p.2).emplaceAll l).equalRange k = _
    rw [rest]
    by_cases same : p.1 = k <;> simp [same]

theorem emplaceAll_perm (m : Multimap κ ν) (l : List (κ × ν)) :
    (m.emplaceAll l).pairs.Perm (m.pairs ++ l) := by
  induction l generalizing m with
  | nil =>
    rw [List.append_nil]
    exact .refl _
  | cons p l ih =>
    apply (ih (m.emplace p.1 p.2)).trans
    exact ((insert_perm p.1 p.2 m.pairs).append_right l).trans List.perm_middle.symm

/-- Filled from the pairs of another in their order, a multimap has the same ranges. -/
theorem equalRange_copy (m : Multimap κ ν) (k : κ) :
    (empty.emplaceAll m.pairs).equalRange k = m.equalRange k := by
  rw [equalRange_emplaceAll, equalRange_eq m]
  rfl

end Multimap

end Multimaps
