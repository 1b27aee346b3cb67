import CRpc.Lib.Loops
import CRpc.Lib.Multimap

/-! Iterators into a multimap: an erasure leaves all of them valid but those to what it erased. -/
namespace Multimaps
open Loops

inductive Iterator
  /-- To the pair at this position, or to the end. -/
  | to (i : ℕ)
  | erased
  deriving DecidableEq

variable {κ ν : Type*} [LinearOrder κ]

namespace Multimap

theorem eq_of_pairs {m m' : Multimap κ ν} (same : m.pairs = m'.pairs) : m = m' := by
  cases m
  cases same
  rfl

def eraseAt (m : Multimap κ ν) (i : ℕ) : Multimap κ ν :=
  ⟨m.pairs.eraseIdx i, m.sorted.sublist (m.pairs.eraseIdx_sublist i)⟩

/-- Where `equal_range` begins and ends. -/
def lowerBound (m : Multimap κ ν) (k : κ) : ℕ := (m.pairs.takeWhile fun p => p.1 < k).length

def upperBound (m : Multimap κ ν) (k : κ) : ℕ := m.lowerBound k + (m.equalRange k).length

end Multimap

/-- `for (auto it = first; it != last; ++it)` over a multimap: where it stands. -/
structure Walk (κ ν : Type*) [LinearOrder κ] where
  map : Multimap κ ν
  it : Iterator
  last : ℕ

namespace Walk

def range (m : Multimap κ ν) (k : κ) : Walk κ ν := ⟨m, .to (m.lowerBound k), m.upperBound k⟩

/-- `it != last`. -/
def more (w : Walk κ ν) : Bool := w.it ≠ .to w.last

/-- `*it`, like what follows nothing where the iterator may not be used. -/
def get (w : Walk κ ν) : Option (κ × ν) :=
  match w.it with
  | .to i => w.map.pairs[i]?
  | .erased => none

/-- `++it`. -/
def next (w : Walk κ ν) : Option (Walk κ ν) :=
  match w.it with
  | .to i => if i < w.map.pairs.length then some { w with it := .to (i + 1) } else none
  | .erased => none

/-- `erase(it)`; what comes later moves up by one position. -/
def erase (w : Walk κ ν) : Option (Walk κ ν) :=
  match w.it with
  | .to i =>
    if i < w.map.pairs.length then
      some ⟨w.map.eraseAt i, .erased, if i < w.last then w.last - 1 else w.last⟩
    else none
  | .erased => none

/-- `{ if (p(*it)) erase(it); }` and `++it`; thrown where an iterator may not be used. -/
def eraseMatching (p : κ × ν → Bool) (w : Walk κ ν) : Round (Walk κ ν) :=
  match w.get with
  | none => .thrown w
  | some a =>
    match if p a then w.erase else some w with
    | none => .thrown w
    | some w' =>
      match w'.next with
      | none => .thrown w'
      | some w'' => .next w''

/-- `{ if (p(*it)) { erase(it); return; } }` and `++it`; what has returned is at what it erased. -/
def eraseOne (p : κ × ν → Bool) (w : Walk κ ν) : Round (Walk κ ν) :=
  match w.get with
  | none => .thrown w
  | some a =>
    match if p a then w.erase else w.next with
    | none => .thrown w
    | some w' => .next w'

/-- `it != last`, if it has not returned. -/
def unreturned (w : Walk κ ν) : Bool := w.more && w.it ≠ .erased

variable {p : κ × ν → Bool} {m : Multimap κ ν} {a : κ × ν} {before rest : List (κ × ν)} {last : ℕ}

theorem get_at (parts : m.pairs = before ++ a :: rest) :
    (Walk.mk m (.to before.length) last).get = some a := by
  simp only [get, parts]
  rw [List.getElem?_append_right le_rfl, Nat.sub_self]
  rfl

theorem inside (parts : m.pairs = before ++ a :: rest) : before.length < m.pairs.length := by
  rw [parts, List.length_append, List.length_cons]
  omega

theorem next_at (parts : m.pairs = before ++ a :: rest) :
    (Walk.mk m (.to before.length) last).next = some ⟨m, .to (before.length + 1), last⟩ :=
  if_pos (inside parts)

theorem erase_at (last : ℕ) (parts : m.pairs = before ++ a :: rest) : ∃ last',
    (Walk.mk m (.to before.length) last).erase =
      some ⟨m.eraseAt before.length, .erased, last'⟩ :=
  ⟨_, if_pos (inside parts)⟩

theorem eraseMatching_other (parts : m.pairs = before ++ a :: rest) (other : ¬ p a = true) :
    eraseMatching p ⟨m, .to before.length, last⟩ = .next ⟨m, .to (before.length + 1), last⟩ := by
  rw [eraseMatching, get_at parts]
  simp only [if_neg other, next_at parts]

theorem eraseMatching_match (parts : m.pairs = before ++ a :: rest) (same : p a = true) :
    ∃ w, eraseMatching p ⟨m, .to before.length, last⟩ = .thrown w ∧ w.it = .erased := by
  obtain ⟨last', gone⟩ := erase_at last parts
  rw [eraseMatching, get_at parts]
  simp only [if_pos same, gone, next]
  exact ⟨_, rfl, rfl⟩

theorem more_iff {i : ℕ} : (Walk.mk m (.to i) last).more = true ↔ i ≠ last := by
  simp [more]

/-- A loop over `range`, which follows `before`. -/
def along (m : Multimap κ ν) (before range : List (κ × ν)) : Walk κ ν :=
  ⟨m, .to before.length, before.length + range.length⟩

theorem along_nil : ¬ (along m before []).more = true := fun h => more_iff.mp h rfl

theorem along_cons {range : List (κ × ν)} : (along m before (a :: range)).more = true :=
  more_iff.mpr (by simp)

theorem along_next {range : List (κ × ν)} :
    (⟨m, .to (before.length + 1), before.length + (a :: range).length⟩ : Walk κ ν) =
      along m (before ++ [a]) range := by
  simp only [along, List.length_append, List.length_cons, List.length_nil, Nat.zero_add, mk.injEq,
    true_and]
  omega

theorem loop_passes {range after : List (κ × ν)}
    (parts : m.pairs = before ++ (a :: range ++ after)) (other : ¬ p a = true) (n : ℕ) :
    loop more (eraseMatching p) (n + 1) (along m before (a :: range)) =
      loop more (eraseMatching p) n (along m (before ++ [a]) range) := by
  rw [loop_next n along_cons (eraseMatching_other parts other), ← along_next]

theorem parts_next {range after : List (κ × ν)}
    (parts : m.pairs = before ++ (a :: range ++ after)) :
    m.pairs = (before ++ [a]) ++ (range ++ after) := by
  rw [parts, List.append_assoc]
  rfl

theorem loop_other {range after : List (κ × ν)} : ∀ {before : List (κ × ν)} {n : ℕ},
    m.pairs = before ++ (range ++ after) → range.length < n → (∀ a ∈ range, ¬ p a = true) →
    ∃ i, loop more (eraseMatching p) n (along m before range) = .ended ⟨m, .to i, i⟩ := by
  induction range with
  | nil =>
    intro before n _ lt _
    obtain ⟨n, rfl⟩ := Nat.exists_eq_succ_of_ne_zero (Nat.ne_zero_of_lt lt)
    exact ⟨before.length, loop_end n along_nil⟩
  | cons a range ih =>
    intro before n parts lt others
    obtain ⟨n, rfl⟩ := Nat.exists_eq_succ_of_ne_zero (Nat.ne_zero_of_lt lt)
    rw [loop_passes parts (others a List.mem_cons_self)]
    apply ih (parts_next parts) (Nat.lt_of_succ_lt_succ lt)
    exact fun b mem => others b (List.mem_cons_of_mem a mem)

theorem loop_match {range after : List (κ × ν)} : ∀ {before : List (κ × ν)} {n : ℕ},
    m.pairs = before ++ (range ++ after) → range.length < n → (∃ a ∈ range, p a = true) →
    ∃ w, loop more (eraseMatching p) n (along m before range) = .thrown w ∧ w.it = .erased := by
  induction range with
  | nil =>
    rintro before n _ _ ⟨a, mem, _⟩
    cases mem
  | cons a range ih =>
    rintro before n parts lt ⟨b, mem, same⟩
    obtain ⟨n, rfl⟩ := Nat.exists_eq_succ_of_ne_zero (Nat.ne_zero_of_lt lt)
    by_cases first : p a = true
    · obtain ⟨w, thrown, erased⟩ := eraseMatching_match parts first
      exact ⟨w, loop_thrown n along_cons thrown, erased⟩
    · rw [loop_passes parts first]
      apply ih (parts_next parts) (Nat.lt_of_succ_lt_succ lt)
      rcases List.mem_cons.mp mem with rfl | later
      · exact absurd same first
      · exact ⟨b, later, same⟩

theorem unreturned_cons {range : List (κ × ν)} :
    (along m before (a :: range)).unreturned = true := by
  rw [unreturned, along_cons]
  rfl

theorem eraseOne_other (parts : m.pairs = before ++ a :: rest) (other : ¬ p a = true) :
    eraseOne p ⟨m, .to before.length, last⟩ = .next ⟨m, .to (before.length + 1), last⟩ := by
  rw [eraseOne, get_at parts]
  simp only [if_neg other, next_at parts]

theorem eraseOne_match (parts : m.pairs = before ++ a :: rest) (same : p a = true) :
    ∃ last', eraseOne p ⟨m, .to before.length, last⟩ =
      .next ⟨m.eraseAt before.length, .erased, last'⟩ := by
  obtain ⟨last', gone⟩ := erase_at last parts
  rw [eraseOne, get_at parts]
  simp only [if_pos same, gone]
  exact ⟨last', rfl⟩

theorem pairs_eraseAt (parts : m.pairs = before ++ a :: rest) :
    (m.eraseAt before.length).pairs = before ++ rest := by
  change m.pairs.eraseIdx before.length = _
  rw [parts, List.eraseIdx_append_of_length_le le_rfl, Nat.sub_self]
  rfl

/-- A loop that returns where it erases takes the first match out. -/
theorem loop_one {range after : List (κ × ν)} : ∀ {before : List (κ × ν)} {n : ℕ},
    m.pairs = before ++ (range ++ after) → range.length < n →
    ∃ w, loop unreturned (eraseOne p) n (along m before range) = .ended w ∧
      w.map.pairs = before ++ (range.eraseP p ++ after) ∧
      (w.it = .erased ↔ ∃ a ∈ range, p a = true) := by
  induction range with
  | nil =>
    intro before n parts lt
    obtain ⟨n, rfl⟩ := Nat.exists_eq_succ_of_ne_zero (Nat.ne_zero_of_lt lt)
    have last : ¬ (along m before []).unreturned = true := fun more =>
      along_nil (Bool.and_eq_true_iff.mp more).1
    exact ⟨_, loop_end n last, parts, by simp [along]⟩
  | cons a range ih =>
    intro before n parts lt
    obtain ⟨n, rfl⟩ := Nat.exists_eq_succ_of_ne_zero (Nat.ne_zero_of_lt lt)
    have room : range.length < n := Nat.lt_of_succ_lt_succ lt
    by_cases first : p a = true
    · obtain ⟨n, rfl⟩ := Nat.exists_eq_succ_of_ne_zero (Nat.ne_zero_of_lt room)
      obtain ⟨last, erased⟩ := eraseOne_match parts first
      have returned : ¬ (Walk.mk (m.eraseAt before.length) .erased last).unreturned = true := by
        simp [unreturned]
      rw [loop_next (n + 1) unreturned_cons erased, loop_end n returned]
      refine ⟨_, rfl, ?_, iff_of_true rfl ⟨a, List.mem_cons_self, first⟩⟩
      rw [pairs_eraseAt parts, List.eraseP_cons_of_pos first]
      rfl
    · obtain ⟨w, ended, pairs, erased⟩ := ih (parts_next parts) room
      refine ⟨w, ?_, ?_, ?_⟩
      · rw [loop_next n unreturned_cons (eraseOne_other parts first), ← ended, along_next]
      · rw [pairs, List.eraseP_cons_of_neg first, List.append_assoc]
        rfl
      · rw [erased]
        simp [first]

end Walk

namespace Multimap
open Walk

/-- The loop over the range of a key; it takes a round for each pair at most. -/
def eraseIn (m : Multimap κ ν) (k : κ) (p : κ × ν → Bool) : Outcome (Walk κ ν) :=
  loop more (eraseMatching p) ((m.equalRange k).length + 1) (range m k)

def eraseOneIn (m : Multimap κ ν) (k : κ) (p : κ × ν → Bool) : Outcome (Walk κ ν) :=
  loop unreturned (eraseOne p) ((m.equalRange k).length + 1) (range m k)

theorem range_parts (m : Multimap κ ν) (k : κ) : ∃ before range after,
    m.pairs = before ++ (range ++ after) ∧ Walk.range m k = along m before range ∧
      range.length = (m.equalRange k).length ∧ range = m.pairs.filter fun p => p.1 = k := by
  have first := (m.pairs.takeWhile_append_dropWhile (p := fun p => p.1 < k)).symm
  have second := ((m.pairs.dropWhile fun p => p.1 < k).takeWhile_append_dropWhile
    (p := fun p => ¬ k < p.1)).symm
  rw [second] at first
  have length : ((m.pairs.dropWhile fun p => p.1 < k).takeWhile fun p => ¬ k < p.1).length =
      (m.equalRange k).length := (List.length_map _).symm
  refine ⟨_, _, _, first, ?_, length, range_eq_filter k m.sorted⟩
  rw [Walk.range, along, upperBound, lowerBound, length]

variable {m : Multimap κ ν} {k : κ} {p : κ × ν → Bool}

theorem eraseIn_other (others : ∀ a ∈ m.pairs, a.1 = k → ¬ p a = true) :
    ∃ i, m.eraseIn k p = .ended ⟨m, .to i, i⟩ := by
  obtain ⟨before, range, after, parts, start, length, same⟩ := m.range_parts k
  rw [eraseIn, start]
  apply loop_other parts (by omega)
  intro a mem
  rw [same] at mem
  have both := List.mem_filter.mp mem
  exact others a both.1 (of_decide_eq_true both.2)

theorem eraseIn_match (some : ∃ a ∈ m.pairs, a.1 = k ∧ p a = true) :
    ∃ w, m.eraseIn k p = .thrown w ∧ w.it = .erased := by
  obtain ⟨before, range, after, parts, start, length, same⟩ := m.range_parts k
  obtain ⟨a, mem, key, holds⟩ := some
  rw [eraseIn, start]
  apply loop_match parts (by omega)
  refine ⟨a, ?_, holds⟩
  rw [same]
  exact List.mem_filter.mpr ⟨mem, decide_eq_true key⟩

theorem range_apart {before range after : List (κ × ν)} (parts : m.pairs = before ++ (range ++ after))
    (same : range = m.pairs.filter fun p => p.1 = k) :
    (∀ a ∈ before, a.1 ≠ k) ∧ ∀ a ∈ after, a.1 ≠ k := by
  have within : range.filter (fun p => p.1 = k) = range := by
    rw [same, List.filter_filter]
    simp
  rw [parts, List.filter_append, List.filter_append, within] at same
  have lengths := congrArg List.length same
  rw [List.length_append, List.length_append] at lengths
  have first : before.filter (fun p => p.1 = k) = [] := List.length_eq_zero_iff.mp (by omega)
  have last : after.filter (fun p => p.1 = k) = [] := List.length_eq_zero_iff.mp (by omega)
  rw [List.filter_eq_nil_iff] at first last
  exact ⟨fun a mem key => first a mem (decide_eq_true key),
    fun a mem key => last a mem (decide_eq_true key)⟩

/-- Among pairs of one key followed by others, the first of that key with such a value. -/
theorem eraseP_range {range after : List (κ × ν)} (keys : ∀ a ∈ range, a.1 = k)
    (apart : ∀ a ∈ after, a.1 ≠ k) (p : ν → Bool) :
    (range ++ after).eraseP (fun q => q.1 = k && p q.2) =
      range.eraseP (fun q => p q.2) ++ after := by
  induction range with
  | nil =>
    apply List.eraseP_of_forall_not
    intro a mem holds
    exact apart a mem (of_decide_eq_true (Bool.and_eq_true_iff.mp holds).1)
  | cons a range ih =>
    have rest := ih fun b mem => keys b (List.mem_cons_of_mem a mem)
    have key : decide (a.1 = k) = true := decide_eq_true (keys a List.mem_cons_self)
    rw [List.cons_append, List.eraseP_cons, List.eraseP_cons, key, Bool.true_and, rest]
    cases p a.2 <;> rfl

/-- The loop that returns where it erases takes out the first match of the range, if there is one,
    and uses no iterator after that. -/
theorem eraseOneIn_eq (m : Multimap κ ν) (k : κ) (p : ν → Bool) :
    ∃ w, m.eraseOneIn k (fun q => p q.2) = .ended w ∧ w.map = m.eraseFirst k p ∧
      (w.it = .erased ↔ ∃ v ∈ m.equalRange k, p v = true) := by
  obtain ⟨before, range, after, parts, start, length, same⟩ := m.range_parts k
  obtain ⟨w, ended, pairs, erased⟩ :=
    loop_one (p := fun q => p q.2) parts (n := (m.equalRange k).length + 1) (by omega)
  obtain ⟨none_before, none_after⟩ := range_apart parts same
  have keys : ∀ a ∈ range, a.1 = k := by
    intro a mem
    rw [same] at mem
    exact of_decide_eq_true (List.mem_filter.mp mem).2
  refine ⟨w, by rw [eraseOneIn, start, ended], ?_, ?_⟩
  · apply eq_of_pairs
    change w.map.pairs = m.pairs.eraseP _
    rw [pairs, parts, List.eraseP_append_right, eraseP_range keys none_after]
    intro a mem holds
    exact none_before a mem (of_decide_eq_true (Bool.and_eq_true_iff.mp holds).1)
  · rw [erased, equalRange_eq, ← same]
    constructor
    · rintro ⟨a, mem, holds⟩
      exact ⟨a.2, List.mem_map_of_mem mem, holds⟩
    · rintro ⟨v, listed, holds⟩
      obtain ⟨a, mem, rfl⟩ := List.mem_map.mp listed
      exact ⟨a, mem, holds⟩

theorem eraseFirst_of_none {p : ν → Bool} (none : ¬ ∃ v ∈ m.equalRange k, p v = true) :
    m.eraseFirst k p = m := by
  apply eq_of_pairs
  apply List.eraseP_of_forall_not
  intro a mem holds
  obtain ⟨key, holds⟩ := Bool.and_eq_true_iff.mp holds
  apply none
  refine ⟨a.2, ?_, holds⟩
  rw [equalRange_eq]
  exact List.mem_map_of_mem (List.mem_filter.mpr ⟨mem, key⟩)

variable [DecidableEq ν]

/-- Without all pairs of a list, however often they occur; the others keep their order. -/
def without (m : Multimap κ ν) (l : List (κ × ν)) : Multimap κ ν :=
  ⟨m.pairs.filter fun p => p ∉ l, m.sorted.filter _⟩

theorem without_of_absent {l : List (κ × ν)} (absent : ∀ p ∈ l, p ∉ m.pairs) :
    m.without l = m := by
  apply eq_of_pairs
  exact List.filter_eq_self.mpr fun p mem => decide_eq_true fun named => absent p named mem

end Multimap

end Multimaps
