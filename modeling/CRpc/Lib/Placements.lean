import Mathlib.Algebra.Group.Nat.Defs
import Mathlib.Data.List.Basic
import Mathlib.Data.List.Pairwise
import Mathlib.Order.Lattice

/-! Containers by where they put a new element. -/
namespace Placements

variable {α κ : Type}

structure Placing (α : Type) where
  /-- `same a x`: with `a` in it, the container leaves `x` out. -/
  same : α → α → Bool
  /-- `before x a`: `x` goes somewhere in front of `a`. -/
  before : α → α → Bool

def Placing.on (p : Placing κ) (key : α → κ) : Placing α :=
  ⟨fun a x => p.same (key a) (key x), fun x a => p.before (key x) (key a)⟩

namespace Placing

variable (p : Placing α)

def insert (x : α) : List α → List α
  | [] => [x]
  | a :: l => if p.before x a then x :: a :: l else a :: insert x l

def place (x : α) (l : List α) : List α := if l.any (p.same · x) then l else p.insert x l

/-- No element repeats an earlier one or belongs in front of it. -/
def Placed (l : List α) : Prop :=
  l.Pairwise fun a x => p.same a x = false ∧ p.before x a = false

instance (l : List α) : Decidable (p.Placed l) :=
  inferInstanceAs (Decidable (l.Pairwise fun a x => p.same a x = false ∧ p.before x a = false))

variable {p}

theorem insert_last {x : α} {l : List α} (after : ∀ a ∈ l, p.before x a = false) :
    p.insert x l = l ++ [x] := by
  induction l with
  | nil => rfl
  | cons a l ih =>
    have here : p.before x a = false := after a List.mem_cons_self
    rw [insert, here, List.cons_append]
    exact congrArg (a :: ·) (ih fun b mem => after b (List.mem_cons_of_mem _ mem))

theorem place_last {x : α} {l : List α} (placed : p.Placed (l ++ [x])) :
    p.place x l = l ++ [x] := by
  have behind : ∀ a ∈ l, p.same a x = false ∧ p.before x a = false := fun a mem =>
    (List.pairwise_append.mp placed).2.2 a mem x (List.mem_singleton_self x)
  have fresh : l.any (p.same · x) = false := by
    rw [List.any_eq_false]
    intro a mem
    simp [(behind a mem).1]
  rw [place, fresh]
  exact insert_last fun a mem => (behind a mem).2

theorem mem_insert {x y : α} {l : List α} (h : y ∈ p.insert x l) : y = x ∨ y ∈ l := by
  induction l with
  | nil => exact .inl (List.mem_singleton.mp h)
  | cons a l ih =>
    unfold insert at h
    split at h
    · exact List.mem_cons.mp h
    · rcases List.mem_cons.mp h with rfl | later
      · exact .inr List.mem_cons_self
      · exact (ih later).imp_right (List.mem_cons_of_mem _)

theorem mem_place {x y : α} {l : List α} (h : y ∈ p.place x l) : y = x ∨ y ∈ l := by
  unfold place at h
  split at h
  · exact .inr h
  · exact mem_insert h

theorem sublist_insert (x : α) (l : List α) : l.Sublist (p.insert x l) := by
  induction l with
  | nil => exact List.nil_sublist _
  | cons a l ih =>
    unfold insert
    split
    · exact List.sublist_cons_self x _
    · exact ih.cons_cons a

theorem sublist_place (x : α) (l : List α) : l.Sublist (p.place x l) := by
  unfold place
  split
  · exact .refl l
  · exact sublist_insert x l

section Ordered
variable [LinearOrder κ] (key : α → κ)

def byKey : Placing α := ⟨fun a x => key a = key x, fun x a => key x < key a⟩

variable {key}

theorem placed_byKey {l : List α} :
    (byKey key).Placed l ↔ l.Pairwise fun a x => key a < key x := by
  constructor
  · intro placed
    apply placed.imp
    intro a x ⟨ne, le⟩
    exact lt_of_le_of_ne (not_lt.mp (of_decide_eq_false le)) (of_decide_eq_false ne)
  · intro sorted
    apply sorted.imp
    intro a x lt
    exact ⟨decide_eq_false lt.ne, decide_eq_false lt.le.not_gt⟩

theorem any_same {x : α} {l : List α} :
    l.any ((byKey key).same · x) = true ↔ ∃ a ∈ l, key a = key x := by
  simp [byKey]

theorem mem_place_byKey {x y : α} {l : List α} :
    y ∈ (byKey key).place x l ↔ y ∈ l ∨ (y = x ∧ ∀ a ∈ l, key a ≠ key x) := by
  have inserted : ∀ l : List α, y ∈ (byKey key).insert x l ↔ y ∈ l ∨ y = x := by
    intro l
    induction l with
    | nil => simp [insert]
    | cons a l ih =>
      unfold insert
      split
      · simp [or_comm]
      · simp [ih, or_assoc]
  unfold place
  split
  · rename_i taken
    obtain ⟨a, mem, same⟩ := any_same.mp taken
    exact ⟨.inl, fun h => h.elim id fun h => absurd same (h.2 a mem)⟩
  · rename_i free
    rw [inserted]
    have apart : ∀ a ∈ l, key a ≠ key x := fun a mem same => free (any_same.mpr ⟨a, mem, same⟩)
    exact or_congr_right ⟨fun eq => ⟨eq, apart⟩, fun h => h.1⟩

theorem placed_place_byKey {x : α} {l : List α} (placed : (byKey key).Placed l) :
    (byKey key).Placed ((byKey key).place x l) := by
  unfold place
  split
  · exact placed
  · rename_i free
    have apart : ∀ a ∈ l, key a ≠ key x := fun a mem same => free (any_same.mpr ⟨a, mem, same⟩)
    rw [placed_byKey] at placed ⊢
    clear free
    induction l with
    | nil => exact List.pairwise_singleton _ x
    | cons a l ih =>
      have least : ∀ b ∈ l, key a < key b := (List.pairwise_cons.mp placed).1
      unfold insert
      split
      · rename_i before
        have lt : key x < key a := of_decide_eq_true before
        apply List.Pairwise.cons _ placed
        intro b mem
        rcases List.mem_cons.mp mem with rfl | later
        · exact lt
        · exact lt.trans (least b later)
      · rename_i before
        have lt : key a < key x := lt_of_le_of_ne
          (not_lt.mp fun lt => before (decide_eq_true lt)) (apart a List.mem_cons_self)
        apply List.Pairwise.cons _
          (ih placed.of_cons fun b mem => apart b (List.mem_cons_of_mem _ mem))
        intro b mem
        rcases mem_insert mem with rfl | later
        · exact lt
        · exact least b later

end Ordered

end Placing

/-- A container's elements in the order of its iteration; a size is a machine word. -/
structure Items (p : Placing α) where
  items : List α
  placed : p.Placed items
  size_lt : items.length < 2 ^ 64

namespace Items

variable {p : Placing α}

@[ext] theorem ext {c d : Items p} (h : c.items = d.items) : c = d := by
  cases c
  cases d
  cases h
  rfl

def empty : Items p := ⟨[], .nil, Nat.two_pow_pos 64⟩

def single (x : α) : Items p := ⟨[x], List.pairwise_singleton _ x, Nat.one_lt_two_pow (by decide)⟩

/-- `none` if the container is full, or if its comparison is no order on the elements. -/
def emplace (x : α) (c : Items p) : Option (Items p) :=
  if h : p.Placed (p.place x c.items) ∧ (p.place x c.items).length < 2 ^ 64 then
    some ⟨p.place x c.items, h.1, h.2⟩
  else none

theorem emplace_next {c d : Items p} {x : α} {rest : List α}
    (h : d.items = c.items ++ x :: rest) :
    ∃ c', c.emplace x = some c' ∧ d.items = c'.items ++ rest := by
  have split : d.items = (c.items ++ [x]) ++ rest := by simpa using h
  have placed : p.Placed (c.items ++ [x]) :=
    (List.pairwise_append.mp (split ▸ d.placed)).1
  have size : (c.items ++ [x]).length < 2 ^ 64 := by
    have := d.size_lt
    rw [split, List.length_append] at this
    omega
  have last := Placing.place_last placed
  refine ⟨⟨c.items ++ [x], placed, size⟩, ?_, split⟩
  unfold emplace
  simp only [last]
  exact dif_pos ⟨placed, size⟩

theorem mem_emplace {c d : Items p} {x y : α} (h : c.emplace x = some d) (mem : y ∈ d.items) :
    y = x ∨ y ∈ c.items := by
  unfold emplace at h
  split at h
  · cases h
    exact Placing.mem_place mem
  · cases h

theorem emplace_sublist {c d : Items p} {x : α} (h : c.emplace x = some d) :
    c.items.Sublist d.items := by
  unfold emplace at h
  split at h
  · cases h
    exact Placing.sublist_place x c.items
  · cases h

def emplaceAll (c : Items p) (l : List α) : Option (Items p) := l.foldlM (fun c x => c.emplace x) c

theorem emplaceAll_cons {c d : Items p} {x : α} {l : List α} :
    c.emplaceAll (x :: l) = some d ↔ ∃ c', c.emplace x = some c' ∧ c'.emplaceAll l = some d := by
  rw [emplaceAll, List.foldlM_cons]
  exact Option.bind_eq_some_iff

/-- A container's elements in their own order build the same container. -/
theorem emplaceAll_self {l : List α} : ∀ {c d : Items p}, d.items = c.items ++ l →
    c.emplaceAll l = some d := by
  induction l with
  | nil =>
    intro c d h
    rw [Items.ext (h.trans (List.append_nil _))]
    rfl
  | cons x l ih =>
    intro c d h
    obtain ⟨c', first, rest⟩ := emplace_next h
    exact emplaceAll_cons.mpr ⟨c', first, ih rest⟩

end Items

end Placements
