import Mathlib.Data.List.Basic
import Mathlib.Tactic.TypeStar

/-! Streams of items whose first symbols tell how long each is. -/
namespace Formats

variable {α : Type*}

/-- How long the item is that begins a stream, as soon as enough of the stream is there to tell. -/
structure Format (α : Type*) where
  size : List α → Option ℕ
  grows : ∀ {bs n} more, size bs = some n → size (bs ++ more) = some n
  cuts : ∀ {bs n}, size bs = some n → n ≤ bs.length → size (bs.take n) = some n
  pos : ∀ {bs n}, size bs = some n → 0 < n

namespace Format

variable (F : Format α)

def Whole (item : List α) : Prop := F.size item = some item.length

def Unfinished (rest : List α) : Prop := ∀ n, F.size rest = some n → rest.length < n

structure Cut (bs : List α) (items : List (List α)) (rest : List α) : Prop where
  stream : bs = items.flatten ++ rest
  whole : ∀ item ∈ items, F.Whole item
  unfinished : F.Unfinished rest

variable {F}

theorem Whole.unique {item item' more more' : List α} (whole : F.Whole item)
    (whole' : F.Whole item') (same : item ++ more = item' ++ more') :
    item = item' ∧ more = more' := by
  have sizes := (F.grows more whole).symm.trans (same ▸ F.grows more' whole')
  exact List.append_inj same (Option.some.inj sizes)

theorem Whole.finished {item more : List α} (whole : F.Whole item) :
    ¬ F.Unfinished (item ++ more) := by
  intro unfinished
  have short := unfinished item.length (F.grows more whole)
  rw [List.length_append] at short
  omega

theorem whole_take {bs : List α} {n : ℕ} (size : F.size bs = some n) (fits : n ≤ bs.length) :
    F.Whole (bs.take n) := by
  rw [Whole, List.length_take, Nat.min_eq_left fits]
  exact F.cuts size fits

theorem exists_cut (bs : List α) : ∃ items rest, F.Cut bs items rest := by
  induction length : bs.length using Nat.strongRecOn generalizing bs with
  | ind m ih =>
    by_cases unfinished : F.Unfinished bs
    · exact ⟨[], bs, rfl, fun _ mem => absurd mem List.not_mem_nil, unfinished⟩
    · simp only [Unfinished, not_forall, Nat.not_lt] at unfinished
      obtain ⟨n, size, fits⟩ := unfinished
      have pos := F.pos size
      obtain ⟨items, rest, cut⟩ := ih (bs.drop n).length (by rw [List.length_drop]; omega)
        (bs.drop n) rfl
      refine ⟨bs.take n :: items, rest, ?_, ?_, cut.unfinished⟩
      · rw [List.flatten_cons, List.append_assoc, ← cut.stream, List.take_append_drop]
      · rw [List.forall_mem_cons]
        exact ⟨whole_take size fits, cut.whole⟩

theorem Cut.unique {items items' : List (List α)} : ∀ {bs rest rest' : List α},
    F.Cut bs items rest → F.Cut bs items' rest' → items = items' ∧ rest = rest' := by
  induction items generalizing items' with
  | nil =>
    intro bs rest rest' cut cut'
    cases items' with
    | nil => exact ⟨rfl, cut.stream.symm.trans cut'.stream⟩
    | cons item items' =>
      have whole := cut'.whole item List.mem_cons_self
      have same : rest = item ++ (items'.flatten ++ rest') := by
        rw [← List.append_assoc, ← List.flatten_cons, ← cut'.stream, cut.stream]
        rfl
      exact absurd (same ▸ cut.unfinished) whole.finished
  | cons item items ih =>
    intro bs rest rest' cut cut'
    have whole := cut.whole item List.mem_cons_self
    have stream : bs = item ++ (items.flatten ++ rest) := by
      rw [← List.append_assoc, ← List.flatten_cons, ← cut.stream]
    cases items' with
    | nil =>
      have same : rest' = item ++ (items.flatten ++ rest) := by
        rw [← stream, cut'.stream]
        rfl
      exact absurd (same ▸ cut'.unfinished) whole.finished
    | cons item' items' =>
      have stream' : bs = item' ++ (items'.flatten ++ rest') := by
        rw [← List.append_assoc, ← List.flatten_cons, ← cut'.stream]
      obtain ⟨rfl, same⟩ := whole.unique (cut'.whole item' List.mem_cons_self)
        (stream.symm.trans stream')
      have later : F.Cut (items.flatten ++ rest) items rest :=
        ⟨rfl, fun x mem => cut.whole x (List.mem_cons_of_mem _ mem), cut.unfinished⟩
      have later' : F.Cut (items.flatten ++ rest) items' rest' :=
        ⟨same, fun x mem => cut'.whole x (List.mem_cons_of_mem _ mem), cut'.unfinished⟩
      obtain ⟨rfl, rfl⟩ := ih later later'
      exact ⟨rfl, rfl⟩

end Format
end Formats
