import CRpc.Lib.Placements
import Mathlib.Data.List.Nodup

/-! Maps: one value for each key, in the order of the keys. -/
namespace Maps
open Placements

structure Map (κ ν : Type) [LinearOrder κ] where
  pairs : List (κ × ν)
  placed : (Placing.byKey Prod.fst).Placed pairs

namespace Map
variable {κ ν : Type} [LinearOrder κ]

def empty : Map κ ν := ⟨[], .nil⟩

def emplace (m : Map κ ν) (k : κ) (v : ν) : Map κ ν :=
  ⟨(Placing.byKey Prod.fst).place (k, v) m.pairs, Placing.placed_place_byKey m.placed⟩

def find? (m : Map κ ν) (k : κ) : Option ν := (m.pairs.find? fun p => p.1 = k).map Prod.snd

def erase (m : Map κ ν) (k : κ) : Map κ ν :=
  ⟨m.pairs.filter fun p => p.1 ≠ k, m.placed.sublist List.filter_sublist⟩

def values (m : Map κ ν) : List ν := m.pairs.map Prod.snd

theorem nodup_keys (m : Map κ ν) : (m.pairs.map Prod.fst).Nodup := by
  rw [List.Nodup, List.pairwise_map]
  exact (Placing.placed_byKey.mp m.placed).imp ne_of_lt

theorem find?_eq_some {m : Map κ ν} {k : κ} {v : ν} :
    m.find? k = some v ↔ (k, v) ∈ m.pairs := by
  rw [find?, Option.map_eq_some_iff]
  constructor
  · rintro ⟨⟨j, v⟩, found, rfl⟩
    have same := List.find?_some found
    rw [decide_eq_true_eq] at same
    subst same
    exact List.mem_of_find?_eq_some found
  · intro mem
    have there : (m.pairs.find? fun p => p.1 = k).isSome := by
      rw [List.find?_isSome]
      exact ⟨(k, v), mem, by simp⟩
    obtain ⟨p, found⟩ := Option.isSome_iff_exists.mp there
    have same := List.find?_some found
    rw [decide_eq_true_eq] at same
    have unique := List.inj_on_of_nodup_map m.nodup_keys (List.mem_of_find?_eq_some found) mem same
    exact ⟨p, found, congrArg Prod.snd unique⟩

theorem find?_eq_none {m : Map κ ν} {k : κ} : m.find? k = none ↔ ∀ p ∈ m.pairs, p.1 ≠ k := by
  rw [find?, Option.map_eq_none_iff, List.find?_eq_none]
  simp only [decide_eq_true_eq, ne_eq]

/-- The first value of a key stays, and other keys do not change. -/
theorem find?_emplace (m : Map κ ν) (k j : κ) (v : ν) :
    (m.emplace k v).find? j = if j = k then some ((m.find? k).getD v) else m.find? j := by
  apply Option.ext
  intro u
  have free : (∀ p ∈ m.pairs, p.1 ≠ k) ↔ m.find? k = none := find?_eq_none.symm
  rw [find?_eq_some, emplace, Placing.mem_place_byKey, ← find?_eq_some, free]
  split
  · rename_i same
    subst same
    cases m.find? j with
    | none => simp [eq_comm]
    | some w => simp
  · rename_i apart
    simp [apart]

theorem find?_erase (m : Map κ ν) (k j : κ) :
    (m.erase k).find? j = if j = k then none else m.find? j := by
  apply Option.ext
  intro u
  rw [find?_eq_some, erase, List.mem_filter, ← find?_eq_some]
  split
  · rename_i same
    simp [same]
  · rename_i apart
    simp [apart]

end Map

end Maps
