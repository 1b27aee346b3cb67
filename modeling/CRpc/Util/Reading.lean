import CRpc.Util.Serializer

/-! `while(!s->isReadEnd())`: a payload read to its end. -/
namespace CRpc.Util
open Buffer

variable {σ ι : Type}

/-- At most `fuel` rounds of the loop; `acc` is what the body changes. -/
def rounds (body : σ → Codec σ) : ℕ → σ → Codec σ
  | 0, _ => failure
  | fuel + 1, acc => fun s =>
    if s.isReadEnd then some (acc, s) else (body acc s).bind fun r => rounds body fuel r.1 r.2

/-- The loop. Every body of the source reads a byte at least, so that there are never more
rounds than unread bytes. -/
def untilReadEnd (body : σ → Codec σ) (acc : σ) : Codec σ := fun s =>
  rounds body (s.unread.length + 1) acc s

theorem isReadEnd_iff (s : Buffer) : s.isReadEnd = true ↔ s.unread = [] := by
  have length := s.length_unread
  have le := s.position_le
  rw [← List.length_eq_zero_iff, isReadEnd, getSize, decide_eq_true_eq]
  omega

theorem rounds_end {body : σ → Codec σ} (fuel : ℕ) (acc : σ) {s : Buffer}
    (h : s.isReadEnd = true) : rounds body (fuel + 1) acc s = some (acc, s) := if_pos h

theorem rounds_more {body : σ → Codec σ} (fuel : ℕ) {acc acc' : σ} {s s' : Buffer}
    (h : ¬ s.isReadEnd = true) (round : body acc s = some (acc', s')) :
    rounds body (fuel + 1) acc s = rounds body fuel acc' s' := by
  have step : rounds body (fuel + 1) acc s =
      (body acc s).bind fun r => rounds body fuel r.1 r.2 := if_neg h
  rw [step, round, Option.bind_some]

theorem untilReadEnd_throws {body : σ → Codec σ} {acc : σ} {s : Buffer}
    (h : ¬ s.isReadEnd = true) (thrown : body acc s = none) : untilReadEnd body acc s = none := by
  have step : untilReadEnd body acc s =
      (body acc s).bind fun r => rounds body s.unread.length r.1 r.2 := if_neg h
  rw [step, thrown, Option.bind_none]

section Items
variable {body : σ → Codec σ} {encoded : ι → List UInt8} {next : σ → ι → σ}

theorem unread_ne_nil (nonempty : ∀ i, encoded i ≠ []) {i : ι} {rest : List UInt8} {s : Buffer}
    (unread : s.unread = encoded i ++ rest) : s.unread ≠ [] := by
  rw [unread]
  exact fun none => nonempty i (List.append_eq_nil_iff.mp none).1

theorem rounds_items (each : ∀ acc i, Reads (body acc) (encoded i) (next acc i))
    (nonempty : ∀ i, encoded i ≠ []) {items : List ι} :
    ∀ (fuel : ℕ) (acc : σ) {s : Buffer}, s.unread = items.flatMap encoded →
      rounds body (items.length + fuel + 1) acc s =
        some (items.foldl next acc, s.skip (items.flatMap encoded).length) := by
  induction items with
  | nil =>
    intro fuel acc s unread
    rw [rounds_end _ acc ((isReadEnd_iff s).mpr unread)]
    exact congrArg (fun t => some (acc, t)) s.skip_zero.symm
  | cons i items ih =>
    intro fuel acc s unread
    rw [List.flatMap_cons] at unread
    have more : ¬ s.isReadEnd = true := mt (isReadEnd_iff s).mp (unread_ne_nil nonempty unread)
    have rest := ih fuel (next acc i) (unread_skip unread)
    rw [skip_skip, ← List.length_append] at rest
    rw [List.length_cons, Nat.add_right_comm items.length 1 fuel,
      rounds_more _ more (each acc i s _ unread)]
    exact rest

theorem length_le_flatMap (nonempty : ∀ i, encoded i ≠ []) (items : List ι) :
    items.length ≤ (items.flatMap encoded).length := by
  induction items with
  | nil => exact Nat.zero_le _
  | cons i items ih =>
    have pos := List.length_pos_iff.mpr (nonempty i)
    rw [List.flatMap_cons, List.length_append, List.length_cons]
    omega

/-- A payload of items, each written as the body reads it, is folded item by item. -/
theorem untilReadEnd_items (each : ∀ acc i, Reads (body acc) (encoded i) (next acc i))
    (nonempty : ∀ i, encoded i ≠ []) (items : List ι) (acc : σ) {s : Buffer}
    (unread : s.unread = items.flatMap encoded) :
    ∃ s', untilReadEnd body acc s = some (items.foldl next acc, s') ∧ s'.isReadEnd = true := by
  refine ⟨s.skip (items.flatMap encoded).length, ?_, ?_⟩
  · obtain ⟨fuel, enough⟩ := Nat.le.dest (length_le_flatMap nonempty items)
    have run := rounds_items each nonempty fuel acc unread
    rw [enough, ← unread] at run
    rw [untilReadEnd, run, unread]
  · rw [isReadEnd_iff]
    apply unread_skip
    rw [unread, List.append_nil]

end Items

structure Format (α : Type) where
  write : α → Codec Unit
  read : Codec α
  bytes : α → List UInt8
  write_eq : ∀ v, write v = Buffer.write (bytes v)
  reads : ∀ v, Reads read (bytes v) v
  nonempty : ∀ v, bytes v ≠ []

theorem Format.forM_write {α : Type} (f : Format α) (l : List α) :
    l.forM f.write = Buffer.write (l.flatMap f.bytes) := by
  induction l with
  | nil => exact write_nil.symm
  | cons v l ih =>
    change (f.write v >>= fun _ => l.forM f.write) = _
    rw [f.write_eq, ih, write_write, List.flatMap_cons]

end CRpc.Util
