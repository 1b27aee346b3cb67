import CRpc.Util.Laws
import CRpc.Util.Reading

/-! Values of different types, written into one `Serializer` one after another. -/
namespace CRpc.Util
open Buffer

/-- The types a value of a sequence may have: scalars, a `std::string` that is not `const`, and
the containers of scalars. -/
inductive Entry
  | scalar (s : Scalar)
  | string
  | seq (k : SeqKind) (s : Scalar)
  | map (k : MapKind) (key value : Scalar)

namespace Entry

/-- The overloads at each type; those of a string are not the ones its `const` would select. -/
def sem : Entry → Cpp
  | scalar s => .scalar s
  | string => { Cpp.string with write := Serializer.writeString }
  | seq k s => .seq k (.scalar s)
  | map k key value => .map k (.scalar key) (.scalar value)

theorem inverse (e : Entry) (v : e.sem.Carrier) : Inverse e.sem.write e.sem.read v := by
  cases e with
  | scalar s => exact inverse_scalar s v
  | string => exact ⟨v.encoded, writeString_eq v, reads_readString v⟩
  | seq k s => exact inverse_items fun x _ => inverse_scalar s x
  | map k key value =>
    apply inverse_items
    intro p _
    exact inverse_pair (inverse_scalar key p.1) (inverse_scalar value p.2)

theorem moves (e : Entry) (v : e.sem.Carrier) : Moves e.sem.read 1 v := by
  have still (s : Scalar) (x : s.Value) : Moves (Serializer.read s) 0 x :=
    (moves_scalar s x).mono (Nat.zero_le _)
  cases e with
  | scalar s =>
    apply (moves_scalar s v).mono
    cases s <;> decide
  | string => exact (moves_string v).mono (by decide)
  | seq k s => exact (moves_items (still s) v).mono (by decide)
  | map k key value =>
    have pairs : ∀ x, Moves ((Cpp.scalar key).pair (.scalar value)).read 0 x := by
      rintro ⟨x, y⟩
      exact moves_pair (m := 0) (n := 0) (still key x) (still value y)
    exact (moves_items pairs v).mono (by decide)

end Entry

abbrev TypedValue := (e : Entry) × e.sem.Carrier

/-- `s << v1 << v2 << ...`. -/
def writeAll : List TypedValue → Codec Unit
  | [] => return ()
  | i :: items => do
    i.1.sem.write i.2
    writeAll items

/-- `s >> v1 >> v2 >> ...`, into fresh objects of these types. -/
def readAll : List Entry → Codec (List TypedValue)
  | [] => return []
  | e :: es => do
    let v ← e.sem.read
    let items ← readAll es
    return ⟨e, v⟩ :: items

theorem nonempty_of_moves {α : Type} {read : Codec α} {bs : List UInt8} {v : α}
    (reads : Reads read bs v) (moves : Moves read 1 v) : bs ≠ [] := by
  rintro rfl
  have run := reads .empty [] rfl
  have ge := (moves _ _ run).2
  exact absurd ge (by decide)

/-- The bytes of a sequence are those of its values, and only those of none are none. -/
theorem writeAll_reads (items : List TypedValue) :
    ∃ bs, writeAll items = Buffer.write bs ∧ Reads (readAll (items.map Sigma.fst)) bs items ∧
      (bs = [] ↔ items = []) := by
  induction items with
  | nil => exact ⟨[], write_nil.symm, Reads.pure [], iff_of_true rfl rfl⟩
  | cons i items ih =>
    obtain ⟨rest, writes', reads', -⟩ := ih
    obtain ⟨bs, writes, reads⟩ := i.1.inverse i.2
    have some := nonempty_of_moves reads (i.1.moves i.2)
    refine ⟨bs ++ rest, ?_, ?_, ?_⟩
    · rw [writeAll, writes, writes', write_write]
    · apply reads.bind
      exact reads'.map fun items => i :: items
    · exact iff_of_false (fun none => some (List.append_eq_nil_iff.mp none).1)
        (List.cons_ne_nil i items)

theorem writeAll_append (front rest : List TypedValue) :
    writeAll (front ++ rest) = (do writeAll front; writeAll rest) := by
  induction front with
  | nil => rfl
  | cons i front ih =>
    rw [List.cons_append, writeAll, ih, writeAll, bind_assoc]

theorem write_empty_inj {xs ys : List UInt8} (same : Buffer.write xs = Buffer.write ys) :
    xs = ys := by
  have both := congrFun same .empty
  exact congrArg Buffer.m_data (congrArg Prod.snd (Option.some.inj both))

/-- Whatever is written one after another is read back from the start, value by value; nothing is
left to read exactly when the last one is read. -/
theorem sequence_round_trips (items : List TypedValue) :
    ∃ s, writeAll items .empty = some ((), s) ∧ ∀ front rest, items = front ++ rest →
      ∃ s', (do Serializer.reset; readAll (front.map Sigma.fst)) s = some (front, s') ∧
        (s'.isReadEnd = true ↔ rest = []) := by
  obtain ⟨bs, writes, -⟩ := writeAll_reads items
  let s : Serializer := ⟨bs, 0, Nat.zero_le _⟩
  refine ⟨s, by rw [writes]; rfl, ?_⟩
  rintro front rest rfl
  obtain ⟨xs, writesFront, reads, -⟩ := writeAll_reads front
  obtain ⟨ys, writesRest, -, none⟩ := writeAll_reads rest
  have parts : s.unread = xs ++ ys := by
    apply write_empty_inj
    rw [← write_write, ← writesFront, ← writesRest, ← writeAll_append, writes]
    rfl
  refine ⟨s.skip xs.length, ?_, ?_⟩
  · change (Serializer.reset s).bind (fun r => readAll (front.map Sigma.fst) r.2) = _
    rw [reset_eq]
    exact reads s ys parts
  · rw [isReadEnd_iff, unread_skip parts, none]

end CRpc.Util
