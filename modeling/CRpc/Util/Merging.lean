import CRpc.Util.Decoding
import CRpc.Util.Sequences
import CRpc.Util.Types

/-! `operator>>` into an object that holds a value already. -/
namespace CRpc.Util
open Placements Endian Buffer

variable {α : Type}

/-- The body of every container's `operator>>`, which does not clear it first. -/
def readItemsInto {p : Placing α} (read : Codec α) (v : Items p) : Codec (Items p) := do
  let size ← Serializer.read .uint64
  emplaceItems read (UInt64.toNat size) v

namespace Ty

/-- `operator>>` into an object whose value is `v`. -/
def into : (T : Ty) → T.sem.Carrier → Codec T.sem.Carrier
  | scalar s, _ => Serializer.read s
  | string, _ => Serializer.readString
  | seq _ t, v => readItemsInto t.sem.fill v
  | pair a b, v => do
    let first ← a.into v.1
    let second ← b.into v.2
    return (first, second)
  | map _ key value, v => readItemsInto (Cpp.pair key.sem value.sem).read v
  | nil, _ => return ()
  | cons t ts, v => do
    let first ← t.into v.1
    let second ← ts.into v.2
    return (first, second)

/-- The value `v` with `w` read into it: a container keeps its elements. -/
def merge : (T : Ty) → T.sem.Carrier → T.sem.Carrier → Option T.sem.Carrier
  | scalar _, _, w => some w
  | string, _, w => some w
  | seq _ _, v, w => Items.emplaceAll v (Items.items w)
  | pair a b, v, w => do
    let first ← a.merge v.1 w.1
    let second ← b.merge v.2 w.2
    return (first, second)
  | map _ _ _, v, w => Items.emplaceAll v (Items.items w)
  | nil, _, _ => return ()
  | cons t ts, v, w => do
    let first ← t.merge v.1 w.1
    let second ← ts.merge v.2 w.2
    return (first, second)

theorem into_init (T : Ty) : T.into T.sem.init = T.sem.read := by
  induction T with
  | scalar s => rfl
  | string => rfl
  | seq k t => rfl
  | pair a b iha ihb =>
    change (a.into a.sem.init >>= fun x => b.into b.sem.init >>= fun y => Pure.pure (x, y)) = _
    rw [iha, ihb]
    rfl
  | map k key value => rfl
  | nil => rfl
  | cons t ts iht ihts =>
    change (t.into t.sem.init >>= fun x => ts.into ts.sem.init >>= fun y => Pure.pure (x, y)) = _
    rw [iht, ihts]
    rfl

theorem merge_init (T : Ty) (w : T.sem.Carrier) : T.merge T.sem.init w = some w := by
  induction T with
  | scalar s => rfl
  | string => rfl
  | seq k t => exact Items.emplaceAll_self (c := .empty) rfl
  | pair a b iha ihb =>
    change ((a.merge a.sem.init w.1).bind fun x => (b.merge b.sem.init w.2).bind fun y =>
      some (x, y)) = _
    rw [iha, ihb]
    rfl
  | map k key value => exact Items.emplaceAll_self (c := .empty) rfl
  | nil => rfl
  | cons t ts iht ihts =>
    change ((t.merge t.sem.init w.1).bind fun x => (ts.merge ts.sem.init w.2).bind fun y =>
      some (x, y)) = _
    rw [iht, ihts]
    rfl

end Ty

/-- The elements of one container are emplaced into another in their order. -/
theorem reads_elements {p : Placing α} {write : α → Codec Unit} {read : Codec α} {l : List α}
    (inverse : ∀ x ∈ l, Inverse write read x) :
    ∃ bs, l.forM write = Buffer.write bs ∧ ∀ c d : Items p, c.emplaceAll l = some d →
      Reads (emplaceItems read l.length c) bs d := by
  induction l with
  | nil =>
    refine ⟨[], write_nil.symm, ?_⟩
    rintro c d ⟨⟩
    exact Reads.pure c
  | cons x l ih =>
    obtain ⟨xs, writes, reads⟩ := inverse x List.mem_cons_self
    obtain ⟨bs, writes', reads'⟩ := ih fun y mem => inverse y (List.mem_cons_of_mem _ mem)
    refine ⟨xs ++ bs, ?_, ?_⟩
    · change (write x >>= fun _ => l.forM write) = _
      rw [writes, writes', write_write]
    · intro c d h
      obtain ⟨c', emplaced, rest⟩ := Items.emplaceAll_cons.mp h
      apply reads.bind
      simp only [emplaced]
      exact reads' c' d rest

/-- What is written for `w` is read into any container `v` by emplacing the elements of `w`. -/
theorem reads_readItemsInto {p : Placing α} {write : α → Codec Unit} {read : Codec α}
    {w : Items p} (inverse : ∀ x ∈ w.items, Inverse write read x) :
    ∃ bs, writeItems write w = Buffer.write bs ∧ ∀ v u : Items p,
      v.emplaceAll w.items = some u → Reads (readItemsInto read v) bs u := by
  have size := UInt64.toNat_ofNat_of_lt' w.size_lt
  obtain ⟨bs, writes, reads⟩ := reads_elements (p := p) inverse
  refine ⟨big 8 w.items.length ++ bs, ?_, ?_⟩
  · rw [writeItems, write_eq, writes, write_write, Scalar.bytes, size]
  · intro v u merged
    apply (reads_size w.size_lt).bind
    rw [size]
    exact reads v u merged

theorem reads_into_pair {a b : Ty} {w : a.sem.Carrier × b.sem.Carrier}
    (first : ∃ bs, a.sem.write w.1 = Buffer.write bs ∧ ∀ v u, a.merge v w.1 = some u →
      Reads (a.into v) bs u)
    (second : ∃ bs, b.sem.write w.2 = Buffer.write bs ∧ ∀ v u, b.merge v w.2 = some u →
      Reads (b.into v) bs u) :
    ∃ bs, (a.sem.pair b.sem).write w = Buffer.write bs ∧
      ∀ v u, (Ty.pair a b).merge v w = some u → Reads ((Ty.pair a b).into v) bs u := by
  obtain ⟨xs, writes, reads⟩ := first
  obtain ⟨ys, writes', reads'⟩ := second
  refine ⟨xs ++ ys, ?_, ?_⟩
  · change (a.sem.write w.1 >>= fun _ => b.sem.write w.2) = _
    rw [writes, writes', write_write]
  · intro v u merged
    obtain ⟨x, merge, rest⟩ := Option.bind_eq_some_iff.mp merged
    obtain ⟨y, merge', done⟩ := Option.bind_eq_some_iff.mp rest
    cases done
    apply (reads v.1 x merge).bind
    exact (reads' v.2 y merge').map fun second => (x, second)

/-- Reading the bytes of a plain value into an object merges the value into it. -/
theorem reads_into {T : Ty} {w : T.sem.Carrier} (plain : T.Plain w) :
    ∃ bs, T.sem.write w = Buffer.write bs ∧ ∀ v u, T.merge v w = some u →
      Reads (T.into v) bs u := by
  induction T with
  | scalar s =>
    refine ⟨s.bytes w, write_eq s w, ?_⟩
    rintro v u ⟨⟩
    exact reads_read s w
  | string => exact plain.elim
  | seq k t =>
    apply reads_readItemsInto
    intro x mem
    rcases plain with elements | none
    · exact Ty.inverse_fill elements x
    · rw [none] at mem
      cases mem
  | pair a b iha ihb => exact reads_into_pair (iha plain.1) (ihb plain.2)
  | map k key value =>
    apply reads_readItemsInto
    intro p mem
    exact inverse_pair (Ty.inverse_of_plain (plain p mem).1) (Ty.inverse_of_plain (plain p mem).2)
  | nil =>
    refine ⟨[], write_nil.symm, ?_⟩
    rintro v u ⟨⟩
    exact Reads.pure ()
  | cons t ts iht ihts => exact reads_into_pair (a := t) (b := ts) (iht plain.1) (ihts plain.2)

/-- What becomes of an object: every container in it keeps its elements, in their order. -/
def Ty.Keeps : (T : Ty) → T.sem.Carrier → T.sem.Carrier → Prop
  | scalar _, _, _ => True
  | string, _, _ => True
  | seq _ _, v, u => (Items.items v).Sublist (Items.items u)
  | pair a b, v, u => a.Keeps v.1 u.1 ∧ b.Keeps v.2 u.2
  | map _ _ _, v, u => (Items.items v).Sublist (Items.items u)
  | nil, _, _ => True
  | cons t ts, v, u => t.Keeps v.1 u.1 ∧ ts.Keeps v.2 u.2

namespace Ty

theorem Keeps.refl (T : Ty) (v : T.sem.Carrier) : T.Keeps v v := by
  induction T with
  | scalar | string | nil => trivial
  | seq | map => exact List.Sublist.refl _
  | pair a b iha ihb => exact ⟨iha v.1, ihb v.2⟩
  | cons t ts iht ihts => exact ⟨iht v.1, ihts v.2⟩

theorem Keeps.trans {T : Ty} {v u w : T.sem.Carrier} (first : T.Keeps v u) (second : T.Keeps u w) :
    T.Keeps v w := by
  induction T with
  | scalar | string | nil => trivial
  | seq | map => exact List.Sublist.trans first second
  | pair a b iha ihb => exact ⟨iha first.1 second.1, ihb first.2 second.2⟩
  | cons t ts iht ihts => exact ⟨iht first.1 second.1, ihts first.2 second.2⟩

end Ty

theorem emplaceItems_keeps {p : Placing α} {read : Codec α} {n : ℕ} :
    ∀ {c d : Items p} {s s' : Buffer}, emplaceItems read n c s = some (d, s') →
      c.items.Sublist d.items := by
  induction n with
  | zero =>
    rintro c d s s' ⟨⟩
    exact .refl _
  | succ n ih =>
    intro c d s s' h
    obtain ⟨x, t, -, rest⟩ := codec_bind h
    cases emplaced : c.emplace x with
    | none =>
      rw [emplaced] at rest
      cases rest
    | some c' =>
      rw [emplaced] at rest
      exact (Items.emplace_sublist emplaced).trans (ih rest)

theorem readItemsInto_keeps {p : Placing α} {read : Codec α} {v u : Items p} {s s' : Buffer}
    (h : readItemsInto read v s = some (u, s')) : v.items.Sublist u.items := by
  obtain ⟨size, t, -, rest⟩ := codec_bind h
  exact emplaceItems_keeps rest

theorem into_keeps {T : Ty} {v u : T.sem.Carrier} {s s' : Buffer}
    (h : T.into v s = some (u, s')) : T.Keeps v u := by
  induction T generalizing s s' with
  | scalar | string | nil => trivial
  | seq | map => exact readItemsInto_keeps h
  | pair a b iha ihb =>
    obtain ⟨x, t, first, rest⟩ := codec_bind h
    obtain ⟨y, t', second, done⟩ := codec_bind rest
    cases done
    exact ⟨iha first, ihb second⟩
  | cons t ts iht ihts =>
    obtain ⟨x, t, first, rest⟩ := codec_bind h
    obtain ⟨y, t', second, done⟩ := codec_bind rest
    cases done
    exact ⟨iht first, ihts second⟩

/-- One round or more of a loop that reads into the same object. -/
theorem rounds_keeps {T : Ty} (n : ℕ) : ∀ {v u : T.sem.Carrier} {s s' : Buffer},
    rounds T.into n v s = some (u, s') → T.Keeps v u := by
  induction n with
  | zero =>
    rintro v u s s' ⟨⟩
  | succ n ih =>
    intro v u s s' h
    by_cases last : s.isReadEnd = true
    · rw [rounds_end n v last] at h
      cases h
      exact .refl T v
    · have step : rounds T.into (n + 1) v s =
          (T.into v s).bind fun r => rounds T.into n r.1 r.2 := if_neg last
      obtain ⟨r, first, rest⟩ := Option.bind_eq_some_iff.mp (step.symm.trans h)
      exact (into_keeps first).trans (ih rest)

/-- A type with a scalar, a string or a container in it takes a byte at least. -/
theorem moves_nontrivial {T : Ty} (nontrivial : ¬ T.Trivial) (v : T.sem.Carrier) :
    Moves T.sem.read 1 v := by
  have parts {a b : Ty} (some : ¬ (a.Trivial ∧ b.Trivial))
      (first : ¬ a.Trivial → ∀ x, Moves a.sem.read 1 x)
      (second : ¬ b.Trivial → ∀ y, Moves b.sem.read 1 y) (x : a.sem.Carrier) (y : b.sem.Carrier) :
      Moves (a.sem.pair b.sem).read 1 (x, y) := by
    rcases not_and_or.mp some with left | right
    · exact moves_pair (n := 0) (first left x) (b.moves y)
    · exact moves_pair (m := 0) (a.moves x) (second right y)
  induction T with
  | scalar s =>
    apply (moves_scalar s v).mono
    cases s <;> decide
  | string => exact (moves_string v).mono (by decide)
  | seq k t => exact (moves_items (Ty.moves_fill t) v).mono (by decide)
  | pair a b iha ihb => exact parts nontrivial iha ihb v.1 v.2
  | map k key value => exact (moves_items (Ty.moves (.pair key value)) v).mono (by decide)
  | nil => exact absurd trivial nontrivial
  | cons t ts iht ihts => exact parts nontrivial iht ihts v.1 v.2

theorem rounds_merged {T : Ty} (nontrivial : ¬ T.Trivial) {ws : List T.sem.Carrier}
    (plain : ∀ w ∈ ws, T.Plain w) :
    ∃ bs, ws.forM T.sem.write = Buffer.write bs ∧ ws.length ≤ bs.length ∧
      ∀ (n : ℕ) (v u : T.sem.Carrier) (s : Buffer), ws.length < n → s.unread = bs →
        ws.foldlM T.merge v = some u → rounds T.into n v s = some (u, s.skip bs.length) := by
  induction ws with
  | nil =>
    refine ⟨[], write_nil.symm, le_rfl, ?_⟩
    rintro n v u s lt none ⟨⟩
    obtain ⟨n, rfl⟩ := Nat.exists_eq_succ_of_ne_zero (Nat.ne_zero_of_lt lt)
    rw [rounds_end n v ((isReadEnd_iff s).mpr none)]
    exact congrArg (fun t => some (v, t)) s.skip_zero.symm
  | cons w ws ih =>
    have here := plain w List.mem_cons_self
    obtain ⟨bs, writes, le, run⟩ := ih fun x mem => plain x (List.mem_cons_of_mem _ mem)
    obtain ⟨xs, writes', reads⟩ := reads_into here
    have some : xs ≠ [] := by
      apply nonempty_of_moves _ (moves_nontrivial nontrivial w)
      rw [← T.into_init]
      exact reads T.sem.init w (T.merge_init w)
    have pos := List.length_pos_iff.mpr some
    refine ⟨xs ++ bs, ?_, ?_, ?_⟩
    · change (T.sem.write w >>= fun _ => ws.forM T.sem.write) = _
      rw [writes', writes, write_write]
    · rw [List.length_cons, List.length_append]
      omega
    · intro n v u s lt unread merged
      obtain ⟨n, rfl⟩ := Nat.exists_eq_succ_of_ne_zero (Nat.ne_zero_of_lt lt)
      rw [List.foldlM_cons] at merged
      obtain ⟨v', merge, rest⟩ := Option.bind_eq_some_iff.mp merged
      have more : ¬ s.isReadEnd = true := by
        rw [isReadEnd_iff, unread]
        exact fun none => some (List.append_eq_nil_iff.mp none).1
      rw [rounds_more n more (reads v v' merge s bs unread),
        run n v' u _ (Nat.lt_of_succ_lt_succ lt) (unread_skip unread) rest, skip_skip,
        List.length_append]

theorem forM_trivial {T : Ty} (trivial : T.Trivial) (ws : List T.sem.Carrier) :
    ws.forM T.sem.write = Pure.pure () := by
  have single := T.single trivial
  induction ws with
  | nil => rfl
  | cons w ws ih =>
    change (T.sem.write w >>= fun _ => ws.forM T.sem.write) = _
    rw [(single w).2, ih]
    rfl

/-- A response read to its end into one object: the object never loses an element of a container,
whatever the bytes are, and where they are plain values it is these values merged in their order. -/
theorem read_to_end_merges (T : Ty) (v : T.sem.Carrier) :
    (∀ u s s', untilReadEnd T.into v s = some (u, s') → T.Keeps v u) ∧
    ∀ (ws : List T.sem.Carrier) u, (∀ w ∈ ws, T.Plain w) → ws.foldlM T.merge v = some u →
      ∃ s s', ws.forM T.sem.write .empty = some ((), s) ∧
        (do Serializer.reset; untilReadEnd T.into v) s = some (u, s') ∧ s'.isReadEnd = true := by
  constructor
  · intro u s s' h
    exact rounds_keeps _ h
  · intro ws u plain merged
    by_cases none : T.Trivial
    · have single := T.single none
      obtain rfl : u = v := (single u).1.trans (single v).1.symm
      exact ⟨.empty, .empty, by rw [forM_trivial none]; rfl, rfl, rfl⟩
    · obtain ⟨bs, writes, le, run⟩ := rounds_merged none plain
      let s : Serializer := ⟨bs, 0, Nat.zero_le _⟩
      refine ⟨s, s.skip bs.length, by rw [writes]; rfl, ?_, ?_⟩
      · change (Serializer.reset s).bind (fun r => untilReadEnd T.into v r.2) = _
        rw [reset_eq]
        exact run _ v u s (Nat.lt_succ_of_le le) rfl merged
      · rw [isReadEnd_iff]
        exact unread_skip (List.append_nil bs).symm

abbrev byteList : Ty := .seq .list (.scalar .int8)

def oneThenTwo : List byteList.sem.Carrier := [.single (1 : Int8), .single (2 : Int8)]

/-- Two lists of one byte each are read to their end as one of two. -/
theorem two_lists_merge : ∃ u s s', Items.items u = [(1 : Int8), 2] ∧
    oneThenTwo.forM byteList.sem.write .empty = some ((), s) ∧
    (do Serializer.reset; untilReadEnd byteList.into byteList.sem.init) s = some (u, s') ∧
      s'.isReadEnd = true := by
  obtain ⟨u, merged, items⟩ : ∃ u, oneThenTwo.foldlM byteList.merge byteList.sem.init = some u ∧
    Items.items u = [(1 : Int8), 2] := ⟨_, rfl, rfl⟩
  have plain : ∀ w ∈ oneThenTwo, byteList.Plain w := fun w _ => .inl (.inl trivial)
  obtain ⟨s, s', wrote, read, ended⟩ := (read_to_end_merges byteList _).2 _ u plain merged
  exact ⟨u, s, s', items, wrote, read, ended⟩

end CRpc.Util
