import CRpc.Util.Laws

/-! The types the serializer is used at, and which of them survive a round trip. -/
namespace CRpc.Util
open Placements Endian Buffer

/-- Scalars, `std::string`, the standard containers, pairs and tuples. -/
inductive Ty
  | scalar (s : Scalar)
  | string
  | seq (k : SeqKind) (t : Ty)
  | pair (a b : Ty)
  | map (k : MapKind) (key value : Ty)
  /-- `std::tuple<>` -/
  | nil
  /-- `std::tuple<t, ...>`, with the tuple `ts` of the other components -/
  | cons (t ts : Ty)

namespace Ty

def sem : Ty → Cpp
  | scalar s => .scalar s
  | string => .string
  | seq k t => .seq k t.sem
  | pair a b => .pair a.sem b.sem
  | map k key value => .map k key.sem value.sem
  | nil => .nil
  | cons t ts => .cons t.sem ts.sem

def IsScalar : Ty → Prop
  | scalar _ => True
  | _ => False

def Trivial : Ty → Prop
  | nil => True
  | pair a b => a.Trivial ∧ b.Trivial
  | cons t ts => t.Trivial ∧ ts.Trivial
  | _ => False

/-- No string outside a sequence container, and in those only scalars. -/
def Good : Ty → Prop
  | scalar _ => True
  | string => False
  | seq _ t => t.IsScalar ∨ t.Trivial
  | pair a b => a.Good ∧ b.Good
  | map _ key value => key.Good ∧ value.Good
  | nil => True
  | cons t ts => t.Good ∧ ts.Good

/-- `std::tuple<ts...>`. -/
def tuple : List Ty → Ty
  | [] => nil
  | t :: ts => cons t (tuple ts)

theorem good_tuple (ts : List Ty) : (tuple ts).Good ↔ ∀ t ∈ ts, t.Good := by
  induction ts with
  | nil => exact ⟨fun _ t mem => (List.not_mem_nil mem).elim, fun _ => trivial⟩
  | cons t ts ih =>
    rw [List.forall_mem_cons, ← ih]
    rfl

theorem fill_eq {T : Ty} (h : ¬ T.IsScalar) : T.sem.fill = Pure.pure T.sem.init := by
  cases T with
  | scalar s => exact absurd trivial h
  | string => rfl
  | seq k t => rfl
  | pair a b => rfl
  | map k key value => rfl
  | nil => rfl
  | cons t ts => rfl

theorem moves_fill (T : Ty) (v : T.sem.Carrier) : Moves T.sem.fill 0 v := by
  by_cases h : T.IsScalar
  · cases T with
    | scalar s => exact (moves_scalar s v).mono (Nat.zero_le _)
    | _ => exact h.elim
  · rw [fill_eq h]
    exact Moves.pure _ v

theorem moves (T : Ty) (v : T.sem.Carrier) : Moves T.sem.read 0 v := by
  induction T with
  | scalar s => exact (moves_scalar s v).mono (Nat.zero_le _)
  | string => exact (moves_string v).mono (Nat.zero_le _)
  | seq k t => exact (moves_items (moves_fill t) v).mono (Nat.zero_le _)
  | pair a b iha ihb => exact moves_pair (iha v.1) (ihb v.2)
  | map k key value ihk ihv =>
    exact (moves_items (fun x => moves_pair (ihk x.1) (ihv x.2)) v).mono (Nat.zero_le _)
  | nil => exact Moves.pure _ v
  | cons t ts iht ihts => exact moves_pair (iht v.1) (ihts v.2)

/-- The empty string, empty sequences and zeros are not longer written than read. -/
theorem fair (T : Ty) : Fair T.sem := by
  induction T with
  | scalar s =>
    exact ⟨s.zero, s.width, s.width, ⟨_, write_eq s _, s.length_bytes _, moves_scalar s _⟩, le_rfl⟩
  | string => exact ⟨⟨[], by decide⟩, 0, 8, ⟨[], write_nil.symm, rfl, moves_string _⟩, by decide⟩
  | seq k t =>
    exact ⟨.empty, 8, 8, ⟨_, costs_empty, length_big 8 0, moves_items (moves_fill t) _⟩, le_rfl⟩
  | pair a b iha ihb => exact fair_pair iha ihb
  | map k key value ihk ihv =>
    refine ⟨.empty, 8, 8, ⟨_, costs_empty, length_big 8 0, ?_⟩, le_rfl⟩
    exact moves_items (moves (.pair key value)) _
  | nil => exact ⟨(), 0, 0, ⟨[], write_nil.symm, rfl, Moves.pure _ _⟩, le_rfl⟩
  | cons t ts iht ihts => exact fair_pair iht ihts

theorem single (T : Ty) (h : T.Trivial) : Single T.sem := by
  induction T with
  | scalar | string | seq | map => exact h.elim
  | nil => exact fun _ => ⟨rfl, rfl⟩
  | pair a b iha ihb => exact single_pair (iha h.1) (ihb h.2)
  | cons t ts iht ihts => exact single_pair (iht h.1) (ihts h.2)

theorem exists_ne_init {T : Ty} (h : ¬ T.Trivial) : ∃ x, x ≠ T.sem.init := by
  induction T with
  | scalar s => exact s.exists_ne_zero
  | string => exact ⟨⟨[0], by decide⟩, fun eq => by cases eq⟩
  | seq k t =>
    refine ⟨.single t.sem.init, ?_⟩
    intro eq
    cases congrArg Items.items eq
  | map k key value =>
    refine ⟨.single (key.sem.init, value.sem.init), ?_⟩
    intro eq
    cases congrArg Items.items eq
  | nil => exact absurd trivial h
  | pair a b iha ihb => exact exists_ne_pair ((not_and_or.mp h).imp iha ihb)
  | cons t ts iht ihts => exact exists_ne_pair ((not_and_or.mp h).imp iht ihts)

theorem inverse_fill {T : Ty} (h : T.IsScalar ∨ T.Trivial) (v : T.sem.Carrier) :
    Inverse T.sem.write T.sem.fill v := by
  by_cases scalar : T.IsScalar
  · cases T with
    | scalar s => exact inverse_scalar s v
    | _ => exact scalar.elim
  · obtain ⟨rfl, write⟩ := T.single (h.resolve_left scalar) v
    refine ⟨[], by rw [write, write_nil], ?_⟩
    rw [fill_eq scalar]
    exact Reads.pure _

/-- A value without a string outside its sequences, and whose sequences are of scalars or
empty. -/
def Plain : (T : Ty) → T.sem.Carrier → Prop
  | scalar _, _ => True
  | string, _ => False
  | seq _ t, v => (t.IsScalar ∨ t.Trivial) ∨ Items.items v = []
  | pair a b, v => a.Plain v.1 ∧ b.Plain v.2
  | map _ key value, v => ∀ p ∈ Items.items v, key.Plain p.1 ∧ value.Plain p.2
  | nil, _ => True
  | cons t ts, v => t.Plain v.1 ∧ ts.Plain v.2

theorem plain_of_good {T : Ty} (h : T.Good) (v : T.sem.Carrier) : T.Plain v := by
  induction T with
  | scalar => trivial
  | string => exact h
  | seq k t => exact .inl h
  | pair a b iha ihb => exact ⟨iha h.1 v.1, ihb h.2 v.2⟩
  | map k key value ihk ihv => exact fun p _ => ⟨ihk h.1 p.1, ihv h.2 p.2⟩
  | nil => trivial
  | cons t ts iht ihts => exact ⟨iht h.1 v.1, ihts h.2 v.2⟩

theorem inverse_of_plain {T : Ty} {v : T.sem.Carrier} (h : T.Plain v) :
    Inverse T.sem.write T.sem.read v := by
  induction T with
  | scalar s => exact inverse_scalar s v
  | string => exact h.elim
  | seq k t =>
    apply inverse_items
    intro x mem
    rcases h with elements | none
    · exact inverse_fill elements x
    · rw [none] at mem
      cases mem
  | pair a b iha ihb => exact inverse_pair (iha h.1) (ihb h.2)
  | map k key value ihk ihv =>
    apply inverse_items
    intro p mem
    exact inverse_pair (ihk (h p mem).1) (ihv (h p mem).2)
  | nil => exact ⟨[], write_nil.symm, Reads.pure _⟩
  | cons t ts iht ihts => exact inverse_pair (iht h.1) (ihts h.2)

theorem fails_of_not_good {T : Ty} (h : ¬ T.Good) : Fails T.sem := by
  induction T with
  | scalar => exact absurd trivial h
  | string =>
    exact .inr ⟨⟨[], by decide⟩, 0, 8, ⟨[], write_nil.symm, rfl, moves_string _⟩, by decide⟩
  | seq k t =>
    obtain ⟨compound, nontrivial⟩ := not_or.mp h
    obtain ⟨x, ne⟩ := exists_ne_init nontrivial
    exact .inl ⟨.single x, lost_seq (fill_eq compound) ne⟩
  | pair a b iha ihb =>
    exact fails_pair a.fair b.fair ((not_and_or.mp h).imp iha ihb)
  | map k key value ihk ihv =>
    apply fails_map (moves (.pair key value))
    exact fails_pair key.fair value.fair ((not_and_or.mp h).imp ihk ihv)
  | nil => exact absurd trivial h
  | cons t ts iht ihts => exact fails_pair t.fair ts.fair ((not_and_or.mp h).imp iht ihts)

end Ty

/-- Plain values survive the round trip, and a type all of whose values survive it has plain
values only. -/
theorem nested_round_trips (T : Ty) :
    (∀ v, T.Plain v → RoundTrips T.sem v) ∧ ((∀ v, RoundTrips T.sem v) ↔ T.Good) := by
  refine ⟨fun v plain => roundTrips_of_inverse (Ty.inverse_of_plain plain), ?_, ?_⟩
  · intro all
    by_contra bad
    exact not_forall_roundTrips (T.fails_of_not_good bad) all
  · intro good v
    exact roundTrips_of_inverse (Ty.inverse_of_plain (Ty.plain_of_good good v))

/-- `std::list<std::string>{"a"}` does not come back. -/
theorem list_of_string_lost :
    ¬ RoundTrips (Ty.seq .list .string).sem (.single (p := SeqKind.list.placing .string)
      ⟨[97], by decide⟩) :=
  not_roundTrips_of_lost (lost_seq rfl fun eq => by cases eq)

end CRpc.Util
