import CRpc.Util.Decoding
import CRpc.Util.Types

/-! Which readers accept the bytes that are written, and no others. -/
namespace CRpc.Util
open Placements Endian Buffer

variable {α β : Type}

def Rewrites (write : α → Codec Unit) (read : Codec α) : Prop :=
  ∀ s s' v, read s = some (v, s') →
    ∃ bs, write v = Buffer.write bs ∧ s.unread = bs ++ s'.unread

theorem Takes.rewrites {write : α → Codec Unit} {read : Codec α} {bytes : α → List UInt8}
    (takes : Takes read bytes) (writes : ∀ v, write v = Buffer.write (bytes v)) :
    Rewrites write read :=
  fun s s' v h => ⟨bytes v, writes v, takes s s' v h⟩

theorem Takes.bind_pure {read : Codec α} {bytes : α → List UInt8} (takes : Takes read bytes)
    {f : α → β} {bytes' : β → List UInt8} (same : ∀ v, bytes' (f v) = bytes v) :
    Takes (read >>= fun v => Pure.pure (f v)) bytes' := by
  intro s s'' w h
  obtain ⟨v, s', first, ⟨⟩⟩ := codec_bind h
  rw [same]
  exact takes s _ v first

theorem takes_word {k : ℕ} {f : List UInt8 → β} {bytes : β → List UInt8}
    (same : ∀ bs, bs.length = k → bytes (f bs) = bs) :
    Takes (Buffer.read k >>= fun value => Pure.pure (f value.1)) bytes :=
  (takes_read k).bind_pure fun value => same value.1 value.2

theorem takes_readUint8 : Takes Buffer.readUint8 fun v => [v] := by
  apply takes_word (f := fun bs => bs.headD 0)
  intro bs length
  obtain ⟨b, rfl⟩ := List.length_eq_one_iff.mp length
  rfl

theorem takes_readUint32 : Takes Buffer.readUint32 fun v => big 4 v.toNat := by
  apply takes_word (f := fun bs => ntohl (.ofNat (ofLittle bs)))
  intro bs length
  have lt : ofLittle bs < 256 ^ bs.length := ofLittle_lt bs
  rw [length] at lt
  change big 4 (htonl _).toNat = bs
  rw [toNat_htonl, UInt32.toNat_ofNat_of_lt' lt, big_swap_ofLittle length]

theorem takes_readFloat : Takes Buffer.readFloat fun v => little 4 v.toNat := by
  apply takes_word (f := fun bs => UInt32.ofNat (ofLittle bs))
  intro bs length
  have lt : ofLittle bs < 256 ^ bs.length := ofLittle_lt bs
  rw [length] at lt
  rw [UInt32.toNat_ofNat_of_lt' lt, ← length, little_ofLittle]

theorem takes_readDouble : Takes Buffer.readDouble fun v => little 8 v.toNat := by
  apply takes_word (f := fun bs => UInt64.ofNat (ofLittle bs))
  intro bs length
  have lt : ofLittle bs < 256 ^ bs.length := ofLittle_lt bs
  rw [length] at lt
  rw [UInt64.toNat_ofNat_of_lt' lt, ← length, little_ofLittle]

theorem takes_scalar {t : Scalar} (other : t ≠ .bool) : Takes (Serializer.read t) t.bytes := by
  cases t with
  | bool => exact absurd rfl other
  | float => exact takes_readFloat
  | double => exact takes_readDouble
  | int8 => exact takes_readUint8.bind_pure fun v => congrArg ([·]) (UInt8.toUInt8_toInt8 v)
  | uint8 => exact takes_readUint8
  | int16 => exact takes_readUint16.bind_pure fun v => by simp [Scalar.bytes]
  | uint16 => exact takes_readUint16
  | int32 => exact takes_readUint32.bind_pure fun v => by simp [Scalar.bytes]
  | uint32 => exact takes_readUint32
  | int64 => exact takes_readUint64.bind_pure fun v => by simp [Scalar.bytes]
  | uint64 => exact takes_readUint64

theorem rewrites_pair {a b : Cpp} (first : Rewrites a.write a.read)
    (second : Rewrites b.write b.read) : Rewrites (a.pair b).write (a.pair b).read := by
  rintro s s'' ⟨x, y⟩ h
  obtain ⟨s', eq, eq'⟩ := read_pair h
  obtain ⟨xs, writes, unread⟩ := first s s' x eq
  obtain ⟨ys, writes', unread'⟩ := second s' s'' y eq'
  refine ⟨xs ++ ys, ?_, ?_⟩
  · change (a.write x >>= fun _ => b.write y) = _
    rw [writes, writes', write_write]
  · rw [unread, unread', List.append_assoc]

def Appends (p : Placing α) : Prop := ∀ a x, p.same a x = false ∧ p.before x a = false

theorem emplace_appends {p : Placing α} (appends : Appends p) {c d : Items p} {x : α}
    (h : c.emplace x = some d) : d.items = c.items ++ [x] := by
  unfold Items.emplace at h
  split at h
  · cases h
    have fresh : c.items.any (p.same · x) = false := by
      rw [List.any_eq_false]
      intro a _
      simp [(appends a x).1]
    change p.place x c.items = c.items ++ [x]
    rw [Placing.place, fresh]
    exact Placing.insert_last fun a _ => (appends a x).2
  · cases h

/-- The elements read are those the container has gained, in their order. -/
theorem emplaceItems_rewrites {p : Placing α} (appends : Appends p) {write : α → Codec Unit}
    {read : Codec α} (rewrites : Rewrites write read) {n : ℕ} :
    ∀ {c d : Items p} {s s' : Buffer}, emplaceItems read n c s = some (d, s') →
      ∃ l bs, d.items = c.items ++ l ∧ l.length = n ∧ l.forM write = Buffer.write bs ∧
        s.unread = bs ++ s'.unread := by
  induction n with
  | zero =>
    rintro c d s s' ⟨⟩
    exact ⟨[], [], (List.append_nil _).symm, rfl, write_nil.symm, rfl⟩
  | succ n ih =>
    intro c d s s'' h
    obtain ⟨x, s', first, rest⟩ := codec_bind h
    cases emplaced : c.emplace x with
    | none =>
      rw [emplaced] at rest
      cases rest
    | some c' =>
      rw [emplaced] at rest
      obtain ⟨xs, writes, unread⟩ := rewrites s s' x first
      obtain ⟨l, bs, items, length, writes', unread'⟩ := ih rest
      refine ⟨x :: l, xs ++ bs, ?_, congrArg Nat.succ length, ?_, ?_⟩
      · rw [items, emplace_appends appends emplaced, List.append_assoc]
        rfl
      · change (write x >>= fun _ => l.forM write) = _
        rw [writes, writes', write_write]
      · rw [unread, unread', List.append_assoc]

theorem rewrites_items {p : Placing α} (appends : Appends p) {write : α → Codec Unit}
    {read : Codec α} (rewrites : Rewrites write read) :
    Rewrites (writeItems (p := p) write) (readItems read) := by
  intro s s'' v h
  obtain ⟨size, s', first, rest⟩ := codec_bind h
  obtain ⟨l, bs, items, length, writes, unread⟩ := emplaceItems_rewrites appends rewrites rest
  have same : v.items = l := items
  refine ⟨big 8 size.toNat ++ bs, ?_, ?_⟩
  · have count : UInt64.ofNat v.items.length = size := by
      rw [same, length]
      exact UInt64.ofNat_toNat
    rw [writeItems, count, write_eq, same, writes, write_write]
    rfl
  · rw [takes_readUint64 s s' size first, unread, List.append_assoc]

/-- A sequence container that keeps whatever it is given, in its order. -/
def SeqKind.Keeps (k : SeqKind) : Prop := k = .list ∨ k = .vector

theorem SeqKind.Keeps.appends {k : SeqKind} (keeps : k.Keeps) (t : Cpp) :
    Appends (k.placing t) := by
  rcases keeps with rfl | rfl <;> exact fun a x => ⟨rfl, rfl⟩

namespace Ty

/-- A scalar other than `bool`. -/
def IsWord : Ty → Prop
  | scalar s => s ≠ .bool
  | _ => False

/-- One way of writing each value: no `bool`, and no container with an order of its own or that leaves
elements out. -/
def Canonical : Ty → Prop
  | scalar s => s ≠ .bool
  | string | map _ _ _ => False
  | seq k t => k.Keeps ∧ (t.IsWord ∨ t.Trivial)
  | pair a b => a.Canonical ∧ b.Canonical
  | nil => True
  | cons t ts => t.Canonical ∧ ts.Canonical

theorem IsWord.isScalar {T : Ty} (h : T.IsWord) : T.IsScalar := by
  cases T with
  | scalar s => trivial
  | _ => exact h.elim

theorem Canonical.good {T : Ty} (h : T.Canonical) : T.Good := by
  induction T with
  | scalar | nil => trivial
  | string | map => exact h.elim
  | seq k t => exact h.2.imp_left IsWord.isScalar
  | pair a b iha ihb => exact ⟨iha h.1, ihb h.2⟩
  | cons t ts iht ihts => exact ⟨iht h.1, ihts h.2⟩

theorem rewrites_fill {T : Ty} (h : T.IsWord ∨ T.Trivial) : Rewrites T.sem.write T.sem.fill := by
  rcases h with word | single
  · cases T with
    | scalar s => exact (takes_scalar word).rewrites (write_eq s)
    | _ => exact word.elim
  · have compound : ¬ T.IsScalar := by
      cases T with
      | scalar s => exact single.elim
      | _ => exact id
    rw [fill_eq compound]
    rintro s s' v ⟨⟩
    exact ⟨[], ((T.single single T.sem.init).2).trans write_nil.symm, rfl⟩

theorem rewrites {T : Ty} (h : T.Canonical) : Rewrites T.sem.write T.sem.read := by
  induction T with
  | scalar s => exact (takes_scalar h).rewrites (write_eq s)
  | string | map => exact h.elim
  | seq k t => exact rewrites_items (h.1.appends t.sem) (rewrites_fill h.2)
  | pair a b iha ihb => exact rewrites_pair (iha h.1) (ihb h.2)
  | nil =>
    rintro s s' v ⟨⟩
    exact ⟨[], write_nil.symm, rfl⟩
  | cons t ts iht ihts => exact rewrites_pair (iht h.1) (ihts h.2)

end Ty

theorem skip_of_unread {s s' : Serializer} {bs : List UInt8} (data : s'.m_data = s.m_data)
    (unread : s.unread = bs ++ s'.unread) : s' = s.skip bs.length := by
  have length := congrArg List.length unread
  rw [List.length_append, length_unread, length_unread, data] at length
  have le := s.position_le
  have le' := s'.position_le
  rw [data] at le'
  obtain ⟨m_data, m_position, _⟩ := s'
  obtain rfl : m_data = s.m_data := data
  simp only [skip, Buffer.mk.injEq, true_and]
  change _ = min _ _
  have position : m_position = s.m_position + bs.length := by
    simp only at length le'
    omega
  omega

/-- At a canonical type the bytes that are accepted as a value are those written for it, and its
reader stops behind them. -/
theorem canonical_accepts {T : Ty} (canonical : T.Canonical) (v : T.sem.Carrier)
    (s s' : Serializer) :
    T.sem.read s = some (v, s') ↔
      ∃ bs, T.sem.write v = Buffer.write bs ∧ s.unread = bs ++ s'.unread ∧
        s' = s.skip bs.length := by
  constructor
  · intro h
    obtain ⟨bs, writes, unread⟩ := T.rewrites canonical s s' v h
    exact ⟨bs, writes, unread, skip_of_unread (T.moves v s s' h).1 unread⟩
  · rintro ⟨bs, writes, unread, rfl⟩
    obtain ⟨bs', writes', reads⟩ := Ty.inverse_of_plain (Ty.plain_of_good canonical.good v)
    have same : bs = bs' := by
      have := congrFun (writes.symm.trans writes') Buffer.empty
      simpa [Buffer.write, Buffer.append, Buffer.empty] using this
    rw [same] at unread ⊢
    exact reads s _ unread

theorem word_list_accepts :
    ∃ bs, (Ty.pair (.scalar .uint16) (.seq .list (.scalar .int8))).sem.write
          ((258 : UInt16), .single (-1 : Int8)) = Buffer.write bs ∧
        [1, 2, 0, 0, 0, 0, 0, 0, 0, 1, 255, 9] = bs ++ [9] := by
  have read : (Ty.pair (.scalar .uint16) (.seq .list (.scalar .int8))).sem.read
        ⟨[1, 2, 0, 0, 0, 0, 0, 0, 0, 1, 255, 9], 0, by decide⟩ =
      some (((258 : UInt16), .single (-1 : Int8)),
        ⟨[1, 2, 0, 0, 0, 0, 0, 0, 0, 1, 255, 9], 11, by decide⟩) := rfl
  have canonical : (Ty.pair (.scalar .uint16) (.seq .list (.scalar .int8))).Canonical :=
    ⟨nofun, .inl rfl, .inl nofun⟩
  obtain ⟨bs, writes, unread, -⟩ := (canonical_accepts canonical _ _ _).mp read
  exact ⟨bs, writes, unread⟩

/-- A `bool` is not canonical: the byte 2 is accepted for `true`, which is written as 1. -/
example : ((Serializer.read .bool) ⟨[2], 0, by decide⟩).map Prod.fst = some true ∧
    Scalar.bytes .bool true = [1] := by decide

end CRpc.Util
