import CRpc.Util.Containers

/-! When a reader gives back what the writer was given, and when it cannot. -/
namespace CRpc.Util
open Placements Endian Buffer

variable {α β : Type}

/-- The reader takes exactly what the writer writes for `v`, and returns `v`. -/
def Inverse (write : α → Codec Unit) (read : Codec α) (v : α) : Prop :=
  ∃ bs, write v = Buffer.write bs ∧ Reads read bs v

theorem inverse_scalar (s : Scalar) (v : s.Value) :
    Inverse (Serializer.write s) (Serializer.read s) v :=
  ⟨s.bytes v, write_eq s v, reads_read s v⟩

theorem inverse_pair {a b : Cpp} {x : a.Carrier} {y : b.Carrier} (first : Inverse a.write a.read x)
    (second : Inverse b.write b.read y) : Inverse (a.pair b).write (a.pair b).read (x, y) := by
  obtain ⟨xs, writes, reads⟩ := first
  obtain ⟨ys, writes', reads'⟩ := second
  refine ⟨xs ++ ys, ?_, ?_⟩
  · change (a.write x >>= fun _ => b.write y) = _
    rw [writes, writes', write_write]
  · apply reads.bind
    exact reads'.map fun second => (x, second)

/-- Elements, one after the other; emplaced in this order they build the same container. -/
theorem inverse_elements {p : Placing α} {write : α → Codec Unit} {read : Codec α} {l : List α}
    (inverse : ∀ x ∈ l, Inverse write read x) :
    ∃ bs, l.forM write = Buffer.write bs ∧ ∀ c d : Items p, d.items = c.items ++ l →
      Reads (emplaceItems read l.length c) bs d := by
  induction l with
  | nil =>
    refine ⟨[], write_nil.symm, ?_⟩
    intro c d h
    obtain rfl : d = c := Items.ext (by rw [h, List.append_nil])
    exact Reads.pure d
  | cons x l ih =>
    obtain ⟨xs, writes, reads⟩ := inverse x List.mem_cons_self
    obtain ⟨bs, writes', reads'⟩ := ih fun y mem => inverse y (List.mem_cons_of_mem _ mem)
    refine ⟨xs ++ bs, ?_, ?_⟩
    · change (write x >>= fun _ => l.forM write) = _
      rw [writes, writes', write_write]
    · intro c d h
      obtain ⟨c', emplaced, h'⟩ := Items.emplace_next h
      apply reads.bind
      simp only [emplaced]
      exact reads' c' d h'

theorem inverse_items {p : Placing α} {write : α → Codec Unit} {read : Codec α} {v : Items p}
    (inverse : ∀ x ∈ v.items, Inverse write read x) :
    Inverse (writeItems write) (readItems read) v := by
  have size := UInt64.toNat_ofNat_of_lt' v.size_lt
  obtain ⟨bs, writes, reads⟩ := inverse_elements (p := p) inverse
  refine ⟨big 8 v.items.length ++ bs, ?_, ?_⟩
  · rw [writeItems, write_eq, writes, write_write, Scalar.bytes, size]
  · apply (reads_size v.size_lt).bind
    rw [size]
    exact reads .empty v rfl

theorem codec_bind {p : Codec α} {f : α → Codec β} {s s'' : Buffer} {w : β}
    (h : (p >>= f) s = some (w, s'')) :
    ∃ v s', p s = some (v, s') ∧ f v s' = some (w, s'') := by
  change (p s).bind (fun r => f r.1 r.2) = _ at h
  obtain ⟨⟨v, s'⟩, first, second⟩ := Option.bind_eq_some_iff.mp h
  exact ⟨v, s', first, second⟩

/-- A reader that returns `v` has moved `n` bytes on at least, and changed none. -/
def Moves (read : Codec α) (n : ℕ) (v : α) : Prop :=
  ∀ s s', read s = some (v, s') → s'.m_data = s.m_data ∧ s.m_position + n ≤ s'.m_position

theorem Moves.mono {read : Codec α} {m n : ℕ} {v : α} (moves : Moves read n v) (le : m ≤ n) :
    Moves read m v := by
  intro s s' h
  obtain ⟨data, ge⟩ := moves s s' h
  exact ⟨data, by omega⟩

theorem Moves.pure (v w : α) : Moves (Pure.pure v) 0 w := by
  intro s s' h
  cases h
  exact ⟨rfl, le_rfl⟩

theorem Moves.bind {p : Codec α} {f : α → Codec β} {m n : ℕ} {w : β} (first : ∀ v, Moves p m v)
    (second : ∀ v, Moves (f v) n w) : Moves (p >>= f) (m + n) w := by
  intro s s'' h
  obtain ⟨v, s', eq, eq'⟩ := codec_bind h
  obtain ⟨data, ge⟩ := first v s s' eq
  obtain ⟨data', ge'⟩ := second v s' s'' eq'
  exact ⟨data'.trans data, by omega⟩

theorem Moves.map {p : Codec α} {n : ℕ} (moves : ∀ v, Moves p n v) (f : α → β) (w : β) :
    Moves (p >>= fun v => Pure.pure (f v)) n w :=
  Moves.bind (n := 0) moves fun v => Moves.pure (f v) w

theorem moves_read (len : ℕ) (v : { bs : List UInt8 // bs.length = len }) :
    Moves (Buffer.read len) len v := by
  intro s s' h
  unfold Buffer.read at h
  split at h
  · cases h
    exact ⟨rfl, le_rfl⟩
  · cases h

theorem moves_scalar (t : Scalar) (v : t.Value) : Moves (Serializer.read t) t.width v := by
  cases t with
  | bool => exact Moves.map (Moves.map (Moves.map (moves_read 1) _) _) _ v
  | float => exact Moves.map (moves_read 4) _ v
  | double => exact Moves.map (moves_read 8) _ v
  | int8 => exact Moves.map (Moves.map (moves_read 1) _) _ v
  | uint8 => exact Moves.map (moves_read 1) _ v
  | int16 => exact Moves.map (Moves.map (moves_read 2) _) _ v
  | uint16 => exact Moves.map (moves_read 2) _ v
  | int32 => exact Moves.map (Moves.map (moves_read 4) _) _ v
  | uint32 => exact Moves.map (moves_read 4) _ v
  | int64 => exact Moves.map (Moves.map (moves_read 8) _) _ v
  | uint64 => exact Moves.map (moves_read 8) _ v

theorem moves_string (v : Text) : Moves Serializer.readString 8 v := by
  apply Moves.bind (m := 8) (n := 0) (moves_scalar .uint64)
  intro size
  unfold Serializer.readText
  split
  · exact (Moves.map (moves_read _) _ v).mono (Nat.zero_le _)
  · intro s s' h
    cases h

/-- Every element of the container that was read has been read somewhere on the way. -/
theorem emplaceItems_source {p : Placing α} {read : Codec α} (moves : ∀ x, Moves read 0 x)
    {n : ℕ} : ∀ {c d : Items p} {s s' : Buffer}, emplaceItems read n c s = some (d, s') →
    s'.m_data = s.m_data ∧ s.m_position ≤ s'.m_position ∧
      ∀ x ∈ d.items, x ∈ c.items ∨ ∃ t t', read t = some (x, t') ∧
        s.m_position ≤ t.m_position ∧ t'.m_position ≤ s'.m_position := by
  induction n with
  | zero =>
    intro c d s s' h
    cases h
    exact ⟨rfl, le_rfl, fun x mem => .inl mem⟩
  | succ n ih =>
    intro c d s s' h
    obtain ⟨x, t, first, rest⟩ := codec_bind h
    obtain ⟨data, ge⟩ := moves x s t first
    cases emplaced : c.emplace x with
    | none =>
      rw [emplaced] at rest
      cases rest
    | some c' =>
      rw [emplaced] at rest
      obtain ⟨data', ge', source⟩ := ih rest
      refine ⟨data'.trans data, by omega, ?_⟩
      intro y mem
      rcases source y mem with old | ⟨t₁, t₂, eq, after, until'⟩
      · rcases Items.mem_emplace emplaced old with rfl | old
        · exact .inr ⟨s, t, first, le_rfl, by omega⟩
        · exact .inl old
      · exact .inr ⟨t₁, t₂, eq, by omega, until'⟩

theorem readItems_source {p : Placing α} {read : Codec α} (moves : ∀ x, Moves read 0 x)
    {d : Items p} {s s' : Buffer} (h : readItems read s = some (d, s')) :
    s'.m_data = s.m_data ∧ s.m_position + 8 ≤ s'.m_position ∧
      ∀ x ∈ d.items, ∃ t t', read t = some (x, t') ∧
        s.m_position + 8 ≤ t.m_position ∧ t'.m_position ≤ s'.m_position := by
  obtain ⟨size, t, first, rest⟩ := codec_bind h
  obtain ⟨data, ge⟩ := moves_scalar .uint64 size s t first
  obtain ⟨data', ge', source⟩ := emplaceItems_source moves rest
  change s.m_position + 8 ≤ t.m_position at ge
  refine ⟨data'.trans data, by omega, ?_⟩
  intro x mem
  rcases source x mem with old | ⟨t₁, t₂, eq, after, until'⟩
  · cases old
  · exact ⟨t₁, t₂, eq, by omega, until'⟩

theorem moves_items {p : Placing α} {read : Codec α} (moves : ∀ x, Moves read 0 x)
    (d : Items p) : Moves (readItems read) 8 d := by
  intro s s' h
  obtain ⟨data, ge, -⟩ := readItems_source moves h
  exact ⟨data, ge⟩

/-- A container of one element takes what the element takes besides its size. -/
theorem moves_single {p : Placing α} {read : Codec α} (moves : ∀ x, Moves read 0 x) {n : ℕ}
    {x : α} (element : Moves read n x) : Moves (readItems (p := p) read) (8 + n) (.single x) := by
  intro s s' h
  obtain ⟨data, -, source⟩ := readItems_source moves h
  obtain ⟨t, t', eq, after, until'⟩ := source x (List.mem_singleton_self x)
  have := (element t t' eq).2
  exact ⟨data, by omega⟩

theorem read_pair {a b : Cpp} {x : a.Carrier} {y : b.Carrier} {s s'' : Buffer}
    (h : (a.pair b).read s = some ((x, y), s'')) :
    ∃ s', a.read s = some (x, s') ∧ b.read s' = some (y, s'') := by
  obtain ⟨x', s₁, first, h⟩ := codec_bind h
  obtain ⟨y', s₂, second, h⟩ := codec_bind h
  cases h
  exact ⟨s₁, first, second⟩

theorem moves_pair {a b : Cpp} {m n : ℕ} {x : a.Carrier} {y : b.Carrier}
    (first : Moves a.read m x) (second : Moves b.read n y) :
    Moves (a.pair b).read (m + n) (x, y) := by
  intro s s'' h
  obtain ⟨s₁, eq, eq'⟩ := read_pair h
  obtain ⟨data, ge⟩ := first s s₁ eq
  obtain ⟨data', ge'⟩ := second s₁ s'' eq'
  exact ⟨data'.trans data, by omega⟩

/-- Writing `v` writes `written` bytes; reading `v` takes `taken` at least. -/
def Costs (t : Cpp) (v : t.Carrier) (written taken : ℕ) : Prop :=
  ∃ bs, t.write v = Buffer.write bs ∧ bs.length = written ∧ Moves t.read taken v

theorem Costs.pair {a b : Cpp} {x : a.Carrier} {y : b.Carrier} {w w' n n' : ℕ}
    (first : Costs a x w n) (second : Costs b y w' n') :
    Costs (a.pair b) (x, y) (w + w') (n + n') := by
  obtain ⟨xs, writes, rfl, moves⟩ := first
  obtain ⟨ys, writes', rfl, moves'⟩ := second
  refine ⟨xs ++ ys, ?_, List.length_append, moves_pair moves moves'⟩
  change (a.write x >>= fun _ => b.write y) = _
  rw [writes, writes', write_write]

theorem writeItems_single {p : Placing α} {write : α → Codec Unit} {x : α} {bs : List UInt8}
    (writes : write x = Buffer.write bs) :
    writeItems (p := p) write (.single x) = Buffer.write (big 8 1 ++ bs) := by
  change (Serializer.write .uint64 _ >>= fun _ => write x >>= fun _ => Pure.pure ()) = _
  rw [write_eq, writes, ← write_nil, write_write, List.append_nil, write_write]
  rfl

def Lost (t : Cpp) (v : t.Carrier) : Prop := ∀ s s', t.read s ≠ some (v, s')

/-- Some value cannot be read, or is written in fewer bytes than are read. -/
def Fails (t : Cpp) : Prop := (∃ v, Lost t v) ∨ ∃ v w n, Costs t v w n ∧ w < n

def Fair (t : Cpp) : Prop := ∃ v w n, Costs t v w n ∧ w ≤ n

theorem fair_pair {a b : Cpp} (first : Fair a) (second : Fair b) : Fair (a.pair b) := by
  obtain ⟨x, w, n, costs, le⟩ := first
  obtain ⟨y, w', n', costs', le'⟩ := second
  exact ⟨(x, y), w + w', n + n', costs.pair costs', by omega⟩

theorem fails_pair {a b : Cpp} (fair : Fair a) (fair' : Fair b) (fails : Fails a ∨ Fails b) :
    Fails (a.pair b) := by
  obtain ⟨x₀, w₀, n₀, costs₀, le₀⟩ := fair
  obtain ⟨y₀, w₁, n₁, costs₁, le₁⟩ := fair'
  rcases fails with (⟨x, lost⟩ | ⟨x, w, n, costs, lt⟩) | (⟨y, lost⟩ | ⟨y, w, n, costs, lt⟩)
  · refine .inl ⟨(x, y₀), ?_⟩
    intro s s' h
    obtain ⟨s₁, first, -⟩ := read_pair h
    exact lost s s₁ first
  · exact .inr ⟨(x, y₀), w + w₁, n + n₁, costs.pair costs₁, by omega⟩
  · refine .inl ⟨(x₀, y), ?_⟩
    intro s s' h
    obtain ⟨s₁, -, second⟩ := read_pair h
    exact lost s₁ s' second
  · exact .inr ⟨(x₀, y), w₀ + w, n₀ + n, costs₀.pair costs, by omega⟩

theorem fails_map {k : MapKind} {key value : Cpp} (moves : ∀ x, Moves (key.pair value).read 0 x)
    (fails : Fails (key.pair value)) : Fails (.map k key value) := by
  rcases fails with ⟨x, lost⟩ | ⟨x, w, n, ⟨bs, writes, rfl, taken⟩, lt⟩
  · refine .inl ⟨.single x, ?_⟩
    intro s s' h
    obtain ⟨-, -, source⟩ := readItems_source moves h
    obtain ⟨t, t', eq, -⟩ := source x (List.mem_singleton_self x)
    exact lost t t' eq
  · refine .inr ⟨.single x, 8 + bs.length, 8 + n, ⟨_, writeItems_single writes, ?_,
      moves_single moves taken⟩, by omega⟩
    rw [List.length_append, length_big]

theorem lost_seq {k : SeqKind} {t : Cpp} {x : t.Carrier} (blind : t.fill = Pure.pure t.init)
    (ne : x ≠ t.init) : Lost (.seq k t) (.single x) := by
  intro s s' h
  have still : ∀ y, Moves t.fill 0 y := by
    rw [blind]
    exact Moves.pure t.init
  obtain ⟨-, -, source⟩ := readItems_source still h
  obtain ⟨u, u', eq, -⟩ := source x (List.mem_singleton_self x)
  rw [blind] at eq
  cases eq
  exact ne rfl

theorem costs_empty {p : Placing α} {write : α → Codec Unit} :
    writeItems (p := p) write .empty = Buffer.write (big 8 0) := by
  change (Serializer.write .uint64 _ >>= fun _ => Pure.pure ()) = _
  rw [write_eq, ← write_nil, write_write, List.append_nil]
  rfl

/-- What the round trip promises: written into an empty serializer and read from its first
byte, the value is back and every byte is read. -/
def RoundTrips (t : Cpp) (v : t.Carrier) : Prop :=
  ∃ s s', t.write v .empty = some ((), s) ∧
    (do Serializer.reset; t.read) s = some (v, s') ∧ s'.m_position = s.m_data.length

theorem roundTrips_of_inverse {t : Cpp} {v : t.Carrier} (inverse : Inverse t.write t.read v) :
    RoundTrips t v := by
  obtain ⟨bs, writes, reads⟩ := inverse
  let s : Serializer := ⟨bs, 0, Nat.zero_le _⟩
  have run := reads s [] (List.append_nil bs).symm
  refine ⟨s, s.skip bs.length, by rw [writes]; rfl, ?_, ?_⟩
  · change (Serializer.reset s).bind (fun r => t.read r.2) = _
    rw [reset_eq]
    exact run
  · simp [Buffer.skip, s]

theorem not_roundTrips_of_lost {t : Cpp} {v : t.Carrier} (lost : Lost t v) : ¬ RoundTrips t v := by
  rintro ⟨s, s', -, read, -⟩
  obtain ⟨-, t', -, read⟩ := codec_bind read
  exact lost t' s' read

theorem not_roundTrips_of_short {t : Cpp} {v : t.Carrier} {w n : ℕ} (costs : Costs t v w n)
    (lt : w < n) : ¬ RoundTrips t v := by
  obtain ⟨bs, writes, rfl, moves⟩ := costs
  rintro ⟨s, s', write, read, last⟩
  obtain ⟨-, t', reset, read⟩ := codec_bind read
  obtain ⟨data, ge⟩ := moves t' s' read
  rw [writes] at write
  cases write
  change s'.m_position = bs.length at last
  omega

theorem not_forall_roundTrips {t : Cpp} (fails : Fails t) : ¬ ∀ v, RoundTrips t v := by
  intro all
  rcases fails with ⟨v, lost⟩ | ⟨v, w, n, costs, lt⟩
  · exact not_roundTrips_of_lost lost (all v)
  · exact not_roundTrips_of_short costs lt (all v)

def Single (t : Cpp) : Prop := ∀ x, x = t.init ∧ t.write x = Pure.pure ()

theorem single_pair {a b : Cpp} (first : Single a) (second : Single b) : Single (a.pair b) := by
  rintro ⟨x, y⟩
  obtain ⟨rfl, write⟩ := first x
  obtain ⟨rfl, write'⟩ := second y
  refine ⟨rfl, ?_⟩
  change (a.write _ >>= fun _ => b.write _) = _
  rw [write, write']
  rfl

theorem exists_ne_pair {a b : Cpp} (h : (∃ x, x ≠ a.init) ∨ ∃ y, y ≠ b.init) :
    ∃ p, p ≠ (a.pair b).init := by
  rcases h with ⟨x, ne⟩ | ⟨y, ne⟩
  · exact ⟨(x, b.init), fun eq => ne (congrArg Prod.fst eq)⟩
  · exact ⟨(a.init, y), fun eq => ne (congrArg Prod.snd eq)⟩

theorem Scalar.exists_ne_zero (s : Scalar) : ∃ x, x ≠ s.zero := by
  cases s with
  | bool => exact ⟨true, by decide⟩
  | _ => exact ⟨1, by decide⟩

end CRpc.Util
