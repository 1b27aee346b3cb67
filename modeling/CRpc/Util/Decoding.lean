import CRpc.Lib.Loops
import CRpc.Util.Laws
import CRpc.Util.Reading

/-! `while(!s->isReadEnd())` over content of any bytes: when it ends, and what it has done where it
throws. -/
namespace CRpc.Util
open Buffer Endian Loops

/-- A loop whose body reads a value and uses it; the use may throw as well. -/
structure ReadLoop (σ α : Type) where
  read : Codec α
  each : σ → α → Except σ σ

namespace ReadLoop
variable {σ α : Type} (l : ReadLoop σ α)

def round (a : σ × Serializer) : Round (σ × Serializer) :=
  match l.read a.2 with
  | none => .thrown a
  | some (v, s) =>
    match l.each a.1 v with
    | .ok acc => .next (acc, s)
    | .error acc => .thrown (acc, s)

/-- `!s->isReadEnd()`. -/
def more (a : σ × Serializer) : Bool := !a.2.isReadEnd

/-- At most `n` rounds. -/
def run (n : ℕ) (acc : σ) (s : Serializer) : Outcome (σ × Serializer) :=
  loop more l.round n (acc, s)

def Finishes (acc : σ) (s : Serializer) : Prop := ∃ n, (l.run n acc s).Over

/-- A loop that reads something every time needs no more rounds than there are bytes. -/
def result (acc : σ) (s : Serializer) : Outcome (σ × Serializer) :=
  l.run (s.unread.length + 1) acc s

/-- `while(!s->isReadEnd()){}`. -/
def idle : ReadLoop Unit Unit where
  read := return ()
  each _ _ := .ok ()

def total (read : Codec α) (next : σ → α → σ) : ReadLoop σ α where
  read := read
  each acc v := .ok (next acc v)

end ReadLoop

/-- What is read and how far, in terms of what is left to read. -/
theorem unread_of_moves {α : Type} {read : Codec α} {n : ℕ} {v : α} {s s' : Serializer}
    (moves : Moves read n v) (h : read s = some (v, s')) :
    s'.unread.length + n ≤ s.unread.length := by
  obtain ⟨data, ge⟩ := moves s s' h
  have le := s'.position_le
  rw [length_unread, length_unread, data]
  rw [data] at le
  omega

namespace ReadLoop
variable {σ α : Type} {l : ReadLoop σ α}

theorem more_iff {a : σ × Serializer} : more a = true ↔ a.2.unread ≠ [] := by
  rw [more, Bool.not_eq_true', ← Bool.not_eq_true, isReadEnd_iff]

theorem run_end (n : ℕ) {acc : σ} {s : Serializer} (none : s.unread = []) :
    l.run (n + 1) acc s = .ended (acc, s) :=
  loop_end n fun h => more_iff.mp h none

theorem run_next (n : ℕ) {acc acc' : σ} {s s' : Serializer} (some : s.unread ≠ [])
    (round : l.round (acc, s) = .next (acc', s')) : l.run (n + 1) acc s = l.run n acc' s' :=
  loop_next n (more_iff.mpr some) round

theorem run_thrown (n : ℕ) {acc acc' : σ} {s s' : Serializer} (some : s.unread ≠ [])
    (round : l.round (acc, s) = .thrown (acc', s')) : l.run (n + 1) acc s = .thrown (acc', s') :=
  loop_thrown n (more_iff.mpr some) round

theorem round_next {acc acc' : σ} {s s' : Serializer} (h : l.round (acc, s) = .next (acc', s')) :
    ∃ v, l.read s = some (v, s') ∧ l.each acc v = .ok acc' := by
  rw [round] at h
  cases read : l.read s with
  | none =>
    rw [read] at h
    cases h
  | some r =>
    rw [read] at h
    cases each : l.each acc r.1 with
    | ok acc'' =>
      simp only [each] at h
      cases h
      exact ⟨r.1, rfl, each⟩
    | error acc'' =>
      simp only [each] at h
      cases h

theorem round_of_read {acc acc' : σ} {s s' : Serializer} {v : α} (read : l.read s = some (v, s'))
    (each : l.each acc v = .ok acc') : l.round (acc, s) = .next (acc', s') := by
  rw [round, read]
  simp only [each]

theorem round_of_error {acc acc' : σ} {s s' : Serializer} {v : α} (read : l.read s = some (v, s'))
    (each : l.each acc v = .error acc') : l.round (acc, s) = .thrown (acc', s') := by
  rw [round, read]
  simp only [each]

theorem round_of_unread {acc : σ} {s : Serializer} (read : l.read s = none) :
    l.round (acc, s) = .thrown (acc, s) := by
  rw [round, read]

/-- Reading a byte at least in every round, the loop is over soon. -/
theorem result_over (moves : ∀ v, Moves l.read 1 v) (acc : σ) (s : Serializer) :
    (l.result acc s).Over := by
  have lowers : ∀ a b : σ × Serializer, more a = true → l.round a = .next b →
      b.2.unread.length < a.2.unread.length := by
    rintro ⟨acc, s⟩ ⟨acc', s'⟩ - next
    obtain ⟨v, read, -⟩ := round_next next
    exact unread_of_moves (moves v) read
  exact loop_over (a := (acc, s)) lowers (Nat.lt_succ_self _)

theorem finishes_of_moves (moves : ∀ v, Moves l.read 1 v) (acc : σ) (s : Serializer) :
    l.Finishes acc s := ⟨_, result_over moves acc s⟩

/-- The loop with an empty body ends if there is nothing to read, and never otherwise. -/
theorem idle_finishes_iff (s : Serializer) : idle.Finishes () s ↔ s.unread = [] := by
  constructor
  · rintro ⟨n, done⟩
    by_contra some
    have stuck : idle.run n () s = .running ((), s) :=
      loop_stuck (more_iff (a := ((), s)).mpr some) rfl n
    rw [stuck] at done
    exact done
  · intro none
    refine ⟨1, ?_⟩
    rw [run_end 0 none]
    trivial

/-- `untilReadEnd` is the result of a loop that does not throw on its own. -/
theorem rounds_eq (read : Codec α) (next : σ → α → σ) (n : ℕ) : ∀ (acc : σ) (s : Serializer),
    rounds (fun acc => read >>= fun v => return next acc v) n acc s =
      ((total read next).run n acc s).toOption := by
  induction n with
  | zero => exact fun _ _ => rfl
  | succ n ih =>
    intro acc s
    by_cases none : s.unread = []
    · rw [rounds_end n acc ((isReadEnd_iff s).mpr none), run_end n none]
      rfl
    · have more : ¬ s.isReadEnd = true := mt (isReadEnd_iff s).mp none
      cases first : read s with
      | none =>
        have thrown : (total read next).round (acc, s) = .thrown (acc, s) :=
          round_of_unread (l := total read next) first
        have step : rounds (fun acc => read >>= fun v => return next acc v) (n + 1) acc s =
            ((read s).bind fun r => some (next acc r.1, r.2)).bind fun r =>
              rounds (fun acc => read >>= fun v => return next acc v) n r.1 r.2 := if_neg more
        rw [step, first, run_thrown n none thrown]
        rfl
      | some r =>
        have round : (total read next).round (acc, s) = .next (next acc r.1, r.2) :=
          round_of_read (l := total read next) first rfl
        have done : (read >>= fun v => return next acc v : Codec σ) s =
            some (next acc r.1, r.2) := by
          change (read s).bind _ = _
          rw [first]
          rfl
        rw [rounds_more n more done, ih, run_next n none round]

theorem untilReadEnd_eq (read : Codec α) (next : σ → α → σ) (acc : σ) (s : Serializer) :
    untilReadEnd (fun acc => read >>= fun v => return next acc v) acc s =
      ((total read next).result acc s).toOption := rounds_eq read next _ acc s

end ReadLoop

theorem flatMap_inj {α : Type} {read : Codec α} {bytes : α → List UInt8}
    (reads : ∀ v, Reads read (bytes v) v) (nonempty : ∀ v, bytes v ≠ []) {items : List α} :
    ∀ {items' : List α}, items.flatMap bytes = items'.flatMap bytes → items = items' := by
  induction items with
  | nil =>
    intro items' same
    cases items' with
    | nil => rfl
    | cons v items' => exact absurd (List.append_eq_nil_iff.mp same.symm).1 (nonempty v)
  | cons v items ih =>
    intro items' same
    cases items' with
    | nil => exact absurd (List.append_eq_nil_iff.mp same).1 (nonempty v)
    | cons v' items' =>
      rw [List.flatMap_cons, List.flatMap_cons] at same
      let b : Buffer := ⟨bytes v ++ items.flatMap bytes, 0, Nat.zero_le _⟩
      have first := reads v b _ rfl
      have second := reads v' b _ same
      have eq : v = v' := congrArg Prod.fst (Option.some.inj (first.symm.trans second))
      subst eq
      rw [ih (List.append_cancel_left same)]

def Takes {α : Type} (read : Codec α) (bytes : α → List UInt8) : Prop :=
  ∀ s s' v, read s = some (v, s') → s.unread = bytes v ++ s'.unread

theorem takes_read (len : ℕ) : Takes (Buffer.read len) Subtype.val := by
  intro s s' v h
  unfold Buffer.read at h
  split at h
  · cases h
    rw [unread, unread, ← List.drop_drop]
    exact (List.take_append_drop len _).symm
  · cases h

/-- A size that is read is written as the bytes it was read from. -/
theorem takes_readUint64 : Takes readUint64 fun v => big 8 v.toNat := by
  intro s s'' v h
  obtain ⟨⟨bs, length⟩, s', read, last⟩ := codec_bind h
  cases last
  have lt : ofLittle bs < 256 ^ bs.length := ofLittle_lt bs
  have value : (ntohll (.ofNat (ofLittle bs))).toNat = swap 8 (ofLittle bs) := by
    rw [length] at lt
    change (htonll _).toNat = _
    rw [toNat_htonll, UInt64.toNat_ofNat_of_lt' lt]
  have same := takes_read 8 s s'' ⟨bs, length⟩ read
  simp only [value, big_swap_ofLittle length]
  exact same

theorem takes_readUint16 : Takes readUint16 fun v => big 2 v.toNat := by
  intro s s'' v h
  obtain ⟨⟨bs, length⟩, s', read, last⟩ := codec_bind h
  cases last
  have lt : ofLittle bs < 256 ^ bs.length := ofLittle_lt bs
  have value : (ntohs (.ofNat (ofLittle bs))).toNat = swap 2 (ofLittle bs) := by
    rw [length] at lt
    change (htons _).toNat = _
    rw [toNat_htons, UInt16.toNat_ofNat_of_lt' lt]
  have same := takes_read 2 s s'' ⟨bs, length⟩ read
  simp only [value, big_swap_ofLittle length]
  exact same

theorem takes_readString : Takes Serializer.readString Text.encoded := by
  intro s s'' v h
  obtain ⟨size, s', first, second⟩ := codec_bind h
  rw [takes_readUint64 s s' size first, Text.encoded, List.append_assoc]
  unfold Serializer.readText at second
  split at second
  · obtain ⟨bs, s₁, read, last⟩ := codec_bind second
    cases last
    rw [takes_read _ s' s'' bs read, bs.2]
  · cases second

namespace ReadLoop
variable {σ α : Type} {l : ReadLoop σ α} {bytes : α → List UInt8}

theorem run_ended (takes : Takes l.read bytes) {n : ℕ} : ∀ {acc acc' : σ} {s s' : Serializer},
    l.run n acc s = .ended (acc', s') →
      ∃ items : List α, s.unread = items.flatMap bytes ∧ items.foldlM l.each acc = .ok acc' := by
  induction n with
  | zero =>
    intro acc acc' s s' h
    cases h
  | succ n ih =>
    intro acc acc' s s' h
    by_cases none : s.unread = []
    · rw [run_end n none] at h
      cases h
      exact ⟨[], none, rfl⟩
    · cases round : l.round (acc, s) with
      | next b =>
        rw [run_next n none round] at h
        obtain ⟨v, read, each⟩ := round_next round
        obtain ⟨items, rest, fold⟩ := ih h
        refine ⟨v :: items, ?_, ?_⟩
        · rw [takes s b.2 v read, rest, List.flatMap_cons]
        · rw [List.foldlM_cons, each]
          exact fold
      | thrown b =>
        rw [run_thrown n none round] at h
        cases h

/-- Content that is a list of values is read to its end, unless a use of one throws. -/
theorem run_items (reads : ∀ v, Reads l.read (bytes v) v) (nonempty : ∀ v, bytes v ≠ [])
    {items : List α} : ∀ {n : ℕ} {acc acc' : σ} {s : Serializer},
    items.length < n → s.unread = items.flatMap bytes → items.foldlM l.each acc = .ok acc' →
      ∃ s', l.run n acc s = .ended (acc', s') ∧ s'.unread = [] := by
  induction items with
  | nil =>
    intro n acc acc' s lt none fold
    obtain ⟨n, rfl⟩ := Nat.exists_eq_succ_of_ne_zero (Nat.ne_zero_of_lt lt)
    cases fold
    exact ⟨s, run_end n none, none⟩
  | cons v items ih =>
    intro n acc acc' s lt content fold
    obtain ⟨n, rfl⟩ := Nat.exists_eq_succ_of_ne_zero (Nat.ne_zero_of_lt lt)
    rw [List.flatMap_cons] at content
    have some := unread_ne_nil nonempty content
    rw [List.foldlM_cons] at fold
    cases each : l.each acc v with
    | error e =>
      rw [each] at fold
      cases fold
    | ok next =>
      rw [each] at fold
      rw [run_next n some (round_of_read (reads v s _ content) each)]
      exact ih (Nat.lt_of_succ_lt_succ lt) (unread_skip content) fold

theorem result_items (reads : ∀ v, Reads l.read (bytes v) v) (nonempty : ∀ v, bytes v ≠ [])
    {items : List α} {acc acc' : σ} {s : Serializer} (content : s.unread = items.flatMap bytes)
    (fold : items.foldlM l.each acc = .ok acc') :
    ∃ s', l.result acc s = .ended (acc', s') ∧ s'.unread = [] := by
  apply run_items reads nonempty _ content fold
  rw [content]
  exact Nat.lt_succ_of_le (length_le_flatMap nonempty items)

theorem run_error (reads : ∀ v, Reads l.read (bytes v) v) (nonempty : ∀ v, bytes v ≠ [])
    {items : List α} : ∀ {n : ℕ} {acc acc' : σ} {s : Serializer},
    items.length < n → s.unread = items.flatMap bytes → items.foldlM l.each acc = .error acc' →
      ∃ s', l.run n acc s = .thrown (acc', s') := by
  induction items with
  | nil => exact fun _ _ fold => by cases fold
  | cons v items ih =>
    intro n acc acc' s lt content fold
    obtain ⟨n, rfl⟩ := Nat.exists_eq_succ_of_ne_zero (Nat.ne_zero_of_lt lt)
    rw [List.flatMap_cons] at content
    have some := unread_ne_nil nonempty content
    have read := reads v s _ content
    rw [List.foldlM_cons] at fold
    cases each : l.each acc v with
    | error e =>
      rw [each] at fold
      cases fold
      exact ⟨_, run_thrown n some (round_of_error read each)⟩
    | ok next =>
      rw [each] at fold
      rw [run_next n some (round_of_read read each)]
      exact ih (Nat.lt_of_succ_lt_succ lt) (unread_skip content) fold

theorem result_error (reads : ∀ v, Reads l.read (bytes v) v) (nonempty : ∀ v, bytes v ≠ [])
    {items : List α} {acc acc' : σ} {s : Serializer} (content : s.unread = items.flatMap bytes)
    (fold : items.foldlM l.each acc = .error acc') :
    ∃ s', l.result acc s = .thrown (acc', s') := by
  apply run_error reads nonempty _ content fold
  rw [content]
  exact Nat.lt_succ_of_le (length_le_flatMap nonempty items)

theorem result_thrown (moves : ∀ v, Moves l.read 1 v) (takes : Takes l.read bytes) {acc : σ}
    {s : Serializer} (broken : ¬ ∃ items : List α, s.unread = items.flatMap bytes) :
    ∃ a, l.result acc s = .thrown a := by
  have done := result_over moves acc s
  cases result : l.result acc s with
  | running a =>
    rw [result] at done
    exact done.elim
  | thrown a => exact ⟨a, rfl⟩
  | ended a =>
    obtain ⟨items, content, -⟩ := run_ended takes result
    exact absurd ⟨items, content⟩ broken

theorem foldlM_total (read : Codec α) (next : σ → α → σ) (items : List α) (acc : σ) :
    items.foldlM (total read next).each acc = .ok (items.foldl next acc) := by
  induction items generalizing acc with
  | nil => rfl
  | cons v items ih => exact ih (next acc v)

end ReadLoop

end CRpc.Util
