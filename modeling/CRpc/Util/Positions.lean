import CRpc.Lib.Runs
import CRpc.Util.Buffer

/-! Positions of `Buffer` in the `size_t` the code computes them in. -/
namespace CRpc.Util.Machine
open Transition

/-- `Buffer`; a `std::vector<char>` holds fewer than `2 ^ 63` bytes. -/
@[ext]
structure Buffer where
  m_data : List UInt8
  m_position : UInt64
  size_lt : m_data.length < 2 ^ 63
  position_le : m_position.toNat ≤ m_data.length

inductive Exception
  | out_of_range
  /-- The vector grows past its `max_size()`. -/
  | length_error
  deriving DecidableEq

/-- How a call ends; `undefined` where it copies bytes the vector does not have. -/
inductive Ending (α : Type)
  | returned (value : α) (after : Buffer)
  | thrown (what : Exception) (after : Buffer)
  | undefined

namespace Buffer

/-- `Buffer()`. -/
def empty : Buffer := ⟨[], 0, by decide, by decide⟩

def getPosition (b : Buffer) : UInt64 := b.m_position

def getSize (b : Buffer) : UInt64 := .ofNat b.m_data.length

def isReadEnd (b : Buffer) : Bool := b.m_position ≥ b.getSize

theorem toNat_getSize (b : Buffer) : b.getSize.toNat = b.m_data.length :=
  UInt64.toNat_ofNat_of_lt' (b.size_lt.trans (by decide))

def write (b : Buffer) (data : List UInt8) : Ending Unit :=
  if h : (b.m_data ++ data).length < 2 ^ 63 then
    .returned () ⟨b.m_data ++ data, b.m_position, h, by
      have le := b.position_le
      rw [List.length_append]
      omega⟩
  else .thrown .length_error b

/-- The guard of `checkRead`, a sum of two words. -/
def checkRead (b : Buffer) (len : UInt64) : Prop := ¬ b.m_position + len > b.getSize

instance (b : Buffer) (len : UInt64) : Decidable (b.checkRead len) :=
  inferInstanceAs (Decidable (¬ _))

theorem checkRead_le {b : Buffer} {len : UInt64} (checked : b.checkRead len) :
    (b.m_position + len).toNat ≤ b.m_data.length := by
  rw [← toNat_getSize]
  exact UInt64.le_iff_toNat_le.mp (UInt64.not_lt.mp checked)

/-- `memcpy` needs all of its `len` bytes in the vector. -/
def read (b : Buffer) (len : UInt64) : Ending (List UInt8) :=
  if h : b.checkRead len then
    if b.m_position.toNat + len.toNat ≤ b.m_data.length then
      .returned ((b.m_data.drop b.m_position.toNat).take len.toNat)
        ⟨b.m_data, b.m_position + len, b.size_lt, checkRead_le h⟩
    else .undefined
  else .thrown .out_of_range b

/-- `m_data[m_position++]`, of `readInt8` too. -/
def readUint8 (b : Buffer) : Ending UInt8 :=
  if h : b.checkRead 1 then
    match b.m_data[b.m_position.toNat]? with
    | some value => .returned value ⟨b.m_data, b.m_position + 1, b.size_lt, checkRead_le h⟩
    | none => .undefined
  else .thrown .out_of_range b

def setPosition (b : Buffer) (position : UInt64) : Ending Unit :=
  if h : position > b.getSize then .thrown .out_of_range b
  else .returned () ⟨b.m_data, position, b.size_lt, by
    rw [← toNat_getSize]
    exact UInt64.le_iff_toNat_le.mp (UInt64.not_lt.mp h)⟩

def clear (_ : Buffer) : Buffer := empty

end Buffer

/-- `Serializer` over its `m_buffer`. -/
def Serializer.reset (b : Buffer) : Ending Unit := b.setPosition 0

def Serializer.offset (b : Buffer) (off : UInt64) : Ending Unit :=
  let old := b.getPosition
  b.setPosition (old + off)

/-- The calls a buffer takes; words of two bytes and more are read by `read`. -/
inductive Call
  | write (data : List UInt8)
  | read (len : UInt64)
  | readUint8
  | setPosition (position : UInt64)
  | reset
  | offset (off : UInt64)
  | clear

/-- The buffer a call leaves behind, also where the caller catches what it throws. -/
def Ending.after {α : Type} : Ending α → Option Buffer
  | .returned _ b => some b
  | .thrown _ b => some b
  | .undefined => none

def step (b : Buffer) : Call → Option Buffer
  | .write data => (b.write data).after
  | .read len => (b.read len).after
  | .readUint8 => b.readUint8.after
  | .setPosition position => (b.setPosition position).after
  | .reset => (Serializer.reset b).after
  | .offset off => (Serializer.offset b off).after
  | .clear => some b.clear

/-- The calls lead from a new buffer to `b`. -/
def Reaches (calls : List Call) (b : Buffer) : Prop := Run step Always Buffer.empty calls b

/-- `read` throws where fewer than `len` bytes remain, else it copies the next `len`. -/
def ReadsExactly (b : Buffer) (len : UInt64) : Prop :=
  (b.m_data.length < b.m_position.toNat + len.toNat → b.read len = .thrown .out_of_range b) ∧
  (b.m_position.toNat + len.toNat ≤ b.m_data.length → ∃ after,
    b.read len = .returned ((b.m_data.drop b.m_position.toNat).take len.toNat) after ∧
    after.m_data = b.m_data ∧ after.m_position.toNat = b.m_position.toNat + len.toNat)

/-- `offset` throws or moves forward by `off`. -/
def OffsetsExactly (b : Buffer) (off : UInt64) : Prop :=
  (∃ what, Serializer.offset b off = .thrown what b) ∨
  ∃ after, Serializer.offset b off = .returned () after ∧
    after.m_data = b.m_data ∧ after.m_position.toNat = b.m_position.toNat + off.toNat

/-- The sum of the position and `n` is a word. -/
def Fits (b : Buffer) (n : UInt64) : Prop := b.m_position.toNat + n.toNat < 2 ^ 64

instance (b : Buffer) (n : UInt64) : Decidable (Fits b n) := inferInstanceAs (Decidable (_ < _))

theorem Fits.toNat_add {b : Buffer} {n : UInt64} (fits : Fits b n) :
    (b.m_position + n).toNat = b.m_position.toNat + n.toNat := by
  rw [UInt64.toNat_add]
  exact Nat.mod_eq_of_lt fits

/-- A sum that wraps lies before the position, where no check stops it. -/
theorem wrapped_lt {b : Buffer} {n : UInt64} (wraps : ¬ Fits b n) :
    (b.m_position + n).toNat < b.m_position.toNat := by
  have position := b.m_position.toNat_lt
  have word := n.toNat_lt
  rw [Fits] at wraps
  rw [UInt64.toNat_add]
  omega

theorem past_iff {b : Buffer} {position : UInt64} :
    position > b.getSize ↔ b.m_data.length < position.toNat := by
  rw [gt_iff_lt, UInt64.lt_iff_toNat_lt, Buffer.toNat_getSize]

theorem fits_of_le {b : Buffer} {n : UInt64} (le : n.toNat ≤ 2 ^ 63) : Fits b n := by
  have size := b.size_lt
  have position := b.position_le
  rw [Fits]
  omega

namespace Buffer

theorem checkRead_iff {b : Buffer} {len : UInt64} (fits : Fits b len) :
    b.checkRead len ↔ b.m_position.toNat + len.toNat ≤ b.m_data.length := by
  rw [checkRead, past_iff, fits.toNat_add, not_lt]

theorem readsExactly {b : Buffer} {len : UInt64} (fits : Fits b len) : ReadsExactly b len := by
  constructor
  · intro few
    have refused : ¬ b.checkRead len := by
      rw [checkRead_iff fits]
      omega
    rw [read, dif_neg refused]
  · intro enough
    have checked := (checkRead_iff fits).mpr enough
    refine ⟨⟨b.m_data, b.m_position + len, b.size_lt, checkRead_le checked⟩, ?_, rfl, ?_⟩
    · rw [read, dif_pos checked, if_pos enough]
    · exact fits.toNat_add

/-- A wrapped sum passes the check, and the copy runs past the end. -/
theorem read_wrapped {b : Buffer} {len : UInt64} (wraps : ¬ Fits b len) :
    b.read len = .undefined := by
  have lt := wrapped_lt wraps
  have position := b.position_le
  have size := b.size_lt
  have checked : b.checkRead len := by
    rw [checkRead, past_iff]
    omega
  have few : ¬ b.m_position.toNat + len.toNat ≤ b.m_data.length := by
    rw [Fits] at wraps
    omega
  rw [read, dif_pos checked, if_neg few]

theorem readsExactly_iff (b : Buffer) (len : UInt64) : ReadsExactly b len ↔ Fits b len := by
  constructor
  · intro exactly
    by_contra wraps
    have few : b.m_data.length < b.m_position.toNat + len.toNat := by
      have size := b.size_lt
      rw [Fits] at wraps
      omega
    have thrown := exactly.1 few
    rw [read_wrapped wraps] at thrown
    cases thrown
  · exact readsExactly

theorem setPosition_cases (b : Buffer) (position : UInt64) :
    (b.m_data.length < position.toNat ∧ b.setPosition position = .thrown .out_of_range b) ∨
    position.toNat ≤ b.m_data.length ∧ ∃ after, b.setPosition position = .returned () after ∧
      after.m_data = b.m_data ∧ after.m_position = position := by
  by_cases past : position > b.getSize
  · exact .inl ⟨past_iff.mp past, by rw [setPosition, dif_pos past]⟩
  · refine .inr ⟨not_lt.mp (mt past_iff.mpr past), ?_⟩
    rw [setPosition, dif_neg past]
    exact ⟨_, rfl, rfl, rfl⟩

end Buffer

namespace Serializer

theorem offsetsExactly {b : Buffer} {off : UInt64} (fits : Fits b off) :
    OffsetsExactly b off := by
  rcases b.setPosition_cases (b.m_position + off) with ⟨_, thrown⟩ | ⟨_, after, moved, data, placed⟩
  · exact .inl ⟨_, thrown⟩
  · exact .inr ⟨after, moved, data, by rw [placed, fits.toNat_add]⟩

theorem offset_wrapped {b : Buffer} {off : UInt64} (wraps : ¬ Fits b off) :
    ∃ after, offset b off = .returned () after ∧
      after.m_position.toNat < b.m_position.toNat := by
  have lt := wrapped_lt wraps
  have position := b.position_le
  rcases b.setPosition_cases (b.m_position + off) with ⟨past, _⟩ | ⟨_, after, moved, _, placed⟩
  · omega
  · exact ⟨after, moved, by rwa [placed]⟩

theorem offsetsExactly_iff (b : Buffer) (off : UInt64) : OffsetsExactly b off ↔ Fits b off := by
  constructor
  · intro exactly
    by_contra wraps
    obtain ⟨after, moved, back⟩ := offset_wrapped wraps
    rcases exactly with ⟨what, thrown⟩ | ⟨after', moved', _, forward⟩
    · rw [moved] at thrown
      cases thrown
    · rw [moved] at moved'
      cases moved'
      omega
  · exact offsetsExactly

end Serializer

/-- At every reached state a read and an offset are exact where the sum fits, and only there. By
`reaches_all` no state is left out. -/
theorem exact_iff (calls : List Call) (b : Buffer) (_ : Reaches calls b) (n : UInt64) :
    (ReadsExactly b n ↔ Fits b n) ∧ (OffsetsExactly b n ↔ Fits b n) :=
  ⟨b.readsExactly_iff n, Serializer.offsetsExactly_iff b n⟩

def afterOne : Buffer := ⟨[7], 1, by decide, by decide⟩

theorem reaches_afterOne : Reaches [.write [7], .readUint8] afterOne := .of_exec rfl

theorem exact_iff_afterOne :
    (ReadsExactly afterOne 1 ↔ Fits afterOne 1) ∧ (OffsetsExactly afterOne 1 ↔ Fits afterOne 1) :=
  exact_iff _ afterOne reaches_afterOne 1

/-- The largest length passes the check there, the largest offset goes back to the start. -/
theorem afterOne_wraps :
    Reaches [.write [7], .readUint8] afterOne ∧
    afterOne.read 0xFFFFFFFFFFFFFFFF = .undefined ∧
    ¬ ReadsExactly afterOne 0xFFFFFFFFFFFFFFFF ∧
    Serializer.offset afterOne 0xFFFFFFFFFFFFFFFF =
      .returned () ⟨[7], 0, by decide, by decide⟩ ∧
    ¬ OffsetsExactly afterOne 0xFFFFFFFFFFFFFFFF := by
  have wraps : ¬ Fits afterOne 0xFFFFFFFFFFFFFFFF := by decide
  refine ⟨reaches_afterOne, Buffer.read_wrapped wraps, ?_, rfl, ?_⟩
  · exact fun exactly => wraps ((Buffer.readsExactly_iff _ _).mp exactly)
  · exact fun exactly => wraps ((Serializer.offsetsExactly_iff _ _).mp exactly)

theorem reaches_all (b : Buffer) : Reaches [.write b.m_data, .setPosition b.m_position] b := by
  let written : Buffer := ⟨b.m_data, 0, b.size_lt, Nat.zero_le _⟩
  have room : (Buffer.empty.m_data ++ b.m_data).length < 2 ^ 63 := b.size_lt
  have wrote : step .empty (.write b.m_data) = some written := by
    rw [step, Buffer.write, dif_pos room]
    rfl
  have moved : step written (.setPosition b.m_position) = some b := by
    have inside := b.position_le
    rcases written.setPosition_cases b.m_position with ⟨past, _⟩ | ⟨_, after, moved, data, placed⟩
    · exact absurd past (not_lt.mpr inside)
    · rw [step, moved]
      exact congrArg some (Buffer.ext data placed)
  exact (Run.single trivial wrote).trans (.single trivial moved)

namespace Buffer

def plain (b : Buffer) : Util.Buffer := ⟨b.m_data, b.m_position.toNat, b.position_le⟩

end Buffer

def Ending.plain {α : Type} : Ending α → Option (α × Util.Buffer)
  | .returned value b => some (value, b.plain)
  | .thrown _ _ => none
  | .undefined => none

namespace Buffer

theorem plain_read {b : Buffer} {len : UInt64} (fits : Fits b len) :
    (b.read len).plain =
      (Util.Buffer.read len.toNat b.plain).map fun done => (done.1.1, done.2) := by
  by_cases enough : b.m_position.toNat + len.toNat ≤ b.m_data.length
  · have inside : b.plain.m_position + len.toNat ≤ b.plain.m_data.length := enough
    rw [read, dif_pos ((checkRead_iff fits).mpr enough), if_pos enough, Util.Buffer.read,
      dif_pos inside]
    simp only [Ending.plain, plain, fits.toNat_add, Option.map_some]
  · have past : ¬ b.plain.m_position + len.toNat ≤ b.plain.m_data.length := enough
    rw [read, dif_neg (mt (checkRead_iff fits).mp enough), Util.Buffer.read, dif_neg past]
    rfl

theorem plain_setPosition (b : Buffer) (position : UInt64) :
    (b.setPosition position).plain = Util.Buffer.setPosition position.toNat b.plain := by
  rcases b.setPosition_cases position with ⟨past, thrown⟩ | ⟨inside, after, moved, data, placed⟩
  · rw [thrown, Util.Buffer.setPosition, dif_neg]
    · rfl
    · exact not_le.mpr past
  · rw [moved, Util.Buffer.setPosition, dif_pos]
    · simp only [Ending.plain, plain, data, placed]
    · exact inside

theorem plain_isReadEnd (b : Buffer) : b.isReadEnd = Util.Buffer.isReadEnd b.plain := by
  apply decide_eq_decide.mpr
  rw [ge_iff_le, UInt64.le_iff_toNat_le, toNat_getSize]
  rfl

theorem plain_write {b : Buffer} {data : List UInt8}
    (room : (b.m_data ++ data).length < 2 ^ 63) :
    (b.write data).plain = Util.Buffer.write data b.plain := by
  rw [write, dif_pos room]
  rfl

theorem plain_readUint8 (b : Buffer) : b.readUint8.plain = Util.Buffer.readUint8 b.plain := by
  have fits : Fits b 1 := fits_of_le (by decide)
  have sum : (b.m_position + 1).toNat = b.m_position.toNat + 1 := fits.toNat_add
  have iff : b.checkRead 1 ↔ b.m_position.toNat + 1 ≤ b.m_data.length := checkRead_iff fits
  by_cases enough : b.m_position.toNat + 1 ≤ b.m_data.length
  · have there := List.getElem?_eq_getElem (Nat.lt_of_succ_le enough)
    have first : ((b.m_data.drop b.m_position.toNat).take 1).headD 0 =
        b.m_data[b.m_position.toNat] := by
      rw [List.drop_eq_getElem_cons (Nat.lt_of_succ_le enough)]
      rfl
    have ideal : Util.Buffer.readUint8 b.plain =
        some (b.m_data[b.m_position.toNat], ⟨b.m_data, b.m_position.toNat + 1, enough⟩) := by
      have inside : b.plain.m_position + 1 ≤ b.plain.m_data.length := enough
      change ((Util.Buffer.read 1 b.plain).bind fun done =>
        some (done.1.1.headD 0, done.2)) = _
      rw [Util.Buffer.read, dif_pos inside, Option.bind_some]
      exact congrArg (fun v => some (v, _)) first
    rw [ideal, readUint8, dif_pos (iff.mpr enough)]
    simp only [there, Ending.plain, plain, sum]
  · have ideal : Util.Buffer.readUint8 b.plain = none := by
      have past : ¬ b.plain.m_position + 1 ≤ b.plain.m_data.length := enough
      change ((Util.Buffer.read 1 b.plain).bind fun done =>
        some (done.1.1.headD 0, done.2)) = _
      rw [Util.Buffer.read, dif_neg past, Option.bind_none]
    rw [ideal, readUint8, dif_neg (mt iff.mp enough)]
    rfl

end Buffer

end CRpc.Util.Machine
