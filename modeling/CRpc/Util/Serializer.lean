import CRpc.Util.Buffer

/-! `Serializer` of `util/serializer.h`: its scalars and its strings. -/
namespace CRpc.Util
open Endian

/-- `Serializer`, whose one field is its buffer. -/
abbrev Serializer := Buffer

/-- `std::string`, at most `max_size` long. -/
structure Text where
  bytes : List UInt8
  size_le : bytes.length < 2 ^ 62

def Text.ofBytes (bytes : List UInt8) : Option Text :=
  if h : bytes.length < 2 ^ 62 then some ⟨bytes, h⟩ else none

/-- The types with a branch in the templates `read` and `write`. -/
inductive Scalar
  | bool | float | double
  | int8 | uint8 | int16 | uint16 | int32 | uint32 | int64 | uint64
  deriving DecidableEq

/-- Their values; those of the floating types are the patterns of their bits. -/
abbrev Scalar.Value : Scalar → Type
  | .bool => Bool
  | .float => UInt32
  | .double => UInt64
  | .int8 => Int8
  | .uint8 => UInt8
  | .int16 => Int16
  | .uint16 => UInt16
  | .int32 => Int32
  | .uint32 => UInt32
  | .int64 => Int64
  | .uint64 => UInt64

namespace Serializer

def size (s : Serializer) : ℕ := s.getSize

def reset : Codec Unit := Buffer.setPosition 0

/-- Every byte, whatever the position; constructing a longer string throws. -/
def toString (s : Serializer) : Option Text := Text.ofBytes s.m_data

/-- `write(const T&)` at a scalar type. -/
def write : (t : Scalar) → t.Value → Codec Unit
  | .bool, v => Buffer.writeInt8 (if v then 1 else 0)
  | .float, v => Buffer.writeFloat v
  | .double, v => Buffer.writeDouble v
  | .int8, v => Buffer.writeInt8 v
  | .uint8, v => Buffer.writeUint8 v
  | .int16, v => Buffer.writeInt16 v
  | .uint16, v => Buffer.writeUint16 v
  | .int32, v => Buffer.writeInt32 v
  | .uint32, v => Buffer.writeUint32 v
  | .int64, v => Buffer.writeInt64 v
  | .uint64, v => Buffer.writeUint64 v

/-- `read(T&)` at a scalar type. -/
def read : (t : Scalar) → Codec t.Value
  | .bool => do
    let t ← Buffer.readInt8
    return t != 0
  | .float => Buffer.readFloat
  | .double => Buffer.readDouble
  | .int8 => Buffer.readInt8
  | .uint8 => Buffer.readUint8
  | .int16 => Buffer.readInt16
  | .uint16 => Buffer.readUint16
  | .int32 => Buffer.readInt32
  | .uint32 => Buffer.readUint32
  | .int64 => Buffer.readInt64
  | .uint64 => Buffer.readUint64

/-- `operator<<(std::string&)`, for a string that is not `const`. -/
def writeString (v : Text) : Codec Unit := do
  let len := UInt64.ofNat v.bytes.length
  Buffer.writeUint64 len
  Buffer.write v.bytes

/-- `operator<<(const char*)`, which writes the bytes before the first zero. -/
def writeChars (v : Text) : Codec Unit :=
  writeString ⟨v.bytes.takeWhile (· ≠ 0),
    (List.takeWhile_prefix (· ≠ 0)).length_le.trans_lt v.size_le⟩

/-- `v.resize(size)`, which throws past `max_size`, and the copy into `v`. -/
def readText (size : ℕ) : Codec Text :=
  if h : size < 2 ^ 62 then do
    let bytes ← Buffer.read size
    return ⟨bytes.1, bytes.2.trans_lt h⟩
  else failure

/-- `operator>>(std::string&)`. -/
def readString : Codec Text := do
  let size ← Buffer.readUint64
  readText size.toNat

end Serializer

theorem reset_eq (s : Serializer) :
    Serializer.reset s = some ((), ⟨s.m_data, 0, Nat.zero_le _⟩) := by
  rw [Serializer.reset, Buffer.setPosition, dif_pos (Nat.zero_le _)]

def Text.encoded (v : Text) : List UInt8 := big 8 v.bytes.length ++ v.bytes

theorem length_lt {n : ℕ} (fits : n < 2 ^ 62) : n < 2 ^ 64 := fits.trans (by decide)

/-- A length below `max_size` survives the way through `size_t`. -/
theorem toNat_length {n : ℕ} (fits : n < 2 ^ 62) : (UInt64.ofNat n).toNat = n :=
  UInt64.toNat_ofNat_of_lt' (length_lt fits)

theorem writeString_eq (v : Text) : Serializer.writeString v = Buffer.write v.encoded := by
  rw [Serializer.writeString, Buffer.writeUint64_eq, Buffer.write_write, toNat_length v.size_le,
    Text.encoded]

theorem reads_readText (v : Text) :
    Buffer.Reads (Serializer.readText v.bytes.length) v.bytes v := by
  rw [Serializer.readText, dif_pos v.size_le]
  exact (Buffer.reads_read v.bytes).map fun bytes => Text.mk bytes.1 (bytes.2.trans_lt v.size_le)

theorem reads_readString (v : Text) : Buffer.Reads Serializer.readString v.encoded v := by
  apply (Buffer.reads_size (length_lt v.size_le)).bind
  rw [toNat_length v.size_le]
  exact reads_readText v

def Scalar.bytes : (t : Scalar) → t.Value → List UInt8
  | .bool, v => [if v then 1 else 0]
  | .float, v => little 4 v.toNat
  | .double, v => little 8 v.toNat
  | .int8, v => [v.toUInt8]
  | .uint8, v => [v]
  | .int16, v => big 2 v.toUInt16.toNat
  | .uint16, v => big 2 v.toNat
  | .int32, v => big 4 v.toUInt32.toNat
  | .uint32, v => big 4 v.toNat
  | .int64, v => big 8 v.toUInt64.toNat
  | .uint64, v => big 8 v.toNat

/-- `sizeof`. -/
def Scalar.width : Scalar → ℕ
  | .bool | .int8 | .uint8 => 1
  | .int16 | .uint16 => 2
  | .float | .int32 | .uint32 => 4
  | .double | .int64 | .uint64 => 8

@[simp] theorem Scalar.length_bytes (t : Scalar) (v : t.Value) : (t.bytes v).length = t.width := by
  cases t <;> simp [Scalar.bytes, Scalar.width]

theorem write_eq (t : Scalar) (v : t.Value) :
    Serializer.write t v = Buffer.write (t.bytes v) := by
  cases t with
  | bool => cases v <;> rfl
  | float => rfl
  | double => rfl
  | int8 => rfl
  | uint8 => rfl
  | int16 => exact Buffer.writeUint16_eq v.toUInt16
  | uint16 => exact Buffer.writeUint16_eq v
  | int32 => exact Buffer.writeUint32_eq v.toUInt32
  | uint32 => exact Buffer.writeUint32_eq v
  | int64 => exact Buffer.writeUint64_eq v.toUInt64
  | uint64 => exact Buffer.writeUint64_eq v

theorem reads_read (t : Scalar) (v : t.Value) :
    Buffer.Reads (Serializer.read t) (t.bytes v) v := by
  cases t with
  | bool =>
    have byte := (Buffer.reads_readUint8 (if v then 1 else 0)).map UInt8.toInt8
    have bit := byte.map fun t => t != 0
    cases v <;> exact bit
  | float => exact Buffer.reads_readFloat v
  | double => exact Buffer.reads_readDouble v
  | int8 => exact (Buffer.reads_readUint8 v.toUInt8).map UInt8.toInt8
  | uint8 => exact Buffer.reads_readUint8 v
  | int16 => exact (Buffer.reads_readUint16 v.toUInt16).map UInt16.toInt16
  | uint16 => exact Buffer.reads_readUint16 v
  | int32 => exact (Buffer.reads_readUint32 v.toUInt32).map UInt32.toInt32
  | uint32 => exact Buffer.reads_readUint32 v
  | int64 => exact (Buffer.reads_readUint64 v.toUInt64).map UInt64.toInt64
  | uint64 => exact Buffer.reads_readUint64 v

end CRpc.Util
