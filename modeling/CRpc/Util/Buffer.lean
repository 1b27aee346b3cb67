import CRpc.Lib.Endian
import Mathlib.Control.Monad.Basic

/-! `Buffer` of `util/serializer.h`: bytes with a read position, words in network order. -/
namespace CRpc.Util
open Endian

/-- `Buffer`; `setPosition` and `checkRead` never let the position pass the end. -/
structure Buffer where
  m_data : List UInt8
  m_position : ℕ
  position_le : m_position ≤ m_data.length

/-- An operation on a buffer; `none` where the code throws. -/
abbrev Codec := StateT Buffer Option

/-- `htons` on a little-endian host: in memory, the result is the word in network order. -/
def htons (v : UInt16) : UInt16 := .ofNat (swap 2 v.toNat)

/-- `htonl` on a little-endian host. -/
def htonl (v : UInt32) : UInt32 := .ofNat (swap 4 v.toNat)

def htonll (value : UInt64) : UInt64 :=
  ((htonl (value &&& 0xFFFFFFFF).toUInt32).toUInt64 <<< 32) |||
    (htonl (value >>> 32).toUInt32).toUInt64

/-- The way back is the same exchange of bytes. -/
def ntohs (v : UInt16) : UInt16 := htons v
def ntohl (v : UInt32) : UInt32 := htonl v
def ntohll (value : UInt64) : UInt64 :=
  ((ntohl (value &&& 0xFFFFFFFF).toUInt32).toUInt64 <<< 32) |||
    (ntohl (value >>> 32).toUInt32).toUInt64

theorem toNat_htons (v : UInt16) : (htons v).toNat = swap 2 v.toNat := by
  rw [htons, UInt16.toNat_ofNat']
  apply Nat.mod_eq_of_lt
  exact swap_lt 2 v.toNat

theorem toNat_htonl (v : UInt32) : (htonl v).toNat = swap 4 v.toNat := by
  rw [htonl, UInt32.toNat_ofNat']
  apply Nat.mod_eq_of_lt
  exact swap_lt 4 v.toNat

/-- Swapping the two halves and their places swaps the long word. -/
theorem toNat_htonll (v : UInt64) : (htonll v).toNat = swap 8 v.toNat := by
  have low : (v &&& 0xFFFFFFFF).toNat = v.toNat % 2 ^ 32 := by
    rw [UInt64.toNat_and]
    exact Nat.and_two_pow_sub_one_eq_mod v.toNat 32
  have front : swap 4 (v.toNat % 2 ^ 32) = swap 4 v.toNat := swap_mod 4 v.toNat
  have back : v.toNat >>> 32 % 2 ^ 32 = v.toNat / 256 ^ 4 := by
    have lt := v.toNat_lt
    rw [Nat.shiftRight_eq_div_pow]
    omega
  have lt : swap 4 v.toNat < 2 ^ 32 := swap_lt 4 v.toNat
  have fits : swap 4 v.toNat * 2 ^ 32 % 2 ^ 64 = 2 ^ 32 * swap 4 v.toNat := by omega
  have high : swap 4 (v.toNat / 256 ^ 4) < 2 ^ 32 := swap_lt 4 _
  have apart := Nat.two_pow_add_eq_or_of_lt high (swap 4 v.toNat)
  have first : (htonl (v &&& 0xFFFFFFFF).toUInt32).toNat = swap 4 v.toNat := by
    rw [toNat_htonl, UInt64.toNat_toUInt32, low, Nat.mod_mod, front]
  have second : (htonl (v >>> 32).toUInt32).toNat = swap 4 (v.toNat / 256 ^ 4) := by
    rw [toNat_htonl, UInt64.toNat_toUInt32, UInt64.toNat_shiftRight]
    exact congrArg (swap 4) back
  rw [htonll, UInt64.toNat_or, UInt64.toNat_shiftLeft, UInt32.toNat_toUInt64,
    UInt32.toNat_toUInt64, first, second, swap_add 4 4 v.toNat, Nat.add_comm]
  calc swap 4 v.toNat <<< 32 % 2 ^ 64 ||| swap 4 (v.toNat / 256 ^ 4)
      = 2 ^ 32 * swap 4 v.toNat ||| swap 4 (v.toNat / 256 ^ 4) := by rw [Nat.shiftLeft_eq, fits]
    _ = 2 ^ 32 * swap 4 v.toNat + swap 4 (v.toNat / 256 ^ 4) := apart.symm

theorem ntohs_htons (v : UInt16) : ntohs (htons v) = v := by
  apply UInt16.toNat_inj.mp
  rw [ntohs, toNat_htons, toNat_htons, swap_swap]
  exact Nat.mod_eq_of_lt v.toNat_lt

theorem ntohl_htonl (v : UInt32) : ntohl (htonl v) = v := by
  apply UInt32.toNat_inj.mp
  rw [ntohl, toNat_htonl, toNat_htonl, swap_swap]
  exact Nat.mod_eq_of_lt v.toNat_lt

theorem ntohll_htonll (v : UInt64) : ntohll (htonll v) = v := by
  apply UInt64.toNat_inj.mp
  change (htonll (htonll v)).toNat = v.toNat
  rw [toNat_htonll, toNat_htonll, swap_swap]
  exact Nat.mod_eq_of_lt v.toNat_lt

namespace Buffer

/-- `Buffer()`. -/
def empty : Buffer := ⟨[], 0, le_rfl⟩

def append (b : Buffer) (data : List UInt8) : Buffer :=
  ⟨b.m_data ++ data, b.m_position, by
    have := b.position_le
    rw [List.length_append]
    omega⟩

def write (data : List UInt8) : Codec Unit := fun b => some ((), b.append data)

/-- `checkRead`, then the copy; sizes stay far below `2 ^ 64`, so their sum does not wrap. -/
def read (len : ℕ) : Codec { bs : List UInt8 // bs.length = len } := fun b =>
  if h : b.m_position + len ≤ b.m_data.length then
    some (⟨(b.m_data.drop b.m_position).take len, by simp; omega⟩,
      ⟨b.m_data, b.m_position + len, h⟩)
  else none

def setPosition (position : ℕ) : Codec Unit := fun b =>
  if h : position ≤ b.m_data.length then some ((), ⟨b.m_data, position, h⟩) else none

def getSize (b : Buffer) : ℕ := b.m_data.length

def isReadEnd (b : Buffer) : Bool := b.getSize ≤ b.m_position

def readUint8 : Codec UInt8 := do
  let bs ← read 1
  return bs.1.headD 0

def readInt8 : Codec Int8 := do
  let b ← readUint8
  return b.toInt8

def writeUint8 (value : UInt8) : Codec Unit := write [value]
def writeInt8 (value : Int8) : Codec Unit := write [value.toUInt8]

/-- The value's memory is its little-endian bytes. -/
def writeUint16 (value : UInt16) : Codec Unit := write (little 2 (htons value).toNat)
def writeInt16 (value : Int16) : Codec Unit := writeUint16 value.toUInt16
def writeUint32 (value : UInt32) : Codec Unit := write (little 4 (htonl value).toNat)
def writeInt32 (value : Int32) : Codec Unit := writeUint32 value.toUInt32
def writeUint64 (value : UInt64) : Codec Unit := write (little 8 (htonll value).toNat)
def writeInt64 (value : Int64) : Codec Unit := writeUint64 value.toUInt64

def readUint16 : Codec UInt16 := do
  let value ← read 2
  return ntohs (.ofNat (ofLittle value.1))

def readInt16 : Codec Int16 := do
  let value ← readUint16
  return value.toInt16

def readUint32 : Codec UInt32 := do
  let value ← read 4
  return ntohl (.ofNat (ofLittle value.1))

def readInt32 : Codec Int32 := do
  let value ← readUint32
  return value.toInt32

def readUint64 : Codec UInt64 := do
  let value ← read 8
  return ntohll (.ofNat (ofLittle value.1))

def readInt64 : Codec Int64 := do
  let value ← readUint64
  return value.toInt64

/-- A float is the pattern of its bits, copied in the host's order. -/
def writeFloat (value : UInt32) : Codec Unit := write (little 4 value.toNat)
def writeDouble (value : UInt64) : Codec Unit := write (little 8 value.toNat)

def readFloat : Codec UInt32 := do
  let value ← read 4
  return .ofNat (ofLittle value.1)

def readDouble : Codec UInt64 := do
  let value ← read 8
  return .ofNat (ofLittle value.1)

def unread (b : Buffer) : List UInt8 := b.m_data.drop b.m_position

/-- The buffer `n` bytes further, its end at most. -/
def skip (b : Buffer) (n : ℕ) : Buffer :=
  ⟨b.m_data, min (b.m_position + n) b.m_data.length, min_le_right _ _⟩

@[simp] theorem skip_data (b : Buffer) (n : ℕ) : (b.skip n).m_data = b.m_data := rfl

theorem skip_zero (b : Buffer) : b.skip 0 = b := by
  have le := b.position_le
  cases b
  simp only [skip, Nat.add_zero, mk.injEq, true_and]
  exact min_eq_left le

theorem skip_skip (b : Buffer) (m n : ℕ) : (b.skip m).skip n = b.skip (m + n) := by
  simp only [skip, mk.injEq, true_and]
  omega

theorem length_unread (b : Buffer) : b.unread.length = b.m_data.length - b.m_position := by
  simp [unread]

theorem unread_skip {b : Buffer} {bs rest : List UInt8} (h : b.unread = bs ++ rest) :
    (b.skip bs.length).unread = rest := by
  have length := b.length_unread
  have le := b.position_le
  rw [h, List.length_append] at length
  have inside : b.m_position + bs.length ≤ b.m_data.length := by omega
  rw [unread, skip_data]
  simp only [skip]
  rw [min_eq_left inside, ← List.drop_drop]
  change (b.unread).drop bs.length = rest
  rw [h, List.drop_left]

/-- Reading `bs` gives `v`, whatever follows. -/
def Reads {α : Type} (p : Codec α) (bs : List UInt8) (v : α) : Prop :=
  ∀ b rest, b.unread = bs ++ rest → p b = some (v, b.skip bs.length)

theorem Reads.pure {α : Type} (v : α) : Reads (Pure.pure v) [] v := by
  intro b rest _
  change some (v, b) = some (v, b.skip 0)
  rw [skip_zero]

theorem Reads.bind {α β : Type} {p : Codec α} {f : α → Codec β} {xs ys : List UInt8} {v : α}
    {w : β} (first : Reads p xs v) (second : Reads (f v) ys w) :
    Reads (p >>= f) (xs ++ ys) w := by
  intro b rest h
  rw [List.append_assoc] at h
  have next := second _ rest (unread_skip h)
  rw [skip_skip, ← List.length_append] at next
  change (p b).bind (fun a => f a.1 a.2) = _
  rw [first b _ h]
  exact next

theorem Reads.map {α β : Type} {p : Codec α} {bs : List UInt8} {v : α} (reads : Reads p bs v)
    (f : α → β) : Reads (p >>= fun a => Pure.pure (f a)) bs (f v) := by
  have := reads.bind (f := fun a => Pure.pure (f a)) (Reads.pure (f v))
  rwa [List.append_nil] at this

theorem reads_read (bs : List UInt8) : Reads (read bs.length) bs ⟨bs, rfl⟩ := by
  intro b rest h
  have length := b.length_unread
  have le := b.position_le
  rw [h, List.length_append] at length
  have inside : b.m_position + bs.length ≤ b.m_data.length := by omega
  have front : (b.m_data.drop b.m_position).take bs.length = bs := by
    change b.unread.take bs.length = bs
    rw [h, List.take_left]
  simp only [read, inside, dif_pos, skip, front, min_eq_left]

theorem append_nil (b : Buffer) : b.append [] = b := by
  simp only [append, List.append_nil]

theorem append_append (b : Buffer) (xs ys : List UInt8) :
    (b.append xs).append ys = b.append (xs ++ ys) := by
  simp only [append, List.append_assoc]

theorem write_nil : write [] = Pure.pure () := by
  funext b
  change some ((), b.append []) = some ((), b)
  rw [append_nil]

theorem write_write (xs ys : List UInt8) :
    (do write xs; write ys) = write (xs ++ ys) := by
  funext b
  change some ((), _) = some ((), _)
  rw [append_append]

theorem writeUint16_eq (v : UInt16) : writeUint16 v = write (big 2 v.toNat) := by
  rw [writeUint16, toNat_htons, little_swap]

theorem writeUint32_eq (v : UInt32) : writeUint32 v = write (big 4 v.toNat) := by
  rw [writeUint32, toNat_htonl, little_swap]

theorem writeUint64_eq (v : UInt64) : writeUint64 v = write (big 8 v.toNat) := by
  rw [writeUint64, toNat_htonll, little_swap]

theorem reads_word {α : Type} {k : ℕ} {bs : List UInt8} {v : α} {f : List UInt8 → α}
    (length : bs.length = k) (same : f bs = v) :
    Reads (read k >>= fun value => Pure.pure (f value.1)) bs v := by
  subst length same
  exact (reads_read bs).map fun value => f value.1

theorem reads_readUint8 (v : UInt8) : Reads readUint8 [v] v :=
  (reads_read [v]).map fun bs => bs.1.headD 0

theorem reads_readUint16 (v : UInt16) : Reads readUint16 (big 2 v.toNat) v := by
  apply reads_word (f := fun value => ntohs (.ofNat (ofLittle value))) (length_big 2 _)
  exact ntohs_htons v

theorem reads_readUint32 (v : UInt32) : Reads readUint32 (big 4 v.toNat) v := by
  apply reads_word (f := fun value => ntohl (.ofNat (ofLittle value))) (length_big 4 _)
  exact ntohl_htonl v

theorem reads_readUint64 (v : UInt64) : Reads readUint64 (big 8 v.toNat) v := by
  apply reads_word (f := fun value => ntohll (.ofNat (ofLittle value))) (length_big 8 _)
  rw [ofLittle_big, ← toNat_htonll, UInt64.ofNat_toNat, ntohll_htonll]

theorem reads_size {n : ℕ} (lt : n < 2 ^ 64) : Reads readUint64 (big 8 n) (.ofNat n) := by
  have word := reads_readUint64 (.ofNat n)
  rwa [UInt64.toNat_ofNat_of_lt' lt] at word

theorem reads_readFloat (v : UInt32) : Reads readFloat (little 4 v.toNat) v := by
  apply reads_word (f := fun value => UInt32.ofNat (ofLittle value)) (length_little 4 _)
  have fits : v.toNat % 256 ^ 4 = v.toNat := Nat.mod_eq_of_lt v.toNat_lt
  rw [ofLittle_little, fits, UInt32.ofNat_toNat]

theorem reads_readDouble (v : UInt64) : Reads readDouble (little 8 v.toNat) v := by
  apply reads_word (f := fun value => UInt64.ofNat (ofLittle value)) (length_little 8 _)
  have fits : v.toNat % 256 ^ 8 = v.toNat := Nat.mod_eq_of_lt v.toNat_lt
  rw [ofLittle_little, fits, UInt64.ofNat_toNat]

end Buffer

end CRpc.Util
