import CRpc.Lib.Placements
import CRpc.Util.Serializer

/-! The overloads of `operator<<` and `operator>>` for containers, pairs and tuples. -/
namespace CRpc.Util
open Placements Endian

structure Cpp where
  Carrier : Type
  /-- `operator<`; false where the type has none -/
  less : Carrier → Carrier → Bool
  /-- `operator==` of the types with a hash; false elsewhere -/
  equal : Carrier → Carrier → Bool
  /-- the value of a fresh `T t` -/
  init : Carrier
  /-- `operator<<` on a `const` lvalue -/
  write : Carrier → Codec Unit
  /-- `operator>>` into a fresh object -/
  read : Codec Carrier
  /-- the template `read(T&)` on a fresh object -/
  fill : Codec Carrier

/-- The order of IEEE numbers on their bits: the sign bit weighs `sign`, patterns above `inf`
are no numbers. -/
def ieeeLess (sign inf a b : ℕ) : Bool :=
  let number (n : ℕ) := n % sign ≤ inf
  let value (n : ℕ) : ℤ := if sign ≤ n then -(n % sign : ℕ) else (n % sign : ℕ)
  number a && number b && value a < value b

def ieeeEqual (sign inf a b : ℕ) : Bool :=
  a % sign ≤ inf && (a == b || (a % sign == 0 && b % sign == 0))

def Scalar.less : (t : Scalar) → t.Value → t.Value → Bool
  | .bool, a, b => !a && b
  | .float, a, b => ieeeLess (2 ^ 31) 0x7F800000 a.toNat b.toNat
  | .double, a, b => ieeeLess (2 ^ 63) 0x7FF0000000000000 a.toNat b.toNat
  | .int8, a, b => a < b
  | .uint8, a, b => a < b
  | .int16, a, b => a < b
  | .uint16, a, b => a < b
  | .int32, a, b => a < b
  | .uint32, a, b => a < b
  | .int64, a, b => a < b
  | .uint64, a, b => a < b

def Scalar.equal : (t : Scalar) → t.Value → t.Value → Bool
  | .bool, a, b => a == b
  | .float, a, b => ieeeEqual (2 ^ 31) 0x7F800000 a.toNat b.toNat
  | .double, a, b => ieeeEqual (2 ^ 63) 0x7FF0000000000000 a.toNat b.toNat
  | .int8, a, b => a == b
  | .uint8, a, b => a == b
  | .int16, a, b => a == b
  | .uint16, a, b => a == b
  | .int32, a, b => a == b
  | .uint32, a, b => a == b
  | .int64, a, b => a == b
  | .uint64, a, b => a == b

def Scalar.zero : (t : Scalar) → t.Value
  | .bool => false
  | .float | .double => 0
  | .int8 | .uint8 | .int16 | .uint16 | .int32 | .uint32 | .int64 | .uint64 => 0

/-- `std::lexicographical_compare`. -/
def lexLess {α : Type} (less : α → α → Bool) : List α → List α → Bool
  | _, [] => false
  | [], _ :: _ => true
  | a :: as, b :: bs => less a b || (!less b a && lexLess less as bs)

def pairLess {α β : Type} (first : α → α → Bool) (second : β → β → Bool) (a b : α × β) : Bool :=
  first a.1 b.1 || (!first b.1 a.1 && second a.2 b.2)

def pairwiseEqual {α : Type} (equal : α → α → Bool) (as bs : List α) : Bool :=
  as.length == bs.length && (as.zip bs).all fun p => equal p.1 p.2

/-- `list`, `vector` and the sets. -/
inductive SeqKind
  | list | vector | set | multiset | unordered_set | unordered_multiset
  deriving DecidableEq

inductive MapKind
  | map | multimap | unordered_map | unordered_multimap
  deriving DecidableEq

/-- Where `emplace_back` and `emplace` put an element. The order of an unordered container is
not specified; here it is that of the insertions. -/
def SeqKind.placing (k : SeqKind) (t : Cpp) : Placing t.Carrier :=
  match k with
  | .list | .vector | .unordered_multiset => ⟨fun _ _ => false, fun _ _ => false⟩
  | .set => ⟨fun a x => !t.less a x && !t.less x a, t.less⟩
  | .multiset => ⟨fun _ _ => false, t.less⟩
  | .unordered_set => ⟨t.equal, fun _ _ => false⟩

def SeqKind.less (k : SeqKind) (t : Cpp) : List t.Carrier → List t.Carrier → Bool :=
  match k with
  | .list | .vector | .set | .multiset => lexLess t.less
  | .unordered_set | .unordered_multiset => fun _ _ => false

def SeqKind.equal (k : SeqKind) (t : Cpp) : List t.Carrier → List t.Carrier → Bool :=
  match k with
  | .vector => pairwiseEqual t.equal
  | _ => fun _ _ => false

/-- A map places its pairs as a set places their keys. -/
def MapKind.placing (k : MapKind) (key value : Cpp) : Placing (key.Carrier × value.Carrier) :=
  match k with
  | .map => (SeqKind.set.placing key).on Prod.fst
  | .multimap => (SeqKind.multiset.placing key).on Prod.fst
  | .unordered_map => (SeqKind.unordered_set.placing key).on Prod.fst
  | .unordered_multimap => (SeqKind.unordered_multiset.placing key).on Prod.fst

def MapKind.less (k : MapKind) (key value : Cpp) :
    List (key.Carrier × value.Carrier) → List (key.Carrier × value.Carrier) → Bool :=
  match k with
  | .map | .multimap => lexLess (pairLess key.less value.less)
  | .unordered_map | .unordered_multimap => fun _ _ => false

/-- The body shared by every container's `operator<<`: the size, then each element. -/
def writeItems {α : Type} {p : Placing α} (write : α → Codec Unit) (v : Items p) : Codec Unit := do
  let size := UInt64.ofNat v.items.length
  Serializer.write .uint64 size
  v.items.forM write

/-- `size` rounds of reading an element and emplacing it. -/
def emplaceItems {α : Type} {p : Placing α} (read : Codec α) : ℕ → Items p → Codec (Items p)
  | 0, v => return v
  | size + 1, v => do
    let t ← read
    match v.emplace t with
    | some v => emplaceItems read size v
    | none => failure

/-- The body shared by every container's `operator>>`. -/
def readItems {α : Type} {p : Placing α} (read : Codec α) : Codec (Items p) := do
  let size ← Serializer.read .uint64
  emplaceItems read (UInt64.toNat size) .empty

namespace Cpp

def scalar (s : Scalar) : Cpp where
  Carrier := s.Value
  less := s.less
  equal := s.equal
  init := s.zero
  write := Serializer.write s
  read := Serializer.read s
  fill := Serializer.read s

/-- `operator<<(std::string&)` does not take a `const` string: the template `write(const T&)`
does, which has no branch for it and writes nothing. -/
def string : Cpp where
  Carrier := Text
  less a b := lexLess (fun x y => x < y) a.bytes b.bytes
  equal a b := a.bytes == b.bytes
  init := ⟨[], by decide⟩
  write _ := return ()
  read := Serializer.readString
  fill := return ⟨[], by decide⟩

/-- The readers of the sequence containers call the template `read(T&)` on their elements,
which has no branch for a container: it reads nothing and leaves it empty. -/
def seq (k : SeqKind) (t : Cpp) : Cpp where
  Carrier := Items (k.placing t)
  less a b := k.less t a.items b.items
  equal a b := k.equal t a.items b.items
  init := .empty
  write := writeItems t.write
  read := readItems t.fill
  fill := return .empty

def pair (a b : Cpp) : Cpp where
  Carrier := a.Carrier × b.Carrier
  less := pairLess a.less b.less
  equal _ _ := false
  init := (a.init, b.init)
  write p := do
    a.write p.1
    b.write p.2
  read := do
    let first ← a.read
    let second ← b.read
    return (first, second)
  fill := return (a.init, b.init)

def map (k : MapKind) (key value : Cpp) : Cpp where
  Carrier := Items (k.placing key value)
  less a b := k.less key value a.items b.items
  equal _ _ := false
  init := .empty
  write := writeItems (pair key value).write
  read := readItems (pair key value).read
  fill := return .empty

/-- `std::tuple<>`. -/
def nil : Cpp where
  Carrier := Unit
  less _ _ := false
  equal _ _ := false
  init := ()
  write _ := return ()
  read := return ()
  fill := return ()

/-- A tuple of one more component: `TupleSerializer` goes through them from the first. -/
def cons (t ts : Cpp) : Cpp := pair t ts

end Cpp

end CRpc.Util
