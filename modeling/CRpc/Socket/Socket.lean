import CRpc.Lib.Streams
import CRpc.Util.Serializer

/-! `socket.cpp`: the loops that send and receive a given number of bytes. -/
namespace CRpc
open Streams Util

/-- A connected `Socket`, with the stream its calls to `recv` see. -/
structure Socket where
  feed : Feed UInt8
  m_is_connected : Bool

abbrev Net := StateT Socket (Except Stop)

/-- Where a socket sends: the bytes on the wire, and what further calls to `send` meet. -/
structure Outlet where
  wire : List UInt8
  departures : List Departure

/-- No call to `send` fails. -/
def Outlet.Up (o : Outlet) : Prop := ∀ d ∈ o.departures, d ≠ .failed

def Outlet.room (o : Outlet) : ℕ := o.departures.countP Departure.hasRoom

def Coroutine_stacksize : ℕ := 1024 * 1024

/-- What is left of a coroutine's stack where `receive` declares its `char buffer[size]`: enough for
the fields of a header, and less than the whole stack. -/
structure Room where
  bytes : ℕ
  fields_le : 8 ≤ bytes
  bytes_lt : bytes < Coroutine_stacksize

namespace Socket

/-- The loop of `receive(std::string&, size_t)`: `none` for the return of `-1`, which leaves
the string unassigned, and the bytes otherwise. -/
def receiveLoop (size : ℕ) (m_is_connected : Bool) (incoming got : List UInt8) :
    List Arrival → Except Stop (Option (List UInt8) × Socket)
  | [] =>
    if size ≤ got.length then .ok (some got, ⟨⟨incoming, []⟩, m_is_connected⟩)
    else .error .waiting
  | a :: arrivals =>
    if size ≤ got.length then .ok (some got, ⟨⟨incoming, a :: arrivals⟩, m_is_connected⟩)
    else match a.outcome (size - got.length) incoming with
      -- the coroutine yields and tries again
      | .again => receiveLoop size m_is_connected incoming got arrivals
      | .failed => .ok (none, ⟨⟨incoming, arrivals⟩, m_is_connected⟩)
      | .got [] => .ok (some got, ⟨⟨incoming, arrivals⟩, false⟩)
      | .got (b :: bs) =>
        receiveLoop size m_is_connected (incoming.drop (b :: bs).length) (got ++ b :: bs) arrivals

/-- `receive(std::string&, size_t)` with a buffer that fits on the stack. -/
def receiveBuffered (size : ℕ) : Net (Option (List UInt8)) := fun s =>
  receiveLoop size s.m_is_connected s.feed.incoming [] s.feed.arrivals

/-- `receive(std::string&, size_t)`; a longer `buffer` lies outside the stack. -/
def receiveString (room : Room) (size : ℕ) : Net (Option (List UInt8)) :=
  if size ≤ room.bytes then receiveBuffered size else throw .undefined

/-- `receive(Serializer&, size_t)`: after a failure the string is still empty. -/
def receiveSerializer (room : Room) (size : ℕ) (s : Serializer) : Net Serializer := do
  let str ← receiveString room size
  match Buffer.write (str.getD []) s with
  | some (_, s) => return s
  | none => throw .thrown

def serially {α : Type} (p : Codec α) (s : Serializer) : Net (α × Serializer) :=
  match p s with
  | some r => return r
  | none => throw .thrown

/-- The three words that `receive(Message&)` reads back; the third is the content's length. -/
def contentLenth : Codec UInt64 := do
  let _tmp ← Serializer.read .uint32
  let _size ← Serializer.read .uint64
  Serializer.read .uint64

/-- `receive(Message&)` from its first `reset` on. -/
def receiveContent (room : Room) (s : Serializer) : Net Serializer := do
  let (_, s) ← serially Serializer.reset s
  if s.size = 0 then return s
  let (size, s) ← serially contentLenth s
  let s ← receiveSerializer room size.toNat s
  let (_, s) ← serially Serializer.reset s
  return s

/-- `receive(Message&)`, on the message's serializer. -/
def receiveMessage (room : Room) (s : Serializer) : Net Serializer := do
  let s ← receiveSerializer room 1 s
  let s ← receiveSerializer room 1 s
  let s ← receiveSerializer room 1 s
  let s ← receiveSerializer room 1 s
  let s ← receiveSerializer room 8 s
  let s ← receiveSerializer room 8 s
  receiveContent room s

/-- The loop of `send(const std::string&)`; `false` for the return of `-1`. -/
def sendLoop (data : List UInt8) (totalBytesSent : ℕ) (wire : List UInt8) :
    List Departure → Except Stop (Bool × Outlet)
  | [] => if data.length ≤ totalBytesSent then .ok (true, ⟨wire, []⟩) else .error .waiting
  | d :: departures =>
    if data.length ≤ totalBytesSent then .ok (true, ⟨wire, d :: departures⟩)
    else match d with
      | .again => sendLoop data totalBytesSent wire departures
      | .failed => .ok (false, ⟨wire, departures⟩)
      | .room n =>
        let bytesSent := (data.drop totalBytesSent).take n
        sendLoop data (totalBytesSent + bytesSent.length) (wire ++ bytesSent) departures

/-- `send(const std::string&)`. -/
def sendString (data : Text) : StateT Outlet (Except Stop) Bool := fun o =>
  sendLoop data.bytes 0 o.wire o.departures

/-- `send(const Message&)`, on the message's serializer. -/
def sendMessage (s : Serializer) : StateT Outlet (Except Stop) Bool :=
  match s.toString with
  | some str => sendString str
  | none => throw .thrown

/-- While no call fails, `p` puts `bs` on the wire, unless fewer calls find room than there are
bytes. -/
def Emits (p : StateT Outlet (Except Stop) Bool) (bs : List UInt8) : Prop :=
  ∀ o, o.Up →
    (∃ o', p o = .ok (true, o') ∧ o'.Up ∧ o'.wire = o.wire ++ bs ∧
      o.room ≤ o'.room + bs.length) ∨
    (p o = .error .waiting ∧ o.room < bs.length)

/-- The loop sends on until all is sent, in whatever pieces it goes. -/
theorem sendLoop_up {data : List UInt8} {departures : List Departure} :
    ∀ {total : ℕ} {wire : List UInt8}, (∀ d ∈ departures, d ≠ .failed) →
    (∃ o', sendLoop data total wire departures = .ok (true, o') ∧ o'.Up ∧
      o'.wire = wire ++ data.drop total ∧
      departures.countP Departure.hasRoom ≤ o'.room + (data.drop total).length) ∨
    (sendLoop data total wire departures = .error .waiting ∧
      departures.countP Departure.hasRoom < (data.drop total).length) := by
  induction departures with
  | nil =>
    intro total wire up
    unfold sendLoop
    by_cases done : data.length ≤ total
    · rw [if_pos done, List.drop_eq_nil_of_le done]
      exact .inl ⟨_, rfl, up, (List.append_nil wire).symm, le_rfl⟩
    · rw [if_neg done, List.length_drop]
      exact .inr ⟨rfl, Nat.sub_pos_of_lt (Nat.lt_of_not_le done)⟩
  | cons d departures ih =>
    intro total wire up
    have later : ∀ d ∈ departures, d ≠ .failed := fun d mem => up d (List.mem_cons_of_mem _ mem)
    unfold sendLoop
    by_cases done : data.length ≤ total
    · rw [if_pos done, List.drop_eq_nil_of_le done]
      exact .inl ⟨_, rfl, up, (List.append_nil wire).symm, le_rfl⟩
    · rw [if_neg done]
      cases d with
      | again => exact ih later
      | failed => exact absurd rfl (up _ List.mem_cons_self)
      | room n =>
        have pieces := List.prefix_iff_eq_append.mp (List.take_prefix n (data.drop total))
        have left : ((data.drop total).take n).length + (data.drop (total +
            ((data.drop total).take n).length)).length = (data.drop total).length := by
          simp only [List.length_drop, List.length_take]
          omega
        have gain : (Departure.room n :: departures).countP Departure.hasRoom ≤
            departures.countP Departure.hasRoom + ((data.drop total).take n).length := by
          rw [List.countP_cons, List.length_take, List.length_drop]
          cases n with
          | zero => exact Nat.le_add_right _ _
          | succ n => split <;> omega
        rcases ih later with ⟨o', eq, up', wire', room⟩ | ⟨eq, short⟩
        · refine .inl ⟨o', eq, up', ?_, by omega⟩
          rw [wire', List.append_assoc, ← List.drop_drop, pieces]
        · exact .inr ⟨eq, by omega⟩

theorem emits_sendString (data : Text) : Emits (sendString data) data.bytes := fun _ up =>
  sendLoop_up up

/-- The loop reads on until it has `size` bytes, in whatever pieces they come. -/
theorem receiveLoop_open {size : ℕ} {c : Bool} {rest : List UInt8} {arrivals : List Arrival} :
    ∀ {got bs : List UInt8}, (∀ a ∈ arrivals, a ≠ .closed ∧ a ≠ .failed) →
    got.length + bs.length = size →
    (∃ arrivals', receiveLoop size c (bs ++ rest) got arrivals =
        .ok (some (got ++ bs), ⟨⟨rest, arrivals'⟩, c⟩) ∧
      (∀ a ∈ arrivals', a ≠ .closed ∧ a ≠ .failed) ∧
      arrivals.countP Arrival.isReady ≤ arrivals'.countP Arrival.isReady + bs.length) ∨
    (receiveLoop size c (bs ++ rest) got arrivals = .error .waiting ∧
      arrivals.countP Arrival.isReady < bs.length) := by
  induction arrivals with
  | nil =>
    intro got bs isOpen length
    unfold receiveLoop
    cases bs with
    | nil =>
      have full : size ≤ got.length := length.ge
      rw [if_pos full, List.nil_append, List.append_nil]
      exact .inl ⟨[], rfl, isOpen, le_rfl⟩
    | cons b bs =>
      have wants : ¬ size ≤ got.length := by
        rw [List.length_cons] at length
        omega
      rw [if_neg wants]
      exact .inr ⟨rfl, Nat.succ_pos _⟩
  | cons a arrivals ih =>
    intro got bs isOpen length
    have later : ∀ a ∈ arrivals, a ≠ .closed ∧ a ≠ .failed := fun a mem =>
      isOpen a (List.mem_cons_of_mem _ mem)
    unfold receiveLoop
    by_cases done : bs = []
    · subst done
      have full : size ≤ got.length := length.ge
      rw [if_pos full, List.nil_append, List.append_nil]
      exact .inl ⟨a :: arrivals, rfl, isOpen, Nat.le_add_right _ _⟩
    · have pos : 0 < bs.length := List.length_pos_iff.mpr done
      have wants : ¬ size ≤ got.length := by omega
      have some : bs ++ rest ≠ [] := by simp [done]
      have step : (a :: arrivals).countP Arrival.isReady ≤
          arrivals.countP Arrival.isReady + 1 := by
        rw [List.countP_cons]
        split <;> omega
      rw [if_neg wants]
      rcases outcome_open (isOpen a List.mem_cons_self) (by omega : 0 < size - got.length) some
        with ⟨idle, again⟩ | ⟨b, ds, rest', piece, split, short⟩
      · have same : (a :: arrivals).countP Arrival.isReady = arrivals.countP Arrival.isReady := by
          rw [List.countP_cons_of_neg (by simp [idle])]
        rw [again, same]
        exact ih later length
      · rw [piece]
        simp only
        obtain ⟨bs', rfl⟩ : b :: ds <+: bs := by
          apply List.prefix_of_prefix_length_le ⟨rest', split.symm⟩ ⟨rest, rfl⟩
          rw [List.length_cons]
          omega
        have tail : (b :: ds ++ bs' ++ rest).drop (b :: ds).length = bs' ++ rest := by
          rw [List.append_assoc, List.drop_left]
        have total : (got ++ b :: ds).length + bs'.length = size := by
          rw [List.length_append] at length ⊢
          omega
        rw [tail]
        rw [List.length_append]
        rcases ih later total with ⟨arrivals', eq, isOpen', supply⟩ | ⟨eq, supply⟩
        · rw [List.append_assoc] at eq
          exact .inl ⟨arrivals', eq, isOpen', by rw [List.length_cons]; omega⟩
        · exact .inr ⟨eq, by rw [List.length_cons]; omega⟩

/-- `receive(std::string&, size_t)` takes exactly the bytes it is asked for. -/
theorem obtains_receiveBuffered (bs : List UInt8) :
    Obtains Socket.feed (receiveBuffered bs.length) bs (some bs) := by
  intro s rest isOpen h
  have length : ([] : List UInt8).length + bs.length = bs.length := Nat.zero_add bs.length
  rw [receiveBuffered, h]
  rcases receiveLoop_open isOpen length with ⟨arrivals', eq, isOpen', supply⟩ | waiting
  · exact .inl ⟨_, eq, isOpen', rfl, supply⟩
  · exact .inr waiting

section Room
variable {room : Room}

theorem receiveString_fits {size : ℕ} (fits : size ≤ room.bytes) :
    receiveString room size = receiveBuffered size := if_pos fits

theorem receiveSerializer_overruns {size : ℕ} (long : room.bytes < size) (s : Serializer)
    (k : Socket) : receiveSerializer room size s k = .error .undefined := by
  have string : receiveString room size = throw .undefined := if_neg (Nat.not_le.mpr long)
  rw [receiveSerializer, string]
  rfl

theorem obtains_receiveSerializer (s : Serializer) {bs : List UInt8}
    (fits : bs.length ≤ room.bytes) :
    Obtains Socket.feed (receiveSerializer room bs.length s) bs (s.append bs) := by
  rw [receiveSerializer, receiveString_fits fits]
  apply (obtains_receiveBuffered bs).finish
  exact Obtains.pure (s.append bs)

end Room

end Socket

end CRpc
