import CRpc.Rpc.Protocol
import CRpc.Socket.Frames

/-! Messages cross a byte stream as they were built, however it is cut into pieces. -/
namespace CRpc
open Streams Util Endian

variable {room : Room}

/-- The three words before the content: the third is its length. -/
theorem reads_contentLenth (m : Message) {content : List UInt8} (fits : content.length < 2 ^ 62) :
    Buffer.Reads Socket.contentLenth (m.header ++ big 8 content.length)
      (.ofNat content.length) := by
  have last := Buffer.reads_size (length_lt fits)
  have split : m.header ++ big 8 content.length =
      [m.magic, m.version, m.type, m.errCode] ++ (big 8 m.seq.toNat ++ big 8 content.length) := rfl
  rw [split]
  apply Buffer.Reads.bind
  · exact Buffer.reads_word (f := fun value => ntohl (.ofNat (ofLittle value))) rfl rfl
  · exact (reads_read .uint64 m.seq).bind last

theorem length_front (m : Message) (n : ℕ) : (m.header ++ big 8 n).length = 20 := by
  simp only [Message.header, List.length_append, List.length_singleton, length_big]

theorem announced_front (m : Message) {content : List UInt8} (fits : content.length < 2 ^ 62) :
    Socket.announced (m.header ++ big 8 content.length) = content.length := by
  have words := reads_contentLenth m fits ⟨m.header ++ big 8 content.length, 0, Nat.zero_le _⟩ []
    (by rw [List.append_nil]; rfl)
  have whole := Socket.contentLenth_whole (length_front m content.length)
  rw [words] at whole
  exact (congrArg Prod.fst (Option.some.inj whole)).symm.trans (toNat_length fits)

theorem length_frame (m : Message) (content : List UInt8) :
    (m.frame content).length = 20 + content.length := by
  rw [Message.frame, ← List.append_assoc, List.length_append, length_front]

theorem whole_frame (m : Message) {content : List UInt8} (fits : content.length < 2 ^ 62) :
    Socket.frames.Whole (m.frame content) := by
  have announced : Socket.announced (m.frame content) = content.length := by
    rw [Message.frame, ← List.append_assoc, Socket.announced_append (length_front m _).ge,
      announced_front m fits]
  have long : 20 ≤ (m.frame content).length := by
    rw [length_frame]
    exact Nat.le_add_right _ _
  change (if 20 ≤ (m.frame content).length then some (20 + Socket.announced (m.frame content))
    else none) = _
  rw [if_pos long, announced, length_frame]

/-- A frame whose content does not fit on the stack is not received. -/
theorem receiveMessage_overruns (m : Message) {content : List UInt8}
    (fits : content.length < 2 ^ 62) (long : room.bytes < content.length) {s : Socket}
    {rest : List UInt8} (isOpen : s.feed.Open)
    (stream : s.feed.incoming = m.frame content ++ rest) (r : Serializer × Socket) :
    Socket.receiveMessage room .empty s ≠ .ok r := by
  have front := length_front m content.length
  have fields := Socket.obtains_receiveFields room [1, 1, 1, 1, 8, 8] (by decide) .empty front
  rw [Message.frame, ← List.append_assoc, List.append_assoc] at stream
  rw [Socket.receiveMessage_eq]
  change (Socket.receiveFields room [1, 1, 1, 1, 8, 8] .empty s >>= fun r =>
    Socket.receiveContent room r.1 r.2) ≠ _
  rcases fields s _ isOpen stream with ⟨s', eq, -⟩ | ⟨eq, -⟩
  · have longer : room.bytes <
        Socket.announced (Buffer.empty.append (m.header ++ big 8 content.length)).m_data := by
      rwa [Socket.append_empty_data, announced_front m fits]
    have overrun := Socket.receiveContent_overruns front longer s'
    rw [eq]
    intro done
    cases overrun.symm.trans done
  · rw [eq]
    intro done
    cases done

/-- A message as its sender builds it: the arguments of its constructor, its `seq`, what the
memory of `contentLenth` held, and the serializer whose bytes it carries. -/
structure Outgoing where
  type : UInt8
  errCode : UInt8
  version : UInt8
  seq : UInt64
  memory : UInt64
  content : Serializer

namespace Outgoing

def message (o : Outgoing) : Message := .new o.type o.errCode o.version o.seq o.memory

def bytes (o : Outgoing) : List UInt8 := o.message.frame o.content.m_data

end Outgoing

/-- A message encoded and sent; `false` for a `send` that returned `-1`. -/
def sendNext (o : Outgoing) : StateT Outlet (Except Stop) Bool :=
  match o.message.encode o.content with
  | some m => Socket.sendMessage m.serializer
  | none => throw .thrown

def sendAll : List Outgoing → StateT Outlet (Except Stop) Bool
  | [] => return true
  | o :: os => do
    let sent ← sendNext o
    let rest ← sendAll os
    return sent && rest

/-- A fresh message, received and decoded; its `seq` and its memory are arbitrary. -/
def receiveNext (room : Room) (fresh : UInt64 × UInt64) : Net Message := do
  let m := Message.new 0 0 1 fresh.1 fresh.2
  let serializer ← Socket.receiveMessage room m.serializer
  match ({ m with serializer } : Message).decode with
  | some m => return m
  | none => throw .thrown

/-- Messages received one after the other, each into a fresh one. -/
def receiveAll (room : Room) : List (UInt64 × UInt64) → Net (List Message)
  | [] => return []
  | fresh :: others => do
    let m ← receiveNext room fresh
    let ms ← receiveAll room others
    return m :: ms

def Arrives (o : Outgoing) (m : Message) : Prop := Message.Received o.message o.content.m_data m

theorem length_bytes (o : Outgoing) : o.content.m_data.length ≤ o.bytes.length := by
  rw [Outgoing.bytes, Message.frame, List.length_append, List.length_append]
  omega

theorem sendNext_cases (o : Outgoing) :
    (o.content.m_data.length < 2 ^ 62 ∧ Socket.Emits (sendNext o) o.bytes) ∨
    (2 ^ 62 ≤ o.bytes.length ∧ sendNext o = throw .thrown) := by
  unfold sendNext
  cases built : o.message.encode o.content with
  | none => exact .inr ⟨(Message.encode_none built).trans (length_bytes o), rfl⟩
  | some m =>
    obtain ⟨framed, fits⟩ := Message.encode_frame built
    have data : m.serializer.m_data = o.bytes := by
      rw [framed]
      rfl
    simp only [Socket.sendMessage, Serializer.toString, Text.ofBytes, data]
    by_cases short : o.bytes.length < 2 ^ 62
    · rw [dif_pos short]
      exact .inl ⟨fits, Socket.emits_sendString ⟨o.bytes, short⟩⟩
    · rw [dif_neg short]
      exact .inr ⟨Nat.le_of_not_lt short, rfl⟩

theorem sendAll_cases (os : List Outgoing) :
    ∀ {out : Outlet}, out.Up →
    (∃ out', sendAll os out = .ok (true, out') ∧ out'.wire = out.wire ++ os.flatMap Outgoing.bytes ∧
      ∀ o ∈ os, o.content.m_data.length < 2 ^ 62) ∨
    (sendAll os out = .error .waiting ∧ out.room < (os.flatMap Outgoing.bytes).length) ∨
    (sendAll os out = .error .thrown ∧ ∃ o ∈ os, 2 ^ 62 ≤ o.bytes.length) := by
  induction os with
  | nil =>
    intro out _
    exact .inl ⟨out, rfl, (List.append_nil _).symm, nofun⟩
  | cons o os ih =>
    intro out up
    have run : sendAll (o :: os) out = sendNext o out >>= fun r =>
        sendAll os r.2 >>= fun r' => .ok (r.1 && r'.1, r'.2) := rfl
    rw [run, List.flatMap_cons, List.length_append]
    rcases sendNext_cases o with ⟨fits, emits⟩ | ⟨long, thrown⟩
    · rcases emits out up with ⟨mid, eq, up', wire, room⟩ | ⟨eq, short⟩
      · rw [eq]
        change (∃ out', (sendAll os mid >>= fun r' => .ok (true && r'.1, r'.2)) = _ ∧ _) ∨
          ((sendAll os mid >>= fun r' => .ok (true && r'.1, r'.2)) = _ ∧ _) ∨
          ((sendAll os mid >>= fun r' => .ok (true && r'.1, r'.2)) = _ ∧ _)
        rcases ih up' with ⟨out', eq', wire', each⟩ | ⟨eq', short⟩ | ⟨eq', x, mem, long⟩
        · rw [eq']
          refine .inl ⟨out', rfl, ?_, List.forall_mem_cons.mpr ⟨fits, each⟩⟩
          rw [wire', wire, List.append_assoc]
        · rw [eq']
          exact .inr (.inl ⟨rfl, by omega⟩)
        · rw [eq']
          exact .inr (.inr ⟨rfl, x, List.mem_cons_of_mem _ mem, long⟩)
      · rw [eq]
        exact .inr (.inl ⟨rfl, by omega⟩)
    · rw [thrown]
      exact .inr (.inr ⟨rfl, o, List.mem_cons_self, long⟩)

theorem obtains_receiveNext (o : Outgoing) (small : o.content.m_data.length < 2 ^ 62)
    (fits : o.content.m_data.length ≤ room.bytes) (fresh : UInt64 × UInt64) :
    ∃ m, Arrives o m ∧ Obtains Socket.feed (receiveNext room fresh) o.bytes m := by
  obtain ⟨m, decoded, arrives⟩ := Message.decode_frame o.message
    { Message.new 0 0 1 fresh.1 fresh.2 with
      serializer := ⟨o.message.frame o.content.m_data, 0, Nat.zero_le _⟩ } small rfl rfl
  refine ⟨m, arrives, ?_⟩
  have length : (o.message.frame o.content.m_data).length ≤ 20 + room.bytes := by
    rw [length_frame]
    exact Nat.add_le_add_left fits 20
  apply Obtains.finish (Socket.obtains_frame (whole_frame o.message small) length)
  simp only [decoded]
  exact Obtains.pure m

theorem obtains_receiveAll {os : List Outgoing} :
    ∀ {fresh : List (UInt64 × UInt64)}, (∀ o ∈ os, o.content.m_data.length < 2 ^ 62) →
    (∀ o ∈ os, o.content.m_data.length ≤ room.bytes) → fresh.length = os.length →
    ∃ ms, List.Forall₂ Arrives os ms ∧
      Obtains Socket.feed (receiveAll room fresh) (os.flatMap Outgoing.bytes) ms := by
  induction os with
  | nil =>
    intro fresh _ _ length
    cases fresh with
    | nil => exact ⟨[], .nil, Obtains.pure []⟩
    | cons => cases length
  | cons o os ih =>
    intro fresh small fits length
    cases fresh with
    | nil => cases length
    | cons first fresh =>
      obtain ⟨small, smalls⟩ := List.forall_mem_cons.mp small
      obtain ⟨fits, others⟩ := List.forall_mem_cons.mp fits
      obtain ⟨m, arrives, obtains⟩ := obtains_receiveNext o small fits first
      obtain ⟨ms, arrive, later⟩ := ih smalls others (Nat.succ.inj length)
      refine ⟨m :: ms, .cons arrives arrive, ?_⟩
      rw [List.flatMap_cons]
      exact obtains.bind (later.finish (Obtains.pure (m :: ms)))

/-- Not all of these messages are received where one is too long. -/
theorem receiveAll_overruns {os : List Outgoing} :
    ∀ {fresh : List (UInt64 × UInt64)} {s : Socket} {rest : List UInt8},
    (∀ o ∈ os, o.content.m_data.length < 2 ^ 62) →
    (∃ o ∈ os, room.bytes < o.content.m_data.length) → fresh.length = os.length →
    s.feed.Open → s.feed.incoming = os.flatMap Outgoing.bytes ++ rest →
    ∀ r, receiveAll room fresh s ≠ .ok r := by
  induction os with
  | nil => exact fun _ ⟨_, mem, _⟩ => absurd mem List.not_mem_nil
  | cons o os ih =>
    intro fresh s rest small long length isOpen stream r
    cases fresh with
    | nil => cases length
    | cons first fresh =>
      obtain ⟨small, smalls⟩ := List.forall_mem_cons.mp small
      rw [List.flatMap_cons, List.append_assoc] at stream
      change (receiveNext room first s >>= fun r => receiveAll room fresh r.2 >>= _) ≠ _
      by_cases fits : o.content.m_data.length ≤ room.bytes
      · have later : ∃ o ∈ os, room.bytes < o.content.m_data.length := by
          obtain ⟨x, mem, longer⟩ := long
          rcases List.mem_cons.mp mem with rfl | mem
          · exact absurd fits (Nat.not_le.mpr longer)
          · exact ⟨x, mem, longer⟩
        obtain ⟨m, -, obtains⟩ := obtains_receiveNext o small fits first
        rcases obtains s _ isOpen stream with ⟨s', eq, isOpen', stream', -⟩ | ⟨eq, -⟩
        · rw [eq]
          intro done
          cases all : receiveAll room fresh s' with
          | ok r' => exact ih smalls later (Nat.succ.inj length) isOpen' stream' r' all
          | error e =>
            change (receiveAll room fresh s' >>= _) = _ at done
            rw [all] at done
            cases done
        · rw [eq]
          exact nofun
      · have longer : room.bytes < o.content.m_data.length := Nat.lt_of_not_le fits
        intro done
        cases one : Socket.receiveMessage room .empty s with
        | ok r' => exact receiveMessage_overruns o.message small longer isOpen stream r' one
        | error e =>
          have none : receiveNext room first s = .error e := by
            change (Socket.receiveMessage room .empty s >>= _) = _
            rw [one]
            rfl
          rw [none] at done
          cases done

/-- However this stream is cut, what is received of it are these messages, in order; receiving
waits only while fewer pieces than bytes have come. -/
def Delivers (room : Room) (os : List Outgoing) (wire : List UInt8) : Prop :=
  ∀ (s : Socket) (later : List UInt8), s.feed.Open → s.feed.incoming = wire ++ later →
  ∀ fresh : List (UInt64 × UInt64), fresh.length ≤ os.length →
    (∃ ms s', receiveAll room fresh s = .ok (ms, s') ∧
      List.Forall₂ Arrives (os.take fresh.length) ms) ∨
    (receiveAll room fresh s = .error .waiting ∧ s.feed.supply < wire.length)

theorem delivers_iff {os : List Outgoing} (small : ∀ o ∈ os, o.content.m_data.length < 2 ^ 62) :
    Delivers room os (os.flatMap Outgoing.bytes) ↔
      ∀ o ∈ os, o.content.m_data.length ≤ room.bytes := by
  constructor
  · intro delivers o mem
    by_contra longer
    have long : ∃ o ∈ os, room.bytes < o.content.m_data.length := ⟨o, mem, Nat.lt_of_not_le longer⟩
    have isOpen := Feed.open_replicate (os.flatMap Outgoing.bytes)
      (os.flatMap Outgoing.bytes).length 0
    have all := Feed.supply_replicate (os.flatMap Outgoing.bytes)
      (os.flatMap Outgoing.bytes).length 0
    rcases delivers ⟨⟨_, _⟩, true⟩ [] isOpen (List.append_nil _).symm (os.map fun _ => (0, 0))
      (List.length_map _).le with ⟨ms, s', eq, -⟩ | ⟨-, short⟩
    · exact receiveAll_overruns small long (List.length_map _) isOpen (List.append_nil _).symm _ eq
    · exact absurd short (Nat.not_lt.mpr all.ge)
  · intro fits s later isOpen stream fresh count
    have length : fresh.length = (os.take fresh.length).length := by simp [count]
    obtain ⟨ms, arrive, obtains⟩ := obtains_receiveAll
      (fun o mem => small o (List.mem_of_mem_take mem))
      (fun o mem => fits o (List.mem_of_mem_take mem)) length
    have split : os.flatMap Outgoing.bytes = (os.take fresh.length).flatMap Outgoing.bytes ++
        (os.drop fresh.length).flatMap Outgoing.bytes := by
      rw [← List.flatMap_append, List.take_append_drop]
    rw [split, List.append_assoc] at stream
    rcases obtains s _ isOpen stream with ⟨s', eq, -⟩ | ⟨eq, short⟩
    · exact .inl ⟨ms, s', eq, arrive⟩
    · rw [split, List.length_append]
      exact .inr ⟨eq, by omega⟩

/-- However the messages are sent, those received are those sent exactly when there is room for the
content of each. Sending waits only while fewer calls than bytes find room; a message longer than a
string can be is not sent. -/
theorem messages_arrive (os : List Outgoing) (departures : List Departure)
    (up : ∀ d ∈ departures, d ≠ .failed) :
    (sendAll os ⟨[], departures⟩ = .error .thrown ∧ ∃ o ∈ os, 2 ^ 62 ≤ o.bytes.length) ∨
    (sendAll os ⟨[], departures⟩ = .error .waiting ∧
      departures.countP Departure.hasRoom < (os.flatMap Outgoing.bytes).length) ∨
    ∃ out, sendAll os ⟨[], departures⟩ = .ok (true, out) ∧ ∀ room : Room,
      Delivers room os out.wire ↔ ∀ o ∈ os, o.content.m_data.length ≤ room.bytes := by
  have outlet : Outlet.Up ⟨[], departures⟩ := up
  rcases sendAll_cases os outlet with ⟨out, sent, wire, small⟩ | waiting | thrown
  · rw [List.nil_append] at wire
    exact .inr (.inr ⟨out, sent, fun room => wire ▸ delivers_iff small⟩)
  · exact .inr (.inl waiting)
  · exact .inl thrown

/-- A message with as much content as a coroutine has stack. -/
def tome : Outgoing := ⟨0, 0, 1, 5, 0, Buffer.empty.append (.replicate Coroutine_stacksize 7)⟩

theorem length_tome : tome.content.m_data.length = Coroutine_stacksize := by
  change ([] ++ List.replicate Coroutine_stacksize (7 : UInt8)).length = _
  rw [List.nil_append, List.length_replicate]

theorem up_replicate (n : ℕ) : Outlet.Up ⟨[], .replicate n (.room 1)⟩ := fun d mem => by
  simp [List.eq_of_mem_replicate mem]

theorem room_replicate (n : ℕ) : Outlet.room ⟨[], .replicate n (.room 1)⟩ = n := by
  simp [Outlet.room, List.countP_replicate, Departure.hasRoom]

/-- A tome is sent, and wherever `receive` runs its buffer does not fit. -/
theorem tome_not_received : ∃ out,
    sendAll [tome] ⟨[], .replicate tome.bytes.length (.room 1)⟩ = .ok (true, out) ∧
      ∀ room : Room, ¬ Delivers room [tome] out.wire := by
  have length : tome.bytes.length = 20 + Coroutine_stacksize :=
    (length_frame _ _).trans (congrArg (20 + ·) length_tome)
  have small : ¬ 2 ^ 62 ≤ tome.bytes.length := by
    rw [length, Coroutine_stacksize]
    omega
  rcases sendAll_cases [tome] (up_replicate tome.bytes.length) with
    ⟨out, sent, wire, each⟩ | ⟨-, short⟩ | ⟨-, o, mem, long⟩
  · refine ⟨out, sent, fun room delivers => ?_⟩
    rw [wire, List.nil_append] at delivers
    have fits := (delivers_iff each).mp delivers tome (List.mem_singleton_self tome)
    rw [length_tome] at fits
    exact absurd room.bytes_lt (Nat.not_lt.mpr fits)
  · rw [List.flatMap_singleton, room_replicate] at short
    exact absurd short (lt_irrefl _)
  · rw [List.mem_singleton.mp mem] at long
    exact absurd long small

/-- One message of two bytes, sent in three pieces; a piece for every byte may come back. -/
def letter : Outgoing := ⟨0, 0, 1, 5, 0, Buffer.empty.append [7, 8]⟩

def pieces : List Departure := [.room 3, .again, .room 1, .room 99]

def mailbox : Socket := ⟨⟨letter.bytes, .replicate 22 (.ready 4)⟩, true⟩

theorem messages_arrive_letter : (∃ out, sendAll [letter] ⟨[], pieces⟩ = .ok (true, out)) ∧
    ∃ ms s', receiveAll Socket.spare [(9, 0)] mailbox = .ok (ms, s') ∧
      List.Forall₂ Arrives [letter] ms := by
  have out : sendAll [letter] ⟨[], pieces⟩ = .ok (true, ⟨letter.bytes, []⟩) := rfl
  have isOpen : mailbox.feed.Open := Feed.open_replicate letter.bytes 22 4
  rcases messages_arrive [letter] pieces (by decide) with ⟨eq, -⟩ | ⟨eq, -⟩ | ⟨out', eq, all⟩
  · cases out.symm.trans eq
  · cases out.symm.trans eq
  · cases out.symm.trans eq
    have fits : ∀ o ∈ [letter], o.content.m_data.length ≤ Socket.spare.bytes := by decide
    refine ⟨⟨_, out⟩, ?_⟩
    rcases (all Socket.spare).mpr fits mailbox [] isOpen (List.append_nil _).symm [(9, 0)] le_rfl
      with arrive | ⟨-, short⟩
    · exact arrive
    · exact absurd short (by decide)

end CRpc
