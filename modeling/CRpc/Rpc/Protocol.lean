import CRpc.Socket.Socket

/-! `rpc_protocol.h`: a message, its header and its length, and how it crosses a socket. -/
namespace CRpc
open Streams Util Endian

/-- `Message`; `serializer` is what `serializerPtr` points to. -/
structure Message where
  magic : UInt8
  version : UInt8
  type : UInt8
  errCode : UInt8
  seq : UInt64
  contentLenth : UInt64
  serializer : Serializer

namespace Message

/-- `enum Type : uint8_t`, as far as it is dispatched on here. -/
def RPC_REQUEST : UInt8 := 0
def RPC_CLIENT_INIT : UInt8 := 1
def RPC_SERVICE_DISCOVER : UInt8 := 2
def RPC_RESPONSE : UInt8 := 4
def RPC_SERVER_INIT : UInt8 := 5
def RPC_SERVICE_DELETE : UInt8 := 6
def RPC_SERVICE_REGISTER : UInt8 := 7
def RPC_SERVICE_REGISTER_RESPONSE : UInt8 := 8
def RPC_SERVICE_DISCOVER_RESPONSE : UInt8 := 9
def HEART_BEAT : UInt8 := 12
def RAFT_REDIRECT : UInt8 := 13

/-- The constructor; `seq` comes from `SEQ` or is set later, and `contentLenth` is what the
memory held. -/
def new (type errCode version : UInt8) (seq contentLenth : UInt64) : Message :=
  ⟨0x66, version, type, errCode, seq, contentLenth, .empty⟩

/-- `<<magic<<version<<type<<errCode<<seq`. -/
def writeHeader (m : Message) : Codec Unit := do
  Serializer.write .uint8 m.magic
  Serializer.write .uint8 m.version
  Serializer.write .uint8 m.type
  Serializer.write .uint8 m.errCode
  Serializer.write .uint64 m.seq

def encode (m : Message) (s : Serializer) : Option Message := do
  let (_, serializer) ← m.writeHeader m.serializer
  let contentLenth := UInt64.ofNat s.size
  let temp ← s.toString
  let (_, serializer) ← Serializer.writeString temp serializer
  return { m with contentLenth, serializer }

/-- `>>magic>>version>>type>>errCode>>seq>>contentLenth`. -/
def readHeader (m : Message) : Codec Message := do
  let magic ← Serializer.read .uint8
  let version ← Serializer.read .uint8
  let type ← Serializer.read .uint8
  let errCode ← Serializer.read .uint8
  let seq ← Serializer.read .uint64
  let contentLenth ← Serializer.read .uint64
  return { m with magic, version, type, errCode, seq, contentLenth }

def decode (m : Message) : Option Message := do
  let (m, serializer) ← m.readHeader m.serializer
  return { m with serializer }

def header (m : Message) : List UInt8 :=
  [m.magic] ++ ([m.version] ++ ([m.type] ++ ([m.errCode] ++ big 8 m.seq.toNat)))

def frame (m : Message) (content : List UInt8) : List UInt8 :=
  m.header ++ (big 8 content.length ++ content)

theorem writeHeader_eq (m : Message) : m.writeHeader = Buffer.write m.header := by
  simp only [writeHeader, write_eq, Scalar.bytes, Buffer.write_write, header]

theorem toString_eq {s : Serializer} {t : Text} (h : s.toString = some t) : t.bytes = s.m_data := by
  unfold Serializer.toString Text.ofBytes at h
  split at h
  · cases h
    rfl
  · cases h

/-- Encoding appends the header and the content, as a string, to the bytes there are. -/
theorem encode_eq (m : Message) (s : Serializer) :
    m.encode s = s.toString.map fun temp => { m with
      contentLenth := .ofNat s.size
      serializer := m.serializer.append (m.header ++ temp.encoded) } := by
  rw [encode, writeHeader_eq]
  change (s.toString.bind fun temp => _) = _
  cases s.toString with
  | none => rfl
  | some temp =>
    rw [Option.bind_some, writeString_eq, Option.map_some, ← Buffer.append_append]
    rfl

theorem encode_frame {m m' : Message} {s : Serializer} (h : m.encode s = some m') :
    m'.serializer = m.serializer.append (m.frame s.m_data) ∧ s.m_data.length < 2 ^ 62 := by
  rw [encode_eq] at h
  obtain ⟨temp, text, rfl⟩ := Option.map_eq_some_iff.mp h
  have bytes := toString_eq text
  refine ⟨?_, bytes ▸ temp.size_le⟩
  rw [frame, ← bytes, Text.encoded]

theorem encode_header {m m' : Message} {s : Serializer} (h : m.encode s = some m') :
    m'.seq = m.seq ∧ m'.type = m.type := by
  rw [encode_eq] at h
  obtain ⟨temp, -, rfl⟩ := Option.map_eq_some_iff.mp h
  exact ⟨rfl, rfl⟩

theorem encode_none {m : Message} {s : Serializer} (h : m.encode s = none) :
    2 ^ 62 ≤ s.m_data.length := by
  rw [encode_eq, Option.map_eq_none_iff] at h
  unfold Serializer.toString Text.ofBytes at h
  split at h
  · cases h
  · exact Nat.le_of_not_lt ‹_›

/-- What a decoded message has of the one that was encoded: the header, the length of the
content, and the content still to be read. -/
structure Received (m : Message) (content : List UInt8) (d : Message) : Prop where
  magic : d.magic = m.magic
  version : d.version = m.version
  type : d.type = m.type
  errCode : d.errCode = m.errCode
  seq : d.seq = m.seq
  contentLenth : d.contentLenth.toNat = content.length
  unread : d.serializer.unread = content

theorem reads_readHeader (m d : Message) {content : List UInt8} (fits : content.length < 2 ^ 62) :
    Buffer.Reads d.readHeader (m.header ++ big 8 content.length)
      { m with contentLenth := .ofNat content.length, serializer := d.serializer } := by
  have last := Buffer.reads_size (length_lt fits)
  simp only [header, List.append_assoc]
  apply Buffer.Reads.bind (reads_read .uint8 m.magic)
  apply Buffer.Reads.bind (reads_read .uint8 m.version)
  apply Buffer.Reads.bind (reads_read .uint8 m.type)
  apply Buffer.Reads.bind (reads_read .uint8 m.errCode)
  apply Buffer.Reads.bind (reads_read .uint64 m.seq)
  exact last.map fun contentLenth =>
    { m with contentLenth := contentLenth, serializer := d.serializer }

theorem decode_frame (m d : Message) {content : List UInt8} (fits : content.length < 2 ^ 62)
    (data : d.serializer.m_data = m.frame content) (start : d.serializer.m_position = 0) :
    ∃ d', d.decode = some d' ∧ Received m content d' := by
  have unread : d.serializer.unread = (m.header ++ big 8 content.length) ++ content := by
    rw [Buffer.unread, data, start, List.drop_zero, frame, List.append_assoc]
  have read := reads_readHeader m d fits d.serializer content unread
  refine ⟨_, by rw [decode, read]; rfl, ?_⟩
  exact ⟨rfl, rfl, rfl, rfl, rfl, toNat_length fits, Buffer.unread_skip unread⟩

/-- A fresh message with what is written encoded in it. What the memory of `contentLenth` held is
overwritten. -/
def encoded (type : UInt8) (seq : UInt64) (writes : Codec Unit) : Option Message := do
  let (_, s) ← writes .empty
  (Message.new type 0 1 seq 0).encode s

/-- The bytes of a message, received into a fresh one and decoded. What its fields held is
overwritten. -/
def received (m : Message) : Option Message :=
  { Message.new RPC_REQUEST 0 1 0 0 with
    serializer := ⟨m.serializer.m_data, 0, Nat.zero_le _⟩ : Message }.decode

/-- A message of this type and `seq`, whose receiver finds this content. -/
structure Carries (m : Message) (type : UInt8) (seq : UInt64) (content : List UInt8) : Prop where
  type_eq : m.type = type
  seq_eq : m.seq = seq
  arrives : ∃ d, m.received = some d ∧ d.type = type ∧ d.seq = seq ∧
    d.serializer.unread = content

/-- What fits into a string is encoded and arrives; what does not is not encoded. -/
theorem encoded_cases (type : UInt8) (seq : UInt64) (bs : List UInt8) :
    (∃ m, encoded type seq (Buffer.write bs) = some m ∧ m.Carries type seq bs) ∨
    (encoded type seq (Buffer.write bs) = none ∧ 2 ^ 62 ≤ bs.length) := by
  change (∃ m, (Message.new type 0 1 seq 0).encode (Buffer.empty.append bs) = some m ∧ _) ∨
    ((Message.new type 0 1 seq 0).encode (Buffer.empty.append bs) = none ∧ _)
  cases built : (Message.new type 0 1 seq 0).encode (Buffer.empty.append bs) with
  | none => exact .inr ⟨rfl, encode_none built⟩
  | some m =>
    obtain ⟨framed, fits⟩ := encode_frame built
    obtain ⟨same_seq, same_type⟩ := encode_header built
    obtain ⟨d, decoded, arrives⟩ := decode_frame (Message.new type 0 1 seq 0)
      { Message.new RPC_REQUEST 0 1 0 0 with
        serializer := ⟨m.serializer.m_data, 0, Nat.zero_le _⟩ } fits (by rw [framed]; rfl) rfl
    exact .inl ⟨m, rfl, same_type, same_seq, d, decoded, arrives.type, arrives.seq, arrives.unread⟩

end Message

end CRpc
