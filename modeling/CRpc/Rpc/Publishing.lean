import CRpc.Rpc.Decodings
import CRpc.Rpc.Exchange

/-! `publish` of `RpcRegister` and of `RaftNode`, and what an `RpcSession` makes of its message. -/
namespace CRpc.Registry.Publishing
open Util Buffer Multimaps Loops Message

/-- `res<<is_add<<f_name<<f_ip<<f_port`. -/
def writePublication (f_name f_ip : Text) (f_port : UInt16) (is_add : Bool) : Codec Unit := do
  Serializer.write .bool is_add
  Serializer.writeString f_name
  Serializer.writeString f_ip
  Serializer.write .uint16 f_port

/-- The text of both functions, on the subscribers of its class. -/
def publishTo (m_subscribes : Multimap Text Int32) (seq : UInt64) (f_name f_ip : Text)
    (f_port : UInt16) (is_add : Bool) : Option (List Effect) := do
  let message ← Message.encoded RPC_SERVICE_DISCOVER_RESPONSE seq
    (writePublication f_name f_ip f_port is_add)
  return (m_subscribes.equalRange f_name).map fun socket => .send socket message

/-- `RpcRegister` and `RaftNode`, as far as they publish. -/
structure RpcRegister where
  m_subscribes : Multimap Text Int32 := .empty

structure RaftNode where
  m_subscribes : Multimap Text Int32 := .empty

def RpcRegister.publish (reg : RpcRegister) (seq : UInt64) (f_name f_ip : Text) (f_port : UInt16)
    (is_add : Bool) : Option (List Effect) :=
  publishTo reg.m_subscribes seq f_name f_ip f_port is_add

def RaftNode.publish (node : RaftNode) (seq : UInt64) (f_name f_ip : Text) (f_port : UInt16)
    (is_add : Bool) : Option (List Effect) :=
  publishTo node.m_subscribes seq f_name f_ip f_port is_add

/-- `op` and the service it is about. -/
abbrev Change := Text × Service

/-- `(*s)>>op>>f_name>>f_ip>>f_port`. -/
def readChange : Codec Change := do
  let op ← Serializer.readString
  let p ← readService
  return (op, p)

/-- The loop of `handle_receive` over a publication, with all it has read. -/
def publishLoop : ReadLoop (List Change) Change := .total readChange fun changes c => changes ++ [c]

/-- What `handle_receive` does with a message. -/
inductive Dispatch
  | publish (changes : Loops.Outcome (List Change × Serializer))
  | respond (channal : ℕ)
  | ignore

/-- `handle_receive` once a message is received and decoded. -/
def handleReceive (m_response_channals : UInt64 → Option ℕ) (receive_message : Message) :
    Dispatch :=
  if receive_message.type = RPC_PUBLISH then
    .publish (publishLoop.result [] receive_message.serializer)
  else
    match m_response_channals receive_message.seq with
    | some channal => .respond channal
    | none => .ignore

def changeBytes (c : Change) : List UInt8 := c.1.encoded ++ service.bytes c.2

theorem reads_readChange (c : Change) : Reads readChange (changeBytes c) c := by
  apply (reads_readString c.1).bind
  exact (service.reads c.2).map fun p => (c.1, p)

theorem changeBytes_nonempty (c : Change) : changeBytes c ≠ [] := fun none =>
  service.nonempty c.2 (List.append_eq_nil_iff.mp none).2

theorem takes_readChange : Takes readChange changeBytes := by
  intro s s' c h
  obtain ⟨op, s₁, first, h⟩ := codec_bind h
  obtain ⟨p, s₂, second, h⟩ := codec_bind h
  cases h
  rw [takes_readString s s₁ op first, takes_readService s₁ s' p second, changeBytes,
    List.append_assoc]

theorem foldl_changes (changes before : List Change) :
    changes.foldl (fun changes c => changes ++ [c]) before = before ++ changes := by
  rw [List.foldl_append_eq_append, ← List.flatMap_def, List.flatMap_singleton']

/-- Written as the loop reads them, changes are extracted one by one. -/
theorem publishLoop_changes {s : Serializer} {changes : List Change}
    (content : s.unread = changes.flatMap changeBytes) :
    ∃ s', publishLoop.result [] s = .ended (changes, s') ∧ s'.unread = [] := by
  have fold := ReadLoop.foldlM_total readChange (fun changes c => changes ++ [c]) changes []
  rw [foldl_changes, List.nil_append] at fold
  exact ReadLoop.result_items (l := publishLoop) reads_readChange changeBytes_nonempty content fold

theorem content_of_ended {s s' : Serializer} {changes : List Change}
    (ended : publishLoop.result [] s = .ended (changes, s')) :
    s.unread = changes.flatMap changeBytes := by
  obtain ⟨items, content, fold⟩ := ReadLoop.run_ended (l := publishLoop) takes_readChange ended
  rw [publishLoop, ReadLoop.foldlM_total, foldl_changes, List.nil_append] at fold
  cases fold
  exact content

theorem writePublication_eq (f_name f_ip : Text) (f_port : UInt16) (is_add : Bool) :
    writePublication f_name f_ip f_port is_add =
      Buffer.write (Scalar.bool.bytes is_add ++ service.bytes (f_name, ⟨f_ip, f_port⟩)) := by
  have rest := service.write_eq (f_name, ⟨f_ip, f_port⟩)
  change (Serializer.write .bool is_add >>= fun _ => writeService (f_name, ⟨f_ip, f_port⟩)) = _
  change writeService (f_name, ⟨f_ip, f_port⟩) = _ at rest
  rw [rest, write_eq, write_write]

theorem content_ne_change (is_add : Bool) (op : Text) (p : Service) :
    Scalar.bool.bytes is_add ++ service.bytes p ≠ [(op, p)].flatMap changeBytes := by
  intro same
  have lengths := congrArg List.length same
  simp only [changeBytes, Text.encoded, List.flatMap_cons, List.flatMap_nil, List.append_nil,
    List.length_append, Endian.length_big, Scalar.length_bytes, Scalar.width] at lengths
  omega

/-- Every subscriber is sent a message with the flag and the service. -/
theorem publishTo_carries {m_subscribes : Multimap Text Int32} {seq : UInt64} {f_name f_ip : Text}
    {f_port : UInt16} {is_add : Bool} {effects : List Effect} {socket : Int32} {message : Message}
    (published : publishTo m_subscribes seq f_name f_ip f_port is_add = some effects)
    (sent : .send socket message ∈ effects) :
    message.Carries RPC_SERVICE_DISCOVER_RESPONSE seq
      (Scalar.bool.bytes is_add ++ service.bytes (f_name, ⟨f_ip, f_port⟩)) := by
  rw [publishTo, writePublication_eq] at published
  rcases Message.encoded_cases RPC_SERVICE_DISCOVER_RESPONSE seq
    (Scalar.bool.bytes is_add ++ service.bytes (f_name, ⟨f_ip, f_port⟩)) with
    ⟨built, encoded, carries⟩ | ⟨none, -⟩
  · rw [encoded] at published
    cases published
    obtain ⟨socket', -, same⟩ := List.mem_map.mp sent
    cases same
    exact carries
  · rw [none] at published
    cases published

/-- A message of another type goes to whoever waits for its `seq`, or to nobody. -/
theorem handleReceive_other {d : Message} (m_response_channals : UInt64 → Option ℕ)
    (other : d.type ≠ RPC_PUBLISH) :
    handleReceive m_response_channals d =
      match m_response_channals d.seq with
      | some channal => .respond channal
      | none => .ignore := if_neg other

/-- A message for `socket` among the effects, as it is received. -/
def Arrives (effects : Option (List Effect)) (socket : Int32) (d : Message) : Prop :=
  ∃ es message, effects = some es ∧ .send socket message ∈ es ∧ message.received = some d

/-- The subscriber takes it for a publication of one change, and reads it to its end. -/
def Agrees (Denotes : Text → Bool → Prop) (m_response_channals : UInt64 → Option ℕ)
    (effects : Option (List Effect)) (socket : Int32) (is_add : Bool) (p : Service) : Prop :=
  ∃ d op s', Arrives effects socket d ∧
    handleReceive m_response_channals d = .publish (.ended ([(op, p)], s')) ∧
    Denotes op is_add ∧ s'.unread = []

def Extracts (effects : Option (List Effect)) (socket : Int32) (p : Service) : Prop :=
  ∃ d op s', Arrives effects socket d ∧
    publishLoop.result [] d.serializer = .ended ([(op, p)], s')

section Published
variable (m_subscribes : Multimap Text Int32) (socket : Int32) (seq : UInt64)
  (f_name f_ip : Text) (f_port : UInt16) (is_add : Bool)

theorem arrives_publication {d : Message}
    (arrives : Arrives (publishTo m_subscribes seq f_name f_ip f_port is_add) socket d) :
    d.type = RPC_SERVICE_DISCOVER_RESPONSE ∧
      d.serializer.unread = Scalar.bool.bytes is_add ++ service.bytes (f_name, ⟨f_ip, f_port⟩) := by
  obtain ⟨es, message, published, sent, received⟩ := arrives
  obtain ⟨d', received', type, -, content⟩ := (publishTo_carries published sent).arrives
  cases received.symm.trans received'
  exact ⟨type, content⟩

theorem not_agrees (Denotes : Text → Bool → Prop) (m_response_channals : UInt64 → Option ℕ) :
    ¬ Agrees Denotes m_response_channals (publishTo m_subscribes seq f_name f_ip f_port is_add)
      socket is_add (f_name, ⟨f_ip, f_port⟩) := by
  rintro ⟨d, op, s', arrives, handled, -⟩
  obtain ⟨type, -⟩ := arrives_publication m_subscribes socket seq f_name f_ip f_port is_add arrives
  have other : d.type ≠ RPC_PUBLISH := by
    rw [type]
    decide
  rw [handleReceive_other m_response_channals other] at handled
  cases found : m_response_channals d.seq <;> simp [found] at handled

theorem not_extracts :
    ¬ Extracts (publishTo m_subscribes seq f_name f_ip f_port is_add) socket
      (f_name, ⟨f_ip, f_port⟩) := by
  rintro ⟨d, op, s', arrives, ended⟩
  obtain ⟨-, content⟩ :=
    arrives_publication m_subscribes socket seq f_name f_ip f_port is_add arrives
  have change := content_of_ended ended
  rw [content] at change
  exact content_ne_change is_add op _ change

end Published

/-- No subscriber ever recognises what is published, and none would read it rightly. -/
theorem publication_misread (Denotes : Text → Bool → Prop) (reg : RpcRegister) (node : RaftNode)
    (m_response_channals : UInt64 → Option ℕ) (socket : Int32) (seq : UInt64)
    (f_name f_ip : Text) (f_port : UInt16) (is_add : Bool) :
    (¬ Agrees Denotes m_response_channals (reg.publish seq f_name f_ip f_port is_add) socket is_add
        (f_name, ⟨f_ip, f_port⟩) ∧
      ¬ Extracts (reg.publish seq f_name f_ip f_port is_add) socket (f_name, ⟨f_ip, f_port⟩)) ∧
    (¬ Agrees Denotes m_response_channals (node.publish seq f_name f_ip f_port is_add) socket is_add
        (f_name, ⟨f_ip, f_port⟩) ∧
      ¬ Extracts (node.publish seq f_name f_ip f_port is_add) socket (f_name, ⟨f_ip, f_port⟩)) :=
  ⟨⟨not_agrees _ socket seq f_name f_ip f_port is_add Denotes m_response_channals,
      not_extracts _ socket seq f_name f_ip f_port is_add⟩,
    ⟨not_agrees _ socket seq f_name f_ip f_port is_add Denotes m_response_channals,
      not_extracts _ socket seq f_name f_ip f_port is_add⟩⟩

def published : Service := (⟨[110, 111, 119], by decide⟩, ⟨⟨[49, 46, 51], by decide⟩, 6000⟩)

/-- One subscriber, and the message it is sent: nobody there waits for its `seq`, and the loop
would take the flag for part of a length. -/
theorem publication_ignored :
    ∃ es message d, RpcRegister.publish ⟨Multimap.empty.emplace published.1 4⟩ 9 published.1
        published.2.m_ip published.2.m_port true = some es ∧
      RaftNode.publish ⟨Multimap.empty.emplace published.1 4⟩ 9 published.1 published.2.m_ip
        published.2.m_port true = some es ∧
      es = [.send 4 message] ∧ message.received = some d ∧
      d.type = RPC_SERVICE_DISCOVER_RESPONSE ∧ handleReceive (fun _ => none) d = .ignore ∧
      ∃ a, publishLoop.result [] d.serializer = .thrown a :=
  ⟨_, _, _, rfl, rfl, rfl, rfl, rfl, rfl, _, rfl⟩

end CRpc.Registry.Publishing
