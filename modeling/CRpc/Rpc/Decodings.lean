import CRpc.Rpc.Discovery
import CRpc.Util.Decoding

/-! The decoding loops of `RpcRegister`, on content of any bytes. -/
namespace CRpc.Registry
open Util Buffer Multimaps Loops

theorem takes_readService : Takes readService service.bytes := by
  intro s s' p h
  obtain ⟨f_name, s₁, first, h⟩ := codec_bind h
  obtain ⟨f_ip, s₂, second, h⟩ := codec_bind h
  obtain ⟨f_port, s₃, third, h⟩ := codec_bind h
  cases h
  rw [takes_readString s s₁ f_name first, takes_readString s₁ s₂ f_ip second,
    takes_readUint16 s₂ s' f_port third]
  simp only [service, Scalar.bytes, List.append_assoc]

theorem moves_readString (t : Text) : Moves Serializer.readString 1 t :=
  (moves_string t).mono (by decide)

theorem moves_readService (p : Service) : Moves readService 1 p := by
  intro s s' h
  obtain ⟨f_name, s₁, first, h⟩ := codec_bind h
  obtain ⟨f_ip, s₂, second, h⟩ := codec_bind h
  obtain ⟨f_port, s₃, third, h⟩ := codec_bind h
  cases h
  obtain ⟨data, ge⟩ := moves_string f_name s s₁ first
  obtain ⟨data', ge'⟩ := moves_string f_ip s₁ s₂ second
  obtain ⟨data'', ge''⟩ := moves_scalar .uint16 f_port s₂ s' third
  exact ⟨data''.trans (data'.trans data), by omega⟩

theorem total_services {σ : Type} (stores : σ → Service → σ) (acc : σ) {s : Serializer}
    {services : List Service} (content : s.unread = services.flatMap service.bytes) :
    ∃ s', (ReadLoop.total readService stores).result acc s =
      .ended (services.foldl stores acc, s') := by
  obtain ⟨s', ended, -⟩ := ReadLoop.result_items service.reads service.nonempty content
    (ReadLoop.foldlM_total readService stores services acc)
  exact ⟨s', ended⟩

/-- Of the messages without a service, only a heartbeat with content has a loop that goes on. -/
theorem beatFinishes_iff (receive_message : Message) :
    (if receive_message.type = Message.HEART_BEAT then
        ReadLoop.idle.Finishes () receive_message.serializer
      else True) ↔
      ¬ (receive_message.type = Message.HEART_BEAT ∧ receive_message.serializer.unread ≠ []) := by
  split
  · rename_i beat
    rw [ReadLoop.idle_finishes_iff, not_and, not_not]
    exact ⟨fun none _ => none, fun none => none beat⟩
  · rename_i other
    exact iff_of_true trivial fun h => other h.1

namespace RpcRegister
open Message

/-- The loop of `handleServerInit` and `handleServiceRegister`. -/
def emplaceLoop : ReadLoop (Multimap Text IpPort) Service :=
  .total readService fun m p => m.emplace p.1 p.2

/-- The loop of `handleServiceDiscover`. -/
def discoverLoop : ReadLoop Text Text := .total Serializer.readString fun _ f_name => f_name

/-- The loop of `handleServiceDelete`, up to the erasure that invalidates its iterator. -/
def deleteLoop : ReadLoop (Multimap Text IpPort) Service where
  read := readService
  each m p := if p.2 ∈ m.equalRange p.1 then .error m else .ok m

/-- The loop of `handleSubscribe`, on `m_subscribes`. -/
def subscribeLoop (socket : Int32) : ReadLoop (Multimap Text Int32) Text :=
  .total Serializer.readString fun m f_name => m.emplace f_name socket

theorem emplaceServices_loop (m : Multimap Text IpPort) (s : Serializer) :
    emplaceServices m s = (emplaceLoop.result m s).toOption :=
  ReadLoop.untilReadEnd_eq readService (fun (m : Multimap Text IpPort) p => m.emplace p.1 p.2) m s

theorem emplaceLoop_finishes (m : Multimap Text IpPort) (s : Serializer) :
    emplaceLoop.Finishes m s :=
  ReadLoop.finishes_of_moves (l := emplaceLoop) moves_readService m s

/-- The decoding loop of the handler that `handleMsg` selects, if it has one, is over some time. -/
def DecodingFinishes (reg : RpcRegister) (receive_message : Message) : Prop :=
  if receive_message.type = RPC_SERVER_INIT ∨ receive_message.type = RPC_SERVICE_REGISTER then
    emplaceLoop.Finishes reg.m_addresses receive_message.serializer
  else if receive_message.type = HEART_BEAT then
    ReadLoop.idle.Finishes () receive_message.serializer
  else True

/-- A heartbeat with content is the one message whose loop is not over. -/
theorem decodingFinishes_iff (reg : RpcRegister) (receive_message : Message) :
    reg.DecodingFinishes receive_message ↔
      ¬ (receive_message.type = HEART_BEAT ∧ receive_message.serializer.unread ≠ []) := by
  unfold DecodingFinishes
  split
  · rename_i either
    apply iff_of_true (emplaceLoop_finishes _ _)
    rintro ⟨beat, -⟩
    rw [beat] at either
    exact absurd either (by decide)
  · exact beatFinishes_iff receive_message

theorem decodingFinishes_of_handled {reg : RpcRegister} {receive_message : Message}
    {socket : Int32} {r : RpcRegister × List Effect}
    (handled : reg.handleMsg receive_message socket = some r) :
    reg.DecodingFinishes receive_message := by
  rw [decodingFinishes_iff]
  rintro ⟨beat, more⟩
  have never : reg.handleMsg receive_message socket =
      reg.handleHeartBeat receive_message socket := by
    rw [handleMsg, beat]
    rfl
  rw [never, handleHeartBeat, if_neg (mt (isReadEnd_iff _).mp more)] at handled
  cases handled

theorem undispatched_finish (f_name : Text) (m_addresses : Multimap Text IpPort)
    (m_subscribes : Multimap Text Int32) (socket : Int32) (s : Serializer) :
    discoverLoop.Finishes f_name s ∧ deleteLoop.Finishes m_addresses s ∧
      (subscribeLoop socket).Finishes m_subscribes s :=
  ⟨ReadLoop.finishes_of_moves (l := discoverLoop) moves_readString f_name s,
    ReadLoop.finishes_of_moves (l := deleteLoop) moves_readService m_addresses s,
    ReadLoop.finishes_of_moves (l := subscribeLoop socket) moves_readString m_subscribes s⟩

section Registration
variable (reg : RpcRegister) (receive_message : Message) (socket : Int32)

/-- What a registration's handler leaves, and its effects unless an exception escapes it. The
services read before the exception stay in `m_addresses`. -/
def leaveRegistration (rest : Multimap Text IpPort → RpcRegister)
    (effects : Message → List Effect) : RpcRegister × Option (List Effect) :=
  match emplaceLoop.result reg.m_addresses receive_message.serializer with
  | .ended (m_addresses, _) => (rest m_addresses,
      (Message.encoded RPC_SERVICE_REGISTER_RESPONSE receive_message.seq (return ())).map effects)
  | .thrown (m_addresses, _) | .running (m_addresses, _) => ({ reg with m_addresses }, none)

def leaveServerInit : RpcRegister × Option (List Effect) :=
  reg.leaveRegistration receive_message
    (fun m_addresses => {
      m_addresses
      m_heartbeat_timers := if socket ∈ reg.m_heartbeat_timers then reg.m_heartbeat_timers
        else socket :: reg.m_heartbeat_timers })
    fun message => [.addTimeEvent socket, .send socket message]

def leaveServiceRegister : RpcRegister × Option (List Effect) :=
  reg.leaveRegistration receive_message (fun m_addresses => { reg with m_addresses })
    fun message => [.send socket message]

theorem leaveRegistration_eq (rest : Multimap Text IpPort → RpcRegister)
    (effects : Message → List Effect) :
    (do
      let (m_addresses, _) ← emplaceServices reg.m_addresses receive_message.serializer
      let message ← Message.encoded RPC_SERVICE_REGISTER_RESPONSE receive_message.seq (return ())
      return (rest m_addresses, effects message)) =
    (reg.leaveRegistration receive_message rest effects).2.map fun done =>
      ((reg.leaveRegistration receive_message rest effects).1, done) := by
  rw [emplaceServices_loop]
  unfold leaveRegistration
  cases emplaceLoop.result reg.m_addresses receive_message.serializer with
  | running a | thrown a => rfl
  | ended a =>
    simp only [Outcome.toOption, Option.bind_eq_bind, Option.bind_some]
    cases Message.encoded RPC_SERVICE_REGISTER_RESPONSE receive_message.seq (return ()) <;> rfl

theorem handleServerInit_left : reg.handleServerInit receive_message socket =
    (reg.leaveServerInit receive_message socket).2.map fun effects =>
      ((reg.leaveServerInit receive_message socket).1, effects) := by
  rw [leaveServerInit, ← leaveRegistration_eq]
  rfl

theorem handleServiceRegister_left : reg.handleServiceRegister receive_message socket =
    (reg.leaveServiceRegister receive_message socket).2.map fun effects =>
      ((reg.leaveServiceRegister receive_message socket).1, effects) := by
  rw [leaveServiceRegister, ← leaveRegistration_eq]
  rfl

end Registration

end RpcRegister

def Whole (content : List UInt8) : Prop :=
  ∃ services : List Service, content = services.flatMap service.bytes

/-- What a registration's handler owes of what it leaves: it returns, adds all the triples of its
content, and nothing of content that is not some triples. -/
structure AllOrNothing (reg : RpcRegister) (content : List UInt8)
    (left : RpcRegister × Option (List Effect)) : Prop where
  returns : left.2.isSome
  all : ∀ services : List Service, content = services.flatMap service.bytes →
    left.1.m_addresses = reg.m_addresses.emplaceAll services
  nothing : ¬ Whole content → left.1.m_addresses = reg.m_addresses

namespace RpcRegister
variable {reg : RpcRegister} {receive_message : Message}

theorem emplaceLoop_whole {services : List Service} (m : Multimap Text IpPort) {s : Serializer}
    (content : s.unread = services.flatMap service.bytes) :
    ∃ s', emplaceLoop.result m s = .ended (m.emplaceAll services, s') :=
  total_services _ m content

theorem emplaceLoop_broken (m : Multimap Text IpPort) {s : Serializer} (broken : ¬ Whole s.unread) :
    ∃ a, emplaceLoop.result m s = .thrown a :=
  ReadLoop.result_thrown (l := emplaceLoop) moves_readService takes_readService broken

/-- Only whole triples are handled as they should be: otherwise the exception escapes. -/
theorem allOrNothing_iff {rest : Multimap Text IpPort → RpcRegister}
    {effects : Message → List Effect} (keeps : ∀ m, (rest m).m_addresses = m) :
    AllOrNothing reg receive_message.serializer.unread
        (reg.leaveRegistration receive_message rest effects) ↔
      Whole receive_message.serializer.unread := by
  constructor
  · intro owes
    by_contra broken
    obtain ⟨a, thrown⟩ := emplaceLoop_broken reg.m_addresses broken
    have returns := owes.returns
    rw [leaveRegistration, thrown] at returns
    cases returns
  · rintro ⟨services, content⟩
    obtain ⟨message, built, -⟩ :=
      encoded_nothing Message.RPC_SERVICE_REGISTER_RESPONSE receive_message.seq
    obtain ⟨s', ended⟩ := emplaceLoop_whole reg.m_addresses content
    rw [leaveRegistration, ended]
    constructor
    · rw [built]
      rfl
    · intro services' content'
      obtain ⟨s'', ended'⟩ := emplaceLoop_whole reg.m_addresses content'
      have same := Outcome.ended.inj (ended.symm.trans ended')
      exact (keeps _).trans (congrArg Prod.fst same)
    · exact fun broken => absurd ⟨services, content⟩ broken

end RpcRegister

/-- The loop over the response in `deleteFunc2Reg`. -/
def DeletionFinishes (receive_message : Message) : Prop :=
  ReadLoop.idle.Finishes () receive_message.serializer

end CRpc.Registry
