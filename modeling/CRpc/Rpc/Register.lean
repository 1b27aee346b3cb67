import CRpc.Lib.Multimap
import CRpc.Rpc.Protocol
import CRpc.Util.Reading
import Mathlib.Data.List.Lex

/-! `RpcRegister` and those who write to it: the servers' reports, the clients' questions. -/
namespace CRpc.Registry
open Util Buffer Multimaps

/-- `operator<` of `std::string` compares unsigned bytes. -/
instance : LinearOrder Text :=
  LinearOrder.lift' (fun t => t.bytes.map UInt8.toNat) fun a b h => by
    have bytes := List.map_injective_iff.mpr (fun x y => UInt8.toNat_inj.mp) h
    cases a
    cases b
    cases bytes
    rfl

/-- `ip_port`. -/
structure IpPort where
  m_ip : Text
  m_port : UInt16
  deriving DecidableEq

abbrev Service := Text × IpPort

/-- `s<<f_name<<f_ip<<f_port`, for strings that are not `const`. -/
def writeService (p : Service) : Codec Unit := do
  Serializer.writeString p.1
  Serializer.writeString p.2.m_ip
  Serializer.write .uint16 p.2.m_port

/-- `(*s)>>f_name>>f_ip>>f_port`. -/
def readService : Codec Service := do
  let f_name ← Serializer.readString
  let f_ip ← Serializer.readString
  let f_port ← Serializer.read .uint16
  return (f_name, ⟨f_ip, f_port⟩)

/-- What `RpcServer::start` writes. -/
def serverInit (m_funcs : List Text) (m_ip : Text) (m_port : UInt16) : Codec Unit :=
  m_funcs.forM fun f_name => do
    Serializer.writeString f_name
    Serializer.writeString m_ip
    Serializer.write .uint16 m_port

/-- What `registerFunc2Reg` and `deleteFunc2Reg` write. -/
def registerFunc2Reg (f_name m_ip : Text) (m_port : UInt16) : Codec Unit := do
  Serializer.writeString f_name
  Serializer.writeString m_ip
  Serializer.write .uint16 m_port

def deleteFunc2Reg (f_name m_ip : Text) (m_port : UInt16) : Codec Unit := do
  Serializer.writeString f_name
  Serializer.writeString m_ip
  Serializer.write .uint16 m_port

/-- `"i'm client."` -/
def greeting : Text := ⟨[105, 39, 109, 32, 99, 108, 105, 101, 110, 116, 46], by decide⟩

/-- What `RpcCLient::start` writes. -/
def clientInit : Codec Unit := Serializer.writeChars greeting

/-- What `RpcCLient::call` writes before it knows a server. -/
def serviceDiscover (f_name : Text) : Codec Unit := Serializer.writeString f_name

/-- What a handler does besides changing the tables. -/
inductive Effect
  | send (socket : Int32) (message : Message)
  | addTimeEvent (socket : Int32)
  | resetTime (socket : Int32)

/-- The tables of `RpcRegister` its dispatched handlers use; a socket is its descriptor, and
`m_heartbeat_timers` the sockets that have a timer. -/
structure RpcRegister where
  m_addresses : Multimap Text IpPort := .empty
  m_heartbeat_timers : List Int32 := []

theorem length_nil_lt : ([] : List UInt8).length < 2 ^ 62 := by decide

namespace RpcRegister
open Message

def handleCLientInit (reg : RpcRegister) (receive_message : Message) (socket : Int32) :
    Option (RpcRegister × List Effect) := do
  let message ← Message.encoded RPC_SERVICE_DISCOVER_RESPONSE receive_message.seq
    (reg.m_addresses.pairs.forM writeService)
  return (reg, [.send socket message])

/-- The last name read is the one that is looked up. -/
def handleServiceDiscover (reg : RpcRegister) (receive_message : Message) (socket : Int32) :
    Option (RpcRegister × List Effect) := do
  let (f_name, _) ← untilReadEnd (fun _ => Serializer.readString) ⟨[], length_nil_lt⟩
    receive_message.serializer
  let message ← Message.encoded RPC_SERVICE_DISCOVER_RESPONSE receive_message.seq
    ((reg.m_addresses.equalRange f_name).forM fun address => writeService (f_name, address))
  return (reg, [.send socket message])

/-- The loop of `handleServerInit` and `handleServiceRegister`. -/
def emplaceServices (m_addresses : Multimap Text IpPort) : Codec (Multimap Text IpPort) :=
  untilReadEnd (fun m => do
    let p ← readService
    return m.emplace p.1 p.2) m_addresses

/-- A second timer of a socket runs, but is not kept in the table. -/
def handleServerInit (reg : RpcRegister) (receive_message : Message) (socket : Int32) :
    Option (RpcRegister × List Effect) := do
  let (m_addresses, _) ← emplaceServices reg.m_addresses receive_message.serializer
  let m_heartbeat_timers :=
    if socket ∈ reg.m_heartbeat_timers then reg.m_heartbeat_timers
    else socket :: reg.m_heartbeat_timers
  let message ← Message.encoded RPC_SERVICE_REGISTER_RESPONSE receive_message.seq (return ())
  return ({ m_addresses, m_heartbeat_timers }, [.addTimeEvent socket, .send socket message])

def handleServiceRegister (reg : RpcRegister) (receive_message : Message) (socket : Int32) :
    Option (RpcRegister × List Effect) := do
  let (m_addresses, _) ← emplaceServices reg.m_addresses receive_message.serializer
  let message ← Message.encoded RPC_SERVICE_REGISTER_RESPONSE receive_message.seq (return ())
  return ({ reg with m_addresses }, [.send socket message])

/-- A match is erased, and then `++it` advances an iterator that is no longer valid: no result. -/
def handleServiceDelete (reg : RpcRegister) (receive_message : Message) (socket : Int32) :
    Option (RpcRegister × List Effect) := do
  let (m_addresses, _) ← untilReadEnd (fun (m : Multimap Text IpPort) => do
    let p ← readService
    if p.2 ∈ m.equalRange p.1 then failure else return m) reg.m_addresses
      receive_message.serializer
  let message ← Message.encoded RPC_SERVICE_REGISTER_RESPONSE receive_message.seq (return ())
  return ({ reg with m_addresses }, [.send socket message])

/-- On a payload the first loop never ends. -/
def handleHeartBeat (reg : RpcRegister) (receive_message : Message) (socket : Int32) :
    Option (RpcRegister × List Effect) :=
  if receive_message.serializer.isReadEnd then
    some (reg, if socket ∈ reg.m_heartbeat_timers then [.resetTime socket] else [])
  else none

/-- `handleMsg`, once the message has been received and decoded. -/
def handleMsg (reg : RpcRegister) (receive_message : Message) (socket : Int32) :
    Option (RpcRegister × List Effect) :=
  if receive_message.type = RPC_CLIENT_INIT then reg.handleCLientInit receive_message socket
  else if receive_message.type = RPC_SERVER_INIT then reg.handleServerInit receive_message socket
  else if receive_message.type = RPC_SERVICE_REGISTER then
    reg.handleServiceRegister receive_message socket
  else if receive_message.type = HEART_BEAT then reg.handleHeartBeat receive_message socket
  else some (reg, [])

/-- A message of this type, as its sender encodes it, is received on `socket`. -/
def deliver (reg : RpcRegister) (socket : Int32) (type : UInt8) (seq : UInt64)
    (writes : Codec Unit) : Option (RpcRegister × List Effect) := do
  let message ← Message.encoded type seq writes
  let receive_message ← message.received
  reg.handleMsg receive_message socket

end RpcRegister

/-- The addresses of `ConnectionPool`. -/
structure ConnectionPool where
  m_addresses : Multimap Text IpPort := .empty

namespace ConnectionPool

def addAddress (pool : ConnectionPool) (funcName : Text) (address : IpPort) : ConnectionPool :=
  ⟨pool.m_addresses.emplace funcName address⟩

def getAllAddress (pool : ConnectionPool) (funcName : Text) : List IpPort :=
  pool.m_addresses.equalRange funcName

/-- The loop of `RpcCLient::start` and `RpcCLient::call` over the register's response. -/
def addAddresses (pool : ConnectionPool) : Codec ConnectionPool :=
  untilReadEnd (fun pool => do
    let p ← readService
    return pool.addAddress p.1 p.2) pool

end ConnectionPool

/-- What is left of the response to a client, decoded. -/
def readResponse (message : Message) (pool : ConnectionPool) : Option ConnectionPool := do
  let receive_message ← message.received
  let (pool, _) ← pool.addAddresses receive_message.serializer
  return pool

end CRpc.Registry
