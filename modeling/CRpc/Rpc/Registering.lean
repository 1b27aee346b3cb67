import CRpc.Lib.Placements
import CRpc.Rpc.Discovery

/-! `RpcServer::registerFunc2Reg`: what it sends to which register until it logs success. -/
namespace CRpc.Registry
open Util Buffer Multimaps Placements

/-- `s<<ip<<port`. -/
def writeAddress (address : IpPort) : Codec Unit := do
  Serializer.writeString address.m_ip
  Serializer.write .uint16 address.m_port

/-- `(*s)>>ip>>port`. -/
def readAddress : Codec IpPort := do
  let ip ← Serializer.readString
  let port ← Serializer.read .uint16
  return ⟨ip, port⟩

def handleServerRedirect (leader : IpPort) (seq : UInt64) : Option Message :=
  Message.encoded Message.RAFT_REDIRECT seq (writeAddress leader)

def acceptance (seq : UInt64) : Option Message :=
  Message.encoded Message.RPC_SERVICE_REGISTER_RESPONSE seq (return ())

/-- `"raft register"`. -/
def raftRegister : Text :=
  ⟨[114, 97, 102, 116, 32, 114, 101, 103, 105, 115, 116, 101, 114], by decide⟩

/-- `"defalut register"`, where `start` puts the register it is told of. -/
def defalutRegister : Text :=
  ⟨[100, 101, 102, 97, 108, 117, 116, 32, 114, 101, 103, 105, 115, 116, 101, 114], by decide⟩

/-- The `seq` of a request, and the response that came to it before the timer closed its channel. -/
structure Answer where
  seq : UInt64
  response : Option Message

structure Exchange where
  node : IpPort
  message : Message
  response : Option Message

/-- `RpcServer`, as far as it registers its functions; a session is the address it connects to. -/
structure RpcServer where
  m_ip : Text
  m_port : UInt16
  m_registers : List (Text × IpPort) := []

/-- What `registerFunc2Reg` has done when it returns, and whether it has logged success. -/
structure Outcome where
  server : RpcServer
  exchanges : List Exchange
  success : Bool

namespace RpcServer
open Message

/-- `emplace`: a name that has a session keeps it. -/
def addRegister (server : RpcServer) (registerName : Text) (session : IpPort) : RpcServer :=
  { server with
    m_registers := (Placing.byKey Prod.fst).place (registerName, session) server.m_registers }

def getAllRegister (server : RpcServer) : List IpPort :=
  let registers := server.m_registers.map Prod.snd
  match server.m_registers.find? fun p => p.1 = raftRegister with
  | some p => registers.set 0 p.2
  | none => registers

/-- `RedirectRegister` encodes an empty serializer. After a timeout it ends without a `return`:
no result. -/
def redirectRegister (server : RpcServer) (address : IpPort) (answer : Answer) :
    Option (Bool × RpcServer × Exchange) := do
  let message ← Message.encoded RPC_SERVICE_REGISTER answer.seq (return ())
  let server := server.addRegister raftRegister address
  let response ← answer.response
  return (true, server, ⟨address, message, some response⟩)

/-- `registerFunc2Reg` with the answers its requests get, in turn; `goto Redirect` is the
recursion. Without an answer it is still waiting. -/
def registerFunc2Reg (name : Text) : RpcServer → List Exchange → List Answer → Option Outcome
  | _, _, [] => none
  | server, exchanges, answer :: answers => do
    let node ← server.getAllRegister.head?
    let message ← Message.encoded RPC_SERVICE_REGISTER answer.seq
      (Registry.registerFunc2Reg name server.m_ip server.m_port)
    let exchanges := exchanges ++ [⟨node, message, answer.response⟩]
    match answer.response with
    | none => return ⟨server, exchanges, false⟩
    | some response =>
      let receive_message ← response.received
      if receive_message.type = RAFT_REDIRECT then
        let (address, _) ← readAddress receive_message.serializer
        match answers with
        | [] => none
        | answer :: answers =>
          let (moved, server, exchange) ← server.redirectRegister address answer
          if !moved then registerFunc2Reg name server (exchanges ++ [exchange]) answers
          else return ⟨server, exchanges ++ [exchange], true⟩
      else
        let _ ← untilReadEnd (fun _ => Serializer.read .uint8) 0 receive_message.serializer
        return ⟨server, exchanges, true⟩

end RpcServer

/-- The message registers the service with the node that receives it. -/
def Lists (message : Message) (p : Service) : Prop :=
  ∃ d m_addresses s', message.received = some d ∧ d.type = Message.RPC_SERVICE_REGISTER ∧
    RpcRegister.emplaceServices .empty d.serializer = some (m_addresses, s') ∧
    p.2 ∈ m_addresses.equalRange p.1

namespace Exchange

def Accepted (e : Exchange) : Prop := ∃ response d, e.response = some response ∧
  response.received = some d ∧ d.type = Message.RPC_SERVICE_REGISTER_RESPONSE

def Redirected (e : Exchange) (address : IpPort) : Prop := ∃ response d s',
  e.response = some response ∧ response.received = some d ∧ d.type = Message.RAFT_REDIRECT ∧
    readAddress d.serializer = some (address, s')

end Exchange

/-- The last response is the acceptance of a node that the service was sent to, and each retry goes
where the response before it says. -/
def Reaches (p : Service) (exchanges : List Exchange) : Prop :=
  (∃ last ∈ exchanges.getLast?, last.Accepted ∧
    ∃ e ∈ exchanges, e.node = last.node ∧ Lists e.message p) ∧
  exchanges.IsChain fun e retry => e.Redirected retry.node

def Redirects (answer : Answer) (leader : IpPort) : Prop :=
  ∃ response, answer.response = some response ∧
    handleServerRedirect leader answer.seq = some response

def Accepts (answer : Answer) : Prop :=
  ∃ response, answer.response = some response ∧ acceptance answer.seq = some response

def address : Format IpPort where
  write := writeAddress
  read := readAddress
  bytes a := a.m_ip.encoded ++ Scalar.uint16.bytes a.m_port
  write_eq a := by simp only [writeAddress, writeString_eq, write_eq, write_write]
  reads a := by
    apply (reads_readString a.m_ip).bind
    exact (reads_read .uint16 a.m_port).map fun port => IpPort.mk a.m_ip port
  nonempty a := by simp [Scalar.bytes, ← List.length_eq_zero_iff]

/-- A redirection arrives with the address it was written with. -/
theorem redirect_arrives {leader : IpPort} {seq : UInt64} {m : Message}
    (h : handleServerRedirect leader seq = some m) :
    ∃ d s', m.received = some d ∧ d.type = Message.RAFT_REDIRECT ∧
      readAddress d.serializer = some (leader, s') := by
  have writes : writeAddress leader = _ := address.write_eq leader
  rw [handleServerRedirect, writes] at h
  rcases Message.encoded_cases Message.RAFT_REDIRECT seq (address.bytes leader) with
    ⟨m', built, carries⟩ | ⟨thrown, -⟩
  · obtain rfl : m' = m := Option.some.inj (built.symm.trans h)
    obtain ⟨d, received, type, -, unread⟩ := carries.arrives
    have read := address.reads leader d.serializer [] (by rw [unread, List.append_nil])
    exact ⟨d, _, received, type, read⟩
  · cases thrown.symm.trans h

theorem accept_arrives {seq : UInt64} {m : Message} (h : acceptance seq = some m) :
    ∃ d, m.received = some d ∧ d.type = Message.RPC_SERVICE_REGISTER_RESPONSE ∧
      d.serializer.unread = [] := by
  obtain ⟨m', built, carries⟩ := encoded_nothing Message.RPC_SERVICE_REGISTER_RESPONSE seq
  obtain rfl : m' = m := Option.some.inj (built.symm.trans h)
  obtain ⟨d, received, type, -, unread⟩ := carries.arrives
  exact ⟨d, received, type, unread⟩

theorem lists_registered {name m_ip : Text} {m_port : UInt16} {seq : UInt64} {m : Message}
    (h : Message.encoded Message.RPC_SERVICE_REGISTER seq (registerFunc2Reg name m_ip m_port) =
      some m) : Lists m (name, ⟨m_ip, m_port⟩) := by
  have writes : registerFunc2Reg name m_ip m_port = _ :=
    (registerFunc2Reg_eq name m_ip m_port).trans (service.forM_write [(name, ⟨m_ip, m_port⟩)])
  rw [writes] at h
  rcases Message.encoded_cases Message.RPC_SERVICE_REGISTER seq
    ([(name, (⟨m_ip, m_port⟩ : IpPort))].flatMap service.bytes) with
    ⟨m', built, carries⟩ | ⟨thrown, -⟩
  · obtain rfl : m' = m := Option.some.inj (built.symm.trans h)
    obtain ⟨d, received, type, -, unread⟩ := carries.arrives
    obtain ⟨s', emplaced⟩ := emplaceServices_eq .empty unread
    refine ⟨d, _, s', received, type, emplaced, ?_⟩
    rw [Multimap.equalRange_emplaceAll]
    simp
  · cases thrown.symm.trans h

theorem lists_nothing {seq : UInt64} {m : Message} {p : Service}
    (h : Message.encoded Message.RPC_SERVICE_REGISTER seq (return ()) = some m) :
    ¬ Lists m p := by
  rintro ⟨d, m_addresses, s', received, -, emplaced, mem⟩
  obtain ⟨m', built, carries⟩ := encoded_nothing Message.RPC_SERVICE_REGISTER seq
  obtain rfl : m' = m := Option.some.inj (built.symm.trans h)
  obtain ⟨d', arrives, -, -, unread⟩ := carries.arrives
  obtain rfl : d' = d := Option.some.inj (arrives.symm.trans received)
  obtain ⟨s'', nothing⟩ := emplaceServices_eq (l := []) .empty unread
  rw [nothing] at emplaced
  cases emplaced
  cases mem

namespace RpcServer

section Runs
variable {server : RpcServer} {first : IpPort} {name : Text} {seq : UInt64}
  {message response : Message} (answers : List Answer)

theorem registerFunc2Reg_accepted (asked : server.getAllRegister.head? = some first)
    (built : Message.encoded Message.RPC_SERVICE_REGISTER seq
      (Registry.registerFunc2Reg name server.m_ip server.m_port) = some message)
    (accepted : acceptance seq = some response) :
    server.registerFunc2Reg name [] (⟨seq, some response⟩ :: answers) =
      some ⟨server, [⟨first, message, some response⟩], true⟩ := by
  obtain ⟨d, received, type, unread⟩ := accept_arrives accepted
  have other : d.type ≠ Message.RAFT_REDIRECT := by
    rw [type]
    decide
  have read : untilReadEnd (fun _ => Serializer.read .uint8) 0 d.serializer =
      some (0, d.serializer) := rounds_end _ 0 ((isReadEnd_iff d.serializer).mpr unread)
  simp only [registerFunc2Reg, asked, built, received, Option.bind_eq_bind, Option.bind_some,
    if_neg other, read, List.nil_append]
  rfl

/-- A redirection ends it, too, once the second register has said anything. -/
theorem registerFunc2Reg_redirected {leader : IpPort} (second : UInt64) (said : Message)
    (asked : server.getAllRegister.head? = some first)
    (built : Message.encoded Message.RPC_SERVICE_REGISTER seq
      (Registry.registerFunc2Reg name server.m_ip server.m_port) = some message)
    (redirected : handleServerRedirect leader seq = some response) :
    ∃ empty, Message.encoded Message.RPC_SERVICE_REGISTER second (return ()) = some empty ∧
      server.registerFunc2Reg name []
          (⟨seq, some response⟩ :: ⟨second, some said⟩ :: answers) =
        some ⟨server.addRegister raftRegister leader,
          [⟨first, message, some response⟩, ⟨leader, empty, some said⟩], true⟩ := by
  obtain ⟨d, s', received, type, read⟩ := redirect_arrives redirected
  obtain ⟨empty, encoded, -⟩ := encoded_nothing Message.RPC_SERVICE_REGISTER second
  refine ⟨empty, encoded, ?_⟩
  simp only [registerFunc2Reg, redirectRegister, asked, built, received, Option.bind_eq_bind,
    Option.bind_some, if_pos type, read, encoded, List.nil_append]
  rfl

end Runs

theorem sends {server : RpcServer} {name : Text} {exchanges : List Exchange} {answer : Answer}
    {answers : List Answer} {outcome : Outcome}
    (h : server.registerFunc2Reg name exchanges (answer :: answers) = some outcome) :
    ∃ message, Message.encoded Message.RPC_SERVICE_REGISTER answer.seq
      (Registry.registerFunc2Reg name server.m_ip server.m_port) = some message := by
  simp only [registerFunc2Reg, Option.bind_eq_bind] at h
  obtain ⟨node, -, h⟩ := Option.bind_eq_some_iff.mp h
  obtain ⟨message, built, -⟩ := Option.bind_eq_some_iff.mp h
  exact ⟨message, built⟩

end RpcServer

theorem reaches_single {p : Service} {e : Exchange} :
    Reaches p [e] ↔ e.Accepted ∧ Lists e.message p := by
  simp [Reaches]

theorem reaches_pair {p : Service} {e retry : Exchange} (nothing : ¬ Lists retry.message p)
    (listed : Lists e.message p) (redirected : e.Redirected retry.node) :
    Reaches p [e, retry] ↔ retry.Accepted ∧ e.node = retry.node := by
  simp [Reaches, nothing, listed, redirected]

theorem not_redirect_accept {seq : UInt64} {m : Message} {leader : IpPort}
    (redirect : handleServerRedirect leader seq = some m) (e : Exchange)
    (said : e.response = some m) : ¬ e.Accepted := by
  rintro ⟨response, d, same, received, type⟩
  obtain ⟨d', s', arrives, other, -⟩ := redirect_arrives redirect
  obtain rfl : m = response := Option.some.inj (said.symm.trans same)
  obtain rfl : d' = d := Option.some.inj (arrives.symm.trans received)
  exact absurd (other.symm.trans type) (by decide)

/-- Whatever the registers say, success is logged. The node whose acceptance came last has been told
of the function, and each retry went where the redirection before it says, if and only if there was
no redirection, or one alone that named the register first asked. -/
theorem registration_reaches_iff {server : RpcServer} {first : IpPort} {name : Text}
    {answers : List Answer} {redirects : List IpPort} {last : Answer} {outcome : Outcome}
    (asked : server.getAllRegister.head? = some first)
    (redirected : List.Forall₂ Redirects answers redirects) (accepted : Accepts last)
    (returned : server.registerFunc2Reg name [] (answers ++ [last]) = some outcome) :
    outcome.success = true ∧ (Reaches (name, ⟨server.m_ip, server.m_port⟩) outcome.exchanges ↔
      redirects = [] ∨ redirects = [first]) := by
  cases redirected with
  | nil =>
    obtain ⟨response, said, accept⟩ := accepted
    obtain ⟨seq, _⟩ := last
    cases said
    obtain ⟨message, built⟩ := RpcServer.sends returned
    rw [List.nil_append, RpcServer.registerFunc2Reg_accepted [] asked built accept] at returned
    cases returned
    obtain ⟨d, received, type, -⟩ := accept_arrives accept
    refine ⟨rfl, iff_of_true (reaches_single.mpr ⟨?_, lists_registered built⟩) (.inl rfl)⟩
    exact ⟨response, d, rfl, received, type⟩
  | @cons head leader rest leaders redirect others =>
    obtain ⟨response, said, redirect⟩ := redirect
    obtain ⟨seq, _⟩ := head
    cases said
    obtain ⟨message, built⟩ := RpcServer.sends returned
    obtain ⟨d, s', received, type, read⟩ := redirect_arrives redirect
    have pair : ∀ second said tail, rest ++ [last] = ⟨second, some said⟩ :: tail →
        ∃ retry : Exchange, retry.response = some said ∧ outcome.success = true ∧
          (Reaches (name, ⟨server.m_ip, server.m_port⟩) outcome.exchanges ↔
            retry.Accepted ∧ first = leader) := by
      intro second said tail next
      obtain ⟨empty, encoded, run⟩ :=
        RpcServer.registerFunc2Reg_redirected tail second said asked built redirect
      rw [List.cons_append, next, run] at returned
      cases returned
      exact ⟨_, rfl, rfl, reaches_pair (lists_nothing encoded) (lists_registered built)
        ⟨response, d, s', rfl, received, type, read⟩⟩
    cases others with
    | nil =>
      obtain ⟨answer, said, accept⟩ := accepted
      obtain ⟨second, _⟩ := last
      cases said
      obtain ⟨retry, said, success, reaches⟩ := pair second answer [] rfl
      obtain ⟨d, received, type, -⟩ := accept_arrives accept
      have accepts : retry.Accepted := ⟨answer, d, said, received, type⟩
      refine ⟨success, ?_⟩
      rw [reaches]
      simp [accepts, eq_comm]
    | @cons next further rest leaders again others =>
      obtain ⟨answer, said, again⟩ := again
      obtain ⟨second, _⟩ := next
      cases said
      obtain ⟨retry, said, success, reaches⟩ := pair second answer (rest ++ [last]) rfl
      refine ⟨success, ?_⟩
      rw [reaches]
      simp [not_redirect_accept again retry said]

/-- The server of `served` with the register it is started with. -/
def started : RpcServer where
  m_ip := served.2.m_ip
  m_port := served.2.m_port
  m_registers := [(defalutRegister, ⟨served.2.m_ip, 90⟩)]

theorem started_asks : started.getAllRegister.head? = some ⟨served.2.m_ip, 90⟩ := by decide +kernel

theorem started_sends (seq : UInt64) : ∃ message, Message.encoded Message.RPC_SERVICE_REGISTER seq
    (registerFunc2Reg served.1 started.m_ip started.m_port) = some message := by
  have writes : registerFunc2Reg served.1 started.m_ip started.m_port = _ :=
    (registerFunc2Reg_eq _ _ _).trans (service.forM_write [served])
  rw [writes]
  rcases Message.encoded_cases Message.RPC_SERVICE_REGISTER seq ([served].flatMap service.bytes)
    with ⟨message, built, -⟩ | ⟨-, long⟩
  · exact ⟨message, built⟩
  · exact absurd long (by decide)

theorem redirection_built (leader : IpPort) (seq : UInt64)
    (fits : (address.bytes leader).length < 2 ^ 62) :
    ∃ response, handleServerRedirect leader seq = some response := by
  have writes : writeAddress leader = _ := address.write_eq _
  rw [handleServerRedirect, writes]
  rcases Message.encoded_cases Message.RAFT_REDIRECT seq (address.bytes leader) with
    ⟨message, built, -⟩ | ⟨-, long⟩
  · exact ⟨message, built⟩
  · exact absurd long (by omega)

/-- The first register names itself before it accepts. -/
theorem registration_accepted : ∃ redirect last outcome,
    Redirects redirect ⟨served.2.m_ip, 90⟩ ∧ Accepts last ∧
    started.registerFunc2Reg served.1 [] [redirect, last] = some outcome ∧
    outcome.success = true ∧ Reaches served outcome.exchanges := by
  obtain ⟨message, built⟩ := started_sends 1
  obtain ⟨accepted, accept, -⟩ := encoded_nothing Message.RPC_SERVICE_REGISTER_RESPONSE 2
  obtain ⟨response, redirect⟩ := redirection_built ⟨served.2.m_ip, 90⟩ 1 (by decide)
  obtain ⟨empty, encoded, returned⟩ :=
    RpcServer.registerFunc2Reg_redirected [] 2 accepted started_asks built redirect
  have redirects : Redirects ⟨1, some response⟩ ⟨served.2.m_ip, 90⟩ := ⟨response, rfl, redirect⟩
  have accepts : Accepts ⟨2, some accepted⟩ := ⟨accepted, rfl, accept⟩
  obtain ⟨success, reaches⟩ :=
    registration_reaches_iff started_asks (.cons redirects .nil) accepts returned
  exact ⟨_, _, _, redirects, accepts, returned, success, reaches.mpr (.inr rfl)⟩

/-- The register names a leader, which accepts an empty message: success is logged, and no register
knows the function. -/
theorem registration_redirected : ∃ redirect last outcome,
    Redirects redirect ⟨served.2.m_ip, 91⟩ ∧ Accepts last ∧
    started.registerFunc2Reg served.1 [] [redirect, last] = some outcome ∧
    outcome.success = true ∧ ¬ Reaches served outcome.exchanges := by
  obtain ⟨message, built⟩ := started_sends 1
  obtain ⟨accepted, accept, -⟩ := encoded_nothing Message.RPC_SERVICE_REGISTER_RESPONSE 2
  obtain ⟨response, redirect⟩ := redirection_built ⟨served.2.m_ip, 91⟩ 1 (by decide)
  obtain ⟨d, s', received, type, read⟩ := redirect_arrives redirect
  obtain ⟨empty, encoded, run⟩ :=
    RpcServer.registerFunc2Reg_redirected [] 2 accepted started_asks built redirect
  refine ⟨⟨1, some response⟩, ⟨2, some accepted⟩, _, ⟨response, rfl, redirect⟩,
    ⟨accepted, rfl, accept⟩, run, rfl, fun reaches => ?_⟩
  have apart : (⟨served.2.m_ip, 90⟩ : IpPort) ≠ ⟨served.2.m_ip, 91⟩ := by decide +kernel
  refine apart ((reaches_pair ?_ ?_ ?_).mp reaches).2
  · exact lists_nothing encoded
  · exact lists_registered built
  · exact ⟨response, d, s', rfl, received, type, read⟩

end CRpc.Registry
