import CRpc.Rpc.Register

/-! What the register's clients learn of the reports it has received. -/
namespace CRpc.Registry
open Util Buffer Multimaps

def service : Format Service where
  write := writeService
  read := readService
  bytes p := p.1.encoded ++ (p.2.m_ip.encoded ++ Scalar.uint16.bytes p.2.m_port)
  write_eq p := by simp only [writeService, writeString_eq, write_eq, write_write]
  reads p := by
    apply (reads_readString p.1).bind
    apply (reads_readString p.2.m_ip).bind
    exact (reads_read .uint16 p.2.m_port).map fun f_port => (p.1, IpPort.mk p.2.m_ip f_port)
  nonempty p := by simp [Scalar.bytes, ← List.length_eq_zero_iff]

/-- What the servers write is what a list of services is written as. -/
theorem serverInit_eq (m_funcs : List Text) (m_ip : Text) (m_port : UInt16) :
    serverInit m_funcs m_ip m_port =
      (m_funcs.map fun f_name => (f_name, IpPort.mk m_ip m_port)).forM writeService := by
  induction m_funcs with
  | nil => rfl
  | cons f_name m_funcs ih =>
    change (writeService (f_name, ⟨m_ip, m_port⟩) >>= fun _ => serverInit m_funcs m_ip m_port) = _
    rw [ih]
    rfl

theorem registerFunc2Reg_eq (f_name m_ip : Text) (m_port : UInt16) :
    registerFunc2Reg f_name m_ip m_port = [(f_name, IpPort.mk m_ip m_port)].forM writeService := by
  rfl

inductive ReportKind
  | RPC_SERVER_INIT | RPC_SERVICE_REGISTER | RPC_SERVICE_DELETE

def ReportKind.type : ReportKind → UInt8
  | .RPC_SERVER_INIT => Message.RPC_SERVER_INIT
  | .RPC_SERVICE_REGISTER => Message.RPC_SERVICE_REGISTER
  | .RPC_SERVICE_DELETE => Message.RPC_SERVICE_DELETE

structure Report where
  kind : ReportKind
  socket : Int32
  seq : UInt64
  services : List Service

/-- A report of `RpcServer::start` or `registerFunc2Reg`. -/
structure Registration extends Report where
  registers : kind = .RPC_SERVER_INIT ∨ kind = .RPC_SERVICE_REGISTER

def handleReports (reg : RpcRegister) : List Report → Option RpcRegister
  | [] => some reg
  | r :: rs => do
    let (reg, _) ← reg.deliver r.socket r.kind.type r.seq (r.services.forM writeService)
    handleReports reg rs

theorem emplaceServices_eq (m_addresses : Multimap Text IpPort) {l : List Service}
    {s : Serializer} (unread : s.unread = l.flatMap service.bytes) :
    ∃ s', RpcRegister.emplaceServices m_addresses s = some (m_addresses.emplaceAll l, s') := by
  have each : ∀ (m : Multimap Text IpPort) (p : Service), Reads (do
      let p ← readService
      return m.emplace p.1 p.2) (service.bytes p) (m.emplace p.1 p.2) :=
    fun m p => (service.reads p).map fun p => m.emplace p.1 p.2
  obtain ⟨s', done, -⟩ := untilReadEnd_items each service.nonempty _ m_addresses unread
  exact ⟨s', done⟩

theorem addAddresses_eq (pool : ConnectionPool) {l : List Service} {s : Serializer}
    (unread : s.unread = l.flatMap service.bytes) :
    ∃ s', pool.addAddresses s = some (⟨pool.m_addresses.emplaceAll l⟩, s') := by
  have each : ∀ (pool : ConnectionPool) (p : Service), Reads (do
      let p ← readService
      return pool.addAddress p.1 p.2) (service.bytes p) (pool.addAddress p.1 p.2) :=
    fun pool p => (service.reads p).map fun p => pool.addAddress p.1 p.2
  obtain ⟨s', done, -⟩ := untilReadEnd_items each service.nonempty _ pool unread
  have fold : ∀ (l : List Service) (pool : ConnectionPool),
      l.foldl (fun pool p => pool.addAddress p.1 p.2) pool = ⟨pool.m_addresses.emplaceAll l⟩ := by
    intro l
    induction l with
    | nil => exact fun _ => rfl
    | cons p l ih => exact fun pool => ih (pool.addAddress p.1 p.2)
  exact ⟨s', by rw [← fold]; exact done⟩

theorem readResponse_eq {message : Message} {type : UInt8} {seq : UInt64} {l : List Service}
    (carries : message.Carries type seq (l.flatMap service.bytes)) (pool : ConnectionPool) :
    readResponse message pool = some ⟨pool.m_addresses.emplaceAll l⟩ := by
  obtain ⟨d, received, -, -, unread⟩ := carries.arrives
  obtain ⟨s', added⟩ := addAddresses_eq pool unread
  rw [readResponse, received]
  change (pool.addAddresses d.serializer).bind _ = _
  rw [added]
  rfl

/-- The response without content of `handleServerInit` and its like can always be encoded. -/
theorem encoded_nothing (type : UInt8) (seq : UInt64) :
    ∃ message, Message.encoded type seq (return ()) = some message ∧
      message.Carries type seq [] := by
  rcases Message.encoded_cases type seq [] with ⟨message, built, carries⟩ | ⟨-, long⟩
  · rw [write_nil] at built
    exact ⟨message, built, carries⟩
  · exact absurd long (by decide)

/-- A message that can be encoded reaches `handleMsg` as it was written. -/
theorem deliver_cases (reg : RpcRegister) (socket : Int32) (type : UInt8) (seq : UInt64)
    (bs : List UInt8) :
    (∃ d, reg.deliver socket type seq (Buffer.write bs) = reg.handleMsg d socket ∧
      d.type = type ∧ d.seq = seq ∧ d.serializer.unread = bs) ∨
    (reg.deliver socket type seq (Buffer.write bs) = none ∧ 2 ^ 62 ≤ bs.length) := by
  unfold RpcRegister.deliver
  rcases Message.encoded_cases type seq bs with ⟨m, built, carries⟩ | ⟨built, long⟩
  · obtain ⟨d, received, kept⟩ := carries.arrives
    refine .inl ⟨d, ?_, kept⟩
    rw [built, Option.bind_eq_bind, Option.bind_some, received]
    rfl
  · refine .inr ⟨?_, long⟩
    rw [built]
    rfl

section Dispatch
variable (reg : RpcRegister) {d : Message} (socket : Int32)

theorem handleMsg_clientInit (h : d.type = Message.RPC_CLIENT_INIT) :
    reg.handleMsg d socket = reg.handleCLientInit d socket := by
  rw [RpcRegister.handleMsg, if_pos h]

theorem handleMsg_serverInit (h : d.type = Message.RPC_SERVER_INIT) :
    reg.handleMsg d socket = reg.handleServerInit d socket := by
  rw [RpcRegister.handleMsg, h]
  rfl

theorem handleMsg_serviceRegister (h : d.type = Message.RPC_SERVICE_REGISTER) :
    reg.handleMsg d socket = reg.handleServiceRegister d socket := by
  rw [RpcRegister.handleMsg, h]
  rfl

/-- The switch has no case for these two, though the handlers exist. -/
theorem handleMsg_default (h : d.type = Message.RPC_SERVICE_DISCOVER ∨
    d.type = Message.RPC_SERVICE_DELETE) : reg.handleMsg d socket = some (reg, []) := by
  rcases h with h | h
  · rw [RpcRegister.handleMsg, h]
    rfl
  · rw [RpcRegister.handleMsg, h]
    rfl

end Dispatch

theorem handleServerInit_eq (reg : RpcRegister) {d message : Message} (socket : Int32)
    {l : List Service} (unread : d.serializer.unread = l.flatMap service.bytes)
    (built : Message.encoded Message.RPC_SERVICE_REGISTER_RESPONSE d.seq (return ()) =
      some message) :
    reg.handleServerInit d socket =
      some (⟨reg.m_addresses.emplaceAll l, if socket ∈ reg.m_heartbeat_timers
        then reg.m_heartbeat_timers else socket :: reg.m_heartbeat_timers⟩,
        [.addTimeEvent socket, .send socket message]) := by
  obtain ⟨s', emplaced⟩ := emplaceServices_eq reg.m_addresses unread
  rw [RpcRegister.handleServerInit, emplaced, Option.bind_eq_bind, Option.bind_some]
  simp only [built]
  rfl

theorem handleServiceRegister_eq (reg : RpcRegister) {d message : Message} (socket : Int32)
    {l : List Service} (unread : d.serializer.unread = l.flatMap service.bytes)
    (built : Message.encoded Message.RPC_SERVICE_REGISTER_RESPONSE d.seq (return ()) =
      some message) :
    reg.handleServiceRegister d socket =
      some ({ reg with m_addresses := reg.m_addresses.emplaceAll l }, [.send socket message]) := by
  obtain ⟨s', emplaced⟩ := emplaceServices_eq reg.m_addresses unread
  rw [RpcRegister.handleServiceRegister, emplaced, Option.bind_eq_bind, Option.bind_some]
  simp only [built]
  rfl

/-- A registration that can be encoded is stored, and answered under its `seq`. -/
theorem deliver_registration (reg : RpcRegister) (r : Registration) :
    (∃ reg' effects message, reg.deliver r.socket r.kind.type r.seq
        (r.services.forM writeService) = some (reg', effects) ∧
      .send r.socket message ∈ effects ∧
      message.Carries Message.RPC_SERVICE_REGISTER_RESPONSE r.seq [] ∧
      reg'.m_addresses = reg.m_addresses.emplaceAll r.services) ∨
    (reg.deliver r.socket r.kind.type r.seq (r.services.forM writeService) = none ∧
      2 ^ 62 ≤ (r.services.flatMap service.bytes).length) := by
  have writes : r.services.forM writeService = _ := service.forM_write r.services
  rw [writes]
  rcases deliver_cases reg r.socket r.kind.type r.seq (r.services.flatMap service.bytes) with
    ⟨d, delivered, type, seq, unread⟩ | thrown
  · left
    obtain ⟨message, built, carries⟩ :=
      encoded_nothing Message.RPC_SERVICE_REGISTER_RESPONSE d.seq
    rw [delivered]
    rcases r.registers with init | register
    · have handled := handleServerInit_eq reg r.socket unread built
      rw [handleMsg_serverInit reg r.socket (type.trans (congrArg ReportKind.type init)), handled]
      exact ⟨_, _, message, rfl, by simp, seq ▸ carries, rfl⟩
    · have handled := handleServiceRegister_eq reg r.socket unread built
      rw [handleMsg_serviceRegister reg r.socket (type.trans (congrArg ReportKind.type register)),
        handled]
      exact ⟨_, _, message, rfl, by simp, seq ▸ carries, rfl⟩
  · exact .inr thrown

/-- A run of registrations stores all their services in order, unless one cannot be encoded. -/
theorem handleReports_cases (history : List Registration) :
    ∀ reg : RpcRegister,
    (∃ reg', handleReports reg (history.map (·.toReport)) = some reg' ∧
      reg'.m_addresses = reg.m_addresses.emplaceAll (history.flatMap fun r => r.services)) ∨
    (handleReports reg (history.map (·.toReport)) = none ∧
      ∃ r ∈ history, 2 ^ 62 ≤ (r.services.flatMap service.bytes).length) := by
  induction history with
  | nil => exact fun reg => .inl ⟨reg, rfl, rfl⟩
  | cons r history ih =>
    intro reg
    rw [List.map_cons, handleReports]
    rcases deliver_registration reg r with
      ⟨reg', effects, -, delivered, -, -, stored⟩ | ⟨thrown, long⟩
    · rw [delivered, Option.bind_eq_bind, Option.bind_some]
      rcases ih reg' with ⟨last, handled, all⟩ | ⟨thrown, q, mem, long⟩
      · refine .inl ⟨last, handled, ?_⟩
        rw [all, stored, List.flatMap_cons]
        exact (List.foldl_append ..).symm
      · exact .inr ⟨thrown, q, List.mem_cons_of_mem _ mem, long⟩
    · rw [thrown]
      exact .inr ⟨rfl, r, List.mem_cons_self, long⟩

def addresses (services : List Service) (f_name : Text) : List IpPort :=
  (services.filter fun p => p.1 = f_name).map Prod.snd

theorem clientInit_eq : clientInit = Buffer.write greeting.encoded :=
  writeString_eq greeting

theorem deliver_clientInit (reg : RpcRegister) (socket : Int32) (seq : UInt64) :
    (∃ message, reg.deliver socket Message.RPC_CLIENT_INIT seq clientInit =
        some (reg, [.send socket message]) ∧
      message.Carries Message.RPC_SERVICE_DISCOVER_RESPONSE seq
        (reg.m_addresses.pairs.flatMap service.bytes)) ∨
    (reg.deliver socket Message.RPC_CLIENT_INIT seq clientInit = none ∧
      2 ^ 62 ≤ (reg.m_addresses.pairs.flatMap service.bytes).length) := by
  have writes : reg.m_addresses.pairs.forM writeService = _ := service.forM_write _
  rw [clientInit_eq]
  rcases deliver_cases reg socket Message.RPC_CLIENT_INIT seq greeting.encoded with
    ⟨d, delivered, type, same, -⟩ | ⟨-, long⟩
  · rw [delivered, handleMsg_clientInit reg socket type, RpcRegister.handleCLientInit, writes, same]
    rcases Message.encoded_cases Message.RPC_SERVICE_DISCOVER_RESPONSE seq
      (reg.m_addresses.pairs.flatMap service.bytes) with ⟨message, built, carries⟩ | ⟨built, long⟩
    · rw [built]
      exact .inl ⟨message, rfl, carries⟩
    · rw [built]
      exact .inr ⟨rfl, long⟩
  · exact absurd long (by decide)

/-- Whatever has been registered, a new client's pool gets every function's addresses in the
order of their registration, or the services do not fit into a string. -/
theorem snapshot_round_trip (history : List Registration) (socket : Int32) (seq : UInt64) :
    (∃ reg message pool, handleReports {} (history.map (·.toReport)) = some reg ∧
      reg.deliver socket Message.RPC_CLIENT_INIT seq clientInit =
        some (reg, [.send socket message]) ∧
      message.type = Message.RPC_SERVICE_DISCOVER_RESPONSE ∧ message.seq = seq ∧
      readResponse message {} = some pool ∧
      ∀ f_name, pool.getAllAddress f_name =
        addresses (history.flatMap fun r => r.services) f_name) ∨
    (2 ^ 62 ≤ ((history.flatMap fun r => r.services).flatMap service.bytes).length ∧
      (handleReports {} (history.map (·.toReport)) = none ∨
      ∃ reg, handleReports {} (history.map (·.toReport)) = some reg ∧
        reg.deliver socket Message.RPC_CLIENT_INIT seq clientInit = none)) := by
  rcases handleReports_cases history {} with ⟨reg, handled, stored⟩ | ⟨thrown, r, mem, long⟩
  · rcases deliver_clientInit reg socket seq with ⟨message, delivered, carries⟩ | ⟨thrown, long⟩
    · refine .inl ⟨reg, message, _, handled, delivered, carries.type_eq, carries.seq_eq,
        readResponse_eq carries {}, ?_⟩
      intro f_name
      change (Multimap.empty.emplaceAll reg.m_addresses.pairs).equalRange f_name = _
      rw [Multimap.equalRange_copy, stored, Multimap.equalRange_emplaceAll]
      rfl
    · refine .inr ⟨?_, .inr ⟨reg, handled, thrown⟩⟩
      have same : reg.m_addresses.pairs.Perm (history.flatMap fun r => r.services) := by
        rw [stored]
        exact Multimap.emplaceAll_perm .empty _
      rwa [← (same.flatMap_right service.bytes).length_eq]
  · refine .inr ⟨?_, .inl thrown⟩
    apply long.trans
    rw [List.flatMap_assoc, List.flatMap_def]
    apply List.Sublist.length_le
    apply List.sublist_flatten_of_mem
    exact List.mem_map_of_mem (f := fun r => r.services.flatMap service.bytes) mem

def registered : List Report → List Service :=
  List.foldl (fun services r => match r.kind with
    | .RPC_SERVICE_DELETE => services.filter fun p => p ∉ r.services
    | _ => services ++ r.services) []

/-- After the reports, the question for a function is answered once, under its `seq`, with the
addresses that are registered. -/
def Discovered (history : List Report) (f_name : Text) (socket : Int32) (seq : UInt64) : Prop :=
  ∃ reg reg' message pool, handleReports {} history = some reg ∧
    reg.deliver socket Message.RPC_SERVICE_DISCOVER seq (serviceDiscover f_name) =
      some (reg', [.send socket message]) ∧
    message.type = Message.RPC_SERVICE_DISCOVER_RESPONSE ∧ message.seq = seq ∧
    readResponse message {} = some pool ∧
    (pool.getAllAddress f_name).Perm (addresses (registered history) f_name)

/-- After the reports, a deletion is answered once, under its `seq`. -/
def DeletionAnswered (history : List Report) (f_name m_ip : Text) (m_port : UInt16)
    (socket : Int32) (seq : UInt64) : Prop :=
  ∃ reg reg' message, handleReports {} history = some reg ∧
    reg.deliver socket Message.RPC_SERVICE_DELETE seq (deleteFunc2Reg f_name m_ip m_port) =
      some (reg', [.send socket message]) ∧ message.seq = seq

/-- Both kinds of messages leave the register as it is, and unanswered. -/
theorem deliver_ignored (reg : RpcRegister) (socket : Int32) {type : UInt8} (seq : UInt64)
    (h : type = Message.RPC_SERVICE_DISCOVER ∨ type = Message.RPC_SERVICE_DELETE)
    (bs : List UInt8) :
    reg.deliver socket type seq (Buffer.write bs) = some (reg, []) ∨
    (reg.deliver socket type seq (Buffer.write bs) = none ∧ 2 ^ 62 ≤ bs.length) := by
  apply (deliver_cases reg socket type seq bs).imp_left
  rintro ⟨d, delivered, same, -⟩
  rw [delivered]
  exact handleMsg_default reg socket (same ▸ h)

/-- After no reports at all is a question answered, or a deletion. -/
theorem discovery_never_answered (history : List Report) (f_name m_ip : Text) (m_port : UInt16)
    (socket : Int32) (seq : UInt64) :
    ¬ Discovered history f_name socket seq ∧
    ¬ DeletionAnswered history f_name m_ip m_port socket seq := by
  constructor
  · rintro ⟨reg, reg', message, pool, -, answered, -⟩
    rw [serviceDiscover, writeString_eq] at answered
    rcases deliver_ignored reg socket seq (.inl rfl) f_name.encoded with ignored | ⟨thrown, -⟩
    · cases ignored.symm.trans answered
    · cases thrown.symm.trans answered
  · rintro ⟨reg, reg', message, -, answered, -⟩
    have writes : deleteFunc2Reg f_name m_ip m_port = _ := service.write_eq (f_name, ⟨m_ip, m_port⟩)
    rw [writes] at answered
    rcases deliver_ignored reg socket seq (.inr rfl) _ with ignored | ⟨thrown, -⟩
    · cases ignored.symm.trans answered
    · cases thrown.symm.trans answered

/-- The function `f`, served at the port 80 of a host. -/
def served : Service := (⟨[102], by decide⟩, ⟨⟨[104], by decide⟩, 80⟩)

/-- It is registered, a client asks for it, and the register says nothing. -/
theorem discovery_unanswered :
    (∃ reg, handleReports {} [⟨.RPC_SERVER_INIT, 5, 1, [served]⟩] = some reg ∧
      reg.deliver 6 Message.RPC_SERVICE_DISCOVER 2 (serviceDiscover served.1) = some (reg, [])) ∧
    registered [⟨.RPC_SERVER_INIT, 5, 1, [served]⟩] = [served] ∧
    ¬ (Discovered [⟨.RPC_SERVER_INIT, 5, 1, [served]⟩] served.1 6 2 ∧
      DeletionAnswered [⟨.RPC_SERVER_INIT, 5, 1, [served]⟩] served.1 served.2.m_ip 80 5 3) := by
  have ignored : ∀ reg : RpcRegister, reg.deliver 6 Message.RPC_SERVICE_DISCOVER 2
      (serviceDiscover served.1) = some (reg, []) := by
    intro reg
    rw [serviceDiscover, writeString_eq]
    rcases deliver_ignored reg 6 2 (.inl rfl) served.1.encoded with ignored | ⟨-, long⟩
    · exact ignored
    · exact absurd long (by decide)
  refine ⟨?_, rfl, ?_⟩
  · rcases handleReports_cases [⟨⟨.RPC_SERVER_INIT, 5, 1, [served]⟩, .inl rfl⟩] {} with
      ⟨reg, handled, -⟩ | ⟨-, r, mem, long⟩
    · exact ⟨reg, handled, ignored reg⟩
    · cases List.mem_singleton.mp mem
      exact absurd long (by decide)
  · rintro ⟨⟨reg, reg', message, pool, -, answered, -⟩, -⟩
    cases (ignored reg).symm.trans answered

/-- Called on the same question, the handler that is not dispatched would answer it. -/
theorem handleServiceDiscover_answers (reg : RpcRegister) {d : Message} (socket : Int32)
    {f_name : Text} (unread : d.serializer.unread = f_name.encoded) :
    (∃ message pool, reg.handleServiceDiscover d socket = some (reg, [.send socket message]) ∧
      message.type = Message.RPC_SERVICE_DISCOVER_RESPONSE ∧ message.seq = d.seq ∧
      readResponse message {} = some pool ∧
      pool.getAllAddress f_name = reg.m_addresses.equalRange f_name) ∨
    (reg.handleServiceDiscover d socket = none ∧
      2 ^ 62 ≤ (((reg.m_addresses.equalRange f_name).map fun a => (f_name, a)).flatMap
        service.bytes).length) := by
  have nonempty : ∀ t : Text, t.encoded ≠ [] := by
    intro t
    simp [Text.encoded, ← List.length_eq_zero_iff]
  have each : ∀ _ t : Text, Reads Serializer.readString t.encoded t := fun _ => reads_readString
  obtain ⟨s', read, -⟩ := untilReadEnd_items each nonempty [f_name] ⟨[], length_nil_lt⟩
    (by rw [unread]; simp)
  have writes : ((reg.m_addresses.equalRange f_name).forM fun a => writeService (f_name, a)) =
      ((reg.m_addresses.equalRange f_name).map fun a => (f_name, a)).forM writeService := by
    rw [List.forM_eq_forM, List.forM_eq_forM, List.forM_map]
  have forms : ((reg.m_addresses.equalRange f_name).map fun a => (f_name, a)).forM writeService =
    _ := service.forM_write _
  rw [RpcRegister.handleServiceDiscover, read, Option.bind_eq_bind, Option.bind_some]
  simp only [List.foldl_cons, List.foldl_nil, writes, forms]
  rcases Message.encoded_cases Message.RPC_SERVICE_DISCOVER_RESPONSE d.seq
    (((reg.m_addresses.equalRange f_name).map fun a => (f_name, a)).flatMap service.bytes) with
    ⟨message, built, carries⟩ | ⟨built, long⟩
  · rw [built]
    refine .inl ⟨message, _, rfl, carries.type_eq, carries.seq_eq, readResponse_eq carries {}, ?_⟩
    change (Multimap.empty.emplaceAll _).equalRange f_name = _
    rw [Multimap.equalRange_emplaceAll, List.filter_eq_self.mpr (by simp), List.map_map]
    exact List.map_id _
  · rw [built]
    exact .inr ⟨rfl, long⟩

/-- The other one would erase the address and then use the iterator to it. -/
theorem handleServiceDelete_dangles (reg : RpcRegister) {d : Message} (socket : Int32) {p : Service}
    (unread : d.serializer.unread = service.bytes p)
    (stored : p.2 ∈ reg.m_addresses.equalRange p.1) : reg.handleServiceDelete d socket = none := by
  have more : ¬ d.serializer.isReadEnd = true := by
    rw [isReadEnd_iff, unread]
    exact service.nonempty p
  have round := service.reads p d.serializer [] (by rw [unread, List.append_nil])
  change readService d.serializer = _ at round
  have thrown : untilReadEnd (fun (m : Multimap Text IpPort) => do
      let p ← readService
      if p.2 ∈ m.equalRange p.1 then failure else return m) reg.m_addresses d.serializer =
      none := by
    apply untilReadEnd_throws more
    change (readService d.serializer).bind _ = _
    rw [round, Option.bind_some]
    simp only [if_pos stored]
    rfl
  rw [RpcRegister.handleServiceDelete, thrown]
  rfl

end CRpc.Registry
