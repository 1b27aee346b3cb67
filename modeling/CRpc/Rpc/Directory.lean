import CRpc.Lib.Runs
import CRpc.Rpc.Discovery
import CRpc.Util.Decoding
import Mathlib.Logic.Function.Basic

/-! Servers, the register and clients with messages under way: what is listed where. -/
namespace CRpc.Registry
open Util Buffer Multimaps Transition

/-- The tables of the servers, of the register and of the clients, and what is under way to the
register and from it. A client or a server is known there by its socket. -/
structure Directory (κ : Type) where
  m_funcs : κ → List Text := fun _ => []
  register : RpcRegister := {}
  requests : List (Int32 × Message) := []
  responses : List (Int32 × Message) := []
  pools : Int32 → ConnectionPool := fun _ => {}

inductive DirectoryAct (κ : Type)
  /-- `RpcServer::registerFunc` -/
  | registerFunc (k : κ) (name : Text) (socket : Int32) (seq : UInt64)
  /-- `RpcServer::deleteFunc` -/
  | deleteFunc (k : κ) (name : Text) (socket : Int32) (seq : UInt64)
  /-- `RpcServer::start` -/
  | startServer (k : κ) (socket : Int32) (seq : UInt64)
  /-- `RpcCLient::start` -/
  | startClient (socket : Int32) (seq : UInt64)
  /-- `RpcCLient::call`, for a function without a server -/
  | discover (f_name : Text) (socket : Int32) (seq : UInt64)
  /-- `RpcRegister::handleMsg`, on one of the messages that have arrived -/
  | handleMsg (j : ℕ)
  /-- a client reads one of the responses into its pool -/
  | addAddresses (j : ℕ)

def Effect.sent : Effect → Option (Int32 × Message)
  | .send socket message => some (socket, message)
  | .addTimeEvent _ | .resetTime _ => none

namespace Directory
variable {κ : Type}

def post (s : Directory κ) (socket : Int32) (message : Option Message) : Directory κ :=
  { s with requests := s.requests ++ (message.map fun m => (socket, m)).toList }

section Step
variable [DecidableEq κ]

def setFuncs (s : Directory κ) (k : κ) (names : List Text) : Directory κ :=
  { s with m_funcs := Function.update s.m_funcs k names }

/-- The register's handlers and a client's loop return, or there is no step. -/
def step (address : κ → IpPort) (s : Directory κ) : DirectoryAct κ → Option (Directory κ)
  | .registerFunc k name socket seq =>
    let names := if name ∈ s.m_funcs k then s.m_funcs k else name :: s.m_funcs k
    some ((s.setFuncs k names).post socket (Message.encoded Message.RPC_SERVICE_REGISTER seq
      (registerFunc2Reg name (address k).m_ip (address k).m_port)))
  | .deleteFunc k name socket seq =>
    some ((s.setFuncs k ((s.m_funcs k).filter (· ≠ name))).post socket
      (Message.encoded Message.RPC_SERVICE_DELETE seq
        (deleteFunc2Reg name (address k).m_ip (address k).m_port)))
  | .startServer k socket seq =>
    some (s.post socket (Message.encoded Message.RPC_SERVER_INIT seq
      (serverInit (s.m_funcs k) (address k).m_ip (address k).m_port)))
  | .startClient socket seq =>
    some (s.post socket (Message.encoded Message.RPC_CLIENT_INIT seq clientInit))
  | .discover f_name socket seq =>
    some (s.post socket (Message.encoded Message.RPC_SERVICE_DISCOVER seq (serviceDiscover f_name)))
  | .handleMsg j => do
    let (socket, message) ← s.requests[j]?
    let receive_message ← message.received
    let (register, effects) ← s.register.handleMsg receive_message socket
    return { s with
      register
      requests := s.requests.eraseIdx j
      responses := s.responses ++ effects.filterMap Effect.sent }
  | .addAddresses j => do
    let (socket, message) ← s.responses[j]?
    let pool ← readResponse message (s.pools socket)
    return { s with
      responses := s.responses.eraseIdx j
      pools := Function.update s.pools socket pool }

/-- A server at this address has the function in its table, or had it when it deleted it. -/
def Offers (address : κ → IpPort) (as : List (DirectoryAct κ)) (s : Directory κ) (p : Service) :
    Prop :=
  ∃ k, address k = p.2 ∧ (p.1 ∈ s.m_funcs k ∨ ∃ before socket seq after t,
    as = before ++ .deleteFunc k p.1 socket seq :: after ∧
    Run (step address) Always {} before t ∧ p.1 ∈ t.m_funcs k)

end Step

end Directory

def Announces (m : Message) (services : List Service) : Prop :=
  ∃ type seq, (type = Message.RPC_SERVER_INIT ∨ type = Message.RPC_SERVICE_REGISTER) ∧
    m.Carries type seq (services.flatMap service.bytes)

def Asks (m : Message) : Prop :=
  ∃ type seq content, (type = Message.RPC_CLIENT_INIT ∨ type = Message.RPC_SERVICE_DISCOVER ∨
    type = Message.RPC_SERVICE_DELETE) ∧ m.Carries type seq content

def Tells (m : Message) (services : List Service) : Prop :=
  ∃ type seq, m.Carries type seq (services.flatMap service.bytes)

theorem handled_announcement {m d : Message} {services : List Service} {reg reg' : RpcRegister}
    {socket : Int32} {effects : List Effect} (announces : Announces m services)
    (received : m.received = some d) (handled : reg.handleMsg d socket = some (reg', effects)) :
    reg'.m_addresses = reg.m_addresses.emplaceAll services ∧
      ∀ r ∈ effects.filterMap Effect.sent, Tells r.2 [] := by
  obtain ⟨type, seq, registers, carries⟩ := announces
  obtain ⟨d', received', type_eq, -, unread⟩ := carries.arrives
  cases received.symm.trans received'
  obtain ⟨message, built, response⟩ :=
    encoded_nothing Message.RPC_SERVICE_REGISTER_RESPONSE d.seq
  rcases registers with rfl | rfl
  · rw [handleMsg_serverInit reg socket type_eq, handleServerInit_eq reg socket unread built]
      at handled
    cases handled
    refine ⟨rfl, ?_⟩
    intro r mem
    simp only [List.filterMap_cons, Effect.sent, List.filterMap_nil, List.mem_singleton] at mem
    subst mem
    exact ⟨_, _, response⟩
  · rw [handleMsg_serviceRegister reg socket type_eq,
      handleServiceRegister_eq reg socket unread built] at handled
    cases handled
    refine ⟨rfl, ?_⟩
    intro r mem
    simp only [List.filterMap_cons, Effect.sent, List.filterMap_nil, List.mem_singleton] at mem
    subst mem
    exact ⟨_, _, response⟩

/-- Any other message leaves the tables as they are, and is answered with the table at most. -/
theorem handled_question {m d : Message} {reg reg' : RpcRegister} {socket : Int32}
    {effects : List Effect} (asks : Asks m) (received : m.received = some d)
    (handled : reg.handleMsg d socket = some (reg', effects)) :
    reg' = reg ∧ ∀ r ∈ effects.filterMap Effect.sent, Tells r.2 reg.m_addresses.pairs := by
  obtain ⟨type, seq, content, kind, carries⟩ := asks
  obtain ⟨d', received', type_eq, -, -⟩ := carries.arrives
  cases received.symm.trans received'
  rcases kind with rfl | ignored
  · have writes : reg.m_addresses.pairs.forM writeService = _ := service.forM_write _
    rw [handleMsg_clientInit reg socket type_eq, RpcRegister.handleCLientInit, writes] at handled
    rcases Message.encoded_cases Message.RPC_SERVICE_DISCOVER_RESPONSE d.seq
      (reg.m_addresses.pairs.flatMap service.bytes) with ⟨message, built, response⟩ | ⟨built, -⟩
    · rw [built] at handled
      cases handled
      refine ⟨rfl, ?_⟩
      intro r mem
      simp only [List.filterMap_cons, Effect.sent, List.filterMap_nil, List.mem_singleton] at mem
      subst mem
      exact ⟨_, _, response⟩
    · rw [built] at handled
      cases handled
  · rw [handleMsg_default reg socket (by rw [type_eq]; exact ignored)] at handled
    cases handled
    refine ⟨rfl, fun r mem => ?_⟩
    cases mem

theorem Announces.unique {m : Message} {services services' : List Service}
    (first : Announces m services) (second : Announces m services') : services = services' := by
  obtain ⟨type, seq, -, carries⟩ := first
  obtain ⟨type', seq', -, carries'⟩ := second
  obtain ⟨d, received, -, -, unread⟩ := carries.arrives
  obtain ⟨d', received', -, -, unread'⟩ := carries'.arrives
  cases received.symm.trans received'
  exact flatMap_inj service.reads service.nonempty (unread.symm.trans unread')

theorem Asks.not_announces {m : Message} {services : List Service} (asks : Asks m) :
    ¬ Announces m services := by
  rintro ⟨type, seq, registers, carries⟩
  obtain ⟨type', seq', content, kind, carries'⟩ := asks
  have same : type = type' := carries.type_eq.symm.trans carries'.type_eq
  subst same
  rcases registers with rfl | rfl <;> exact absurd kind (by decide)

theorem carries_encoded {type : UInt8} {seq : UInt64} {bs : List UInt8} {m : Message}
    (built : Message.encoded type seq (Buffer.write bs) = some m) : m.Carries type seq bs := by
  rcases Message.encoded_cases type seq bs with ⟨m', built', carries⟩ | ⟨none, -⟩
  · cases built.symm.trans built'
    exact carries
  · cases built.symm.trans none

section Messages
variable {seq : UInt64} {m : Message}

theorem announces_registerFunc {name : Text} {a : IpPort}
    (built : Message.encoded Message.RPC_SERVICE_REGISTER seq
      (registerFunc2Reg name a.m_ip a.m_port) = some m) : Announces m [(name, a)] := by
  have writes : registerFunc2Reg name a.m_ip a.m_port = _ :=
    (registerFunc2Reg_eq name a.m_ip a.m_port).trans (service.forM_write [(name, a)])
  rw [writes] at built
  exact ⟨_, _, .inr rfl, carries_encoded built⟩

theorem announces_start {m_funcs : List Text} {a : IpPort}
    (built : Message.encoded Message.RPC_SERVER_INIT seq (serverInit m_funcs a.m_ip a.m_port) =
      some m) : Announces m (m_funcs.map fun f_name => (f_name, a)) := by
  have writes : serverInit m_funcs a.m_ip a.m_port = _ :=
    (serverInit_eq m_funcs a.m_ip a.m_port).trans (service.forM_write _)
  rw [writes] at built
  exact ⟨_, _, .inl rfl, carries_encoded built⟩

theorem asks_deleteFunc {name : Text} {a : IpPort}
    (built : Message.encoded Message.RPC_SERVICE_DELETE seq
      (deleteFunc2Reg name a.m_ip a.m_port) = some m) : Asks m := by
  have writes : deleteFunc2Reg name a.m_ip a.m_port = _ :=
    (registerFunc2Reg_eq name a.m_ip a.m_port).trans (service.forM_write [(name, a)])
  rw [writes] at built
  exact ⟨_, _, _, .inr (.inr rfl), carries_encoded built⟩

theorem asks_start (built : Message.encoded Message.RPC_CLIENT_INIT seq clientInit = some m) :
    Asks m := by
  rw [clientInit_eq] at built
  exact ⟨_, _, _, .inl rfl, carries_encoded built⟩

theorem asks_discover {f_name : Text}
    (built : Message.encoded Message.RPC_SERVICE_DISCOVER seq (serviceDiscover f_name) = some m) :
    Asks m := by
  rw [serviceDiscover, writeString_eq] at built
  exact ⟨_, _, _, .inr (.inl rfl), carries_encoded built⟩

end Messages

namespace Directory
variable {κ : Type} [DecidableEq κ] {address : κ → IpPort} {s s' : Directory κ}
  {as : List (DirectoryAct κ)} {a : DirectoryAct κ}

structure Honest (address : κ → IpPort) (as : List (DirectoryAct κ)) (s : Directory κ) :
    Prop where
  register : ∀ p ∈ s.register.m_addresses.pairs, Offers address as s p
  requests : ∀ r ∈ s.requests, Asks r.2 ∨
    ∃ services, Announces r.2 services ∧ ∀ p ∈ services, Offers address as s p
  responses : ∀ r ∈ s.responses,
    ∃ services, Tells r.2 services ∧ ∀ p ∈ services, Offers address as s p
  pools : ∀ socket, ∀ p ∈ (s.pools socket).m_addresses.pairs, Offers address as s p

/-- Whatever a server has in its table is listed by the register, on its way there, or too long. -/
def Complete (address : κ → IpPort) (s : Directory κ) : Prop :=
  ∀ k, ∀ f ∈ s.m_funcs k, (f, address k) ∈ s.register.m_addresses.pairs ∨
    (∃ r ∈ s.requests, ∃ services, Announces r.2 services ∧ (f, address k) ∈ services) ∨
    2 ^ 62 ≤ (service.bytes (f, address k)).length

theorem mem_emplaceAll {m : Multimap Text IpPort} {l : List Service} {p : Service} :
    p ∈ (m.emplaceAll l).pairs ↔ p ∈ m.pairs ∨ p ∈ l := by
  rw [(Multimap.emplaceAll_perm m l).mem_iff, List.mem_append]

theorem offers_step (run : Run (step address) Always {} as s) (next : step address s a = some s')
    {p : Service} (offers : Offers address as s p) : Offers address (as ++ [a]) s' p := by
  obtain ⟨k, here, has | ⟨before, socket, seq, after, t, rfl, past, had⟩⟩ := offers
  · cases a with
    | registerFunc k' name socket seq =>
      cases next
      refine ⟨k, here, .inl ?_⟩
      by_cases eq : k = k'
      · subst eq
        simp only [post, setFuncs, Function.update_self]
        split
        · exact has
        · exact List.mem_cons_of_mem _ has
      · simpa [post, setFuncs, eq] using has
    | deleteFunc k' name socket seq =>
      cases next
      refine ⟨k, here, ?_⟩
      by_cases eq : k = k'
      · subst eq
        by_cases same : p.1 = name
        · subst same
          exact .inr ⟨as, socket, seq, [], s, rfl, run, has⟩
        · left
          simp only [post, setFuncs, Function.update_self]
          exact List.mem_filter.mpr ⟨has, decide_eq_true same⟩
      · left
        simpa [post, setFuncs, eq] using has
    | startServer | startClient | discover =>
      cases next
      exact ⟨k, here, .inl has⟩
    | handleMsg j =>
      obtain ⟨r, -, next⟩ := Option.bind_eq_some_iff.mp next
      obtain ⟨d, -, next⟩ := Option.bind_eq_some_iff.mp next
      obtain ⟨e, -, next⟩ := Option.bind_eq_some_iff.mp next
      cases next
      exact ⟨k, here, .inl has⟩
    | addAddresses j =>
      obtain ⟨r, -, next⟩ := Option.bind_eq_some_iff.mp next
      obtain ⟨pool, -, next⟩ := Option.bind_eq_some_iff.mp next
      cases next
      exact ⟨k, here, .inl has⟩
  · exact ⟨k, here, .inr ⟨before, socket, seq, after ++ [a], t, by simp, past, had⟩⟩

theorem Honest.post {socket : Int32} {message : Option Message} (honest : Honest address as s)
    (tables : s'.register = s.register ∧ s'.responses = s.responses ∧ s'.pools = s.pools)
    (requests : s'.requests = s.requests ++ (message.map fun m => (socket, m)).toList)
    (offers : ∀ p, Offers address as s p → Offers address (as ++ [a]) s' p)
    (new : ∀ m, message = some m → Asks m ∨
      ∃ services, Announces m services ∧ ∀ p ∈ services, Offers address (as ++ [a]) s' p) :
    Honest address (as ++ [a]) s' := by
  obtain ⟨register, responses, pools⟩ := tables
  constructor
  · rw [register]
    exact fun p mem => offers p (honest.register p mem)
  · intro r mem
    rw [requests] at mem
    rcases List.mem_append.mp mem with old | here
    · apply (honest.requests r old).imp_right
      rintro ⟨services, announces, all⟩
      exact ⟨services, announces, fun p mem => offers p (all p mem)⟩
    · obtain ⟨m, sent, rfl⟩ := Option.map_eq_some_iff.mp (Option.mem_toList.mp here)
      exact new m sent
  · rw [responses]
    intro r mem
    obtain ⟨services, tells, all⟩ := honest.responses r mem
    exact ⟨services, tells, fun p mem => offers p (all p mem)⟩
  · rw [pools]
    exact fun socket p mem => offers p (honest.pools socket p mem)

omit [DecidableEq κ] in
theorem complete_same (complete : Complete address s) (m_funcs : s'.m_funcs = s.m_funcs)
    (register : s'.register = s.register) (requests : s.requests ⊆ s'.requests) :
    Complete address s' := by
  intro k f has
  rw [m_funcs] at has
  rw [register]
  rcases complete k f has with listed | ⟨r, mem, services, announces, here⟩ | long
  · exact .inl listed
  · exact .inr (.inl ⟨r, requests mem, services, announces, here⟩)
  · exact .inr (.inr long)

/-- What handling a message does: the register stores its services or none, and says what it
lists. -/
theorem handleMsg_cases {j : ℕ} (honest : Honest address as s)
    (next : step address s (.handleMsg j) = some s') :
    ∃ r ∈ s.requests, ∃ register replies, s' = { s with
        register
        requests := s.requests.eraseIdx j
        responses := s.responses ++ replies } ∧ s.requests[j]? = some r ∧
      ((∃ services, Announces r.2 services ∧ (∀ p ∈ services, Offers address as s p) ∧
        register.m_addresses = s.register.m_addresses.emplaceAll services ∧
        ∀ q ∈ replies, Tells q.2 []) ∨
      (Asks r.2 ∧ register = s.register ∧
        ∀ q ∈ replies, Tells q.2 s.register.m_addresses.pairs)) := by
  obtain ⟨r, here, next⟩ := Option.bind_eq_some_iff.mp next
  obtain ⟨d, received, next⟩ := Option.bind_eq_some_iff.mp next
  obtain ⟨⟨register, effects⟩, handled, next⟩ := Option.bind_eq_some_iff.mp next
  cases next
  have mem := List.mem_of_getElem? here
  refine ⟨r, mem, register, effects.filterMap Effect.sent, rfl, here, ?_⟩
  rcases honest.requests r mem with asks | ⟨services, announces, all⟩
  · exact .inr ⟨asks, handled_question asks received handled⟩
  · exact .inl ⟨services, announces, all, handled_announcement announces received handled⟩

theorem honest_handleMsg {j : ℕ} (run : Run (step address) Always {} as s)
    (honest : Honest address as s)
    (next : step address s (.handleMsg j) = some s') :
    Honest address (as ++ [.handleMsg j]) s' := by
  have offers (p : Service) (old : Offers address as s p) := offers_step run next old
  obtain ⟨r, -, register, replies, rfl, -, outcome⟩ := handleMsg_cases honest next
  constructor
  · intro p mem
    apply offers
    rcases outcome with ⟨services, -, all, stored, -⟩ | ⟨-, rfl, -⟩
    · change p ∈ register.m_addresses.pairs at mem
      rw [stored] at mem
      exact (mem_emplaceAll.mp mem).elim (honest.register p) (all p)
    · exact honest.register p mem
  · intro r' mem
    apply (honest.requests r' (List.mem_of_mem_eraseIdx mem)).imp_right
    rintro ⟨services, announces, all⟩
    exact ⟨services, announces, fun p mem => offers p (all p mem)⟩
  · intro q mem
    rcases List.mem_append.mp mem with old | new
    · obtain ⟨services, tells, all⟩ := honest.responses q old
      exact ⟨services, tells, fun p mem => offers p (all p mem)⟩
    · rcases outcome with ⟨-, -, -, -, nothing⟩ | ⟨-, -, table⟩
      · exact ⟨[], nothing q new, nofun⟩
      · exact ⟨_, table q new, fun p mem => offers p (honest.register p mem)⟩
  · exact fun socket p mem => offers p (honest.pools socket p mem)

theorem honest_addAddresses {j : ℕ} (run : Run (step address) Always {} as s)
    (honest : Honest address as s)
    (next : step address s (.addAddresses j) = some s') :
    Honest address (as ++ [.addAddresses j]) s' := by
  have offers (p : Service) (old : Offers address as s p) := offers_step run next old
  obtain ⟨r, here, next⟩ := Option.bind_eq_some_iff.mp next
  obtain ⟨pool, read, next⟩ := Option.bind_eq_some_iff.mp next
  cases next
  constructor
  · exact fun p mem => offers p (honest.register p mem)
  · intro r' mem
    apply (honest.requests r' mem).imp_right
    rintro ⟨services, announces, all⟩
    exact ⟨services, announces, fun p mem => offers p (all p mem)⟩
  · intro q mem
    obtain ⟨services, tells, all⟩ := honest.responses q (List.mem_of_mem_eraseIdx mem)
    exact ⟨services, tells, fun p mem => offers p (all p mem)⟩
  · intro socket p mem
    apply offers
    by_cases eq : socket = r.1
    · subst eq
      obtain ⟨services, ⟨type, seq, carries⟩, all⟩ :=
        honest.responses r (List.mem_of_getElem? here)
      rw [readResponse_eq carries] at read
      cases read
      simp only [Function.update_self] at mem
      exact (mem_emplaceAll.mp mem).elim (honest.pools r.1 p) (all p)
    · simp only [Function.update_of_ne eq] at mem
      exact honest.pools socket p mem

theorem honest_step (run : Run (step address) Always {} as s) (honest : Honest address as s)
    (next : step address s a = some s') :
    Honest address (as ++ [a]) s' := by
  have offers (p : Service) (old : Offers address as s p) := offers_step run next old
  cases a with
  | registerFunc k name socket seq =>
    cases next
    refine honest.post ⟨rfl, rfl, rfl⟩ rfl offers ?_
    intro m built
    refine .inr ⟨_, announces_registerFunc built, ?_⟩
    intro p mem
    rw [List.mem_singleton.mp mem]
    refine ⟨k, rfl, .inl ?_⟩
    simp only [post, setFuncs, Function.update_self]
    split
    · assumption
    · exact List.mem_cons_self
  | deleteFunc k name socket seq =>
    cases next
    refine honest.post ⟨rfl, rfl, rfl⟩ rfl offers ?_
    exact fun m built => .inl (asks_deleteFunc built)
  | startServer k socket seq =>
    cases next
    refine honest.post ⟨rfl, rfl, rfl⟩ rfl offers ?_
    intro m built
    refine .inr ⟨_, announces_start built, ?_⟩
    intro p mem
    obtain ⟨f_name, has, rfl⟩ := List.mem_map.mp mem
    exact ⟨k, rfl, .inl has⟩
  | startClient socket seq =>
    cases next
    refine honest.post ⟨rfl, rfl, rfl⟩ rfl offers ?_
    exact fun m built => .inl (asks_start built)
  | discover f_name socket seq =>
    cases next
    refine honest.post ⟨rfl, rfl, rfl⟩ rfl offers ?_
    exact fun m built => .inl (asks_discover built)
  | handleMsg j => exact honest_handleMsg run honest next
  | addAddresses j => exact honest_addAddresses run honest next

theorem complete_registerFunc {k : κ} {name : Text} {socket : Int32} {seq : UInt64}
    (complete : Complete address s)
    (next : step address s (.registerFunc k name socket seq) = some s') : Complete address s' := by
  cases next
  intro k' f has
  by_cases new : k' = k ∧ f = name
  · obtain ⟨rfl, rfl⟩ := new
    right
    cases built : Message.encoded Message.RPC_SERVICE_REGISTER seq
        (registerFunc2Reg f (address k').m_ip (address k').m_port) with
    | none =>
      have writes : registerFunc2Reg f (address k').m_ip (address k').m_port = _ :=
        (registerFunc2Reg_eq f _ _).trans (service.forM_write [(f, address k')])
      rw [writes] at built
      rcases Message.encoded_cases Message.RPC_SERVICE_REGISTER seq
          ([(f, address k')].flatMap service.bytes) with ⟨m, built', -⟩ | ⟨-, long⟩
      · cases built'.symm.trans built
      · rw [List.flatMap_singleton] at long
        exact .inr long
    | some m =>
      refine .inl ⟨(socket, m), ?_, _, announces_registerFunc built, List.mem_cons_self⟩
      simp [post]
  · have old : f ∈ s.m_funcs k' := by
      by_cases eq : k' = k
      · subst eq
        have other : f ≠ name := fun eq => new ⟨rfl, eq⟩
        simp only [post, setFuncs, Function.update_self] at has
        split at has
        · exact has
        · exact (List.mem_cons.mp has).resolve_left other
      · simpa [post, setFuncs, eq] using has
    rcases complete k' f old with listed | ⟨r, mem, services, announces, here⟩ | long
    · exact .inl listed
    · exact .inr (.inl ⟨r, List.mem_append_left _ mem, services, announces, here⟩)
    · exact .inr (.inr long)

theorem complete_handleMsg {j : ℕ} (honest : Honest address as s) (complete : Complete address s)
    (next : step address s (.handleMsg j) = some s') : Complete address s' := by
  obtain ⟨r, -, register, replies, rfl, here, outcome⟩ := handleMsg_cases honest next
  have kept : ∀ p ∈ s.register.m_addresses.pairs, p ∈ register.m_addresses.pairs := by
    intro p mem
    rcases outcome with ⟨services, -, -, stored, -⟩ | ⟨-, rfl, -⟩
    · rw [stored]
      exact mem_emplaceAll.mpr (.inl mem)
    · exact mem
  intro k f has
  rcases complete k f has with listed | ⟨r', mem, services, announces, mine⟩ | long
  · exact .inl (kept _ listed)
  · by_cases same : r' = r
    · -- what is handled is stored, with the services it was sent with
      subst same
      left
      rcases outcome with ⟨services', announces', -, stored, -⟩ | ⟨asks, -⟩
      · change _ ∈ register.m_addresses.pairs
        rw [stored]
        obtain rfl := announces.unique announces'
        exact mem_emplaceAll.mpr (.inr mine)
      · exact absurd announces asks.not_announces
    · refine .inr (.inl ⟨r', ?_, services, announces, mine⟩)
      obtain ⟨i, lt, rfl⟩ := List.mem_iff_getElem.mp mem
      have apart : i ≠ j := by
        rintro rfl
        rw [List.getElem?_eq_getElem lt] at here
        exact same (Option.some.inj here)
      exact List.mem_eraseIdx_iff_getElem.mpr ⟨i, lt, apart, rfl⟩
  · exact .inr (.inr long)

theorem complete_step (honest : Honest address as s) (complete : Complete address s)
    (next : step address s a = some s') : Complete address s' := by
  cases a with
  | registerFunc k name socket seq => exact complete_registerFunc complete next
  | deleteFunc k name socket seq =>
    cases next
    intro k' f has
    have posted : ∀ m, Complete address (s.post socket m) := fun _ =>
      complete_same complete rfl rfl (List.subset_append_left _ _)
    apply posted _ k' f
    by_cases eq : k' = k
    · subst eq
      simp only [post, setFuncs, Function.update_self] at has
      exact List.mem_of_mem_filter has
    · simpa [post, setFuncs, eq] using has
  | startServer | startClient | discover =>
    cases next
    exact complete_same complete rfl rfl (List.subset_append_left _ _)
  | handleMsg j => exact complete_handleMsg honest complete next
  | addAddresses j =>
    obtain ⟨r, -, next⟩ := Option.bind_eq_some_iff.mp next
    obtain ⟨pool, -, next⟩ := Option.bind_eq_some_iff.mp next
    cases next
    exact complete_same complete rfl rfl (List.Subset.refl _)

theorem honest_run (run : Run (step address) Always {} as s) :
    Honest address as s ∧ Complete address s := by
  induction run with
  | refl => exact ⟨⟨nofun, nofun, nofun, fun _ => nofun⟩, nofun⟩
  | snoc run _ next ih => exact ⟨honest_step run ih.1 next, complete_step ih.1 ih.2 next⟩

/-- What is found is served, and what is served is found. However the messages of the servers, the
clients and the register overtake each other, every service that the register lists or a client
knows is in the table of a server at that address, unless it was deleted there; and once nothing is
on its way to the register, it lists every function of every server. -/
theorem listed_served (run : Run (step address) Always {} as s) :
    (∀ p, p ∈ s.register.m_addresses.pairs ∨
        (∃ socket, p.2 ∈ (s.pools socket).getAllAddress p.1) → Offers address as s p) ∧
      (s.requests = [] → ∀ k, ∀ f ∈ s.m_funcs k,
        (f, address k) ∈ s.register.m_addresses.pairs ∨
          2 ^ 62 ≤ (service.bytes (f, address k)).length) := by
  obtain ⟨honest, complete⟩ := honest_run run
  constructor
  · rintro p (listed | ⟨socket, known⟩)
    · exact honest.register p listed
    · apply honest.pools socket p
      rw [ConnectionPool.getAllAddress, Multimap.equalRange_eq] at known
      obtain ⟨q, mem, same⟩ := List.mem_map.mp known
      obtain ⟨here, key⟩ := List.mem_filter.mp mem
      have eq : q = p := Prod.ext (of_decide_eq_true key) same
      exact eq ▸ here
  · intro none k f has
    rcases complete k f has with listed | ⟨r, mem, -⟩ | long
    · exact .inl listed
    · rw [none] at mem
      cases mem
    · exact .inr long

/-- A server registers a function, and a client that starts later is told of it. -/
def learns : List (DirectoryAct Unit) :=
  [.registerFunc () served.1 3 1, .handleMsg 0, .startClient 4 2, .handleMsg 0, .addAddresses 1]

theorem learned_served : ∃ s, exec (step fun _ : Unit => served.2) {} learns = some s ∧
    served.2 ∈ (s.pools 4).getAllAddress served.1 ∧ Offers (fun _ => served.2) learns s served := by
  have ends : (exec (step fun _ : Unit => served.2) {} learns).any (fun s =>
      served.2 ∈ (s.pools 4).getAllAddress served.1) = true := by decide +kernel
  obtain ⟨s, run, known⟩ := (Option.any_eq_true _ _).mp ends
  have mem := of_decide_eq_true known
  exact ⟨s, run, mem, (listed_served (.of_exec run)).1 served (.inr ⟨4, mem⟩)⟩

end Directory

end CRpc.Registry
