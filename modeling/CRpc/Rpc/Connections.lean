import CRpc.Coroutine.Pending
import CRpc.Rpc.Discovery

/-! The connections of `RpcRegister`: their descriptors, their heartbeat timers and what was
registered over them. -/
namespace CRpc.Registry
open Function Multimaps Transition Util

inductive Request
  | report (kind : ReportKind) (services : List Service)
  | heartBeat
  | clientInit
  | serviceDiscover (f_name : Text)

namespace Request

def type : Request → UInt8
  | report kind _ => kind.type
  | heartBeat => Message.HEART_BEAT
  | clientInit => Message.RPC_CLIENT_INIT
  | serviceDiscover _ => Message.RPC_SERVICE_DISCOVER

def writes : Request → Codec Unit
  | report _ services => services.forM writeService
  | heartBeat => return ()
  | clientInit => Registry.clientInit
  | serviceDiscover f_name => Registry.serviceDiscover f_name

def registers : Request → List Service
  | report .RPC_SERVER_INIT services | report .RPC_SERVICE_REGISTER services => services
  | _ => []

def beats : Request → Bool
  | report .RPC_SERVER_INIT _ | heartBeat => true
  | _ => false

end Request

/-- `RpcRegister` with its connections, in the order they were accepted, and the timer of the
scheduler. A closed socket has the descriptor -1. -/
structure Connections where
  reg : RpcRegister := {}
  /-- the events in `m_heartbeat_timers` -/
  heartbeat : Int32 → ℕ := fun _ => 0
  accepted : ℕ := 0
  m_sockfd : ℕ → Int32 := fun _ => -1
  m_clientSockets : Int32 → Option ℕ := fun _ => none
  history : History := {}
  now : ℕ := 0
  /-- the socket in the callback of a heartbeat timer -/
  socket : ℕ → Option ℕ := fun _ => none
  /-- the callbacks of heartbeat timers that `getExpiredcbs` gave and that have yet to run -/
  callbacks : List ℕ := []
  /-- when the last `RPC_SERVER_INIT` or `HEART_BEAT` of a connection was handled -/
  beat : ℕ → ℕ := fun _ => 0
  registered : List (ℕ × Service) := []

/-- `expire` is `getExpiredcbs` with the time it has read; `elsewhere` is a call on an event that is
no heartbeat timer. -/
inductive ConnectionAction
  | accept (fd : Int32)
  | message (fd : Int32) (request : Request) (seq : UInt64)
  | peerClose (fd : Int32)
  | callback (e : ℕ)
  | expire (now : ℕ)
  | tick (ms : ℕ)
  | elsewhere (call : TimerCall)

namespace Connections

/-- What the handlers ask for, for the socket `c`. -/
def perform (c : ℕ) (s : Connections) : Effect → Connections
  | .send _ _ => s
  | .addTimeEvent fd => { s with
      history := s.history.apply s.now (.addTimeEvent 1500 false)
      socket := update s.socket s.history.timer.created (some c)
      heartbeat := if fd ∈ s.reg.m_heartbeat_timers then s.heartbeat
        else update s.heartbeat fd s.history.timer.created }
  | .resetTime fd => { s with history := s.history.apply s.now (.resetTime (s.heartbeat fd)) }

/-- `handleMsg` of a message on the socket `c`. -/
def handleMsg (s : Connections) (c : ℕ) (request : Request) (seq : UInt64) :
    Option Connections := do
  let (reg, effects) ← s.reg.deliver (s.m_sockfd c) request.type seq request.writes
  return { effects.foldl (perform c) s with
    reg
    beat := if request.beats then update s.beat c s.now else s.beat
    registered := s.registered ++ request.registers.map fun p => (c, p) }

def Foreign (s : Connections) (call : TimerCall) : Prop :=
  call ≠ .getExpiredcbs ∧ ∀ e ∈ call.on, s.socket e = none

instance (s : Connections) (call : TimerCall) : Decidable (s.Foreign call) :=
  inferInstanceAs (Decidable (_ ∧ ∀ e ∈ call.on, _))

def step (s : Connections) : ConnectionAction → Option Connections
  | .accept fd =>
    -- the kernel gives out any descriptor that is not open
    if fd ≠ -1 ∧ ∀ c < s.accepted, s.m_sockfd c ≠ fd then
      some { s with
        accepted := s.accepted + 1
        m_sockfd := update s.m_sockfd s.accepted fd
        m_clientSockets := update s.m_clientSockets fd (some s.accepted) }
    else none
  | .message fd request seq => match s.m_clientSockets fd with
    | some c => if s.m_sockfd c = -1 then none else s.handleMsg c request seq
    | none => none
  | .peerClose fd => match s.m_clientSockets fd with
    | some c => if s.m_sockfd c = -1 then none else
      some { s with
        m_sockfd := update s.m_sockfd c (-1)
        m_clientSockets := update s.m_clientSockets fd none }
    | none => none
  | .callback e => match s.socket e with
    | some c => if e ∈ s.callbacks then
        some { s with
          callbacks := s.callbacks.erase e
          reg := { s.reg with
            m_heartbeat_timers := s.reg.m_heartbeat_timers.filter (· ≠ s.m_sockfd c) }
          m_sockfd := update s.m_sockfd c (-1) }
      else none
    | none => none
  | .expire now =>
    if now ≤ s.now then
      some { s with
        history := s.history.apply now .getExpiredcbs
        callbacks := s.callbacks ++
          (s.history.timer.getExpiredcbs now).2.filter fun e => (s.socket e).isSome }
    else none
  | .tick ms => some { s with now := s.now + ms }
  | .elsewhere call =>
    if s.history.Known call ∧ s.Foreign call then
      some { s with history := s.history.apply s.now call }
    else none

end Connections

/-- What a register does with a request, besides its addresses: it makes a timer, resets the one it
has, or only answers. -/
inductive Did (reg : RpcRegister) (fd : Int32) (request : Request) (reg' : RpcRegister)
    (effects : List Effect) : Prop
  | init (services : List Service) (asked : request = .report .RPC_SERVER_INIT services)
      (message : Message) (did : effects = [.addTimeEvent fd, .send fd message])
      (timers : reg'.m_heartbeat_timers = if fd ∈ reg.m_heartbeat_timers
        then reg.m_heartbeat_timers else fd :: reg.m_heartbeat_timers)
  | beat (asked : request = .heartBeat) (same : reg' = reg)
      (did : effects = if fd ∈ reg.m_heartbeat_timers then [.resetTime fd] else [])
  | answer (asked : request.beats = false) (did : ∀ e ∈ effects, ∃ message, e = .send fd message)
      (timers : reg'.m_heartbeat_timers = reg.m_heartbeat_timers)

section Deliveries
variable {reg reg' : RpcRegister} {fd : Int32} {seq : UInt64} {effects : List Effect}

theorem handleMsg_heartBeat {d : Message} (h : d.type = Message.HEART_BEAT) :
    reg.handleMsg d fd = reg.handleHeartBeat d fd := by
  rw [RpcRegister.handleMsg, h]
  rfl

/-- Every request that is received is handled as its kind says, and its services are stored. -/
theorem deliver_did {request : Request}
    (h : reg.deliver fd request.type seq request.writes = some (reg', effects)) :
    Did reg fd request reg' effects ∧
      reg'.m_addresses = reg.m_addresses.emplaceAll request.registers := by
  cases request with
  | report kind services =>
    have writes : services.forM writeService = _ := service.forM_write services
    rw [Request.writes, writes] at h
    rcases deliver_cases reg fd kind.type seq (services.flatMap service.bytes) with
      ⟨d, delivered, type, -, unread⟩ | ⟨thrown, -⟩
    · obtain ⟨message, built, -⟩ := encoded_nothing Message.RPC_SERVICE_REGISTER_RESPONSE d.seq
      cases kind with
      | RPC_SERVER_INIT =>
        have handled := handleServerInit_eq reg fd unread built
        rw [← handleMsg_serverInit reg fd type, ← delivered] at handled
        cases h.symm.trans handled
        exact ⟨.init services rfl message rfl rfl, rfl⟩
      | RPC_SERVICE_REGISTER =>
        have handled := handleServiceRegister_eq reg fd unread built
        rw [← handleMsg_serviceRegister reg fd type, ← delivered] at handled
        cases h.symm.trans handled
        exact ⟨.answer rfl (fun e mem => ⟨message, List.mem_singleton.mp mem⟩) rfl, rfl⟩
      | RPC_SERVICE_DELETE =>
        have ignored := handleMsg_default reg fd (.inr type)
        rw [← delivered] at ignored
        cases h.symm.trans ignored
        exact ⟨.answer rfl nofun rfl, rfl⟩
    · cases thrown.symm.trans h
  | heartBeat =>
    rw [Request.writes, ← Buffer.write_nil] at h
    rcases deliver_cases reg fd Message.HEART_BEAT seq [] with
      ⟨d, delivered, type, -, unread⟩ | ⟨thrown, -⟩
    · have ended : d.serializer.isReadEnd = true := (isReadEnd_iff _).mpr unread
      have handled : reg.handleHeartBeat d fd = _ := if_pos ended
      rw [← handleMsg_heartBeat type, ← delivered] at handled
      cases h.symm.trans handled
      exact ⟨.beat rfl rfl rfl, rfl⟩
    · cases thrown.symm.trans h
  | clientInit =>
    rcases deliver_clientInit reg fd seq with ⟨message, delivered, -⟩ | ⟨thrown, -⟩
    · cases h.symm.trans delivered
      exact ⟨.answer rfl (fun e mem => ⟨message, List.mem_singleton.mp mem⟩) rfl, rfl⟩
    · cases thrown.symm.trans h
  | serviceDiscover f_name =>
    rw [Request.writes, serviceDiscover, writeString_eq] at h
    rcases deliver_ignored reg fd seq (.inl rfl) f_name.encoded with ignored | ⟨thrown, -⟩
    · cases h.symm.trans ignored
      exact ⟨.answer rfl nofun rfl, rfl⟩
    · cases thrown.symm.trans h

end Deliveries

namespace Connections

variable {s t : Connections}

/-- What each action makes of the connections, and what it asks of them first. -/
inductive Stepped (s : Connections) : ConnectionAction → Connections → Prop
  | accept (fd : Int32) (valid : fd ≠ -1) (free : ∀ c < s.accepted, s.m_sockfd c ≠ fd) :
      Stepped s (.accept fd) { s with
        accepted := s.accepted + 1
        m_sockfd := update s.m_sockfd s.accepted fd
        m_clientSockets := update s.m_clientSockets fd (some s.accepted) }
  | message (c : ℕ) (fd : Int32) (request : Request) (seq : UInt64) (t : Connections)
      (client : s.m_clientSockets fd = some c) (opened : s.m_sockfd c ≠ -1)
      (handled : s.handleMsg c request seq = some t) : Stepped s (.message fd request seq) t
  | peerClose (c : ℕ) (fd : Int32) (client : s.m_clientSockets fd = some c)
      (opened : s.m_sockfd c ≠ -1) :
      Stepped s (.peerClose fd) { s with
        m_sockfd := update s.m_sockfd c (-1)
        m_clientSockets := update s.m_clientSockets fd none }
  | callback (c e : ℕ) (mine : s.socket e = some c) (waits : e ∈ s.callbacks) :
      Stepped s (.callback e) { s with
        callbacks := s.callbacks.erase e
        reg := { s.reg with
          m_heartbeat_timers := s.reg.m_heartbeat_timers.filter (· ≠ s.m_sockfd c) }
        m_sockfd := update s.m_sockfd c (-1) }
  | expire (now : ℕ) (read : now ≤ s.now) :
      Stepped s (.expire now) { s with
        history := s.history.apply now .getExpiredcbs
        callbacks := s.callbacks ++
          (s.history.timer.getExpiredcbs now).2.filter fun e => (s.socket e).isSome }
  | tick (ms : ℕ) : Stepped s (.tick ms) { s with now := s.now + ms }
  | elsewhere (call : TimerCall) (known : s.history.Known call) (foreign : s.Foreign call) :
      Stepped s (.elsewhere call) { s with history := s.history.apply s.now call }

theorem stepped_of_step {a : ConnectionAction} (h : s.step a = some t) : Stepped s a t := by
  cases a with
  | accept fd =>
    obtain ⟨⟨valid, free⟩, h⟩ := Option.ite_none_right_eq_some.mp h
    cases h
    exact .accept fd valid free
  | message fd request seq =>
    simp only [step] at h
    split at h
    · rename_i c client
      obtain ⟨opened, h⟩ := Option.ite_none_left_eq_some.mp h
      exact .message c fd request seq t client opened h
    · cases h
  | peerClose fd =>
    simp only [step] at h
    split at h
    · rename_i c client
      obtain ⟨opened, h⟩ := Option.ite_none_left_eq_some.mp h
      cases h
      exact .peerClose c fd client opened
    · cases h
  | callback e =>
    simp only [step] at h
    split at h
    · rename_i c mine
      obtain ⟨waits, h⟩ := Option.ite_none_right_eq_some.mp h
      cases h
      exact .callback c e mine waits
    · cases h
  | expire now =>
    obtain ⟨read, h⟩ := Option.ite_none_right_eq_some.mp h
    cases h
    exact .expire now read
  | tick ms =>
    cases h
    exact .tick ms
  | elsewhere call =>
    obtain ⟨⟨known, foreign⟩, h⟩ := Option.ite_none_right_eq_some.mp h
    cases h
    exact .elsewhere call known foreign

/-- The table holds what was registered, over whatever connection. -/
def Stored (s : Connections) : Prop :=
  s.reg.m_addresses.pairs.Perm (s.registered.map Prod.snd)

theorem stored_step {a : ConnectionAction} (stored : s.Stored) (h : s.step a = some t) :
    t.Stored := by
  cases stepped_of_step h with
  | message c fd request seq t client opened handled =>
    obtain ⟨⟨reg, effects⟩, delivered, done⟩ := Option.bind_eq_some_iff.mp handled
    obtain rfl := Option.some.inj done
    change reg.m_addresses.pairs.Perm
      ((s.registered ++ request.registers.map fun p => (c, p)).map Prod.snd)
    have services : (request.registers.map fun p => (c, p)).map Prod.snd = request.registers := by
      rw [List.map_map]
      exact List.map_id _
    rw [(deliver_did delivered).2, List.map_append, services]
    exact (Multimap.emplaceAll_perm _ _).trans (stored.append_right _)
  | _ => exact stored

theorem stored_run {as : List ConnectionAction} (run : Run step Always {} as s) : s.Stored :=
  run.invariant (P := Stored) (.refl []) fun _ _ _ stored _ next => stored_step stored next

def Replies (s : Connections) (pool : ConnectionPool) : Prop := ∃ socket seq reg message,
  s.reg.deliver socket Message.RPC_CLIENT_INIT seq clientInit = some (reg, [.send socket message]) ∧
    readResponse message {} = some pool

theorem mem_reply (stored : s.Stored) {pool : ConnectionPool} (replies : s.Replies pool)
    (p : Service) : p.2 ∈ pool.getAllAddress p.1 ↔ ∃ c, (c, p) ∈ s.registered := by
  obtain ⟨socket, seq, reg, message, delivered, read⟩ := replies
  rcases deliver_clientInit s.reg socket seq with ⟨message', replied, carries⟩ | ⟨thrown, -⟩
  · cases delivered.symm.trans replied
    cases read.symm.trans (readResponse_eq carries {})
    change p.2 ∈ (Multimap.empty.emplaceAll s.reg.m_addresses.pairs).equalRange p.1 ↔ _
    rw [Multimap.equalRange_copy, Multimap.equalRange_eq]
    have pair : p.2 ∈ (s.reg.m_addresses.pairs.filter fun q => q.1 = p.1).map Prod.snd ↔
        p ∈ s.reg.m_addresses.pairs := by
      simp [eq_comm]
    rw [pair, stored.mem_iff]
    simp
  · cases thrown.symm.trans delivered

/-- `p` was registered over `c` and over no other connection. -/
def OnlyOver (s : Connections) (c : ℕ) (p : Service) : Prop :=
  (c, p) ∈ s.registered ∧ ∀ d, (d, p) ∈ s.registered → d = c

/-- The pool holds the pairs of open connections, and none of a closed one alone. -/
def Live (s : Connections) (pool : ConnectionPool) : Prop :=
  (∀ c p, s.m_sockfd c = -1 → s.OnlyOver c p → p.2 ∉ pool.getAllAddress p.1) ∧
  ∀ c p, s.m_sockfd c ≠ -1 → (c, p) ∈ s.registered → p.2 ∈ pool.getAllAddress p.1

/-- After any history, a client learns of live servers alone if and only if all that was registered
over a closed connection was registered over another one as well. -/
theorem reply_live_iff {as : List ConnectionAction} {pool : ConnectionPool}
    (run : Run step Always {} as s) (replies : s.Replies pool) :
    s.Live pool ↔ ∀ c p, s.m_sockfd c = -1 → (c, p) ∈ s.registered →
      ∃ d, d ≠ c ∧ (d, p) ∈ s.registered := by
  have mem := mem_reply (stored_run run) replies
  constructor
  · rintro ⟨dead, -⟩ c p closed held
    by_contra alone
    refine dead c p closed ⟨held, fun d other => ?_⟩ ((mem p).mpr ⟨c, held⟩)
    by_contra ne
    exact alone ⟨d, ne, other⟩
  · intro shared
    refine ⟨?_, fun c p _ held => (mem p).mpr ⟨c, held⟩⟩
    rintro c p closed ⟨held, only⟩ -
    obtain ⟨d, ne, other⟩ := shared c p closed held
    exact ne (only d other)

/-- A client that asks is answered, while the services fit into a string. -/
theorem replies_of_fits (fits : (s.reg.m_addresses.pairs.flatMap service.bytes).length < 2 ^ 62) :
    ∃ pool, s.Replies pool := by
  rcases deliver_clientInit s.reg 7 1 with ⟨message, replied, carries⟩ | ⟨-, long⟩
  · exact ⟨_, 7, 1, _, message, replied, readResponse_eq carries {}⟩
  · omega

def twice : List ConnectionAction :=
  [.accept 5, .message 5 (.report .RPC_SERVER_INIT [served]) 1, .accept 6,
    .message 6 (.report .RPC_SERVICE_REGISTER [served]) 2, .peerClose 5]

theorem reply_live : ∃ s pool, Run step Always {} twice s ∧ s.Replies pool ∧ s.m_sockfd 0 = -1 ∧
    s.Live pool := by
  have done : (exec step {} twice).map (fun s =>
      decide (s.registered = [(0, served), (1, served)] ∧ s.m_sockfd 0 = -1 ∧
        (s.reg.m_addresses.pairs.flatMap service.bytes).length < 2 ^ 62)) = some true := by
    decide +kernel
  obtain ⟨s, run, seen⟩ := Option.map_eq_some_iff.mp done
  obtain ⟨registered, closed, fits⟩ := of_decide_eq_true seen
  obtain ⟨pool, replies⟩ := replies_of_fits fits
  refine ⟨s, pool, .of_exec run, replies, closed, (reply_live_iff (.of_exec run) replies).mpr ?_⟩
  intro c p _ held
  rw [registered] at held ⊢
  rcases List.mem_cons.mp held with first | second
  · cases first
    exact ⟨1, by decide, List.mem_cons_of_mem _ List.mem_cons_self⟩
  · cases List.mem_singleton.mp second
    exact ⟨0, by decide, List.mem_cons_self⟩

/-- A server registers, its timer closes the connection, and clients are still sent to it. -/
def dead : List ConnectionAction :=
  [.accept 5, .message 5 (.report .RPC_SERVER_INIT [served]) 1, .tick 1500, .expire 1500,
    .callback 0]

theorem reply_dead : ∃ s pool, Run step Always {} dead s ∧ s.Replies pool ∧ s.m_sockfd 0 = -1 ∧
    s.OnlyOver 0 served ∧ served.2 ∈ pool.getAllAddress served.1 ∧ ¬ s.Live pool := by
  have done : (exec step {} dead).map (fun s =>
      decide (s.registered = [(0, served)] ∧ s.m_sockfd 0 = -1 ∧
        (s.reg.m_addresses.pairs.flatMap service.bytes).length < 2 ^ 62)) = some true := by
    decide +kernel
  obtain ⟨s, run, seen⟩ := Option.map_eq_some_iff.mp done
  obtain ⟨registered, closed, fits⟩ := of_decide_eq_true seen
  obtain ⟨pool, replies⟩ := replies_of_fits fits
  have only : s.OnlyOver 0 served := by
    rw [OnlyOver, registered]
    refine ⟨List.mem_cons_self, fun d mem => ?_⟩
    cases List.mem_singleton.mp mem
    rfl
  have known := (mem_reply (stored_run (.of_exec run)) replies served).mpr ⟨0, only.1⟩
  exact ⟨s, pool, .of_exec run, replies, closed, only, known,
    fun live => live.1 0 served closed only known⟩

end Connections

end CRpc.Registry
