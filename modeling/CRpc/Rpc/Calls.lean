import CRpc.Rpc.Decodings
import CRpc.Rpc.Pool

/-! `RpcCLient::call`: where it gets to, whatever its requests and its pool meet. -/
namespace CRpc.RpcCLient
open Util Registry Pool Loops Multimaps Maps

/-- Where code gets to: the end, an exception, what C++ does not define, or nowhere. -/
inductive Ends (α : Type)
  | returned (v : α)
  | thrown
  | undefined
  | waiting

/-- What comes after a request: it waits for room in a full channel for ever, its timer expires
first, or the response is there in time. -/
inductive Wait
  | blocked
  | timeout
  | response (receive_message : Message)

/-- What a call meets: the pool at each lock of `m_mutex`, which other coroutines may have changed;
at a lookup, the addresses that accept a connection and the random number; and the two requests. -/
structure Meets where
  atCall : World
  atRegister : World
  atResponse : World
  accepts : IpPort → Bool
  acceptsThen : IpPort → Bool
  dist : ℕ
  distThen : ℕ
  seq : UInt64
  seqThen : UInt64
  discovery : Wait
  reply : Wait

/-- The type `Ret`: `Ret{}`; the value `Ret result;` has, none for a scalar; and `>>` into it. -/
structure Ret (R : Type) where
  init : R
  fresh : Option R
  read : Option R → Codec R

/-- `m_connection_pool.addAddress(f_name,address)` with a new `ip_port`. -/
def addService (w : World) (p : Service) : World :=
  { w with pool := w.pool.addAddress p.1 ⟨w.pointers, p.2⟩, pointers := w.pointers + 1 }

def addressLoop : ReadLoop World Service := .total readService addService

/-- The first part of `call`, up to the session for the request, which may be null; or no session,
where the discovery has timed out and `Ret{}` is returned. -/
def findServer (meets : Meets) (f_name : Text) : Ends (Option (Option ℕ)) :=
  match (meets.atCall.getRpcSession meets.accepts meets.dist f_name).1 with
  | some server => .returned (some (some server))
  | none =>
    match meets.atRegister.pool.getAllRegister with
    | [] => .undefined
    | _ :: _ =>
      match Message.encoded Message.RPC_SERVICE_DISCOVER meets.seq (serviceDiscover f_name),
          meets.discovery with
      | none, _ => .thrown
      | some _, .blocked => .waiting
      | some _, .timeout => .returned none
      | some _, .response receive_message =>
        match addressLoop.result meets.atResponse receive_message.serializer with
        | .ended (w, _) =>
          .returned (some (w.getRpcSession meets.acceptsThen meets.distThen f_name).1)
        | .thrown _ => .thrown
        | .running _ => .waiting

section Result
variable {R : Type} (ret : Ret R)

/-- `(*s)>>result;` -/
def resultRound (a : Option R × Serializer) : Round (Option R × Serializer) :=
  match ret.read a.1 a.2 with
  | some (result, s) => .next (some result, s)
  | none => .thrown a

/-- `Ret result;`, at most `n` rounds of the loop over the response, and `return result;`. -/
def readResult (n : ℕ) (s : Serializer) : Ends R :=
  match loop ReadLoop.more (resultRound ret) n (ret.fresh, s) with
  | .ended (some result, _) => .returned result
  | .ended (none, _) => .undefined
  | .thrown _ => .thrown
  | .running _ => .waiting

/-- The second part of `call`, whose arguments are written by `args`. After a timeout it ends
without a `return`. -/
def request (meets : Meets) (f_name : Text) (args : Codec Unit) (n : ℕ) (server : Option ℕ) :
    Ends R :=
  match Message.encoded Message.RPC_REQUEST meets.seqThen
      (Serializer.writeString f_name >>= fun _ => args), server, meets.reply with
  | none, _, _ => .thrown
  | some _, none, _ => .undefined
  | some _, some _, .blocked => .waiting
  | some _, some _, .timeout => .undefined
  | some _, some _, .response receive_message => readResult ret n receive_message.serializer

/-- `call`, with at most `n` rounds of its last loop. -/
def call (meets : Meets) (f_name : Text) (args : Codec Unit) (n : ℕ) : Ends R :=
  match findServer meets f_name with
  | .returned none => .returned ret.init
  | .returned (some server) => request ret meets f_name args n server
  | .thrown => .thrown
  | .undefined => .undefined
  | .waiting => .waiting

end Result

/-- The reply holds results up to its end, of which the last is `v`. -/
inductive Decodes {R : Type} (ret : Ret R) : Option R → Serializer → R → Prop
  | last {s : Serializer} {v : R} : s.unread = [] → Decodes ret (some v) s v
  | more {r : Option R} {s s' : Serializer} {u v : R} : s.unread ≠ [] →
      ret.read r s = some (u, s') → Decodes ret (some u) s' v → Decodes ret r s v

def Replied (meets : Meets) (f_name : Text) (receive_message : Message) : Prop :=
  (∃ session, findServer meets f_name = .returned (some (some session))) ∧
    meets.reply = .response receive_message

/-- The call returns: the result of the reply that was there in time, and otherwise `Ret{}`. -/
def Total {R : Type} (ret : Ret R) (meets : Meets) (f_name : Text) (args : Codec Unit) : Prop :=
  ∃ n v, call ret meets f_name args n = .returned v ∧
    (∀ receive_message, Replied meets f_name receive_message →
      Decodes ret ret.fresh receive_message.serializer v) ∧
    ((∀ receive_message, ¬ Replied meets f_name receive_message) → v = ret.init)

/-- The pool has a session for `f`, or the first of its addresses accepts a connection. -/
def Obtains (w : World) (accepts : IpPort → Bool) (f : Text) : Prop :=
  w.pool.m_servers.equalRange f ≠ [] ∨
    (∃ a ∈ w.pool.getAllAddress f, w.pool.m_addr_to_session.equalRange a.ptr ≠ []) ∨
    ∃ first ∈ (w.pool.getAllAddress f).head?, accepts first.address = true

/-- The request can be written, and its reply is there in time and holds a result. -/
def Answers {R : Type} (ret : Ret R) (meets : Meets) (f_name : Text) (args : Codec Unit) : Prop :=
  (∃ message, Message.encoded Message.RPC_REQUEST meets.seqThen
    (Serializer.writeString f_name >>= fun _ => args) = some message) ∧
  ∃ receive_message v, meets.reply = .response receive_message ∧
    Decodes ret ret.fresh receive_message.serializer v

def Asks (meets : Meets) (f_name : Text) : Prop :=
  meets.atRegister.pool.m_registers.values ≠ [] ∧
  ∃ message, Message.encoded Message.RPC_SERVICE_DISCOVER meets.seq (serviceDiscover f_name) =
    some message

/-- Its response is there in time, and is some services with which the pool has a server. -/
def Discovers (meets : Meets) (f_name : Text) : Prop :=
  Asks meets f_name ∧ ∃ receive_message, meets.discovery = .response receive_message ∧
    ∃ services : List Service, receive_message.serializer.unread = services.flatMap service.bytes ∧
      Obtains (services.foldl addService meets.atResponse) meets.acceptsThen f_name

/-- There is a server that answers, or the discovery times out. -/
def Sure {R : Type} (ret : Ret R) (meets : Meets) (f_name : Text) (args : Codec Unit) : Prop :=
  ((Obtains meets.atCall meets.accepts f_name ∨ Discovers meets f_name) ∧
    Answers ret meets f_name args) ∨
  (¬ Obtains meets.atCall meets.accepts f_name ∧ Asks meets f_name ∧ meets.discovery = .timeout)

theorem getAllRpcSession_nil_iff (w : World) (accepts : IpPort → Bool) (f : Text) :
    (w.getAllRpcSession accepts f).1 = [] ↔ ¬ Obtains w accepts f := by
  have links (l : List AddressPtr) :
      l.flatMap (fun add => w.pool.m_addr_to_session.equalRange add.ptr) = [] ↔
        ¬ ∃ a ∈ l, w.pool.m_addr_to_session.equalRange a.ptr ≠ [] := by
    rw [List.flatMap_eq_nil_iff]
    push Not
    rfl
  unfold World.getAllRpcSession Obtains
  dsimp only
  by_cases cached : w.pool.m_servers.equalRange f = []
  · rw [if_neg (not_not.mpr cached), cached, or_iff_right (not_not.mpr rfl)]
    cases known : w.pool.getAllAddress f with
    | nil => simp
    | cons first addresses =>
      dsimp only
      by_cases linked : ∃ a ∈ first :: addresses, w.pool.m_addr_to_session.equalRange a.ptr ≠ []
      · have some := mt (links _).mp (not_not.mpr linked)
        rw [if_pos some]
        exact iff_of_false some (not_not.mpr (.inl linked))
      · rw [if_neg (not_not.mpr ((links _).mpr linked)), or_iff_right linked]
        by_cases accepted : accepts first.address = true
        · rw [if_pos accepted]
          exact iff_of_false (List.cons_ne_nil _ _) (not_not.mpr ⟨first, rfl, accepted⟩)
        · rw [if_neg accepted]
          apply iff_of_true ((links _).mpr linked)
          rintro ⟨_, same, accepts⟩
          cases same
          exact accepted accepts
  · rw [if_pos cached]
    exact iff_of_false cached (not_not.mpr (.inl cached))

theorem getRpcSession_none_iff (w : World) (accepts : IpPort → Bool) (dist : ℕ) (f : Text) :
    (w.getRpcSession accepts dist f).1 = none ↔ ¬ Obtains w accepts f := by
  rw [← getAllRpcSession_nil_iff]
  unfold World.getRpcSession
  obtain ⟨sessions, w'⟩ := w.getAllRpcSession accepts f
  change sessions[dist % sessions.length]? = none ↔ sessions = []
  constructor
  · intro none
    by_contra some
    have lt := Nat.mod_lt dist (List.length_pos_of_ne_nil some)
    rw [List.getElem?_eq_getElem lt] at none
    cases none
  · rintro rfl
    rfl

theorem getRpcSession_some_iff (w : World) (accepts : IpPort → Bool) (dist : ℕ) (f : Text) :
    (∃ session, (w.getRpcSession accepts dist f).1 = some session) ↔ Obtains w accepts f := by
  rw [← Option.isSome_iff_exists, ← Option.ne_none_iff_isSome, ne_eq, getRpcSession_none_iff,
    not_not]

theorem addressLoop_ended {w w' : World} {s s' : Serializer}
    (ended : addressLoop.result w s = .ended (w', s')) :
    ∃ services : List Service, s.unread = services.flatMap service.bytes ∧
      w' = services.foldl addService w := by
  obtain ⟨services, content, fold⟩ :=
    ReadLoop.run_ended (l := addressLoop) takes_readService ended
  have all := ReadLoop.foldlM_total readService addService services w
  exact ⟨services, content, Except.ok.inj (fold.symm.trans all)⟩

section
variable {meets : Meets} {f_name : Text}

theorem getAllRegister_eq_nil_iff (pool : Pool.ConnectionPool) :
    pool.getAllRegister = [] ↔ pool.m_registers.values = [] := by
  unfold Pool.ConnectionPool.getAllRegister
  cases pool.m_registers.find? raftRegister with
  | none => rfl
  | some session => exact List.set_eq_nil_iff 0 session

/-- The session for the request, from the response to the discovery. -/
theorem discovered_iff (w : World) (accepts : IpPort → Bool) (dist : ℕ) (f_name : Text)
    (s : Serializer) :
    (∃ w' s' session, addressLoop.result w s = .ended (w', s') ∧
      (w'.getRpcSession accepts dist f_name).1 = some session) ↔
    ∃ services : List Service, s.unread = services.flatMap service.bytes ∧
      Obtains (services.foldl addService w) accepts f_name := by
  constructor
  · rintro ⟨w', s', session, ended, found⟩
    obtain ⟨services, content, rfl⟩ := addressLoop_ended ended
    exact ⟨services, content, (getRpcSession_some_iff _ accepts dist f_name).mp ⟨session, found⟩⟩
  · rintro ⟨services, content, obtains⟩
    obtain ⟨s', ended⟩ := total_services addService w content
    obtain ⟨session, found⟩ := (getRpcSession_some_iff _ accepts dist f_name).mpr obtains
    exact ⟨_, s', session, ended, found⟩

/-- Where the pool has no server and a register has been asked, the discovery decides. -/
theorem findServer_asked (unknown : ¬ Obtains meets.atCall meets.accepts f_name)
    (asks : Asks meets f_name) : findServer meets f_name =
      match meets.discovery with
      | .blocked => .waiting
      | .timeout => .returned none
      | .response receive_message =>
        match addressLoop.result meets.atResponse receive_message.serializer with
        | .ended (w, _) =>
          .returned (some (w.getRpcSession meets.acceptsThen meets.distThen f_name).1)
        | .thrown _ => .thrown
        | .running _ => .waiting := by
  obtain ⟨registers, message, built⟩ := asks
  obtain ⟨first, others, all⟩ := List.exists_cons_of_ne_nil
    (mt (getAllRegister_eq_nil_iff _).mp registers)
  rw [findServer, (getRpcSession_none_iff _ _ meets.dist f_name).mpr unknown, all, built]
  cases meets.discovery <;> rfl

theorem findServer_unasked (unknown : ¬ Obtains meets.atCall meets.accepts f_name)
    (silent : ¬ Asks meets f_name) (found : Option (Option ℕ)) :
    findServer meets f_name ≠ .returned found := by
  rw [findServer, (getRpcSession_none_iff _ _ meets.dist f_name).mpr unknown]
  cases all : meets.atRegister.pool.getAllRegister with
  | nil => exact fun returned => by cases returned
  | cons first others =>
    have registers : meets.atRegister.pool.m_registers.values ≠ [] := by
      rw [ne_eq, ← getAllRegister_eq_nil_iff, all]
      exact List.cons_ne_nil _ _
    cases built : Message.encoded Message.RPC_SERVICE_DISCOVER meets.seq
        (serviceDiscover f_name) with
    | none => exact fun returned => by cases returned
    | some message => exact absurd ⟨registers, message, built⟩ silent

/-- A call goes on with a session that the pool has, at once or after a discovery. -/
theorem findServer_session_iff :
    (∃ session, findServer meets f_name = .returned (some (some session))) ↔
      Obtains meets.atCall meets.accepts f_name ∨ Discovers meets f_name := by
  by_cases known : Obtains meets.atCall meets.accepts f_name
  · obtain ⟨session, found⟩ := (getRpcSession_some_iff _ _ meets.dist f_name).mpr known
    apply iff_of_true _ (.inl known)
    refine ⟨session, ?_⟩
    rw [findServer, found]
  · rw [or_iff_right known]
    by_cases asks : Asks meets f_name
    · rw [findServer_asked known asks, Discovers, and_iff_right asks]
      cases discovery : meets.discovery with
      | blocked | timeout => simp
      | response receive_message =>
        have decided := discovered_iff meets.atResponse meets.acceptsThen meets.distThen f_name
          receive_message.serializer
        simp only [Wait.response.injEq, exists_eq_left']
        rw [← decided]
        cases result : addressLoop.result meets.atResponse receive_message.serializer with
        | ended a =>
          obtain ⟨w, s'⟩ := a
          simp
        | thrown a | running a => simp
    · exact iff_of_false (fun h => h.elim fun session => findServer_unasked known asks _)
        fun h => asks h.1

/-- `call` returns `Ret{}` where it has waited for the discovery in vain. -/
theorem findServer_timeout_iff : findServer meets f_name = .returned none ↔
    ¬ Obtains meets.atCall meets.accepts f_name ∧ Asks meets f_name ∧
      meets.discovery = .timeout := by
  by_cases known : Obtains meets.atCall meets.accepts f_name
  · obtain ⟨session, found⟩ := (getRpcSession_some_iff _ _ meets.dist f_name).mpr known
    apply iff_of_false _ fun h => h.1 known
    rw [findServer, found]
    exact fun returned => by cases returned
  · rw [and_iff_right known]
    by_cases asks : Asks meets f_name
    · rw [findServer_asked known asks, and_iff_right asks]
      cases discovery : meets.discovery with
      | blocked | timeout => simp
      | response receive_message =>
        dsimp only
        cases addressLoop.result meets.atResponse receive_message.serializer with
        | ended a | thrown a | running a => simp
    · exact iff_of_false (findServer_unasked known asks none) fun h => asks h.1

end

section
variable {R : Type} {ret : Ret R}

theorem decodes_of_ended {n : ℕ} {v : R} : ∀ {r : Option R} {s s' : Serializer},
    loop ReadLoop.more (resultRound ret) n (r, s) = .ended (some v, s') → Decodes ret r s v := by
  induction n with
  | zero =>
    intro r s s' ended
    cases ended
  | succ n ih =>
    intro r s s' ended
    by_cases none : s.unread = []
    · rw [loop_end n fun more => ReadLoop.more_iff.mp more none] at ended
      cases ended
      exact .last none
    · have more : ReadLoop.more (r, s) = true := ReadLoop.more_iff.mpr none
      cases read : ret.read r s with
      | none =>
        have thrown : resultRound ret (r, s) = .thrown (r, s) := by rw [resultRound, read]
        rw [loop_thrown n more thrown] at ended
        cases ended
      | some u =>
        have next : resultRound ret (r, s) = .next (some u.1, u.2) := by rw [resultRound, read]
        rw [loop_next n more next] at ended
        exact .more none read (ih ended)

theorem ended_of_decodes {r : Option R} {s : Serializer} {v : R} (decodes : Decodes ret r s v) :
    ∃ n s', loop ReadLoop.more (resultRound ret) n (r, s) = .ended (some v, s') := by
  induction decodes with
  | last none => exact ⟨1, _, loop_end 0 fun more => ReadLoop.more_iff.mp more none⟩
  | @more r s s' u v some read _ ih =>
    obtain ⟨n, t, ended⟩ := ih
    have next : resultRound ret (r, s) = .next (Option.some u, s') := by rw [resultRound, read]
    exact ⟨n + 1, t, (loop_next n (ReadLoop.more_iff.mpr some) next).trans ended⟩

theorem readResult_iff {s : Serializer} {v : R} :
    (∃ n, readResult ret n s = .returned v) ↔ Decodes ret ret.fresh s v := by
  constructor
  · rintro ⟨n, returned⟩
    rw [readResult] at returned
    split at returned
    · rename_i ended
      cases returned
      exact decodes_of_ended ended
    all_goals cases returned
  · intro decodes
    obtain ⟨n, s', ended⟩ := ended_of_decodes decodes
    refine ⟨n, ?_⟩
    rw [readResult, ended]

variable {meets : Meets} {f_name : Text} {args : Codec Unit}

/-- A request that returns has been sent to a session, and its reply was there in time. -/
theorem request_returned {n : ℕ} {server : Option ℕ} {v : R}
    (returned : request ret meets f_name args n server = .returned v) :
    ∃ session, server = some session ∧
      (∃ message, Message.encoded Message.RPC_REQUEST meets.seqThen
        (Serializer.writeString f_name >>= fun _ => args) = some message) ∧
      ∃ receive_message, meets.reply = .response receive_message ∧
        readResult ret n receive_message.serializer = .returned v := by
  unfold request at returned
  cases built : Message.encoded Message.RPC_REQUEST meets.seqThen
      (Serializer.writeString f_name >>= fun _ => args) with
  | none =>
    rw [built] at returned
    cases returned
  | some message =>
    rw [built] at returned
    cases server with
    | none => cases returned
    | some session =>
      cases reply : meets.reply with
      | blocked | timeout =>
        rw [reply] at returned
        cases returned
      | response receive_message =>
        rw [reply] at returned
        exact ⟨session, rfl, ⟨message, rfl⟩, receive_message, rfl, returned⟩

theorem sure_of_total (total : Total ret meets f_name args) : Sure ret meets f_name args := by
  obtain ⟨n, v, called, -⟩ := total
  unfold call at called
  cases found : findServer meets f_name with
  | thrown | undefined | waiting =>
    rw [found] at called
    cases called
  | returned server =>
    rw [found] at called
    cases server with
    | none => exact .inr (findServer_timeout_iff.mp found)
    | some server =>
      obtain ⟨session, rfl, built, receive_message, reply, read⟩ := request_returned called
      refine .inl ⟨findServer_session_iff.mp ⟨session, found⟩, built, receive_message, v, reply, ?_⟩
      exact readResult_iff.mp ⟨n, read⟩

theorem total_of_sure (sure : Sure ret meets f_name args) : Total ret meets f_name args := by
  rcases sure with ⟨server, ⟨message, built⟩, receive_message, v, reply, decodes⟩ | expires
  · obtain ⟨session, found⟩ := findServer_session_iff.mpr server
    obtain ⟨n, read⟩ := readResult_iff.mpr decodes
    refine ⟨n, v, ?_, ?_, ?_⟩
    · rw [call, found]
      simp only [request, built, reply, read]
    · rintro other ⟨-, same⟩
      cases reply.symm.trans same
      exact decodes
    · exact fun none => absurd ⟨⟨session, found⟩, reply⟩ (none receive_message)
  · have found := findServer_timeout_iff.mpr expires
    refine ⟨0, ret.init, ?_, ?_, fun _ => rfl⟩
    · rw [call, found]
    · rintro receive_message ⟨⟨session, other⟩, -⟩
      cases found.symm.trans other

end

/-- A call is total if and only if there is a server that answers in time, or none is known and the
discovery, which can be sent, times out. -/
theorem call_total {R : Type} (ret : Ret R) (meets : Meets) (f_name : Text) (args : Codec Unit) :
    Total ret meets f_name args ↔ Sure ret meets f_name args :=
  ⟨sure_of_total, total_of_sure⟩

/-- A function that returns an `int32_t`. -/
def int32 : Ret Int32 := ⟨0, none, fun _ => Serializer.read .int32⟩

def unserved : Meets where
  atCall := {}
  atRegister := { pool := Pool.ConnectionPool.addRegister {} defalutRegister 0 }
  atResponse := {}
  accepts _ := true
  acceptsThen _ := true
  dist := 0
  distThen := 0
  seq := 1
  seqThen := 2
  discovery := .response (.new Message.RPC_SERVICE_DISCOVER_RESPONSE 0 1 1 0)
  reply := .timeout

def late : Meets where
  __ := unserved
  atCall := World.newSession {} remoteFunc (address 1).address

/-- A null session is dereferenced, and a late reply leads past the end of the function. -/
theorem call_undefined :
    (∀ n, call int32 unserved remoteFunc (return ()) n = .undefined) ∧
    (∀ n, call int32 late remoteFunc (return ()) n = .undefined) ∧
    ¬ Total int32 unserved remoteFunc (return ()) ∧ ¬ Total int32 late remoteFunc (return ()) := by
  refine ⟨fun n => rfl, fun n => rfl, ?_, ?_⟩
  · rintro ⟨n, v, returned, -⟩
    cases returned
  · rintro ⟨n, v, returned, -⟩
    cases returned

end CRpc.RpcCLient
