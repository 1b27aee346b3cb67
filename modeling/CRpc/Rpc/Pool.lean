import CRpc.Lib.Iterators
import CRpc.Lib.Maps
import CRpc.Rpc.Registering

/-! `ConnectionPool`: the sessions a client finds for a function. -/
namespace CRpc.Pool
open Util Registry Multimaps Maps

/-- `std::shared_ptr<ip_port>`: which object it points to, and what that is. -/
structure AddressPtr where
  ptr : ℕ
  address : IpPort

/-- The tables of sessions and addresses. A `std::shared_ptr<RpcSession>` is the number of its
session, among all there have been. -/
structure ConnectionPool where
  m_servers : Multimap Text ℕ := .empty
  m_addresses : Multimap Text AddressPtr := .empty
  m_addr_to_session : Multimap ℕ ℕ := .empty
  m_registers : Map Text ℕ := .empty

namespace ConnectionPool

def addAddress (pool : ConnectionPool) (funcName : Text) (address : AddressPtr) : ConnectionPool :=
  { pool with m_addresses := pool.m_addresses.emplace funcName address }

/-- The objects are compared, not the pointers. -/
def eraseAddress (pool : ConnectionPool) (funcName : Text) (address : AddressPtr) :
    Bool × ConnectionPool :=
  if (pool.m_addresses.equalRange funcName).any (·.address = address.address) then
    (true, { pool with
      m_addresses := pool.m_addresses.eraseFirst funcName (·.address = address.address) })
  else (false, pool)

def changeAddress (pool : ConnectionPool) (funcName : Text) (oldAddress newAddress : AddressPtr) :
    Bool × ConnectionPool :=
  let (erased, pool) := pool.eraseAddress funcName oldAddress
  if erased then (true, pool.addAddress funcName newAddress) else (false, pool)

def addServer (pool : ConnectionPool) (serverName : Text) (session : ℕ) : ConnectionPool :=
  { pool with m_servers := pool.m_servers.emplace serverName session }

def getAllAddress (pool : ConnectionPool) (funcName : Text) : List AddressPtr :=
  pool.m_addresses.equalRange funcName

/-- `emplace`: a name that has a session keeps it. -/
def addRegister (pool : ConnectionPool) (registerName : Text) (session : ℕ) : ConnectionPool :=
  { pool with m_registers := pool.m_registers.emplace registerName session }

def eraseRegister (pool : ConnectionPool) (registerName : Text) : Bool × ConnectionPool :=
  if (pool.m_registers.find? registerName).isSome then
    (true, { pool with m_registers := pool.m_registers.erase registerName })
  else (false, pool)

/-- The sessions in the order of their names, the first replaced by that of `"raft register"`. -/
def getAllRegister (pool : ConnectionPool) : List ℕ :=
  let registers := pool.m_registers.values
  match pool.m_registers.find? raftRegister with
  | some session => registers.set 0 session
  | none => registers

/-- The loop over the range of `funcName` returns where it erases. -/
theorem eraseAddress_loop (pool : ConnectionPool) (funcName : Text) (address : AddressPtr) : ∃ w,
    pool.m_addresses.eraseOneIn funcName (fun q => q.2.address = address.address) = .ended w ∧
      pool.eraseAddress funcName address =
        (decide (w.it = .erased), { pool with m_addresses := w.map }) := by
  obtain ⟨w, ended, map, erased⟩ :=
    pool.m_addresses.eraseOneIn_eq funcName (·.address = address.address)
  refine ⟨w, ended, ?_⟩
  rw [← List.any_eq_true] at erased
  rw [eraseAddress, map]
  by_cases found : (pool.m_addresses.equalRange funcName).any (·.address = address.address) = true
  · rw [if_pos found, decide_eq_true (erased.mpr found)]
  · have none := mt List.any_eq_true.mpr found
    rw [if_neg found, decide_eq_false (mt erased.mp found), Multimap.eraseFirst_of_none none]

theorem eraseAddress_unlinked (pool : ConnectionPool) (funcName : Text) (address : AddressPtr) :
    (pool.eraseAddress funcName address).2.m_addr_to_session = pool.m_addr_to_session := by
  unfold eraseAddress
  split <;> rfl

theorem changeAddress_unlinked (pool : ConnectionPool) (funcName : Text)
    (oldAddress newAddress : AddressPtr) :
    (pool.changeAddress funcName oldAddress newAddress).2.m_addr_to_session =
      pool.m_addr_to_session := by
  rw [← pool.eraseAddress_unlinked funcName oldAddress]
  unfold changeAddress
  split
  rename_i erased pool' same
  rw [same]
  cases erased <;> rfl

end ConnectionPool

/-- The address a session has connected to, and whether the connection is still there. -/
structure Session where
  address : IpPort
  connected : Bool

/-- A pool, the sessions there have been, and how many `ip_port` have been made for it. -/
structure World where
  pool : ConnectionPool := {}
  sessions : List Session := []
  pointers : ℕ := 0

namespace World

/-- A new session, connected to this address, that is kept for the function. -/
def newSession (w : World) (funcName : Text) (address : IpPort) : World :=
  { w with
    pool := w.pool.addServer funcName w.sessions.length
    sessions := w.sessions ++ [⟨address, true⟩] }

/-- `getAllRpcSession`; `accepts` are the addresses that accept a connection now. -/
def getAllRpcSession (w : World) (accepts : IpPort → Bool) (funcName : Text) : List ℕ × World :=
  let sessions := w.pool.m_servers.equalRange funcName
  if sessions ≠ [] then (sessions, w)
  else
    match w.pool.getAllAddress funcName with
    | [] => (sessions, w)
    | first :: addresses =>
      let sessions := (first :: addresses).flatMap fun add =>
        w.pool.m_addr_to_session.equalRange add.ptr
      if sessions ≠ [] then (sessions, w)
      else if accepts first.address then
        ([w.sessions.length], w.newSession funcName first.address)
      else (sessions, w)

/-- `getRpcSession`; `dist` is the random number, and no result is `nullptr`. -/
def getRpcSession (w : World) (accepts : IpPort → Bool) (dist : ℕ) (funcName : Text) :
    Option ℕ × World :=
  let (sessions, w) := w.getAllRpcSession accepts funcName
  (sessions[dist % sessions.length]?, w)

def disconnect (w : World) (session : ℕ) : World :=
  { w with sessions := w.sessions.modify session fun s => { s with connected := false } }

end World

inductive Act
  | addAddress (funcName : Text) (address : AddressPtr)
  | eraseAddress (funcName : Text) (address : AddressPtr)
  | changeAddress (funcName : Text) (oldAddress newAddress : AddressPtr)
  | getRpcSession (accepts : IpPort → Bool) (dist : ℕ) (funcName : Text)
  | disconnect (session : ℕ)

namespace World

def step (w : World) : Act → World
  | .addAddress funcName address => { w with pool := w.pool.addAddress funcName address }
  | .eraseAddress funcName address => { w with pool := (w.pool.eraseAddress funcName address).2 }
  | .changeAddress funcName oldAddress newAddress =>
    { w with pool := (w.pool.changeAddress funcName oldAddress newAddress).2 }
  | .getRpcSession accepts dist funcName => (w.getRpcSession accepts dist funcName).2
  | .disconnect session => w.disconnect session

/-- The session is connected, and to an address that is stored for `f`. -/
def Live (w : World) (f : Text) (session : ℕ) : Prop :=
  ∃ s, w.sessions[session]? = some s ∧ s.connected = true ∧
    ∃ a ∈ w.pool.getAllAddress f, a.address = s.address

/-- An address that is stored for `f` accepts connections. -/
def Served (w : World) (accepts : IpPort → Bool) (f : Text) : Prop :=
  ∃ a ∈ w.pool.getAllAddress f, accepts a.address = true

/-- Where an address of `f` accepts connections, `getRpcSession` returns a live session. -/
def Finds (w : World) (accepts : IpPort → Bool) (f : Text) : Prop :=
  w.Served accepts f → ∀ dist, ∃ session,
    (w.getRpcSession accepts dist f).1 = some session ∧
    (w.getRpcSession accepts dist f).2.Live f session

/-- No address of `f` accepts connections, or the sessions the pool has for `f` are live, and
where it has none, the first address of `f` accepts. -/
def Findable (w : World) (accepts : IpPort → Bool) (f : Text) : Prop :=
  w.Served accepts f → (∀ session ∈ w.pool.m_servers.equalRange f, w.Live f session) ∧
    (w.pool.m_servers.equalRange f = [] →
      ∃ first ∈ (w.pool.getAllAddress f).head?, accepts first.address = true)

variable {w : World} {accepts : IpPort → Bool} {f : Text}

theorem step_unlinked (w : World) (a : Act) :
    (w.step a).pool.m_addr_to_session = w.pool.m_addr_to_session := by
  cases a with
  | addAddress funcName address => rfl
  | eraseAddress funcName address => exact w.pool.eraseAddress_unlinked funcName address
  | changeAddress funcName oldAddress newAddress =>
    exact w.pool.changeAddress_unlinked funcName oldAddress newAddress
  | getRpcSession accepts dist funcName =>
    change (w.getAllRpcSession accepts funcName).2.pool.m_addr_to_session = _
    unfold getAllRpcSession
    dsimp only
    split
    · rfl
    · split
      · rfl
      · split
        · rfl
        · split <;> rfl
  | disconnect session => rfl

theorem run_unlinked (acts : List Act) (w : World) :
    (acts.foldl step w).pool.m_addr_to_session = w.pool.m_addr_to_session := by
  induction acts generalizing w with
  | nil => rfl
  | cons a acts ih => exact (ih (w.step a)).trans (step_unlinked w a)

theorem getAllRpcSession_cached (cached : w.pool.m_servers.equalRange f ≠ []) :
    w.getAllRpcSession accepts f = (w.pool.m_servers.equalRange f, w) := if_pos cached

/-- Without a session for `f`, the first of its addresses is connected to. -/
theorem getAllRpcSession_first (unlinked : w.pool.m_addr_to_session = .empty)
    (none : w.pool.m_servers.equalRange f = []) {first : AddressPtr} {addresses : List AddressPtr}
    (known : w.pool.getAllAddress f = first :: addresses) :
    w.getAllRpcSession accepts f =
      if accepts first.address then ([w.sessions.length], w.newSession f first.address)
      else ([], w) := by
  have unknown : (first :: addresses).flatMap (fun add =>
      w.pool.m_addr_to_session.equalRange add.ptr) = [] := by
    rw [unlinked, List.flatMap_eq_nil_iff]
    exact fun add _ => rfl
  rw [getAllRpcSession, none, known]
  simp only [ne_eq, not_true_eq_false, if_false, unknown]

theorem live_connected {first : AddressPtr} (stored : first ∈ w.pool.getAllAddress f) :
    (w.newSession f first.address).Live f w.sessions.length :=
  ⟨⟨first.address, true⟩, List.getElem?_concat_length, rfl, first, stored, rfl⟩

theorem finds_iff (unlinked : w.pool.m_addr_to_session = .empty) :
    w.Finds accepts f ↔ w.Findable accepts f := by
  apply forall_congr'
  rintro ⟨a, stored, accepting⟩
  unfold getRpcSession
  by_cases none : w.pool.m_servers.equalRange f = []
  · obtain ⟨first, addresses, known⟩ := List.exists_cons_of_ne_nil (List.ne_nil_of_mem stored)
    rw [getAllRpcSession_first unlinked none known, none, known]
    by_cases accepted : accepts first.address = true
    · rw [if_pos accepted]
      apply iff_of_true
      · intro dist
        refine ⟨w.sessions.length, ?_, live_connected (known ▸ List.mem_cons_self)⟩
        change [w.sessions.length][dist % 1]? = _
        rw [Nat.mod_one]
        rfl
      · exact ⟨fun _ mem => absurd mem List.not_mem_nil, fun _ => ⟨first, rfl, accepted⟩⟩
    · rw [if_neg accepted]
      apply iff_of_false
      · intro finds
        obtain ⟨session, found, -⟩ := finds 0
        cases found
      · rintro ⟨-, accepts⟩
        obtain ⟨_, same, accepts⟩ := accepts rfl
        cases same
        exact accepted accepts
  · rw [getAllRpcSession_cached none, and_iff_left fun empty => absurd empty none]
    constructor
    · intro finds session mem
      obtain ⟨i, lt, rfl⟩ := List.mem_iff_getElem.mp mem
      obtain ⟨found, same, live⟩ := finds i
      simp only [Nat.mod_eq_of_lt lt, List.getElem?_eq_getElem lt] at same
      cases same
      exact live
    · intro live dist
      have lt := Nat.mod_lt dist (List.length_pos_of_ne_nil none)
      exact ⟨_, List.getElem?_eq_getElem lt, live _ (List.getElem_mem lt)⟩

end World

/-- In every state a pool gets to, a lookup finds a live session if and only if those it has for the
function are live and, where it has none, the first of the addresses accepts. -/
theorem live_server_found (acts : List Act) (accepts : IpPort → Bool) (f : Text) :
    (acts.foldl World.step {}).Finds accepts f ↔ (acts.foldl World.step {}).Findable accepts f :=
  World.finds_iff (World.run_unlinked acts {})

def remoteFunc : Text := ⟨[101, 99, 104, 111], by decide⟩

def address (m_port : UInt16) : AddressPtr := ⟨m_port.toNat, ⟨⟨[49], by decide⟩, m_port⟩⟩

def only (m_port : UInt16) (a : IpPort) : Bool := a.m_port = m_port

/-- The server at port 1 is found and goes away, and one at port 2 comes. -/
def replaced : List Act :=
  [.addAddress remoteFunc (address 1), .getRpcSession (only 1) 0 remoteFunc, .disconnect 0,
    .addAddress remoteFunc (address 2)]

def secondUp : List Act := [.addAddress remoteFunc (address 1), .addAddress remoteFunc (address 2)]

/-- The server at port 2 is not found: in the first run the pool keeps the session of the other, in
the second it tries no other address than the first. -/
theorem server_not_found :
    (((replaced.foldl World.step {}).getRpcSession (only 2) 0 remoteFunc).1 = some 0 ∧
      ¬ (replaced.foldl World.step {}).Finds (only 2) remoteFunc) ∧
    ((secondUp.foldl World.step {}).getRpcSession (only 2) 0 remoteFunc).1 = none ∧
      ¬ (secondUp.foldl World.step {}).Finds (only 2) remoteFunc := by
  have up (acts : List Act) (stored : address 2 ∈ (acts.foldl World.step {}).pool.getAllAddress
      remoteFunc) : (acts.foldl World.step {}).Served (only 2) remoteFunc := ⟨address 2, stored, rfl⟩
  refine ⟨⟨rfl, ?_⟩, rfl, ?_⟩
  · intro finds
    obtain ⟨session, found, s, known, live, -⟩ := finds (up replaced (.tail _ (.head _))) 0
    cases found
    cases known
    cases live
  · intro finds
    obtain ⟨session, found, -⟩ := finds (up secondUp (.tail _ (.head _))) 0
    cases found

end CRpc.Pool
