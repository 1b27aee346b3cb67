import CRpc.Raft.Cluster
import CRpc.Rpc.Decodings
import CRpc.Rpc.Registering

/-! The decoding loops of `RaftNode`, and what any content makes the handlers do. -/
namespace CRpc.Raft
open Util Buffer Loops Registry

/-- A `std::string`, a character for each byte. -/
def characters (t : Text) : String := String.ofList (t.bytes.map fun b => Char.ofNat b.toNat)

def triple (p : Service) : Triple := ⟨characters p.1, characters p.2.m_ip, p.2.m_port⟩

namespace RaftNode

/-- The loop of `handleServerInit` and `handleServiceRegister`, on the node and `index`. A full
vector throws with the logger's mutex locked. -/
def appendLoop : ReadLoop (RaftNode × ℕ) Service where
  read := readService
  each a p :=
    match a.1.m_raft_logger.appendEntry (a.1.registration (triple p)) with
    | some (logger, index) => .ok ({ a.1 with m_raft_logger := logger }, index)
    | none =>
      .error ({ a.1 with m_raft_logger := { a.1.m_raft_logger with m_mutex := true } }, a.2)

theorem each_decodeTriple (nd : RaftNode) (index : ℕ) (assigned : List ℕ) (p : Service)
    (triples : List Triple) :
    nd.decodeTriple index assigned (triple p :: triples) =
      (appendLoop.each (nd, index) p).toOption.map fun a =>
        { a.1 with run := .decoding triples a.2 (assigned ++ [a.2]) } := by
  rw [decodeTriple, appendLoop]
  simp only
  cases nd.m_raft_logger.appendEntry (nd.registration (triple p)) with
  | none => rfl
  | some r => rfl

theorem appendLoop_finishes (a : RaftNode × ℕ) (s : Serializer) : appendLoop.Finishes a s :=
  ReadLoop.finishes_of_moves (l := appendLoop) moves_readService a s

/-- The decoding loop of the handler that `handleMsg` of node `m_id` selects, if it has one, is over
some time. A registration enters it with the node as it is after the wait for the no-op, and
with what the memory of `index` held. -/
def DecodingFinishes (m_id : ℕ) (nd entered : RaftNode) (index : ℕ) (receive_message : Message) :
    Prop :=
  if m_id ≠ nd.m_leaderId ∧ (receive_message.type = Message.RPC_SERVER_INIT ∨
      receive_message.type = Message.RPC_SERVICE_REGISTER ∨
      receive_message.type = Message.RPC_SERVICE_DELETE) then True
  else if receive_message.type = Message.RPC_SERVER_INIT ∨
      receive_message.type = Message.RPC_SERVICE_REGISTER then
    appendLoop.Finishes (entered, index) receive_message.serializer
  else if receive_message.type = Message.HEART_BEAT then
    ReadLoop.idle.Finishes () receive_message.serializer
  else True

theorem decodingFinishes_iff (m_id : ℕ) (nd entered : RaftNode) (index : ℕ)
    (receive_message : Message) :
    DecodingFinishes m_id nd entered index receive_message ↔
      ¬ (receive_message.type = Message.HEART_BEAT ∧ receive_message.serializer.unread ≠ []) := by
  unfold DecodingFinishes
  split
  · rename_i redirects
    apply iff_of_true trivial
    rintro ⟨beat, -⟩
    rw [beat] at redirects
    exact absurd redirects.2 (by decide)
  · split
    · rename_i either
      apply iff_of_true (appendLoop_finishes _ _)
      rintro ⟨beat, -⟩
      rw [beat] at either
      exact absurd either (by decide)
    · exact beatFinishes_iff receive_message

end RaftNode

/-- Every decoding loop is over some time, except that of a heartbeat with content, and that of a
deletion whose response has any. -/
theorem decoding_finishes (reg : RpcRegister) (m_id : ℕ) (nd entered : RaftNode) (index : ℕ)
    (receive_message : Message) :
    (reg.DecodingFinishes receive_message ↔
      ¬ (receive_message.type = Message.HEART_BEAT ∧ receive_message.serializer.unread ≠ [])) ∧
    (RaftNode.DecodingFinishes m_id nd entered index receive_message ↔
      ¬ (receive_message.type = Message.HEART_BEAT ∧ receive_message.serializer.unread ≠ [])) ∧
    (DeletionFinishes receive_message ↔ receive_message.serializer.unread = []) ∧
    (∀ f_name m_addresses m_subscribes socket,
      RpcRegister.discoverLoop.Finishes f_name receive_message.serializer ∧
      RpcRegister.deleteLoop.Finishes m_addresses receive_message.serializer ∧
      (RpcRegister.subscribeLoop socket).Finishes m_subscribes receive_message.serializer) :=
  ⟨reg.decodingFinishes_iff receive_message,
    RaftNode.decodingFinishes_iff m_id nd entered index receive_message,
    ReadLoop.idle_finishes_iff receive_message.serializer,
    fun f_name m_addresses m_subscribes socket =>
      RpcRegister.undispatched_finish f_name m_addresses m_subscribes socket _⟩

/-- The redirection that a node sends for a deletion keeps the server in its loop; and a byte in a
heartbeat the register. -/
theorem decoding_never_finishes :
    (∃ m d, handleServerRedirect ⟨⟨[49], by decide⟩, 7000⟩ 5 = some m ∧ m.received = some d ∧
      d.type = Message.RAFT_REDIRECT ∧ ¬ DeletionFinishes d) ∧
    ∃ m d, Message.encoded Message.HEART_BEAT 6 (Serializer.write .uint8 1) = some m ∧
      m.received = some d ∧ ¬ ({} : RpcRegister).DecodingFinishes d := by
  constructor
  · refine ⟨_, _, rfl, rfl, rfl, ?_⟩
    rw [DeletionFinishes, ReadLoop.idle_finishes_iff]
    decide
  · refine ⟨_, _, rfl, rfl, ?_⟩
    rw [RpcRegister.decodingFinishes_iff, not_not]
    decide

namespace RaftNode

/-- The part of `handleServerInit` and of `handleServiceRegister` from the second lock of
`m_raft_mutex` to its release: the node it leaves, and `index` unless an exception escapes. -/
def registerEntries (nd : RaftNode) (index : ℕ) (s : Serializer) : RaftNode × Option ℕ :=
  match appendLoop.result ({ nd with m_raft_mutex := true }, index) s with
  | .ended ((nd, index), _) => ({ nd with m_raft_mutex := false }, some index)
  | .thrown ((nd, _), _) | .running ((nd, _), _) => (nd, none)

/-- What a registration owes of what it leaves: it returns with both mutexes free, appends an entry
for each triple of its content, and none for content that is not some triples. -/
structure AllOrNothing (nd : RaftNode) (content : List UInt8) (left : RaftNode × Option ℕ) :
    Prop where
  returns : left.2.isSome
  released : left.1.free
  all : ∀ services : List Service, content = services.flatMap service.bytes →
    ∃ new, left.1.m_raft_logger.m_entries = nd.m_raft_logger.m_entries ++ new ∧
      new.map (fun e => { e with index := 0 }) =
        services.map fun p => nd.registration (triple p)
  nothing : ¬ Whole content → left.1.m_raft_logger.m_entries = nd.m_raft_logger.m_entries

theorem each_room {nd : RaftNode} (index : ℕ) (p : Service)
    (room : nd.m_raft_logger.m_entries.length < maxEntries) :
    appendLoop.each (nd, index) p = .ok ({ nd with m_raft_logger := { nd.m_raft_logger with
      m_entries := nd.m_raft_logger.m_entries ++
        [{ nd.registration (triple p) with index := nd.m_raft_logger.getLastIndex + 1 }]
      m_mutex := false } }, nd.m_raft_logger.m_entries.length) := by
  rw [appendLoop]
  simp only [RaftLogger.appendEntry, if_pos room]

theorem each_full {nd : RaftNode} (index : ℕ) (p : Service)
    (full : maxEntries ≤ nd.m_raft_logger.m_entries.length) :
    ∃ e, appendLoop.each (nd, index) p = .error e := by
  rw [appendLoop]
  simp only [RaftLogger.appendEntry, if_neg (Nat.not_lt.mpr full)]
  exact ⟨_, rfl⟩

/-- The entries of some triples, one after another, if they fit. -/
theorem foldlM_fits {services : List Service} : ∀ (nd : RaftNode) (index : ℕ),
    nd.m_raft_logger.m_mutex = false →
    nd.m_raft_logger.m_entries.length + services.length ≤ maxEntries →
    ∃ nd' index' new, services.foldlM appendLoop.each (nd, index) = .ok (nd', index') ∧
      nd'.m_raft_logger.m_mutex = false ∧
      nd'.m_raft_logger.m_entries = nd.m_raft_logger.m_entries ++ new ∧
      new.map (fun e => { e with index := 0 }) =
        services.map fun p => nd.registration (triple p) := by
  induction services with
  | nil => exact fun nd index free _ => ⟨_, index, [], rfl, free, (List.append_nil _).symm, rfl⟩
  | cons p services ih =>
    intro nd index free fits
    rw [List.length_cons] at fits
    rw [List.foldlM_cons, each_room index p (by omega)]
    obtain ⟨nd', index', new, fold, free', entries, bodies⟩ := ih
      { nd with m_raft_logger := { nd.m_raft_logger with
        m_entries := nd.m_raft_logger.m_entries ++
          [{ nd.registration (triple p) with index := nd.m_raft_logger.getLastIndex + 1 }]
        m_mutex := false } } nd.m_raft_logger.m_entries.length rfl
      (by rw [List.length_append, List.length_singleton]; omega)
    rw [List.append_assoc] at entries
    refine ⟨nd', index', _, fold, free', entries, ?_⟩
    rw [List.map_append, bodies]
    rfl

theorem foldlM_full {services : List Service} : ∀ (nd : RaftNode) (index : ℕ),
    maxEntries < nd.m_raft_logger.m_entries.length + services.length → services ≠ [] →
    ∃ e, services.foldlM appendLoop.each (nd, index) = .error e := by
  induction services with
  | nil => exact fun _ _ _ some => absurd rfl some
  | cons p services ih =>
    intro nd index long _
    rw [List.length_cons] at long
    rw [List.foldlM_cons]
    by_cases room : nd.m_raft_logger.m_entries.length < maxEntries
    · rw [each_room index p room]
      apply ih
      · rw [List.length_append, List.length_singleton]
        omega
      · rintro rfl
        rw [List.length_nil] at long
        omega
    · obtain ⟨e, full⟩ := each_full index p (Nat.not_lt.mp room)
      rw [full]
      exact ⟨e, rfl⟩

/-- The triples are all of the content, and the vector has room for their entries. -/
def Fits (nd : RaftNode) (content : List UInt8) : Prop :=
  ∃ services : List Service, content = services.flatMap service.bytes ∧
    (services = [] ∨ nd.m_raft_logger.m_entries.length + services.length ≤ maxEntries)

theorem allOrNothing_iff {nd : RaftNode} (free : nd.free) (index : ℕ) (s : Serializer) :
    nd.AllOrNothing s.unread (nd.registerEntries index s) ↔ nd.Fits s.unread := by
  constructor
  · intro owes
    have returns := owes.returns
    cases result : appendLoop.result ({ nd with m_raft_mutex := true }, index) s with
    | running a | thrown a =>
      rw [registerEntries, result] at returns
      cases returns
    | ended a =>
      obtain ⟨services, content, fold⟩ := ReadLoop.run_ended takes_readService result
      refine ⟨services, content, or_iff_not_imp_left.mpr fun some => ?_⟩
      by_contra long
      obtain ⟨e, full⟩ := foldlM_full { nd with m_raft_mutex := true } index
        (Nat.lt_of_not_le long) some
      cases fold.symm.trans full
  · rintro ⟨services, content, room⟩
    obtain ⟨nd', index', new, fold, free', entries, bodies⟩ :
        ∃ nd' index' new, services.foldlM appendLoop.each ({ nd with m_raft_mutex := true }, index) =
            .ok (nd', index') ∧ nd'.m_raft_logger.m_mutex = false ∧
          nd'.m_raft_logger.m_entries = nd.m_raft_logger.m_entries ++ new ∧
          new.map (fun e => { e with index := 0 }) =
            services.map fun p => nd.registration (triple p) := by
      rcases room with rfl | fits
      · exact ⟨_, index, [], rfl, free.2, (List.append_nil _).symm, rfl⟩
      · exact foldlM_fits { nd with m_raft_mutex := true } index free.2 fits
    obtain ⟨s', ended, -⟩ := ReadLoop.result_items (l := appendLoop) service.reads service.nonempty
      content fold
    rw [registerEntries, ended]
    constructor
    · rfl
    · exact ⟨rfl, free'⟩
    · intro services' content'
      obtain rfl := flatMap_inj service.reads service.nonempty (content.symm.trans content')
      exact ⟨new, entries, bodies⟩
    · exact fun broken => absurd ⟨services, content⟩ broken

end RaftNode

/-- A registration is all or nothing exactly where its content is some triples and, for a node, its
log has room for them. -/
theorem registrations_all_or_nothing (reg : RpcRegister) {nd : RaftNode} (free : nd.free)
    (receive_message : Message) (socket : Int32) (index : ℕ) :
    (Registry.AllOrNothing reg receive_message.serializer.unread
        (reg.leaveServerInit receive_message socket) ↔
      Whole receive_message.serializer.unread) ∧
    (Registry.AllOrNothing reg receive_message.serializer.unread
        (reg.leaveServiceRegister receive_message socket) ↔
      Whole receive_message.serializer.unread) ∧
    (nd.AllOrNothing receive_message.serializer.unread
        (nd.registerEntries index receive_message.serializer) ↔
      nd.Fits receive_message.serializer.unread) :=
  ⟨RpcRegister.allOrNothing_iff fun _ => rfl, RpcRegister.allOrNothing_iff fun _ => rfl,
    RaftNode.allOrNothing_iff free index receive_message.serializer⟩

/-- Service `sum` at `10:7000`. -/
def aService : Service := (⟨[115, 117, 109], by decide⟩, ⟨⟨[49, 48], by decide⟩, 7000⟩)

/-- A byte after a service: the service stays, the exception escapes, and the node keeps its
mutex. -/
theorem torn_registration_kept : ∃ m d,
    Message.encoded Message.RPC_SERVER_INIT 7
      (writeService aService >>= fun _ => Serializer.write .uint8 0) = some m ∧
    m.received = some d ∧ ¬ Whole d.serializer.unread ∧
    ({} : RpcRegister).leaveServerInit d 5 =
      ({ m_addresses := ({} : RpcRegister).m_addresses.emplace aService.1 aService.2 }, none) ∧
    (({} : RaftNode).registerEntries 0 d.serializer).2 = none ∧
    (({} : RaftNode).registerEntries 0 d.serializer).1.m_raft_mutex = true ∧
    (({} : RaftNode).registerEntries 0 d.serializer).1.m_raft_logger.m_entries.length = 2 := by
  refine ⟨_, _, rfl, rfl, ?_, rfl, rfl, rfl, rfl⟩
  rintro ⟨services, content⟩
  obtain ⟨s', ended⟩ := RpcRegister.emplaceLoop_whole ({} : RpcRegister).m_addresses content
  cases ended

def aReport : Message :=
  ⟨0, 0, Message.RPC_SERVER_INIT, 0, 7, 0, Buffer.empty.append (service.bytes aService)⟩

/-- The register and the node add it, alone. -/
theorem service_all_or_nothing :
    Registry.AllOrNothing {} aReport.serializer.unread
      (({} : RpcRegister).leaveServerInit aReport 5) ∧
    ({} : RaftNode).AllOrNothing aReport.serializer.unread
      (({} : RaftNode).registerEntries 0 aReport.serializer) := by
  have each := @registrations_all_or_nothing {} {} ⟨rfl, rfl⟩ aReport 5 0
  exact ⟨each.1.mpr ⟨[aService], rfl⟩, each.2.2.mpr ⟨[aService], rfl, .inr (by decide)⟩⟩

end CRpc.Raft
