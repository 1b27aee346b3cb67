import CRpc.Rpc.Protocol
import CRpc.Util.Reading

/-! The structs of `raft_config.h` on the wire, and the remote calls between the nodes. -/
namespace CRpc.Raft.Wire
open Util Buffer

structure RaftVoteParams where
  term : UInt64
  candidateId : UInt64
  lastLogIndex : UInt64
  lastLogTerm : UInt64

structure RaftVoteRets where
  term : UInt64
  voteGranted : Bool

structure Entry where
  index : UInt64
  term : UInt64
  op : Text
  f_name : Text
  f_ip : Text
  f_port : UInt16

structure AppendEntriesParams where
  term : UInt64
  leaderId : UInt64
  prevLogIndex : UInt64
  prevLogTerm : UInt64
  entry : Entry
  leaderCommit : UInt64

structure AppendEntriesRets where
  success : Bool
  term : UInt64

/-- The struct operators; their strings are not `const`. -/
def RaftVoteParams.write (t : RaftVoteParams) : Codec Unit := do
  Serializer.write .uint64 t.term
  Serializer.write .uint64 t.candidateId
  Serializer.write .uint64 t.lastLogIndex
  Serializer.write .uint64 t.lastLogTerm

def RaftVoteParams.read : Codec RaftVoteParams := do
  let term ← Serializer.read .uint64
  let candidateId ← Serializer.read .uint64
  let lastLogIndex ← Serializer.read .uint64
  let lastLogTerm ← Serializer.read .uint64
  return { term, candidateId, lastLogIndex, lastLogTerm }

def RaftVoteRets.write (t : RaftVoteRets) : Codec Unit := do
  Serializer.write .uint64 t.term
  Serializer.write .bool t.voteGranted

def RaftVoteRets.read : Codec RaftVoteRets := do
  let term ← Serializer.read .uint64
  let voteGranted ← Serializer.read .bool
  return { term, voteGranted }

def Entry.write (t : Entry) : Codec Unit := do
  Serializer.write .uint64 t.index
  Serializer.write .uint64 t.term
  Serializer.writeString t.op
  Serializer.writeString t.f_name
  Serializer.writeString t.f_ip
  Serializer.write .uint16 t.f_port

def Entry.read : Codec Entry := do
  let index ← Serializer.read .uint64
  let term ← Serializer.read .uint64
  let op ← Serializer.readString
  let f_name ← Serializer.readString
  let f_ip ← Serializer.readString
  let f_port ← Serializer.read .uint16
  return { index, term, op, f_name, f_ip, f_port }

def AppendEntriesParams.write (t : AppendEntriesParams) : Codec Unit := do
  Serializer.write .uint64 t.term
  Serializer.write .uint64 t.leaderId
  Serializer.write .uint64 t.prevLogIndex
  Serializer.write .uint64 t.prevLogTerm
  t.entry.write
  Serializer.write .uint64 t.leaderCommit

def AppendEntriesParams.read : Codec AppendEntriesParams := do
  let term ← Serializer.read .uint64
  let leaderId ← Serializer.read .uint64
  let prevLogIndex ← Serializer.read .uint64
  let prevLogTerm ← Serializer.read .uint64
  let entry ← Entry.read
  let leaderCommit ← Serializer.read .uint64
  return { term, leaderId, prevLogIndex, prevLogTerm, entry, leaderCommit }

def AppendEntriesRets.write (t : AppendEntriesRets) : Codec Unit := do
  Serializer.write .bool t.success
  Serializer.write .uint64 t.term

def AppendEntriesRets.read : Codec AppendEntriesRets := do
  let success ← Serializer.read .bool
  let term ← Serializer.read .uint64
  return { success, term }

def RaftVoteParams.bytes (t : RaftVoteParams) : List UInt8 :=
  Scalar.uint64.bytes t.term ++ (Scalar.uint64.bytes t.candidateId ++
    (Scalar.uint64.bytes t.lastLogIndex ++ Scalar.uint64.bytes t.lastLogTerm))

def RaftVoteRets.bytes (t : RaftVoteRets) : List UInt8 :=
  Scalar.uint64.bytes t.term ++ Scalar.bool.bytes t.voteGranted

def Entry.bytes (t : Entry) : List UInt8 :=
  Scalar.uint64.bytes t.index ++ (Scalar.uint64.bytes t.term ++ (t.op.encoded ++
    (t.f_name.encoded ++ (t.f_ip.encoded ++ Scalar.uint16.bytes t.f_port))))

def AppendEntriesParams.bytes (t : AppendEntriesParams) : List UInt8 :=
  Scalar.uint64.bytes t.term ++ (Scalar.uint64.bytes t.leaderId ++
    (Scalar.uint64.bytes t.prevLogIndex ++ (Scalar.uint64.bytes t.prevLogTerm ++
      (t.entry.bytes ++ Scalar.uint64.bytes t.leaderCommit))))

def AppendEntriesRets.bytes (t : AppendEntriesRets) : List UInt8 :=
  Scalar.bool.bytes t.success ++ Scalar.uint64.bytes t.term

theorem RaftVoteParams.write_eq (t : RaftVoteParams) : t.write = Buffer.write t.bytes := by
  simp only [RaftVoteParams.write, Util.write_eq, write_write, RaftVoteParams.bytes]

theorem RaftVoteRets.write_eq (t : RaftVoteRets) : t.write = Buffer.write t.bytes := by
  simp only [RaftVoteRets.write, Util.write_eq, write_write, RaftVoteRets.bytes]

theorem Entry.write_eq (t : Entry) : t.write = Buffer.write t.bytes := by
  simp only [Entry.write, Util.write_eq, writeString_eq, write_write, Entry.bytes]

theorem AppendEntriesParams.write_eq (t : AppendEntriesParams) :
    t.write = Buffer.write t.bytes := by
  simp only [AppendEntriesParams.write, Util.write_eq, Entry.write_eq, write_write,
    AppendEntriesParams.bytes]

theorem AppendEntriesRets.write_eq (t : AppendEntriesRets) : t.write = Buffer.write t.bytes := by
  simp only [AppendEntriesRets.write, Util.write_eq, write_write, AppendEntriesRets.bytes]

theorem RaftVoteParams.reads (t : RaftVoteParams) : Reads RaftVoteParams.read t.bytes t := by
  apply (reads_read .uint64 t.term).bind
  apply (reads_read .uint64 t.candidateId).bind
  apply (reads_read .uint64 t.lastLogIndex).bind
  exact (reads_read .uint64 t.lastLogTerm).map (RaftVoteParams.mk _ _ _)

theorem RaftVoteRets.reads (t : RaftVoteRets) : Reads RaftVoteRets.read t.bytes t := by
  apply (reads_read .uint64 t.term).bind
  exact (reads_read .bool t.voteGranted).map (RaftVoteRets.mk _)

theorem Entry.reads (t : Entry) : Reads Entry.read t.bytes t := by
  apply (reads_read .uint64 t.index).bind
  apply (reads_read .uint64 t.term).bind
  apply (reads_readString t.op).bind
  apply (reads_readString t.f_name).bind
  apply (reads_readString t.f_ip).bind
  exact (reads_read .uint16 t.f_port).map (Entry.mk _ _ _ _ _)

theorem AppendEntriesParams.reads (t : AppendEntriesParams) :
    Reads AppendEntriesParams.read t.bytes t := by
  apply (reads_read .uint64 t.term).bind
  apply (reads_read .uint64 t.leaderId).bind
  apply (reads_read .uint64 t.prevLogIndex).bind
  apply (reads_read .uint64 t.prevLogTerm).bind
  apply t.entry.reads.bind
  exact (reads_read .uint64 t.leaderCommit).map (AppendEntriesParams.mk _ _ _ _ _)

theorem AppendEntriesRets.reads (t : AppendEntriesRets) :
    Reads AppendEntriesRets.read t.bytes t := by
  apply (reads_read .bool t.success).bind
  exact (reads_read .uint64 t.term).map (AppendEntriesRets.mk _)

def RaftVoteParams.format : Format RaftVoteParams where
  write := RaftVoteParams.write
  read := RaftVoteParams.read
  bytes := RaftVoteParams.bytes
  write_eq := RaftVoteParams.write_eq
  reads := RaftVoteParams.reads
  nonempty t := by simp [RaftVoteParams.bytes, Scalar.bytes, ← List.length_eq_zero_iff]

def RaftVoteRets.format : Format RaftVoteRets where
  write := RaftVoteRets.write
  read := RaftVoteRets.read
  bytes := RaftVoteRets.bytes
  write_eq := RaftVoteRets.write_eq
  reads := RaftVoteRets.reads
  nonempty t := by simp [RaftVoteRets.bytes, Scalar.bytes]

def AppendEntriesParams.format : Format AppendEntriesParams where
  write := AppendEntriesParams.write
  read := AppendEntriesParams.read
  bytes := AppendEntriesParams.bytes
  write_eq := AppendEntriesParams.write_eq
  reads := AppendEntriesParams.reads
  nonempty t := by simp [AppendEntriesParams.bytes, Scalar.bytes, ← List.length_eq_zero_iff]

def AppendEntriesRets.format : Format AppendEntriesRets where
  write := AppendEntriesRets.write
  read := AppendEntriesRets.read
  bytes := AppendEntriesRets.bytes
  write_eq := AppendEntriesRets.write_eq
  reads := AppendEntriesRets.reads
  nonempty t := by simp [AppendEntriesRets.bytes, Scalar.bytes]

/-- The names `run` registers the two functions under. -/
def raftVote : Text := ⟨[114, 97, 102, 116, 86, 111, 116, 101], by decide⟩

def appendEntries : Text :=
  ⟨[97, 112, 112, 101, 110, 100, 69, 110, 116, 114, 105, 101, 115], by decide⟩

/-- What `startElection` writes; `params` is a copy that is not `const`. -/
def startElection (request : RaftVoteParams) : Codec Unit := do
  Serializer.writeString raftVote
  let params := request
  params.write

/-- What the callback of `m_heartbeatTimer` writes. -/
def heartbeat (request : AppendEntriesParams) : Codec Unit := do
  Serializer.writeString appendEntries
  request.write

/-- What `replicateLog` writes. -/
def replicateLog (request : AppendEntriesParams) : Codec Unit := do
  Serializer.writeString appendEntries
  request.write

section Node
variable {σ P R : Type}

/-- A value of `m_rpc_funcs`: it reads `params`, runs on the node's state and writes `returns`;
`none` where it throws. -/
abbrev RpcFunc (σ : Type) := Serializer → Serializer → σ → Option (Serializer × Serializer × σ)

/-- `params>>t` for a tuple of one component. -/
def unpack (read : Codec P) : Codec (P × Unit) := do
  let first ← read
  return (first, ())

/-- `callFunc` for a function of one parameter. -/
def callFunc (read : Codec P) (write : R → Codec Unit) (func : P → σ → R × σ) : RpcFunc σ :=
  fun params returns s => do
    let (args, params) ← unpack read params
    let (result, s) := func args.1 s
    let (_, returns) ← write result returns
    return (params, returns, s)

/-- `m_rpc_funcs`. -/
abbrev RpcFuncs (σ : Type) := List UInt8 → Option (RpcFunc σ)

def registerFunc (name : Text) (func : RpcFunc σ) (m_rpc_funcs : RpcFuncs σ) : RpcFuncs σ :=
  fun f_name => if f_name = name.bytes then some func else m_rpc_funcs f_name

/-- The functions `run` registers, for any handlers of the two calls. -/
def run (vote : RaftVoteParams → σ → RaftVoteRets × σ)
    (append : AppendEntriesParams → σ → AppendEntriesRets × σ) : RpcFuncs σ :=
  registerFunc appendEntries (callFunc AppendEntriesParams.read AppendEntriesRets.write append)
    (registerFunc raftVote (callFunc RaftVoteParams.read RaftVoteRets.write vote) fun _ => none)

/-- `call`; a name that is not registered throws. -/
def call (m_rpc_funcs : RpcFuncs σ) (name : Text) : RpcFunc σ := fun params returns s => do
  let func ← m_rpc_funcs name.bytes
  func params returns s

/-- `handleCLientRequest`, with the response it sends: its `seq` is that of the request. -/
def handleCLientRequest (m_rpc_funcs : RpcFuncs σ) (receive_message : Message) (s : σ) :
    Option (Message × σ) := do
  let (f_name, params) ← Serializer.readString receive_message.serializer
  let (_, returns, s) ← call m_rpc_funcs f_name params .empty s
  let message ← (Message.new Message.RPC_RESPONSE 0 1 receive_message.seq 0).encode returns
  return (message, s)

/-- `while(!s->isReadEnd()){ (*s)>>result; }`, and how often its body runs. -/
def readResult (read : Codec R) (result : R) : Codec (R × ℕ) :=
  untilReadEnd (fun acc => do
    let result ← read
    return (result, acc.2 + 1)) (result, 0)

/-- The request `m` is decoded and dispatched from the state `s`; the handler leaves `s'`, and
the sender reads `rets` from the reply in one round. -/
def Answered (m_rpc_funcs : RpcFuncs σ) (read : Codec R) (m : Message) (s s' : σ) (rets : R) :
    Prop :=
  ∃ receive_message reply result, m.received = some receive_message ∧
    handleCLientRequest m_rpc_funcs receive_message s = some (reply, s') ∧
    reply.received = some result ∧ result.seq = m.seq ∧
    ∀ before, ∃ t, readResult read before result.serializer = some ((rets, 1), t)

theorem readResult_eq {read : Codec R} {bs : List UInt8} {rets : R} (reads : Reads read bs rets)
    (nonempty : bs ≠ []) (before : R) {s : Serializer} (unread : s.unread = bs) :
    ∃ t, readResult read before s = some ((rets, 1), t) := by
  have each : ∀ (acc : R × ℕ) (i : Unit), Reads (do
      let result ← read
      return (result, acc.2 + 1)) bs (rets, acc.2 + 1) :=
    fun acc _ => reads.map fun result => (result, acc.2 + 1)
  obtain ⟨t, done, -⟩ := untilReadEnd_items each (fun _ => nonempty) [()] (before, 0)
    (by rw [unread]; simp)
  exact ⟨t, done⟩

theorem callFunc_eq (params : Format P) (rets : Format R) (func : P → σ → R × σ) {request : P}
    {args : Serializer} {rest : List UInt8} (unread : args.unread = params.bytes request ++ rest)
    (returns : Serializer) (s : σ) :
    callFunc params.read rets.write func args returns s =
      some (args.skip (params.bytes request).length,
        returns.append (rets.bytes (func request s).1), (func request s).2) := by
  have unpacked := (params.reads request).map (fun first => (first, ())) args rest unread
  rw [callFunc, unpack, unpacked]
  change (rets.write (func request s).1 returns).bind _ = _
  rw [rets.write_eq]
  rfl

/-- A registered function is run on the struct its caller wrote, and its caller reads the struct
it returned. -/
theorem answered {m_rpc_funcs : RpcFuncs σ} {name : Text} (params : Format P) (rets : Format R)
    (short : ∀ r, (rets.bytes r).length < 2 ^ 62) {func : P → σ → R × σ}
    (registered : m_rpc_funcs name.bytes = some (callFunc params.read rets.write func))
    {request : P} {m : Message} {seq : UInt64}
    (carries : m.Carries Message.RPC_REQUEST seq (name.encoded ++ params.bytes request)) (s : σ) :
    Answered m_rpc_funcs rets.read m s (func request s).2 (func request s).1 := by
  obtain ⟨d, decoded, -, same, unread⟩ := carries.arrives
  have named := reads_readString name d.serializer (params.bytes request) unread
  have last : (d.serializer.skip name.encoded.length).unread = params.bytes request ++ [] := by
    rw [List.append_nil]
    exact unread_skip unread
  have called := callFunc_eq params rets func last .empty s
  rcases Message.encoded_cases Message.RPC_RESPONSE d.seq (rets.bytes (func request s).1) with
    ⟨reply, built, back⟩ | ⟨-, long⟩
  · obtain ⟨result, decoded', -, same', unread'⟩ := back.arrives
    refine ⟨d, reply, result, decoded, ?_, decoded', ?_, ?_⟩
    · rw [handleCLientRequest, named]
      change ((call m_rpc_funcs name (d.serializer.skip name.encoded.length) .empty s).bind _) = _
      rw [call, registered, Option.bind_eq_bind, Option.bind_some, called, Option.bind_some]
      change ((Message.encoded Message.RPC_RESPONSE d.seq (Buffer.write _)).bind _) = _
      rw [built]
      rfl
    · rw [same', same, carries.seq_eq]
    · intro before
      exact readResult_eq (rets.reads _) (rets.nonempty _) before unread'
  · exact absurd (short _) (Nat.not_lt_of_le long)

theorem run_raftVote (vote : RaftVoteParams → σ → RaftVoteRets × σ)
    (append : AppendEntriesParams → σ → AppendEntriesRets × σ) :
    run vote append raftVote.bytes =
      some (callFunc RaftVoteParams.read RaftVoteRets.write vote) := rfl

theorem run_appendEntries (vote : RaftVoteParams → σ → RaftVoteRets × σ)
    (append : AppendEntriesParams → σ → AppendEntriesRets × σ) :
    run vote append appendEntries.bytes =
      some (callFunc AppendEntriesParams.read AppendEntriesRets.write append) := rfl

/-- Whatever the two handlers do, a call runs its handler on the struct that was sent and brings
the struct it returned back in one round; a request that no string can hold is not sent. -/
theorem raft_calls_survive (vote : RaftVoteParams → σ → RaftVoteRets × σ)
    (append : AppendEntriesParams → σ → AppendEntriesRets × σ) (seq : UInt64) (s : σ) :
    (∀ request, ∃ m, Message.encoded Message.RPC_REQUEST seq (startElection request) = some m ∧
      Answered (run vote append) RaftVoteRets.read m s (vote request s).2 (vote request s).1) ∧
    ∀ writes, writes = heartbeat ∨ writes = replicateLog → ∀ request,
      (∃ m, Message.encoded Message.RPC_REQUEST seq (writes request) = some m ∧
        Answered (run vote append) AppendEntriesRets.read m s (append request s).2
          (append request s).1) ∨
      (Message.encoded Message.RPC_REQUEST seq (writes request) = none ∧
        2 ^ 62 ≤ (appendEntries.encoded ++ request.bytes).length) := by
  constructor
  · intro request
    have writes : startElection request = Buffer.write (raftVote.encoded ++ request.bytes) := by
      simp only [startElection, writeString_eq, RaftVoteParams.write_eq, write_write]
    have length : (raftVote.encoded ++ request.bytes).length = 48 := by
      simp [RaftVoteParams.bytes, Text.encoded, raftVote, Scalar.width]
    rw [writes]
    rcases Message.encoded_cases Message.RPC_REQUEST seq (raftVote.encoded ++ request.bytes) with
      ⟨m, built, carries⟩ | ⟨-, long⟩
    · refine ⟨m, built, ?_⟩
      exact answered RaftVoteParams.format RaftVoteRets.format
        (fun r => by simp [RaftVoteRets.format, RaftVoteRets.bytes, Scalar.width])
        (run_raftVote vote append) carries s
    · omega
  · intro writes either request
    have writes : writes request = Buffer.write (appendEntries.encoded ++ request.bytes) := by
      rcases either with rfl | rfl
      · simp only [heartbeat, writeString_eq, AppendEntriesParams.write_eq, write_write]
      · simp only [replicateLog, writeString_eq, AppendEntriesParams.write_eq, write_write]
    rw [writes]
    rcases Message.encoded_cases Message.RPC_REQUEST seq
      (appendEntries.encoded ++ request.bytes) with ⟨m, built, carries⟩ | thrown
    · refine .inl ⟨m, built, ?_⟩
      exact answered AppendEntriesParams.format AppendEntriesRets.format
        (fun r => by simp [AppendEntriesRets.format, AppendEntriesRets.bytes, Scalar.width])
        (run_appendEntries vote append) carries s
    · exact .inr thrown

end Node

end CRpc.Raft.Wire
