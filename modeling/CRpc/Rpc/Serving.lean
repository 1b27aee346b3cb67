import CRpc.Rpc.Protocol
import CRpc.Rpc.Requests

/-! What `RpcServer` does with a request, and what it has done where an exception escapes. -/
namespace CRpc

/-- `enum ErrCode : uint8_t`, as far as it is used. -/
def Message.SUCCESS : UInt8 := 0

namespace Serving
open Util Buffer

section Server
variable {σ : Type}

/-- A function that `registerFunc` takes, on the state the functions share: it may throw, which is
`none`. `callFunc` selects the overloads that read its arguments and write its result. -/
structure ServerFunc (σ : Type) where
  Args : Type
  Ret : Type
  unpack : Codec Args
  write : Ret → Codec Unit
  func : Args → σ → Option Ret × σ

/-- The state of the functions, those that have been called, and the messages sent. -/
structure RpcServer (σ : Type) where
  world : σ
  called : List Text := []
  sent : List Message := []

/-- Code of `RpcServer`; what it has done before an exception stays done. -/
abbrev ServerCode (σ α : Type) := OptionT (StateM (RpcServer σ)) α

namespace ServerCode
variable {α β : Type}

def attempt (v : Option α) : ServerCode σ α := OptionT.mk (pure v)

theorem bind_run (p : ServerCode σ α) (f : α → ServerCode σ β) (w : RpcServer σ) :
    (p >>= f).run w =
      ((p.run w).1.elim (pure none) fun v => (f v).run : StateM (RpcServer σ) (Option β))
        (p.run w).2 := by
  rw [OptionT.run_bind]
  rfl

theorem bind_some {p : ServerCode σ α} {f : α → ServerCode σ β} {w w' : RpcServer σ} {v : α}
    (run : p.run w = (some v, w')) : (p >>= f).run w = (f v).run w' := by
  rw [bind_run, run]
  rfl

theorem bind_none {p : ServerCode σ α} {f : α → ServerCode σ β} {w w' : RpcServer σ}
    (run : p.run w = (none, w')) : (p >>= f).run w = (none, w') := by
  rw [bind_run, run]
  rfl

theorem run_some {p : ServerCode σ α} {f : α → ServerCode σ β} {w w'' : RpcServer σ} {v : β}
    (run : (p >>= f).run w = (some v, w'')) :
    ∃ u w', p.run w = (some u, w') ∧ (f u).run w' = (some v, w'') := by
  obtain ⟨r, w', first⟩ : ∃ r w', p.run w = (r, w') := ⟨_, _, rfl⟩
  cases r with
  | none =>
    rw [bind_none first] at run
    cases run
  | some u =>
    rw [bind_some first] at run
    exact ⟨u, w', first, run⟩

theorem attempt_some {v : Option α} {u : α} {w w' : RpcServer σ}
    (run : (attempt v).run w = (some u, w')) : v = some u ∧ w' = w := by
  cases run
  exact ⟨rfl, rfl⟩

theorem attempt_run (v : Option α) (w : RpcServer σ) : (attempt v).run w = (v, w) := rfl

end ServerCode
open ServerCode

namespace ServerFunc

/-- `func(std::get<I>(t)...)`, of the function with this name. -/
def invoke (f : ServerFunc σ) (name : Text) (args : f.Args) : ServerCode σ f.Ret := fun w =>
  let (result, world) := f.func args w.world
  (result, { w with world, called := w.called ++ [name] })

theorem invoke_run (f : ServerFunc σ) (name : Text) (args : f.Args) (w : RpcServer σ) :
    (f.invoke name args).run w = ((f.func args w.world).1,
      ⟨(f.func args w.world).2, w.called ++ [name], w.sent⟩) := rfl

def callFunc (f : ServerFunc σ) (name : Text) (params returns : Serializer) :
    ServerCode σ Serializer := do
  let (args, _) ← attempt (f.unpack params)
  let result ← f.invoke name args
  let (_, returns) ← attempt (f.write result returns)
  return returns

end ServerFunc

/-- `m_funcs`. -/
abbrev Funcs (σ : Type) := List UInt8 → Option (ServerFunc σ)

/-- `registerFunc`, up to the report to the register. -/
def registerFunc (name : Text) (func : ServerFunc σ) (m_funcs : Funcs σ) : Funcs σ :=
  fun f_name => if f_name = name.bytes then some func else m_funcs f_name

/-- `returns << result`, whose `result` is not `const`. -/
def writeResult : (ret : Ty) → ret.sem.Carrier → Codec Unit
  | .string, result => Serializer.writeString result
  | ret, result => ret.sem.write result

def ServerFunc.of (ts : List Ty) (ret : Ty)
    (func : (Ty.tuple ts).sem.Carrier → σ → Option ret.sem.Carrier × σ) : ServerFunc σ where
  Args := (Ty.tuple ts).sem.Carrier
  Ret := ret.sem.Carrier
  unpack := CRpc.unpack ts
  write := writeResult ret
  func := func

/-- `call`; a name that is not registered throws. -/
def call (m_funcs : Funcs σ) (name : Text) (params returns : Serializer) :
    ServerCode σ Serializer :=
  match m_funcs name.bytes with
  | some func => func.callFunc name params returns
  | none => failure

/-- `socket->send(message)`, which copies the bytes into a string first. -/
def send (message : Message) : ServerCode σ Unit := do
  let _ ← attempt message.serializer.toString
  modify fun w => { w with sent := w.sent ++ [message] }

def handleCLientRequest (m_funcs : Funcs σ) (receive_message : Message) : ServerCode σ Unit := do
  let (f_name, s) ← attempt (Serializer.readString receive_message.serializer)
  let returns ← call m_funcs f_name s .empty
  let message ← attempt
    ((Message.new Message.RPC_RESPONSE Message.SUCCESS 1 receive_message.seq 0).encode returns)
  send message

/-- The name of a request is that of a registered function, for which its arguments decode. -/
structure Calls (m_funcs : Funcs σ) (receive_message : Message) (f_name : Text)
    (f : ServerFunc σ) (args : f.Args) : Prop where
  decodes : ∃ s s', Serializer.readString receive_message.serializer = some (f_name, s) ∧
    f.unpack s = some (args, s')
  registered : m_funcs f_name.bytes = some f

def Callable (m_funcs : Funcs σ) (receive_message : Message) : Prop :=
  ∃ f_name f args, Calls m_funcs receive_message f_name f args

/-- What the handler of a request owes: it returns, and has sent one response with the `seq` of the
request; to one that calls no function an error, without having called any. -/
structure Answered (m_funcs : Funcs σ) (receive_message : Message) (w : RpcServer σ)
    (left : Option Unit × RpcServer σ) : Prop where
  returns : left.1 = some ()
  answers : ∃ reply, left.2.sent = w.sent ++ [reply] ∧ reply.type = Message.RPC_RESPONSE ∧
    reply.seq = receive_message.seq ∧
    (¬ Callable m_funcs receive_message → reply.errCode ≠ Message.SUCCESS)
  idle : ¬ Callable m_funcs receive_message → left.2.called = w.called

/-- The request calls a function, which returns something that fits into a response. -/
def Serves (m_funcs : Funcs σ) (receive_message : Message) (w : RpcServer σ) : Prop :=
  ∃ f_name f args, Calls m_funcs receive_message f_name f args ∧
    ∃ result world returns, f.func args w.world = (some result, world) ∧
      f.write result .empty = some ((), returns) ∧ 20 + returns.m_data.length < 2 ^ 62

/-- The response as it is encoded; its bytes are a header and the content. -/
theorem reply_eq {seq : UInt64} {returns : Serializer} {reply : Message}
    (built : (Message.new Message.RPC_RESPONSE Message.SUCCESS 1 seq 0).encode returns =
      some reply) :
    reply.type = Message.RPC_RESPONSE ∧ reply.seq = seq ∧
      reply.serializer.m_data.length = 20 + returns.m_data.length := by
  obtain ⟨framed, -⟩ := Message.encode_frame built
  obtain ⟨same, type⟩ := Message.encode_header built
  refine ⟨type, same, ?_⟩
  rw [framed]
  change ([] ++ (_ ++ (Endian.big 8 _ ++ returns.m_data)) : List UInt8).length = _
  rw [List.nil_append, List.length_append, List.length_append, Endian.length_big]
  change 4 + (Endian.big 8 seq.toNat).length + (8 + _) = _
  rw [Endian.length_big]
  omega

theorem uncalled {m_funcs : Funcs σ} {receive_message : Message}
    (uncallable : ¬ Callable m_funcs receive_message) (w : RpcServer σ) :
    (handleCLientRequest m_funcs receive_message).run w = (none, w) := by
  rw [handleCLientRequest]
  cases named : Serializer.readString receive_message.serializer with
  | none => rfl
  | some r =>
    obtain ⟨f_name, s⟩ := r
    rw [bind_some (attempt_run _ w)]
    apply bind_none
    rw [call]
    cases registered : m_funcs f_name.bytes with
    | none => rfl
    | some f =>
      apply bind_none
      rw [attempt_run]
      cases unpacked : f.unpack s with
      | none => rfl
      | some r =>
        exact absurd ⟨f_name, f, r.1, ⟨s, r.2, named, unpacked⟩, registered⟩ uncallable

theorem serves_of_returned {m_funcs : Funcs σ} {receive_message : Message} {w w' : RpcServer σ}
    (run : (handleCLientRequest m_funcs receive_message).run w = (some (), w')) :
    Serves m_funcs receive_message w := by
  obtain ⟨⟨f_name, s⟩, w₁, first, then_⟩ := run_some run
  obtain ⟨named, rfl⟩ := attempt_some first
  obtain ⟨returns, w₂, called, replies⟩ := run_some then_
  obtain ⟨message, w₃, third, sends⟩ := run_some replies
  obtain ⟨built, rfl⟩ := attempt_some third
  obtain ⟨str, w₄, last, -⟩ := run_some sends
  obtain ⟨copied, rfl⟩ := attempt_some last
  rw [call] at called
  cases registered : m_funcs f_name.bytes with
  | none =>
    rw [registered] at called
    cases called
  | some f =>
    rw [registered] at called
    obtain ⟨⟨args, s'⟩, w₅, fourth, invokes⟩ := run_some called
    obtain ⟨unpacked, rfl⟩ := attempt_some fourth
    obtain ⟨result, w₆, invoked, writes⟩ := run_some invokes
    obtain ⟨⟨_, out⟩, w₇, fifth, done⟩ := run_some writes
    obtain ⟨wrote, rfl⟩ := attempt_some fifth
    cases done
    rw [f.invoke_run] at invoked
    refine ⟨f_name, f, args, ⟨⟨s, s', named, unpacked⟩, registered⟩, result,
      (f.func args w₅.world).2, returns, ?_, wrote, ?_⟩
    · exact Prod.ext (Prod.mk.inj invoked).1 rfl
    · rw [← (reply_eq built).2.2, ← Message.toString_eq copied]
      exact str.size_le

/-- A request that a function serves is answered by what it returned, after it was called. -/
theorem run_serving {m_funcs : Funcs σ} {receive_message : Message} {f_name : Text}
    {f : ServerFunc σ} {args : f.Args} (calls : Calls m_funcs receive_message f_name f args)
    {w : RpcServer σ} {result : f.Ret} {world : σ} {returns : Serializer}
    (func : f.func args w.world = (some result, world))
    (wrote : f.write result .empty = some ((), returns))
    (fits : 20 + returns.m_data.length < 2 ^ 62) :
    ∃ reply, (Message.new Message.RPC_RESPONSE Message.SUCCESS 1 receive_message.seq 0).encode
        returns = some reply ∧
      (handleCLientRequest m_funcs receive_message).run w =
        (some (), ⟨world, w.called ++ [f_name], w.sent ++ [reply]⟩) := by
  obtain ⟨⟨s, s', named, unpacked⟩, registered⟩ := calls
  cases built : (Message.new Message.RPC_RESPONSE Message.SUCCESS 1 receive_message.seq 0).encode
      returns with
  | none =>
    have long := Message.encode_none built
    omega
  | some reply =>
    have called : (call m_funcs f_name s .empty).run w =
        (some returns, ⟨world, w.called ++ [f_name], w.sent⟩) := by
      have invoked : (f.invoke f_name args).run w =
          (some result, ⟨world, w.called ++ [f_name], w.sent⟩) := by
        rw [f.invoke_run, func]
      rw [call, registered]
      change (f.callFunc f_name s .empty).run w = _
      rw [ServerFunc.callFunc, unpacked, bind_some (attempt_run _ w), bind_some invoked, wrote]
      rfl
    refine ⟨reply, rfl, ?_⟩
    have copied : reply.serializer.toString = some ⟨reply.serializer.m_data, by
        rw [(reply_eq built).2.2]
        exact fits⟩ := by
      apply dif_pos
    rw [handleCLientRequest, named, bind_some (attempt_run _ w), bind_some called, built,
      bind_some (attempt_run _ _), send, copied]
    rfl

theorem answered_of_serves {m_funcs : Funcs σ} {receive_message : Message} {w : RpcServer σ}
    (serves : Serves m_funcs receive_message w) :
    Answered m_funcs receive_message w ((handleCLientRequest m_funcs receive_message).run w) := by
  obtain ⟨f_name, f, args, calls, result, world, returns, func, wrote, fits⟩ := serves
  obtain ⟨reply, built, run⟩ := run_serving calls func wrote fits
  obtain ⟨type, seq, -⟩ := reply_eq built
  have callable : Callable m_funcs receive_message := ⟨f_name, f, args, calls⟩
  rw [run]
  constructor
  · rfl
  · exact ⟨reply, rfl, type, seq, fun uncallable => absurd callable uncallable⟩
  · exact fun uncallable => absurd callable uncallable

end Server

/-- A request gets its answer if and only if it calls a function which returns something that fits
into a response. -/
theorem requests_answered {σ : Type} (m_funcs : Funcs σ) (receive_message : Message)
    (w : RpcServer σ) :
    Answered m_funcs receive_message w ((handleCLientRequest m_funcs receive_message).run w) ↔
      Serves m_funcs receive_message w := by
  constructor
  · intro owes
    exact serves_of_returned (Prod.ext owes.returns rfl)
  · exact answered_of_serves

/-- `int add(int a, int b)`, alone in its table. -/
def adds : Funcs Unit :=
  registerFunc ⟨[97, 100, 100], by decide⟩
    (.of [.scalar .int32, .scalar .int32] (.scalar .int32) fun args w =>
      (some (Int32.add args.1 args.2.1), w))
    fun _ => none

def fresh : RpcServer Unit := { world := () }

/-- A request for `sub`, and one for `add` that has no arguments: both bring the server down. -/
theorem bad_requests_unanswered :
    (∃ m d, Message.encoded Message.RPC_REQUEST 5
        (Serializer.writeString ⟨[115, 117, 98], by decide⟩) = some m ∧ m.received = some d ∧
      (handleCLientRequest adds d).run fresh = (none, fresh) ∧
      ¬ Answered adds d fresh ((handleCLientRequest adds d).run fresh)) ∧
    ∃ m d, Message.encoded Message.RPC_REQUEST 5
        (Serializer.writeString ⟨[97, 100, 100], by decide⟩) = some m ∧ m.received = some d ∧
      (handleCLientRequest adds d).run fresh = (none, fresh) ∧
      ¬ Answered adds d fresh ((handleCLientRequest adds d).run fresh) := by
  constructor
  · refine ⟨_, _, rfl, rfl, rfl, ?_⟩
    intro owes
    cases owes.returns
  · refine ⟨_, _, rfl, rfl, rfl, ?_⟩
    intro owes
    cases owes.returns

end Serving

end CRpc
