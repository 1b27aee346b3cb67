import CRpc.Rpc.Calls
import CRpc.Rpc.Serving
import CRpc.Util.Merging

/-! One remote call: the request of a function's arguments, the function's run on the server, and
what the caller reads out of the response. -/
namespace CRpc.Serving
open Util Buffer ServerCode RpcCLient

/-- `Ret result;` leaves a scalar without a value, and `>>` reads into what is there. -/
def Ret.of (T : Ty) : RpcCLient.Ret T.sem.Carrier where
  init := T.sem.init
  fresh :=
    match T with
    | .scalar _ => none
    | T => some T.sem.init
  read result := T.into (result.getD T.sem.init)

/-- The results that `returns << result` writes in full. -/
def Returnable : (ret : Ty) → ret.sem.Carrier → Prop
  | .string, _ => True
  | ret, result => ret.Plain result

theorem inverse_result {ret : Ty} {result : ret.sem.Carrier} (returnable : Returnable ret result) :
    Inverse (writeResult ret) ret.sem.read result := by
  cases ret with
  | string => exact ⟨_, writeString_eq result, reads_readString result⟩
  | scalar | seq | pair | map | nil | cons => exact Ty.inverse_of_plain returnable

/-- A fresh `result` is read over, or stays as it is where nothing is written for its type. -/
theorem decodes_result {ret : Ty} {result : ret.sem.Carrier} {returns s : Serializer}
    (returnable : Returnable ret result)
    (wrote : writeResult ret result .empty = some ((), returns))
    (content : s.unread = returns.m_data) : Decodes (Ret.of ret) (Ret.of ret).fresh s result := by
  obtain ⟨bs, writes, reads⟩ := inverse_result returnable
  rw [writes] at wrote
  cases wrote
  change s.unread = bs at content
  by_cases none : ret.Trivial
  · -- a tuple of nothing: there is one value, and no byte
    obtain ⟨fresh, nothing⟩ := ret.single none result
    have empty : bs = [] := by
      apply write_empty_inj
      rw [← writes, write_nil, ← nothing]
      cases ret with
      | string => exact none.elim
      | scalar | seq | pair | map | nil | cons => rfl
    have last : Decodes (Ret.of ret) (some result) s result := .last (content.trans empty)
    cases ret with
    | scalar | string | seq | map => exact none.elim
    | nil | pair | cons =>
      rw [fresh] at last ⊢
      exact last
  · have some : bs ≠ [] := nonempty_of_moves reads (moves_nontrivial none result)
    have unread : s.unread = bs ++ [] := by rw [content, List.append_nil]
    apply Decodes.more (by rw [content]; exact some) _ (.last (unread_skip unread))
    have same : (Ret.of ret).read (Ret.of ret).fresh = ret.sem.read := by
      rw [← ret.into_init]
      cases ret <;> rfl
    rw [same]
    exact reads s [] unread

/-- A call of a function that the server has registered, with arguments that cross, and the message
that asks for it. -/
structure RemoteCall {σ : Type} (m_funcs : Funcs σ) where
  ts : List Ty
  ret : Ty
  f_name : Text
  args : (Ty.tuple ts).sem.Carrier
  func : (Ty.tuple ts).sem.Carrier → σ → Option ret.sem.Carrier × σ
  seq : UInt64
  message : Message
  registered : m_funcs f_name.bytes = some (.of ts ret func)
  plain : (Ty.tuple ts).Plain args
  encoded : Message.encoded Message.RPC_REQUEST seq (CRpc.call ts f_name args) = some message

namespace RemoteCall
variable {σ : Type} {m_funcs : Funcs σ} (c : RemoteCall m_funcs)

def result (world : σ) : Option c.ret.sem.Carrier := (c.func c.args world).1
def after (world : σ) : σ := (c.func c.args world).2

def Returns (receive_message : Message) (result : c.ret.sem.Carrier) : Prop :=
  Returnable c.ret result →
    ∃ n, readResult (Ret.of c.ret) n receive_message.serializer = .returned result

theorem seq_eq : c.message.seq = c.seq := by
  obtain ⟨⟨u, s⟩, -, built⟩ := Option.bind_eq_some_iff.mp c.encoded
  exact (Message.encode_header built).1

/-- The server finds the function and its arguments in the message. -/
theorem arrives : ∃ d, c.message.received = some d ∧ d.type = Message.RPC_REQUEST ∧
    d.seq = c.seq ∧ Calls m_funcs d c.f_name (.of c.ts c.ret c.func) c.args := by
  obtain ⟨bs, writes, reads⟩ := Ty.inverse_of_plain c.plain
  have payload : CRpc.call c.ts c.f_name c.args = Buffer.write (c.f_name.encoded ++ bs) :=
    call_eq writes
  have encoded := c.encoded
  rw [payload] at encoded
  rcases Message.encoded_cases Message.RPC_REQUEST c.seq (c.f_name.encoded ++ bs) with
    ⟨m, built, carries⟩ | ⟨none, -⟩
  · cases encoded.symm.trans built
    obtain ⟨d, received, type, seq, unread⟩ := carries.arrives
    have rest : (d.serializer.skip c.f_name.encoded.length).unread = bs ++ [] := by
      rw [List.append_nil]
      exact unread_skip unread
    have decodes := reads _ [] rest
    exact ⟨d, received, type, seq, ⟨_, _, reads_readString c.f_name _ bs unread, decodes⟩,
      c.registered⟩
  · cases encoded.symm.trans none

end RemoteCall

section
variable {σ : Type} {m_funcs : Funcs σ} {receive_message : Message} {f_name : Text}
  {f : ServerFunc σ} {args : f.Args}

/-- The function runs once; there are bytes if it returns something that can be written. -/
theorem callFunc_run {params s' : Serializer} (unpacked : f.unpack params = some (args, s'))
    (returns : Serializer) (w : RpcServer σ) :
    (f.callFunc f_name params returns).run w =
      ((f.func args w.world).1.bind fun result => (f.write result returns).map Prod.snd,
        ⟨(f.func args w.world).2, w.called ++ [f_name], w.sent⟩) := by
  rw [ServerFunc.callFunc, unpacked, bind_some (attempt_run _ w)]
  have invoked := f.invoke_run f_name args w
  cases returned : (f.func args w.world).1 with
  | none =>
    rw [returned] at invoked
    rw [bind_none invoked]
    rfl
  | some result =>
    rw [returned] at invoked
    rw [bind_some invoked, Option.bind_some]
    cases wrote : f.write result returns with
    | none => exact bind_none (attempt_run _ _)
    | some r => exact bind_some (attempt_run _ _)

/-- What the handler does with a request that calls a function: the function runs once, and its
result is sent, or an exception escapes and nothing is. -/
theorem run_calls (calls : Calls m_funcs receive_message f_name f args) (w : RpcServer σ) :
    ∃ o sent, (handleCLientRequest m_funcs receive_message).run w =
      (o, ⟨(f.func args w.world).2, w.called ++ [f_name], w.sent ++ sent⟩) ∧
      ((o = none ∧ sent = []) ∨ (o = some () ∧ ∃ result returns reply,
        (f.func args w.world).1 = some result ∧ f.write result .empty = some ((), returns) ∧
        (Message.new Message.RPC_RESPONSE Message.SUCCESS 1 receive_message.seq 0).encode returns =
          some reply ∧ sent = [reply])) := by
  obtain ⟨⟨s, s', named, unpacked⟩, registered⟩ := calls
  have called : (call m_funcs f_name s .empty).run w =
      ((f.func args w.world).1.bind fun result => (f.write result .empty).map Prod.snd,
        ⟨(f.func args w.world).2, w.called ++ [f_name], w.sent⟩) := by
    rw [call, registered]
    exact callFunc_run unpacked .empty w
  rw [handleCLientRequest, named, bind_some (attempt_run _ w)]
  cases written : (f.func args w.world).1.bind fun result =>
      (f.write result .empty).map Prod.snd with
  | none =>
    rw [written] at called
    exact ⟨none, [], by rw [bind_none called, List.append_nil], .inl ⟨rfl, rfl⟩⟩
  | some returns =>
    rw [written] at called
    rw [bind_some called]
    cases built : (Message.new Message.RPC_RESPONSE Message.SUCCESS 1 receive_message.seq 0).encode
        returns with
    | none =>
      exact ⟨none, [], by rw [bind_none (attempt_run _ _), List.append_nil], .inl ⟨rfl, rfl⟩⟩
    | some reply =>
      rw [bind_some (attempt_run _ _), send]
      cases copied : reply.serializer.toString with
      | none =>
        exact ⟨none, [], by rw [bind_none (attempt_run _ _), List.append_nil], .inl ⟨rfl, rfl⟩⟩
      | some str =>
        obtain ⟨result, returned, writes⟩ := Option.bind_eq_some_iff.mp written
        obtain ⟨⟨_, bytes⟩, wrote, rfl⟩ := Option.map_eq_some_iff.mp writes
        exact ⟨some (), [reply], bind_some (attempt_run _ _), .inr
          ⟨rfl, result, bytes, reply, returned, wrote, built, rfl⟩⟩

end

/-- A response, from the server's `encode` to what the caller decodes. -/
theorem reply_received {seq : UInt64} {returns : Serializer} {reply : Message}
    (built : (Message.new Message.RPC_RESPONSE Message.SUCCESS 1 seq 0).encode returns =
      some reply) :
    ∃ d, reply.received = some d ∧ d.type = Message.RPC_RESPONSE ∧ d.seq = seq ∧
      d.serializer.unread = returns.m_data := by
  obtain ⟨framed, fits⟩ := Message.encode_frame built
  obtain ⟨d, decoded, arrives⟩ :=
    Message.decode_frame (Message.new Message.RPC_RESPONSE Message.SUCCESS 1 seq 0)
      { Message.new Message.RPC_REQUEST 0 1 0 0 with
        serializer := ⟨reply.serializer.m_data, 0, Nat.zero_le _⟩ } fits (by rw [framed]; rfl) rfl
  exact ⟨d, decoded, arrives.type, arrives.seq, arrives.unread⟩

namespace RemoteCall
variable {σ : Type} {m_funcs : Funcs σ} (c : RemoteCall m_funcs)

/-- The handler of the call's message runs its function once, and sends its result or nothing. -/
theorem handled {d : Message} (received : c.message.received = some d) (w : RpcServer σ) :
    ∃ o w' sent, (handleCLientRequest m_funcs d).run w = (o, w') ∧ w'.world = c.after w.world ∧
      w'.sent = w.sent ++ sent ∧ ((o = none ∧ sent = []) ∨ (o = some () ∧ ∃ result reply m,
        sent = [reply] ∧ c.result w.world = some result ∧ reply.received = some m ∧
        m.type = Message.RPC_RESPONSE ∧ m.seq = c.seq ∧ c.Returns m result)) := by
  obtain ⟨d', received', -, seq, calls⟩ := c.arrives
  cases received.symm.trans received'
  obtain ⟨o, sent, run, outcome⟩ := run_calls calls w
  refine ⟨o, _, sent, run, rfl, rfl, outcome.imp_right ?_⟩
  rintro ⟨rfl, result, returns, reply, returned, wrote, built, rfl⟩
  obtain ⟨m, arrives, type, same, content⟩ := reply_received built
  refine ⟨rfl, result, reply, m, rfl, returned, arrives, type, same.trans seq, ?_⟩
  intro returnable
  exact readResult_iff.mpr (decodes_result returnable wrote content)

end RemoteCall

end CRpc.Serving
