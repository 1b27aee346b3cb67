import CRpc.Util.Types

/-! A request's payload, from `RpcCLient::call` to `RpcServer::handleCLientRequest`. -/
namespace CRpc
open Util Buffer

/-- The payload `RpcCLient::call` writes: `f_name`, a string that is not `const`, and the tuple
of the arguments, whose components `TupleSerializer` sees as `const`. -/
def call (ts : List Ty) (f_name : Text) (args : (Ty.tuple ts).sem.Carrier) : Codec Unit := do
  Serializer.writeString f_name
  (Ty.tuple ts).sem.write args

/-- `RpcServer::unpack`, into a fresh tuple of the parameters' types. -/
def unpack (ts : List Ty) : Codec (Ty.tuple ts).sem.Carrier := (Ty.tuple ts).sem.read

/-- `RpcServer::handleCLientRequest` up to the call of the function, whose parameters have the
types `ts`. -/
def handleCLientRequest (ts : List Ty) : Codec (Text × (Ty.tuple ts).sem.Carrier) := do
  let f_name ← Serializer.readString
  let args ← unpack ts
  return (f_name, args)

/-- Wherever the payload is what a decoded message still holds, the server reads the name and
the arguments of the call from it, and reads it to its end. -/
def ArgumentsArrive (ts : List Ty) (f_name : Text) (args : (Ty.tuple ts).sem.Carrier) : Prop :=
  ∃ s, call ts f_name args .empty = some ((), s) ∧
    ∀ params : Serializer, params.unread = s.m_data →
      ∃ params', handleCLientRequest ts params = some ((f_name, args), params') ∧
        params'.isReadEnd = true

theorem call_eq {ts : List Ty} {f_name : Text} {args : (Ty.tuple ts).sem.Carrier} {bs : List UInt8}
    (writes : (Ty.tuple ts).sem.write args = Buffer.write bs) :
    call ts f_name args = Buffer.write (f_name.encoded ++ bs) := by
  rw [call, writeString_eq, writes, write_write]

theorem arrive_of_inverse {ts : List Ty} {args : (Ty.tuple ts).sem.Carrier}
    (inverse : Inverse (Ty.tuple ts).sem.write (Ty.tuple ts).sem.read args) (f_name : Text) :
    ArgumentsArrive ts f_name args := by
  obtain ⟨bs, writes, reads⟩ := inverse
  refine ⟨append .empty (f_name.encoded ++ bs), by rw [call_eq writes]; rfl, ?_⟩
  intro params unread
  have whole : Reads (handleCLientRequest ts) (f_name.encoded ++ bs) (f_name, args) := by
    apply (reads_readString f_name).bind
    exact reads.map fun args => (f_name, args)
  change params.unread = f_name.encoded ++ bs at unread
  refine ⟨_, whole params [] (by rw [unread, List.append_nil]), ?_⟩
  have length := params.length_unread
  rw [unread] at length
  apply decide_eq_true
  change params.m_data.length ≤
    min (params.m_position + (f_name.encoded ++ bs).length) params.m_data.length
  omega

theorem unpack_of_arrive {ts : List Ty} {f_name : Text} {args : (Ty.tuple ts).sem.Carrier}
    (arrive : ArgumentsArrive ts f_name args) :
    ∃ s params params', call ts f_name args .empty = some ((), s) ∧
      Serializer.readString ⟨s.m_data, 0, Nat.zero_le _⟩ = some (f_name, params) ∧
      (Ty.tuple ts).sem.read params = some (args, params') := by
  obtain ⟨s, called, all⟩ := arrive
  obtain ⟨params', run, -⟩ := all ⟨s.m_data, 0, Nat.zero_le _⟩ rfl
  obtain ⟨name, params, first, rest⟩ := codec_bind run
  obtain ⟨args', s', second, last⟩ := codec_bind rest
  cases last
  exact ⟨s, params, params', called, first, second⟩

theorem not_arrive_of_lost {ts : List Ty} {args : (Ty.tuple ts).sem.Carrier}
    (lost : Lost (Ty.tuple ts).sem args) (f_name : Text) : ¬ ArgumentsArrive ts f_name args := by
  intro arrive
  obtain ⟨s, params, params', -, -, read⟩ := unpack_of_arrive arrive
  exact lost params params' read

theorem not_arrive_of_short {ts : List Ty} {args : (Ty.tuple ts).sem.Carrier} {w n : ℕ}
    (costs : Costs (Ty.tuple ts).sem args w n) (lt : w < n) (f_name : Text) :
    ¬ ArgumentsArrive ts f_name args := by
  obtain ⟨bs, writes, rfl, moves⟩ := costs
  intro arrive
  obtain ⟨s, params, params', called, name, read⟩ := unpack_of_arrive arrive
  rw [call_eq writes] at called
  cases called
  rw [reads_readString f_name _ bs rfl] at name
  cases name
  obtain ⟨data, ge⟩ := moves _ params' read
  have le := params'.position_le
  rw [data] at le
  change min (0 + f_name.encoded.length) (f_name.encoded ++ bs).length + n ≤ _ at ge
  change _ ≤ (f_name.encoded ++ bs).length at le
  rw [List.length_append] at ge le
  omega

/-- Plain arguments arrive; and calls at these types all arrive, with every name and all
arguments, if and only if each type is good. -/
theorem arguments_arrive (ts : List Ty) :
    (∀ f_name args, (Ty.tuple ts).Plain args → ArgumentsArrive ts f_name args) ∧
      ((∀ f_name args, ArgumentsArrive ts f_name args) ↔ ∀ t ∈ ts, t.Good) := by
  rw [← Ty.good_tuple]
  refine ⟨fun f_name args plain => arrive_of_inverse (Ty.inverse_of_plain plain) f_name, ?_, ?_⟩
  · intro all
    by_contra bad
    rcases (Ty.tuple ts).fails_of_not_good bad with ⟨args, lost⟩ | ⟨args, w, n, costs, lt⟩
    · exact not_arrive_of_lost lost ⟨[], by decide⟩ (all _ args)
    · exact not_arrive_of_short costs lt ⟨[], by decide⟩ (all _ args)
  · intro good f_name args
    exact arrive_of_inverse (Ty.inverse_of_plain (Ty.plain_of_good good args)) f_name

/-- The call `echo("x")`: the server looks for a length that was not written. -/
theorem string_argument_lost :
    ¬ ArgumentsArrive [.string] ⟨[101, 99, 104, 111], by decide⟩ (⟨[120], by decide⟩, ()) := by
  have first : Moves Cpp.string.read 8 ⟨[120], by decide⟩ := moves_string _
  have second : Moves Cpp.nil.read 0 () := Moves.pure _ _
  apply not_arrive_of_short (w := 0) (n := 8)
  · exact ⟨[], write_nil.symm, rfl, moves_pair first second⟩
  · decide

end CRpc
