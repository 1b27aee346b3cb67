import CRpc.Rpc.Pool

/-! Which register a server asks after its redirects. -/
namespace CRpc.Pool
open Util Registry Multimaps Maps

/-- Calls that change the registers of a pool; `RedirectRegister` with the session it has connected
to the new leader. -/
inductive RegisterAct
  | addRegister (registerName : Text) (session : ℕ)
  | eraseRegister (registerName : Text)
  | redirectRegister (session : ℕ)

namespace ConnectionPool

/-- `RpcServer::RedirectRegister`, as far as it changes the pool. -/
def redirectRegister (pool : ConnectionPool) (session : ℕ) : ConnectionPool :=
  pool.addRegister raftRegister session

def registerStep (pool : ConnectionPool) : RegisterAct → ConnectionPool
  | .addRegister registerName session => pool.addRegister registerName session
  | .eraseRegister registerName => (pool.eraseRegister registerName).2
  | .redirectRegister session => pool.redirectRegister session

/-- The register that `registerFunc2Reg` and `deleteFunc2Reg` ask. -/
def asked (pool : ConnectionPool) : Option ℕ := pool.getAllRegister.head?

variable {pool : ConnectionPool} {session : ℕ}

theorem find?_eraseRegister (pool : ConnectionPool) (registerName name : Text) :
    (pool.eraseRegister registerName).2.m_registers.find? name =
      if name = registerName then none else pool.m_registers.find? name := by
  unfold eraseRegister
  split
  · exact pool.m_registers.find?_erase registerName name
  · rename_i unknown
    rw [Option.not_isSome_iff_eq_none] at unknown
    split
    · rename_i same
      rw [same]
      exact unknown
    · rfl

theorem asked_of_raft (entry : pool.m_registers.find? raftRegister = some session) :
    pool.asked = some session := by
  have some : pool.m_registers.values ≠ [] :=
    List.ne_nil_of_mem (List.mem_map_of_mem (Map.find?_eq_some.mp entry))
  obtain ⟨first, registers, values⟩ := List.exists_cons_of_ne_nil some
  rw [asked, getAllRegister, entry, values]
  rfl

end ConnectionPool

def Quiet (after : List RegisterAct) : Prop :=
  ∀ a ∈ after, (∀ session, a ≠ .redirectRegister session) ∧ a ≠ .eraseRegister raftRegister

open ConnectionPool

theorem raft_kept {session : ℕ} {after : List RegisterAct} (quiet : Quiet after)
    {pool : ConnectionPool} (entry : pool.m_registers.find? raftRegister = some session) :
    (after.foldl registerStep pool).m_registers.find? raftRegister = some session := by
  induction after generalizing pool with
  | nil => exact entry
  | cons a after ih =>
    apply ih fun b mem => quiet b (List.mem_cons_of_mem _ mem)
    have still := quiet a List.mem_cons_self
    cases a with
    | addRegister registerName other =>
      change (pool.m_registers.emplace registerName other).find? raftRegister = _
      rw [Map.find?_emplace]
      split
      · rename_i same
        rw [← same, entry]
        rfl
      · exact entry
    | eraseRegister registerName =>
      have apart : raftRegister ≠ registerName := fun same => still.2 (by rw [same])
      change (pool.eraseRegister registerName).2.m_registers.find? raftRegister = _
      rw [find?_eraseRegister, if_neg apart]
      exact entry
    | redirectRegister other => exact absurd rfl (still.1 other)

/-- After a redirect the server asks its session, until the next, if and only if the pool had no
`"raft register"` before, or had this session under the name. -/
theorem newest_redirect_asked (before : List RegisterAct) (session : ℕ) :
    (∀ after, Quiet after →
      ((before ++ .redirectRegister session :: after).foldl registerStep {}).asked =
        some session) ↔
      ∀ entry ∈ (before.foldl registerStep {}).m_registers.find? raftRegister, entry = session := by
  have redirected (after : List RegisterAct) :
      (before ++ .redirectRegister session :: after).foldl registerStep {} =
        after.foldl registerStep ((before.foldl registerStep {}).redirectRegister session) := by
    rw [List.foldl_append]
    rfl
  have placed : ((before.foldl registerStep {}).redirectRegister session).m_registers.find?
      raftRegister =
      some (((before.foldl registerStep {}).m_registers.find? raftRegister).getD session) := by
    change (Map.emplace _ raftRegister session).find? raftRegister = _
    rw [Map.find?_emplace, if_pos rfl]
  constructor
  · intro wins entry known
    have now := wins [] fun a mem => absurd mem List.not_mem_nil
    rw [redirected, List.foldl_nil, asked_of_raft placed, known] at now
    exact Option.some.inj now
  · intro fresh after quiet
    rw [redirected]
    apply asked_of_raft
    apply raft_kept quiet
    rw [placed]
    cases known : (before.foldl registerStep {}).m_registers.find? raftRegister with
    | none => rfl
    | some entry => exact congrArg some (fresh entry known)

/-- The second leader is not asked. -/
theorem second_redirect_ignored :
    (([.addRegister defalutRegister 0, .redirectRegister 1, .redirectRegister 2] :
      List RegisterAct).foldl registerStep {}).asked = some 1 := by
  decide +kernel

end CRpc.Pool
