import CRpc.Lib.Iterators
import CRpc.Rpc.Decodings

/-! `handleServiceDelete` of `RpcRegister` and of `RaftNode`, with the iterators they use. -/
namespace CRpc.Registry.Erasing
open Util Buffer Multimaps Loops Message

/-- `for (auto it = range.first; it != range.second; ++it)`, which erases what is `ip_port_`. -/
def eraseAddresses (m_addresses : Multimap Text IpPort) (p : Service) :
    Loops.Outcome (Walk Text IpPort) :=
  m_addresses.eraseIn p.1 fun q => q.2 = p.2

/-- The loop over the content, which keeps the walk of the triple read last. -/
def eraseLoop : ReadLoop (Walk Text IpPort) Service where
  read := readService
  each w p :=
    match eraseAddresses w.map p with
    | .ended w => .ok w
    | .running w | .thrown w => .error w

/-- How a handler ends; `undefined` where it uses an iterator to an erased pair. -/
inductive Ending
  | returned (m_addresses : Multimap Text IpPort) (effects : List Effect)
  | thrown
  | undefined

/-- The text of both handlers, on the table of its class. -/
def deleteServices (m_addresses : Multimap Text IpPort) (receive_message : Message)
    (socket : Int32) : Ending :=
  match eraseLoop.result ⟨m_addresses, .to 0, 0⟩ receive_message.serializer with
  | .ended (w, _) =>
    match Message.encoded RPC_SERVICE_REGISTER_RESPONSE receive_message.seq (return ()) with
    | some message => .returned w.map [.send socket message]
    | none => .thrown
  | .thrown (w, _) | .running (w, _) => if w.it = .erased then .undefined else .thrown

def RpcRegister.handleServiceDelete (reg : RpcRegister) (receive_message : Message)
    (socket : Int32) : Ending :=
  deleteServices reg.m_addresses receive_message socket

/-- `RaftNode`, as far as its handler uses it. -/
structure RaftNode where
  m_addresses : Multimap Text IpPort := .empty

def RaftNode.handleServiceDelete (node : RaftNode) (receive_message : Message) (socket : Int32) :
    Ending :=
  deleteServices node.m_addresses receive_message socket

/-- The loop of `eraseAddress` returns where it erases. -/
def RaftNode.eraseAddress (node : RaftNode) (funcName : Text) (address : IpPort) :
    Option (Bool × RaftNode) :=
  match node.m_addresses.eraseOneIn funcName fun q => q.2 = address with
  | .ended w => some (w.it = .erased, ⟨w.map⟩)
  | .running _ | .thrown _ => none

/-- The handler returns, and has removed the pairs its content names, and no others. -/
def DeletesExactly (m_addresses : Multimap Text IpPort) (services : List Service)
    (ending : Ending) : Prop :=
  ∃ effects, ending = .returned (m_addresses.without services) effects

def Absent (m_addresses : Multimap Text IpPort) (services : List Service) : Prop :=
  ∀ p ∈ services, p ∉ m_addresses.pairs

theorem each_absent {w : Walk Text IpPort} {p : Service} (absent : p ∉ w.map.pairs) :
    ∃ i, eraseLoop.each w p = .ok ⟨w.map, .to i, i⟩ := by
  have others : ∀ q ∈ w.map.pairs, q.1 = p.1 → ¬ decide (q.2 = p.2) = true := by
    intro q mem key
    rw [decide_eq_true_eq]
    intro address
    exact absent (Prod.ext key address ▸ mem)
  obtain ⟨i, ended⟩ := Multimap.eraseIn_other others
  refine ⟨i, ?_⟩
  simp only [eraseLoop, eraseAddresses, ended]

theorem each_stored {w : Walk Text IpPort} {p : Service} (stored : p ∈ w.map.pairs) :
    ∃ w', eraseLoop.each w p = .error w' ∧ w'.it = .erased := by
  obtain ⟨w', thrown, erased⟩ := Multimap.eraseIn_match (k := p.1)
    (p := fun q => decide (q.2 = p.2)) ⟨p, stored, rfl, decide_eq_true rfl⟩
  refine ⟨w', ?_, erased⟩
  simp only [eraseLoop, eraseAddresses, thrown]

/-- While nothing matches, the table is the one the handler began with. -/
theorem fold_absent {services : List Service} : ∀ {w : Walk Text IpPort},
    Absent w.map services →
    ∃ w', services.foldlM eraseLoop.each w = .ok w' ∧ w'.map = w.map := by
  induction services with
  | nil => exact fun _ => ⟨_, rfl, rfl⟩
  | cons p services ih =>
    intro w absent
    obtain ⟨i, first⟩ := each_absent (absent p List.mem_cons_self)
    obtain ⟨w', rest, same⟩ := ih (w := ⟨w.map, .to i, i⟩)
      fun q mem => absent q (List.mem_cons_of_mem p mem)
    refine ⟨w', ?_, same⟩
    rw [List.foldlM_cons, first]
    exact rest

/-- At the first triple that is stored, the loop uses an erased iterator. -/
theorem fold_stored {services : List Service} : ∀ {w : Walk Text IpPort},
    ¬ Absent w.map services →
    ∃ w', services.foldlM eraseLoop.each w = .error w' ∧ w'.it = .erased := by
  induction services with
  | nil => exact fun stored => absurd (fun p mem => absurd mem List.not_mem_nil) stored
  | cons p services ih =>
    intro w stored
    rw [List.foldlM_cons]
    by_cases first : p ∈ w.map.pairs
    · obtain ⟨w', thrown, erased⟩ := each_stored first
      rw [thrown]
      exact ⟨w', rfl, erased⟩
    · obtain ⟨i, kept⟩ := each_absent first
      rw [kept]
      apply ih
      intro absent
      apply stored
      intro q mem
      rcases List.mem_cons.mp mem with rfl | later
      · exact first
      · exact absent q later

def Ending.toOption (reg : RpcRegister) : Ending → Option (RpcRegister × List Effect)
  | .returned m_addresses effects => some ({ reg with m_addresses }, effects)
  | .thrown | .undefined => none

/-- The body of the loop where a use of an erased iterator has no result. -/
def eraseService (m : Multimap Text IpPort) : Codec (Multimap Text IpPort) := do
  let p ← readService
  if p.2 ∈ m.equalRange p.1 then failure else return m

theorem mem_equalRange {m : Multimap Text IpPort} {p : Service} :
    p.2 ∈ m.equalRange p.1 ↔ p ∈ m.pairs := by
  rw [Multimap.equalRange_eq, List.mem_map]
  constructor
  · rintro ⟨q, mem, address⟩
    obtain ⟨mem, key⟩ := List.mem_filter.mp mem
    exact Prod.ext (of_decide_eq_true key) address ▸ mem
  · exact fun mem => ⟨p, List.mem_filter.mpr ⟨mem, decide_eq_true rfl⟩, rfl⟩

theorem eraseService_eq {m : Multimap Text IpPort} {s s' : Serializer} {p : Service}
    (read : readService s = some (p, s')) :
    eraseService m s = if p ∈ m.pairs then none else some (m, s') := by
  change (readService s).bind _ = _
  rw [read, Option.bind_some]
  simp only [mem_equalRange]
  split <;> rfl

theorem rounds_eraseService (n : ℕ) : ∀ (w : Walk Text IpPort) (s : Serializer),
    rounds eraseService n w.map s =
      (eraseLoop.run n w s).toOption.map fun done => (done.1.map, done.2) := by
  induction n with
  | zero => exact fun _ _ => rfl
  | succ n ih =>
    intro w s
    by_cases none : s.unread = []
    · rw [rounds_end n _ ((isReadEnd_iff s).mpr none), ReadLoop.run_end n none]
      rfl
    · have more : ¬ s.isReadEnd = true := mt (isReadEnd_iff s).mp none
      have step : rounds eraseService (n + 1) w.map s =
          (eraseService w.map s).bind fun r => rounds eraseService n r.1 r.2 := if_neg more
      cases read : readService s with
      | none =>
        have thrown : eraseLoop.round (w, s) = .thrown (w, s) := ReadLoop.round_of_unread read
        have nothing : eraseService w.map s = Option.none := by
          change (readService s).bind _ = _
          rw [read]
          rfl
        rw [step, nothing, ReadLoop.run_thrown n none thrown]
        rfl
      | some r =>
        have body := eraseService_eq (m := w.map) read
        by_cases present : r.1 ∈ w.map.pairs
        · obtain ⟨w', error, -⟩ := each_stored present
          have thrown := ReadLoop.round_of_error (l := eraseLoop) read error
          rw [step, body, if_pos present, ReadLoop.run_thrown n none thrown]
          rfl
        · obtain ⟨i, kept⟩ := each_absent present
          have next := ReadLoop.round_of_read (l := eraseLoop) read kept
          rw [step, body, if_neg present, Option.bind_some, ReadLoop.run_next n none next]
          exact ih ⟨w.map, .to i, i⟩ r.2

/-- On every content, what `RpcRegister.handleServiceDelete` gives is what its iterators do. -/
theorem handleServiceDelete_eq (reg : RpcRegister) (receive_message : Message) (socket : Int32) :
    reg.handleServiceDelete receive_message socket =
      (RpcRegister.handleServiceDelete reg receive_message socket).toOption reg := by
  have loop : untilReadEnd eraseService reg.m_addresses receive_message.serializer = _ :=
    rounds_eraseService _ ⟨reg.m_addresses, .to 0, 0⟩ receive_message.serializer
  change ((untilReadEnd eraseService reg.m_addresses receive_message.serializer).bind _) = _
  rw [loop]
  change _ = (deleteServices reg.m_addresses receive_message socket).toOption reg
  rw [deleteServices, ReadLoop.result]
  cases eraseLoop.run (receive_message.serializer.unread.length + 1) ⟨reg.m_addresses, .to 0, 0⟩
      receive_message.serializer with
  | ended a =>
    simp only [Outcome.toOption, Option.map_some, Option.bind_some]
    cases Message.encoded RPC_SERVICE_REGISTER_RESPONSE receive_message.seq (return ()) <;> rfl
  | running a | thrown a =>
    simp only
    split <;> rfl

/-- Unlike the handlers, it uses no iterator to what it has erased. -/
theorem RaftNode.eraseAddress_erases (node : RaftNode) (funcName : Text) (address : IpPort) :
    node.eraseAddress funcName address =
      some (decide ((funcName, address) ∈ node.m_addresses.pairs),
        ⟨node.m_addresses.eraseFirst funcName (· = address)⟩) := by
  obtain ⟨w, ended, map, erased⟩ := node.m_addresses.eraseOneIn_eq funcName (· = address)
  have found : w.it = .erased ↔ (funcName, address) ∈ node.m_addresses.pairs := by
    rw [erased, ← mem_equalRange]
    simp
  rw [eraseAddress, ended]
  simp only [map, found]

section Handler
variable {m_addresses : Multimap Text IpPort} {receive_message : Message} {services : List Service}

theorem deleteServices_absent (socket : Int32)
    (content : receive_message.serializer.unread = services.flatMap service.bytes)
    (absent : Absent m_addresses services) :
    ∃ effects, deleteServices m_addresses receive_message socket =
      .returned m_addresses effects := by
  obtain ⟨message, built, -⟩ := encoded_nothing RPC_SERVICE_REGISTER_RESPONSE receive_message.seq
  obtain ⟨w, fold, same⟩ := fold_absent (w := ⟨m_addresses, .to 0, 0⟩) absent
  obtain ⟨s', ended, -⟩ :=
    ReadLoop.result_items (l := eraseLoop) service.reads service.nonempty content fold
  refine ⟨[.send socket message], ?_⟩
  rw [deleteServices, ended]
  simp only [built, same]

theorem deleteServices_stored (socket : Int32)
    (content : receive_message.serializer.unread = services.flatMap service.bytes)
    (stored : ¬ Absent m_addresses services) :
    deleteServices m_addresses receive_message socket = .undefined := by
  obtain ⟨w, fold, erased⟩ := fold_stored (w := ⟨m_addresses, .to 0, 0⟩) stored
  obtain ⟨s', thrown⟩ :=
    ReadLoop.result_error (l := eraseLoop) service.reads service.nonempty content fold
  rw [deleteServices, thrown]
  exact if_pos erased

theorem deletesExactly_iff (socket : Int32)
    (content : receive_message.serializer.unread = services.flatMap service.bytes) :
    DeletesExactly m_addresses services (deleteServices m_addresses receive_message socket) ↔
      Absent m_addresses services := by
  constructor
  · rintro ⟨effects, returned⟩
    by_contra stored
    rw [deleteServices_stored socket content stored] at returned
    cases returned
  · intro absent
    obtain ⟨effects, returned⟩ := deleteServices_absent socket content absent
    exact ⟨effects, by rw [returned, Multimap.without_of_absent absent]⟩

end Handler

/-- A list of triples is deleted as it should be if there is nothing to delete, and only then. -/
theorem deletes_exactly_iff (reg : RpcRegister) (node : RaftNode) (receive_message : Message)
    (socket : Int32) (services : List Service)
    (content : receive_message.serializer.unread = services.flatMap service.bytes) :
    (DeletesExactly reg.m_addresses services
        (RpcRegister.handleServiceDelete reg receive_message socket) ↔
      Absent reg.m_addresses services) ∧
    (DeletesExactly node.m_addresses services
        (RaftNode.handleServiceDelete node receive_message socket) ↔
      Absent node.m_addresses services) :=
  ⟨deletesExactly_iff socket content, deletesExactly_iff socket content⟩

def stored : Service := (⟨[109, 117, 108], by decide⟩, ⟨⟨[49, 46, 50], by decide⟩, 5829⟩)

def deletion : Message :=
  ⟨0x66, 1, RPC_SERVICE_DELETE, 0, 1, 0, ⟨[stored].flatMap service.bytes, 0, Nat.zero_le _⟩⟩

/-- The same function at another port, and another function at the same address. -/
def neighbours : Multimap Text IpPort :=
  (Multimap.empty.emplace stored.1 ⟨stored.2.m_ip, 5830⟩).emplace ⟨[97], by decide⟩ stored.2

/-- Both neighbours are kept. -/
theorem neighbours_kept :
    DeletesExactly neighbours [stored]
        (RpcRegister.handleServiceDelete { m_addresses := neighbours } deletion 6) ∧
      DeletesExactly neighbours [stored]
        (RaftNode.handleServiceDelete { m_addresses := neighbours } deletion 6) := by
  have absent : Absent neighbours [stored] := by
    unfold Absent
    decide +kernel
  have both := deletes_exactly_iff { m_addresses := neighbours } { m_addresses := neighbours }
    deletion 6 [stored] rfl
  exact ⟨both.1.mpr absent, both.2.mpr absent⟩

/-- The one pair of a table, named once. -/
theorem deletion_undefined :
    deletion.serializer.unread = [stored].flatMap service.bytes ∧
    RpcRegister.handleServiceDelete { m_addresses := Multimap.empty.emplace stored.1 stored.2 }
      deletion 6 = .undefined ∧
    RaftNode.handleServiceDelete { m_addresses := Multimap.empty.emplace stored.1 stored.2 }
      deletion 6 = .undefined ∧
    ¬ DeletesExactly (Multimap.empty.emplace stored.1 stored.2) [stored] .undefined := by
  have present : ¬ Absent (Multimap.empty.emplace stored.1 stored.2) [stored] :=
    fun absent => absent stored List.mem_cons_self List.mem_cons_self
  have content : deletion.serializer.unread = [stored].flatMap service.bytes := rfl
  have undefined : deleteServices (Multimap.empty.emplace stored.1 stored.2) deletion 6 =
      .undefined := deleteServices_stored 6 content present
  refine ⟨content, undefined, undefined, ?_⟩
  rintro ⟨effects, returned⟩
  cases returned

end CRpc.Registry.Erasing
