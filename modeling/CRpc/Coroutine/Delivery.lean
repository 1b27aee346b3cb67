import CRpc.Coroutine.Traffic

/-! What a `CoroutineChannal` is given comes out of it, in order. -/
namespace CRpc
open Transition

variable {α : Type}

namespace TrafficPc

/-- Between `m_mutex.lock()` and `m_mutex.unlock()`. -/
@[simp] def Holds : TrafficPc α → Prop
  | .checking .. | .testing .. | .acting .. | .unlocking .. | .closeChecking | .closing
  | .rousing _ | .closeUnlocking => True
  | _ => False

@[simp] def Knows (ch : CoroutineChannal α) : TrafficPc α → Prop
  | .locking call _ | .checking call _ | .waiting call => call.t = call.arg
  | .testing call _ => call.t = call.arg ∧ ch.m_is_close = false
  | .acting call _ => ch.m_is_close = false ∧ ch.waits call.op = false
  | .unlocking call false => call.t = call.arg ∧ ch.m_is_close = true
  | _ => True

/-- The value of a call that has done what it does and not returned. -/
def acted (op : ChannalOp) : TrafficPc α → List α
  | .unlocking call true | .notifying call => if call.op = op then [call.t] else []
  | _ => []

theorem Knows.elsewhere {ch : CoroutineChannal α} {pc : TrafficPc α} (knows : pc.Knows ch)
    (out : ¬ pc.Holds) (ch' : CoroutineChannal α) : pc.Knows ch' := by
  cases pc with
  | locking => exact knows
  | waiting => exact knows
  | outside => trivial
  | notifying => trivial
  | closeLocking => trivial
  | _ => exact absurd trivial out

@[simp] theorem acted_wake (op : ChannalOp) (pc : TrafficPc α) :
    pc.wake.acted op = pc.acted op := by
  cases pc <;> rfl

end TrafficPc

namespace Traffic

/-- The mutex excludes, its holder knows what it found, and those who wait are the queued. -/
structure Sound (s : Traffic α) : Prop where
  holds : ∀ c, (s.pc c).Holds → s.m_mutex = some c
  knows : ∀ c, (s.pc c).Knows s.channal
  nodup : ∀ op, (s.cv op).Nodup
  waiting : ∀ op c, c ∈ s.cv op ↔ ∃ call, s.pc c = .waiting call ∧ call.op = op

theorem sound_start (m_capacity : ℕ) : (start m_capacity : Traffic α).Sound := by
  constructor
  · exact fun c holds => holds.elim
  · exact fun c => trivial
  · exact fun op => .nil
  · intro op c
    apply iff_of_false List.not_mem_nil
    rintro ⟨call, pc, -⟩
    cases pc

section Sound
variable {s t : Traffic α} {c : ℕ} (sound : s.Sound)
include sound

theorem Sound.goto {u : Traffic α} {pc : TrafficPc α} (pcs : u.pc = s.pc) (cv : u.cv = s.cv)
    (before : ∀ call, s.pc c ≠ .waiting call) (after : ∀ call, pc ≠ .waiting call)
    (mine : u.channal = s.channal ∨ s.m_mutex = some c)
    (mutex : ∀ d, d ≠ c → s.m_mutex = some d → u.m_mutex = some d)
    (holds : pc.Holds → u.m_mutex = some c) (knows : pc.Knows u.channal) :
    (u.goto c pc).Sound := by
  have others : ∀ d, d ≠ c → (u.goto c pc).pc d = s.pc d := by
    intro d ne
    rw [pc_goto_ne _ _ ne, pcs]
  have self : (u.goto c pc).pc c = pc := pc_goto_self ..
  constructor
  · intro d
    by_cases same : d = c
    · rw [same, self]
      exact holds
    · rw [others d same]
      exact fun holds => mutex d same (sound.holds d holds)
  · intro d
    by_cases same : d = c
    · rw [same, self]
      exact knows
    · rw [others d same]
      change (s.pc d).Knows u.channal
      rcases mine with channal | mine
      · exact channal ▸ sound.knows d
      · apply (sound.knows d).elsewhere
        intro holds
        exact same (Option.some.inj ((sound.holds d holds).symm.trans mine))
  · exact cv ▸ sound.nodup
  · intro op d
    change d ∈ u.cv op ↔ _
    rw [cv, sound.waiting op d]
    by_cases same : d = c
    · rw [same, self]
      apply iff_of_false
      · exact fun ⟨call, pc, _⟩ => before call pc
      · exact fun ⟨call, pc, _⟩ => after call pc
    · rw [others d same]

theorem Sound.held {u : Traffic α} {pc : TrafficPc α} (here : (s.pc c).Holds) (pcs : u.pc = s.pc)
    (cv : u.cv = s.cv) (after : ∀ call, pc ≠ .waiting call)
    (holds : pc.Holds → u.m_mutex = some c) (knows : pc.Knows u.channal) :
    (u.goto c pc).Sound := by
  have mine := sound.holds c here
  refine sound.goto pcs cv ?_ after (.inr mine) ?_ holds knows
  · intro call pc
    rw [pc] at here
    exact here
  · exact fun d ne other => absurd (Option.some.inj (other.symm.trans mine)) ne

/-- A step of another coroutine than the holder, with the channel as it is. -/
theorem Sound.apart {u : Traffic α} {pc : TrafficPc α} (pcs : u.pc = s.pc) (cv : u.cv = s.cv)
    (channal : u.channal = s.channal) (mutex : u.m_mutex = s.m_mutex ∨ s.m_mutex = none)
    (before : ∀ call, s.pc c ≠ .waiting call) (after : ∀ call, pc ≠ .waiting call)
    (holds : pc.Holds → u.m_mutex = some c) (knows : pc.Knows u.channal) :
    (u.goto c pc).Sound := by
  refine sound.goto pcs cv before after (.inl channal) ?_ holds knows
  intro d _ held
  rcases mutex with same | free
  · exact same.trans held
  · cases free.symm.trans held

theorem Sound.wake {op : ChannalOp} {ws rest : List ℕ} (parts : (s.cv op).Perm (ws ++ rest)) :
    (s.wake op ws rest).Sound := by
  have apart := parts.nodup_iff.mp (sound.nodup op)
  have waits : ∀ d ∈ ws, ∃ call, s.pc d = .waiting call ∧ call.op = op :=
    fun d mem => (sound.waiting op d).mp (parts.mem_iff.mpr (List.mem_append_left rest mem))
  constructor
  · intro d holds
    apply sound.holds d
    by_cases mem : d ∈ ws
    · obtain ⟨call, pc, -⟩ := waits d mem
      rw [pc_wake_mem s op rest mem, pc] at holds
      exact holds.elim
    · rwa [pc_wake_not_mem s op rest mem] at holds
  · intro d
    by_cases mem : d ∈ ws
    · obtain ⟨call, pc, -⟩ := waits d mem
      have knows := sound.knows d
      rw [pc_wake_mem s op rest mem, pc]
      rwa [pc] at knows
    · rw [pc_wake_not_mem s op rest mem]
      exact sound.knows d
  · intro k
    by_cases same : k = op
    · subst same
      rw [cv_wake_self]
      exact (List.nodup_append.mp apart).2.1
    · rw [cv_wake_ne s ws rest same]
      exact sound.nodup k
  · intro k d
    by_cases mem : d ∈ ws
    · obtain ⟨call, pc, own⟩ := waits d mem
      rw [pc_wake_mem s op rest mem, pc]
      apply iff_of_false
      · by_cases same : k = op
        · subst same
          rw [cv_wake_self]
          exact fun mem' => (List.nodup_append.mp apart).2.2 d mem d mem' rfl
        · rw [cv_wake_ne s ws rest same, sound.waiting k d, pc]
          rintro ⟨call', eq, own'⟩
          cases eq
          exact same (own'.symm.trans own)
      · rintro ⟨call', eq, -⟩
        cases eq
    · rw [pc_wake_not_mem s op rest mem, ← sound.waiting k d]
      by_cases same : k = op
      · subst same
        rw [cv_wake_self, parts.mem_iff, List.mem_append]
        exact ⟨.inr, fun or => or.resolve_left mem⟩
      · rw [cv_wake_ne s ws rest same]

theorem Sound.wait {call : ChannalCall α} {woken : Bool} (pc : s.pc c = .testing call woken) :
    (s.wait c call).Sound := by
  have mine : s.m_mutex = some c := sound.holds c (by simp [pc])
  have self : (s.wait c call).pc c = .waiting call := pc_goto_self ..
  have others : ∀ d, d ≠ c → (s.wait c call).pc d = s.pc d := fun d ne => pc_goto_ne _ _ ne
  have absent : ∀ op, c ∉ s.cv op := by
    intro op mem
    obtain ⟨call', pc', -⟩ := (sound.waiting op c).mp mem
    cases pc.symm.trans pc'
  constructor
  · intro d holds
    by_cases same : d = c
    · rw [same, self] at holds
      exact holds.elim
    · rw [others d same] at holds
      exact absurd (Option.some.inj ((sound.holds d holds).symm.trans mine)) same
  · intro d
    by_cases same : d = c
    · have knows := sound.knows c
      rw [pc] at knows
      rw [same, self]
      exact knows.1
    · rw [others d same]
      exact sound.knows d
  · intro op
    by_cases same : op = call.op
    · subst same
      change (Function.update s.cv call.op _ call.op).Nodup
      rw [Function.update_self]
      rw [← List.concat_eq_append]
      exact (sound.nodup call.op).concat (absent call.op)
    · change (Function.update s.cv call.op _ op).Nodup
      rw [Function.update_of_ne same]
      exact sound.nodup op
  · intro op d
    change d ∈ Function.update s.cv call.op _ op ↔ _
    by_cases same : op = call.op
    · subst same
      rw [Function.update_self, List.mem_append, List.mem_singleton]
      by_cases same : d = c
      · rw [same, self]
        exact iff_of_true (.inr rfl) ⟨call, rfl, rfl⟩
      · rw [others d same, ← sound.waiting]
        exact or_iff_left same
    · rw [Function.update_of_ne same]
      by_cases this : d = c
      · rw [this, self]
        apply iff_of_false (absent op)
        rintro ⟨call', eq, own⟩
        cases eq
        exact same own.symm
      · rw [others d this, sound.waiting]

theorem sound_step {a : TrafficAction α} (h : s.step (c, a) = some t) : t.Sound := by
  have holds := sound.holds c
  have knows := sound.knows c
  cases turn_of_step h with
  | call op v pc => refine sound.apart rfl rfl rfl (.inl rfl) ?_ ?_ ?_ ?_ <;> simp_all
  | lock call woken pc free =>
    refine sound.apart rfl rfl rfl (.inr free) ?_ ?_ ?_ ?_ <;> simp_all
  | refuse call woken pc closed => refine sound.held ?_ rfl rfl ?_ ?_ ?_ <;> simp_all
  | check call woken pc live => refine sound.held ?_ rfl rfl ?_ ?_ ?_ <;> simp_all
  | wait call woken pc waits => exact sound.wait pc
  | test call woken pc free => refine sound.held ?_ rfl rfl ?_ ?_ ?_ <;> simp_all
  | act call woken channal call' pc act =>
    refine sound.held ?_ rfl rfl ?_ ?_ ?_ <;> simp_all [record]
  | fail call pc => refine sound.held ?_ rfl rfl ?_ ?_ ?_ <;> simp_all
  | unlock call pc => refine sound.held ?_ rfl rfl ?_ ?_ ?_ <;> simp_all
  | notify call pc =>
    obtain ⟨ws, rest, parts, -, eq⟩ := s.notify_eq call.op.other
    have waker : (s.wake call.op.other ws rest).pc c = .notifying call :=
      pc ▸ pc_wake_ne s call.op.other rest (by simp [pc])
    rw [eq]
    refine (sound.wake (.of_eq parts)).apart rfl rfl rfl (.inl rfl) ?_ ?_ ?_ ?_ <;> simp_all
  | close pc => refine sound.apart rfl rfl rfl (.inl rfl) ?_ ?_ ?_ ?_ <;> simp_all
  | closeLock pc free => refine sound.apart rfl rfl rfl (.inr free) ?_ ?_ ?_ ?_ <;> simp_all
  | closed pc closed => refine sound.held ?_ rfl rfl ?_ ?_ ?_ <;> simp_all
  | closeCheck pc live => refine sound.held ?_ rfl rfl ?_ ?_ ?_ <;> simp_all
  | shut pc => refine sound.held ?_ rfl rfl ?_ ?_ ?_ <;> simp_all
  | rousePush pc =>
    have waker : (s.notifyAll .push).pc c = .rousing .push :=
      pc ▸ pc_wake_ne s .push [] (by simp [pc])
    have woken : (s.notifyAll .push).Sound := sound.wake (.of_eq (List.append_nil _).symm)
    refine woken.held ?_ rfl rfl ?_ ?_ ?_ <;> simp_all [notifyAll]
  | rousePop pc =>
    have waker : (s.notifyAll .pop).pc c = .rousing .pop :=
      pc ▸ pc_wake_ne s .pop [] (by simp [pc])
    have woken : (s.notifyAll .pop).Sound := sound.wake (.of_eq (List.append_nil _).symm)
    refine woken.held ?_ rfl rfl ?_ ?_ ?_ <;> simp_all [notifyAll]
  | closeUnlock pc => refine sound.held ?_ rfl rfl ?_ ?_ ?_ <;> simp_all
  | spurious call pc =>
    exact sound.wake (List.perm_cons_erase ((sound.waiting _ _).mpr ⟨call, pc, rfl⟩))

end Sound

def values (s : Traffic α) (op : ChannalOp) : List α := (s.done op).map Prod.snd

def doneBy (s : Traffic α) (op : ChannalOp) (c : ℕ) : List α :=
  ((s.done op).filter fun x => x.1 = c).map Prod.snd

/-- The values of one coroutine's calls that returned true, in their order. -/
def returnedBy (s : Traffic α) (op : ChannalOp) (c : ℕ) : List α :=
  (s.returned.filter fun r => r.id = c ∧ r.call.op = op ∧ r.result).map fun r => r.call.t

theorem values_goto (s : Traffic α) (c : ℕ) (pc : TrafficPc α) (op : ChannalOp) :
    (s.goto c pc).values op = s.values op := rfl

theorem values_record (s : Traffic α) (c : ℕ) (channal : CoroutineChannal α) (call : ChannalCall α)
    (op : ChannalOp) : (s.record c channal call).values op =
      s.values op ++ if op = call.op then [call.t] else [] := by
  unfold values record
  by_cases same : op = call.op
  · subst same
    simp
  · simp [same]

theorem doneBy_record (s : Traffic α) (c : ℕ) (channal : CoroutineChannal α) (call : ChannalCall α)
    (op : ChannalOp) (d : ℕ) : (s.record c channal call).doneBy op d =
      s.doneBy op d ++ if op = call.op ∧ d = c then [call.t] else [] := by
  unfold doneBy record
  by_cases same : op = call.op
  · subst same
    by_cases mine : d = c
    · subst mine
      simp
    · simp [mine, Ne.symm mine]
  · simp [same]

theorem returnedBy_finish (s : Traffic α) (c : ℕ) (call : ChannalCall α) (result : Bool)
    (op : ChannalOp) (d : ℕ) : (s.finish c call result).returnedBy op d =
      s.returnedBy op d ++ if c = d ∧ call.op = op ∧ result then [call.t] else [] := by
  unfold returnedBy finish goto
  rw [List.filter_append, List.map_append]
  congr 1
  by_cases mine : c = d ∧ call.op = op ∧ result = true
  · simp [mine]
  · simp [mine]

/-- The queue is what was pushed and not popped, and each call that did something returns true. -/
structure Delivered (m_capacity : ℕ) (s : Traffic α) : Prop where
  capacity : s.channal.m_capacity = m_capacity
  bounded : s.channal.m_queue.length ≤ m_capacity
  flow : s.values .pop ++ s.channal.m_queue = s.values .push
  accounts : ∀ op c, s.doneBy op c = s.returnedBy op c ++ (s.pc c).acted op
  refused : ∀ r ∈ s.returned, r.result = false → s.channal.m_is_close = true ∧ r.call.t = r.call.arg

theorem delivered_start (m_capacity : ℕ) : Delivered m_capacity (start m_capacity : Traffic α) :=
  ⟨rfl, Nat.zero_le _, rfl, fun _ _ => rfl, fun _ mem => absurd mem List.not_mem_nil⟩

section Delivered
variable {m_capacity : ℕ} {s t : Traffic α} {c : ℕ} (delivered : Delivered m_capacity s)
include delivered

theorem Delivered.moves (capacity : t.channal.m_capacity = s.channal.m_capacity)
    (queue : t.channal.m_queue = s.channal.m_queue) (done : t.done = s.done)
    (returned : t.returned = s.returned)
    (closed : s.channal.m_is_close = true → t.channal.m_is_close = true)
    (acted : ∀ op d, (t.pc d).acted op = (s.pc d).acted op) : Delivered m_capacity t := by
  constructor
  · exact capacity.trans delivered.capacity
  · exact queue ▸ delivered.bounded
  · rw [values, values, done, queue]
    exact delivered.flow
  · intro op d
    rw [doneBy, returnedBy, done, returned, acted]
    exact delivered.accounts op d
  · intro r mem result
    obtain ⟨old, same⟩ := delivered.refused r (returned ▸ mem) result
    exact ⟨closed old, same⟩

theorem Delivered.goto {u : Traffic α} {pc : TrafficPc α} (channal : u.channal = s.channal)
    (done : u.done = s.done) (returned : u.returned = s.returned)
    (pcs : ∀ d, d ≠ c → u.pc d = s.pc d) (acted : ∀ op, pc.acted op = (s.pc c).acted op) :
    Delivered m_capacity (u.goto c pc) := by
  refine delivered.moves (congrArg _ channal) (congrArg _ channal) done returned ?_ ?_
  · exact fun closed => (congrArg _ channal).trans closed
  · intro op d
    by_cases same : d = c
    · rw [same, pc_goto_self, acted]
    · rw [pc_goto_ne _ _ same, pcs d same]

/-- A step of one coroutine that touches nothing but the mutex. -/
theorem Delivered.goes (m_mutex : Option ℕ) {pc : TrafficPc α}
    (acted : ∀ op, pc.acted op = (s.pc c).acted op) :
    Delivered m_capacity ({ s with m_mutex }.goto c pc) :=
  delivered.goto rfl rfl rfl (fun _ _ => rfl) acted

theorem Delivered.wake (op : ChannalOp) (ws rest : List ℕ) :
    Delivered m_capacity (s.wake op ws rest) := by
  refine delivered.moves rfl rfl rfl rfl id ?_
  intro k d
  change (if d ∈ ws then (s.pc d).wake else s.pc d).acted k = _
  split
  · exact TrafficPc.acted_wake k _
  · rfl

theorem Delivered.act {call call' : ChannalCall α} {woken : Bool} {channal : CoroutineChannal α}
    (pc : s.pc c = .acting call woken) (free : s.channal.waits call.op = false)
    (act : s.channal.act call = some (channal, call')) :
    Delivered m_capacity ((s.record c channal call').goto c (.unlocking call' true)) := by
  have accounts : ∀ op d, ((s.record c channal call').goto c (.unlocking call' true)).doneBy op d =
      ((s.record c channal call').goto c (.unlocking call' true)).returnedBy op d ++
        (((s.record c channal call').goto c (.unlocking call' true)).pc d).acted op := by
    intro op d
    change (s.record c channal call').doneBy op d = s.returnedBy op d ++ _
    rw [doneBy_record, delivered.accounts op d, List.append_assoc]
    congr 1
    by_cases mine : d = c
    · subst mine
      rw [pc_goto_self, pc]
      simp [TrafficPc.acted, eq_comm]
    · rw [pc_goto_ne _ _ mine, if_neg fun both => mine both.2, List.append_nil]
      rfl
  unfold CoroutineChannal.act at act
  cases op : call.op with
  | push =>
    rw [op] at act free
    cases act
    have room : s.channal.m_queue.length < m_capacity := by
      rw [← delivered.capacity]
      exact Nat.lt_of_not_le (of_decide_eq_false free)
    refine ⟨delivered.capacity, ?_, ?_, accounts, delivered.refused⟩
    · change (s.channal.m_queue ++ [call.t]).length ≤ m_capacity
      rw [List.length_append]
      exact room
    · rw [values_goto, values_goto, values_record, values_record, op, ← delivered.flow]
      change s.values .pop ++ [] ++ (s.channal.m_queue ++ [call.t]) = _
      simp
  | pop =>
    rw [op] at act
    cases queue : s.channal.m_queue with
    | nil =>
      rw [queue] at act
      cases act
    | cons front rest =>
      rw [queue] at act
      cases act
      have flow := delivered.flow
      have bounded := delivered.bounded
      rw [queue] at flow bounded
      refine ⟨delivered.capacity, Nat.le_of_succ_le bounded, ?_, accounts, delivered.refused⟩
      rw [values_goto, values_goto, values_record, values_record, ← flow]
      change s.values .pop ++ [front] ++ rest = _
      simp

theorem Delivered.finish {call : ChannalCall α} {result : Bool}
    (acted : ∀ op, (s.pc c).acted op = if call.op = op ∧ result then [call.t] else [])
    (refused : result = false → s.channal.m_is_close = true ∧ call.t = call.arg) :
    Delivered m_capacity (s.finish c call result) := by
  refine ⟨delivered.capacity, delivered.bounded, delivered.flow, ?_, ?_⟩
  · intro op d
    change s.doneBy op d = _
    rw [returnedBy_finish, delivered.accounts op d, List.append_assoc]
    congr 1
    by_cases mine : d = c
    · subst mine
      change (s.pc d).acted op = _ ++ ((s.goto d .outside).pc d).acted op
      rw [pc_goto_self, acted]
      simp [TrafficPc.acted]
    · change (s.pc d).acted op = _ ++ ((s.goto c .outside).pc d).acted op
      rw [pc_goto_ne _ _ mine, if_neg fun both => mine both.1.symm, List.nil_append]
  · intro r mem failed
    rcases List.mem_append.mp mem with old | new
    · exact delivered.refused r old failed
    · cases List.mem_singleton.mp new
      exact refused failed

theorem delivered_step {a : TrafficAction α} (sound : s.Sound) (h : s.step (c, a) = some t) :
    Delivered m_capacity t := by
  have knows := sound.knows c
  cases turn_of_step h with
  | call op v pc => exact delivered.goes _ (by simp [pc, TrafficPc.acted])
  | lock call woken pc free => exact delivered.goes _ (by simp [pc, TrafficPc.acted])
  | refuse call woken pc closed => exact delivered.goes _ (by simp [pc, TrafficPc.acted])
  | check call woken pc live => exact delivered.goes _ (by simp [pc, TrafficPc.acted])
  | wait call woken pc waits =>
    exact delivered.goto rfl rfl rfl (fun _ _ => rfl) (by simp [pc, TrafficPc.acted])
  | test call woken pc free => exact delivered.goes _ (by simp [pc, TrafficPc.acted])
  | act call woken channal call' pc act =>
    rw [pc] at knows
    exact delivered.act pc knows.2 act
  | fail call pc =>
    rw [pc] at knows
    have free : Delivered m_capacity s.unlock :=
      delivered.moves rfl rfl rfl rfl id fun _ _ => rfl
    refine free.finish ?_ fun _ => ⟨knows.2, knows.1⟩
    intro op
    simp [unlock, pc, TrafficPc.acted]
  | unlock call pc => exact delivered.goes _ (by simp [pc, TrafficPc.acted])
  | notify call pc =>
    obtain ⟨ws, rest, -, -, eq⟩ := s.notify_eq call.op.other
    rw [eq]
    refine (delivered.wake _ ws rest).finish ?_ fun failed => nomatch failed
    intro op
    rw [pc_wake_ne s call.op.other rest (by simp [pc]), pc]
    simp [TrafficPc.acted]
  | close pc => exact delivered.goes _ (by simp [pc, TrafficPc.acted])
  | closeLock pc free => exact delivered.goes _ (by simp [pc, TrafficPc.acted])
  | closed pc closed => exact delivered.goes _ (by simp [pc, TrafficPc.acted])
  | closeCheck pc live => exact delivered.goes _ (by simp [pc, TrafficPc.acted])
  | shut pc =>
    have closed : Delivered m_capacity { s with channal := s.channal.close } :=
      delivered.moves rfl rfl rfl rfl (fun _ => rfl) fun _ _ => rfl
    exact closed.goto rfl rfl rfl (fun _ _ => rfl) (by simp [pc, TrafficPc.acted])
  | rousePush pc =>
    refine (delivered.wake .push (s.cv .push) []).goto rfl rfl rfl (fun _ _ => rfl) ?_
    intro op
    rw [pc_wake_ne s .push [] (by simp [pc]), pc]
    rfl
  | rousePop pc =>
    refine (delivered.wake .pop (s.cv .pop) []).goto rfl rfl rfl (fun _ _ => rfl) ?_
    intro op
    rw [pc_wake_ne s .pop [] (by simp [pc]), pc]
    rfl
  | closeUnlock pc => exact delivered.goes _ (by simp [pc, TrafficPc.acted])
  | spurious call pc => exact delivered.wake _ _ _

end Delivered

theorem true_of_changes {s t : Traffic α} {c : ℕ} {a : TrafficAction α}
    (h : s.step (c, a) = some t) (changes : t.channal.m_queue ≠ s.channal.m_queue) :
    ∃ call, t.pc c = .unlocking call true := by
  cases turn_of_step h with
  | act call woken channal call' => exact ⟨call', pc_goto_self ..⟩
  | notify call =>
    obtain ⟨ws, rest, -, -, eq⟩ := s.notify_eq call.op.other
    rw [eq] at changes
    exact absurd rfl changes
  | _ => exact absurd rfl changes

theorem delivered_of_run {m_capacity : ℕ} {as : List (ℕ × TrafficAction α)} {s : Traffic α}
    (run : Run step Always (start m_capacity) as s) : s.Sound ∧ Delivered m_capacity s := by
  apply run.invariant (P := fun s => s.Sound ∧ Delivered m_capacity s)
  · exact ⟨sound_start m_capacity, delivered_start m_capacity⟩
  · rintro s ⟨c, a⟩ t ⟨sound, delivered⟩ - next
    exact ⟨sound_step sound next, delivered_step delivered sound next⟩

/-- The queue keeps its bound; what came out is a prefix of what went in, each coroutine's share of
which is what its calls that returned true say, and a call about to; what returned false found the
channel closed and changed nothing. -/
theorem channal_delivers {m_capacity : ℕ} {as : List (ℕ × TrafficAction α)} {s : Traffic α}
    (run : Run step Always (start m_capacity) as s) :
    s.channal.m_queue.length ≤ m_capacity ∧
    s.values .pop <+: s.values .push ∧
    (∀ op c, s.doneBy op c = s.returnedBy op c ++ (s.pc c).acted op) ∧
    (∀ r ∈ s.returned, r.result = false →
      s.channal.m_is_close = true ∧ r.call.t = r.call.arg) ∧
    ∀ c a t, step s (c, a) = some t → t.channal.m_queue ≠ s.channal.m_queue →
      ∃ call, t.pc c = .unlocking call true := by
  obtain ⟨-, delivered⟩ := delivered_of_run run
  exact ⟨delivered.bounded, ⟨_, delivered.flow⟩, delivered.accounts, delivered.refused,
    fun _ _ _ => true_of_changes⟩

/-- Two coroutines push to a channel with room for one value, a third pops, and a fourth closes it
before the second, woken, looks again. -/
def refusal : List (ℕ × TrafficAction ℕ) :=
  [(1, .call .push 5), (1, .next), (1, .next), (1, .next), (1, .next), (1, .next), (1, .next),
    (2, .call .push 6), (2, .next), (2, .next), (2, .next),
    (3, .call .pop 0), (3, .next), (3, .next), (3, .next), (3, .next), (3, .next), (3, .next),
    (4, .close), (4, .next), (4, .next), (4, .next), (4, .next), (4, .next), (4, .next),
    (2, .next), (2, .next), (2, .next)]

theorem channal_delivers_refusal : ∃ s : Traffic ℕ, Run step Always (start 1) refusal s ∧
    s.values .pop = [5] ∧ s.channal.m_queue.length ≤ 1 ∧ s.values .pop <+: s.values .push ∧
    (∀ op c, s.doneBy op c = s.returnedBy op c ++ (s.pc c).acted op) ∧
    (∀ r ∈ s.returned, r.result = false →
      s.channal.m_is_close = true ∧ r.call.t = r.call.arg) ∧
    ∀ c a t, step s (c, a) = some t → t.channal.m_queue ≠ s.channal.m_queue →
      ∃ call, t.pc c = .unlocking call true := by
  have run : Run step Always (start 1) refusal _ := .of_exec rfl
  exact ⟨_, run, rfl, channal_delivers run⟩

end Traffic

end CRpc
