import CRpc.Lib.Sums
import CRpc.Rpc.Correlation
import Mathlib.Data.Fintype.BigOperators
import Mathlib.Tactic.Linarith

/-! Every call over a session returns, whatever its peer answers. -/
namespace CRpc
open Transition

def CallerAct.Outer : CallerAct → Prop
  | .begin | .timeout => True
  | _ => False

/-- Not the expiry of a timer or a read of the peer, which may come more than once. -/
def Act.counts {ι : Type} : Act ι → Bool
  | .caller _ .timeout | .late _ _ | .read => false
  | _ => true

namespace Exchange

variable {ι : Type} {request : ι → Message} {s s' : Exchange ι} {a : Act ι}

structure Open (s : Exchange ι) : Prop where
  not_closed : s.m_send_channal.m_is_close = false
  capacity : s.m_send_channal.m_capacity = 1024

/-- Neither a new call nor an answer: a step of the session itself, in time, or a read of its
peer. -/
def Inner : Act ι → Prop
  | .caller _ .begin | .late _ _ | .answer _ _ => False
  | _ => True

theorem Inner.inTime {a : Act ι} (inner : Inner a) : a.InTime := by
  cases a with
  | late => exact inner
  | caller | sender | read | answer | receiver => trivial

section
variable [DecidableEq ι]

/-- Nothing can happen but a new call, an answer of the peer or the expiry of a timer; the timers of
the waiting callers have expired, and the peer has made room for what is being sent. -/
structure AtRest (request : ι → Message) (s : Exchange ι) : Prop where
  callers : ∀ i b, ¬ CallerAct.Outer b → s.callerStep request i b = none
  sender : ∀ b, s.senderStep b = none
  receiver : ∀ b, s.receiverStep b = none
  expired : ∀ i c, s.callers i = .waiting c → (s.channals c).m_is_close = true
  room : 0 < s.window

section Effort
variable [Fintype ι]

end Effort

/-- Nobody is inside `m_mutex` at rest: whoever is has a step to leave it. -/
theorem AtRest.free (rest : AtRest request s) (sound : Sound request s) : s.m_mutex = none := by
  cases mutex : s.m_mutex with
  | none => rfl
  | some o =>
    have inside := (sound.exclusive o).mp mutex
    cases o with
    | receiver =>
      rcases sound.unblocked with ⟨reading, -⟩ | ⟨i, other⟩ | ⟨b, t, next⟩
      · rw [holds, reading] at inside
        exact inside.elim
      · cases mutex.symm.trans other
      · cases (rest.receiver b).symm.trans next
    | caller i =>
      rw [holds] at inside
      cases at_ : s.callers i with
      | registering c =>
        have none := rest.callers i .register not_false
        simp [callerStep, at_] at none
      | removing c r =>
        have none := rest.callers i .erase not_false
        simp [callerStep, at_] at none
      | start | locking | sending | waiting | popped | erasing | done =>
        rw [at_] at inside
        exact inside.elim

/-- `handle_send` has emptied the channel for requests at rest. -/
theorem AtRest.drained (rest : AtRest request s) (opened : Open s) :
    s.m_send_channal.m_queue = [] := by
  cases queue : s.m_send_channal.m_queue with
  | nil => rfl
  | cons m rest' =>
    cases sender : s.sender with
    | none =>
      have none := rest.sender .take
      simp [senderStep, sender, CoroutineChannal.pop, opened.not_closed, queue] at none
    | some m' =>
      obtain ⟨window, room⟩ := Nat.exists_eq_add_one.mpr rest.room
      have none := rest.sender .write
      rw [senderStep, sender] at none
      simp only [room] at none
      split at none <;> cases none

theorem AtRest.returned (rest : AtRest request s) (sound : Sound request s) (opened : Open s)
    (i : ι) : s.callers i = .start ∨ ∃ c r, s.callers i = .done c r := by
  have free := rest.free sound
  cases at_ : s.callers i with
  | start => exact .inl rfl
  | done c r => exact .inr ⟨c, r, rfl⟩
  | locking c =>
    have none := rest.callers i .lock not_false
    simp [callerStep, at_, free] at none
  | registering c =>
    have none := rest.callers i .register not_false
    simp [callerStep, at_] at none
  | sending c =>
    obtain ⟨b, ch, push⟩ := CoroutineChannal.push_empty (rest.drained opened)
      (by rw [opened.capacity]; decide) (request i)
    have none := rest.callers i .send not_false
    simp [callerStep, at_, push] at none
  | waiting c =>
    have closed : (s.channals c).pop = some (none, s.channals c) := if_pos (rest.expired i c at_)
    have none := rest.callers i .pop not_false
    simp [callerStep, at_, closed] at none
  | popped c r =>
    have none := rest.callers i .cancel not_false
    simp [callerStep, at_] at none
  | erasing c r =>
    have none := rest.callers i .lockErase not_false
    simp [callerStep, at_, free] at none
  | removing c r =>
    have none := rest.callers i .erase not_false
    simp [callerStep, at_] at none

theorem expire (request : ι → Message) (s : Exchange ι) (l : List ι) :
    ∃ bs t, Run (step request) InTime s bs t ∧ (∀ a ∈ bs, Inner a) ∧ t.callers = s.callers ∧
    (∀ c, (s.channals c).m_is_close = true → (t.channals c).m_is_close = true) ∧
    ∀ i ∈ l, ∀ c, s.callers i = .waiting c → (t.channals c).m_is_close = true := by
  induction l with
  | nil => exact ⟨[], s, .refl, nofun, rfl, fun _ h => h, nofun⟩
  | cons i l ih =>
    obtain ⟨bs, t, run, inner, callers, kept, closed⟩ := ih
    by_cases waits : ∃ c, s.callers i = .waiting c
    · obtain ⟨c, at_⟩ := waits
      have now : t.callers i = .waiting c := by rw [callers, at_]
      have next : step request t (.caller i .timeout) =
          some (t.setChannal c (t.channals c).close) := by
        simp only [step, callerStep, now]
      have inTime : InTime t (.caller i .timeout) := trivial
      have still : ∀ c', (t.channals c').m_is_close = true →
          ((t.setChannal c (t.channals c).close).channals c').m_is_close = true := by
        intro c' h
        by_cases eq : c' = c
        · subst eq
          simp [setChannal, CoroutineChannal.close]
        · simpa [setChannal, eq] using h
      refine ⟨bs ++ [.caller i .timeout], t.setChannal c (t.channals c).close,
        run.snoc inTime next, ?_, callers, fun c' h => still c' (kept c' h), ?_⟩
      · intro a mem
        rcases List.mem_append.mp mem with mem | mem
        · exact inner a mem
        · rw [List.mem_singleton.mp mem]
          trivial
      · intro j mem c' here
        rcases List.mem_cons.mp mem with rfl | mem
        · cases at_.symm.trans here
          simp [setChannal, CoroutineChannal.close]
        · exact still c' (closed j mem c' here)
    · refine ⟨bs, t, run, inner, callers, kept, ?_⟩
      intro j mem c' here
      rcases List.mem_cons.mp mem with rfl | mem
      · exact absurd ⟨c', here⟩ waits
      · exact closed j mem c' here

end

end Exchange

end CRpc
