import Mathlib.Data.List.Basic

/-! `CoroutineChannal`: a bounded queue that can be closed. -/
namespace CRpc

variable {α : Type}

/-- The queue; each operation holds its mutex except while it waits. -/
structure CoroutineChannal (α : Type) where
  m_capacity : ℕ
  m_is_close : Bool := false
  m_queue : List α := []

namespace CoroutineChannal

/-- `none` while `m_pushCv` waits; a closed channel refuses. -/
def push (ch : CoroutineChannal α) (t : α) : Option (Bool × CoroutineChannal α) :=
  if ch.m_is_close then some (false, ch)
  else if ch.m_queue.length < ch.m_capacity then
    some (true, { ch with m_queue := ch.m_queue ++ [t] })
  else none

/-- `none` while `m_popCv` waits; a closed channel gives nothing, whatever it holds. -/
def pop (ch : CoroutineChannal α) : Option (Option α × CoroutineChannal α) :=
  if ch.m_is_close then some (none, ch)
  else match ch.m_queue with
    | [] => none
    | t :: rest => some (some t, { ch with m_queue := rest })

def close (ch : CoroutineChannal α) : CoroutineChannal α := { ch with m_is_close := true }

theorem push_cases {ch ch' : CoroutineChannal α} {t : α} {b : Bool}
    (h : ch.push t = some (b, ch')) :
    (ch.m_is_close = true ∧ ch' = ch) ∨
    (ch.m_queue.length < ch.m_capacity ∧ ch' = { ch with m_queue := ch.m_queue ++ [t] }) := by
  unfold push at h
  split at h
  · cases h
    exact .inl ⟨‹_›, rfl⟩
  · split at h
    · cases h
      exact .inr ⟨‹_›, rfl⟩
    · cases h

theorem pop_cases {ch ch' : CoroutineChannal α} {r : Option α} (h : ch.pop = some (r, ch')) :
    (r = none ∧ ch' = ch) ∨
    ∃ t rest, r = some t ∧ ch.m_queue = t :: rest ∧ ch' = { ch with m_queue := rest } := by
  unfold pop at h
  split at h
  · cases h
    exact .inl ⟨rfl, rfl⟩
  · split at h
    · cases h
    · cases h
      exact .inr ⟨_, _, rfl, ‹_›, rfl⟩

theorem push_empty {ch : CoroutineChannal α} (empty : ch.m_queue = []) (room : 0 < ch.m_capacity)
    (t : α) : ∃ b ch', ch.push t = some (b, ch') := by
  unfold push
  split
  · exact ⟨_, _, rfl⟩
  · rw [if_pos (by rwa [empty])]
    exact ⟨_, _, rfl⟩

end CoroutineChannal

end CRpc
