import CRpc.Coroutine.Timer
import CRpc.Lib.Runs

/-! Which timer events are still to come, over every sequence of calls. -/
namespace CRpc
open Transition

/-- A timer, the last time read from the clock, and which events have been cancelled or, by
`getExpiredcbs`, taken at their time. -/
structure History where
  timer : Timer := {}
  now : ℕ := 0
  cancelled : List ℕ := []
  consumed : List ℕ := []

inductive TimerCall
  | addTimeEvent (interval : ℕ) (is_repeated : Bool)
  | stop (e : ℕ)
  | wake (e : ℕ)
  | cancel (e : ℕ)
  | resetTime (e : ℕ)
  | resetTimeTo (e interval : ℕ)
  | getExpiredcbs
  deriving DecidableEq

def TimerCall.on : TimerCall → Option ℕ
  | stop e | wake e | cancel e | resetTime e | resetTimeTo e _ => some e
  | addTimeEvent .. | getExpiredcbs => none

namespace History

def Known (s : History) : TimerCall → Prop
  | .stop e | .wake e | .cancel e | .resetTime e | .resetTimeTo e _ => e < s.timer.created
  | .addTimeEvent .. | .getExpiredcbs => True

instance (s : History) : DecidablePred s.Known
  | .stop _ | .wake _ | .cancel _ | .resetTime _ | .resetTimeTo .. =>
    inferInstanceAs (Decidable (_ < _))
  | .addTimeEvent .. | .getExpiredcbs => inferInstanceAs (Decidable True)

def apply (s : History) (now : ℕ) : TimerCall → History
  | .addTimeEvent interval is_repeated =>
    { s with now, timer := s.timer.addTimeEvent now interval is_repeated }
  | .stop e => { s with now, timer := s.timer.stop e }
  | .wake e => { s with now, timer := s.timer.wake e }
  | .cancel e => { s with now, timer := s.timer.cancel e, cancelled := e :: s.cancelled }
  | .resetTime e => { s with now, timer := s.timer.resetTime now e }
  | .resetTimeTo e interval => { s with now, timer := s.timer.resetTimeTo now e interval }
  | .getExpiredcbs =>
    { s with
      now
      timer := (s.timer.getExpiredcbs now).1
      consumed := s.timer.expired now ++ s.consumed }

def step (s : History) (a : TimerCall × ℕ) : Option History :=
  if s.now ≤ a.2 ∧ s.Known a.1 then some (s.apply a.2 a.1) else none

def Pending (s : History) (e : ℕ) : Prop :=
  e < s.timer.created ∧ e ∉ s.cancelled ∧
    ((s.timer.event e).m_is_repeated = true ∨ e ∉ s.consumed)

instance (s : History) : DecidablePred s.Pending := fun _ => inferInstanceAs (Decidable (_ ∧ _ ∧ _))

def Complete (s : History) : Prop := ∀ e, s.Pending e → e ∈ s.timer.m_timeEvents

/-- A reset moves the event itself or one that is not to come, and to a time no other has. -/
def ResetKeeps (s : History) (now e interval : ℕ) : Prop :=
  ∀ it ∈ s.timer.find e,
    (it ≠ e → ¬ s.Pending it) ∧
    (s.Pending e → ∀ y ∈ s.timer.m_timeEvents, y ≠ e → s.timer.occur y ≠ now + interval)

instance (s : History) (now e interval : ℕ) : Decidable (s.ResetKeeps now e interval) :=
  inferInstanceAs (Decidable (∀ it ∈ s.timer.find e, _))

/-- The call puts every event that is to come at a time no other event has. -/
def Keeps (s : History) : TimerCall × ℕ → Prop
  | (.addTimeEvent interval _, now) => ¬ s.timer.Occupied (now + interval)
  | (.resetTime e, now) => s.ResetKeeps now e (s.timer.event e).m_interval
  | (.resetTimeTo e interval, now) => s.ResetKeeps now e interval
  | (.getExpiredcbs, now) => ∀ e ∈ s.timer.expired now,
    s.Pending e → (s.timer.event e).m_is_repeated = true →
      (∀ y ∈ s.timer.m_timeEvents, now < s.timer.occur y →
        s.timer.occur y ≠ now + (s.timer.event e).m_interval) ∧
      ∀ y ∈ s.timer.expired now, s.timer.rearms y = true → s.timer.occur y < s.timer.occur e →
        (s.timer.event y).m_interval ≠ (s.timer.event e).m_interval
  | (.stop _, _) | (.wake _, _) | (.cancel _, _) => True

instance (s : History) : DecidablePred s.Keeps
  | (.addTimeEvent .., _) => inferInstanceAs (Decidable ¬ ∃ x ∈ s.timer.m_timeEvents, _)
  | (.resetTime _, _) | (.resetTimeTo .., _) => inferInstanceAs (Decidable (s.ResetKeeps _ _ _))
  | (.getExpiredcbs, _) => inferInstanceAs (Decidable (∀ e ∈ s.timer.expired _, _))
  | (.stop _, _) | (.wake _, _) | (.cancel _, _) => inferInstanceAs (Decidable True)

/-- The set is a set, of events that exist; what was never cancelled is not cancelled. -/
structure Sound (s : History) : Prop where
  ordered : s.timer.Ordered
  created : ∀ e ∈ s.timer.m_timeEvents, e < s.timer.created
  past : ∀ e, e ∈ s.cancelled ∨ e ∈ s.consumed → e < s.timer.created
  uncancelled : ∀ e, e ∉ s.cancelled → (s.timer.event e).m_is_cancled = false

theorem sound_initial : Sound {} := by
  constructor
  · exact .nil
  · intro e mem
    cases mem
  · intro e mem
    rcases mem with mem | mem <;> cases mem
  · exact fun _ _ => rfl

/-- A step is a call whose time is not over, on an event that exists. -/
theorem step_eq_some {s t : History} {a : TimerCall × ℕ} :
    step s a = some t ↔ (s.now ≤ a.2 ∧ s.Known a.1) ∧ s.apply a.2 a.1 = t := by
  unfold step
  split
  · simp [*]
  · simp [*]

section Add
variable {s : History} (sound : s.Sound) (now interval : ℕ) (is_repeated : Bool)
include sound

theorem created_out : s.timer.created ∉ s.timer.m_timeEvents :=
  fun mem => Nat.lt_irrefl _ (sound.created _ mem)

theorem mem_addTimeEvent {e : ℕ} :
    e ∈ (s.timer.addTimeEvent now interval is_repeated).m_timeEvents ↔
      e ∈ s.timer.m_timeEvents ∨
        (e = s.timer.created ∧ ¬ s.timer.Occupied (now + interval)) := by
  have same : ∀ v : TimeEvent, ∀ time, ({ s.timer with created := s.timer.created + 1 }.set
      s.timer.created v).Occupied time ↔ s.timer.Occupied time :=
    fun v time => Timer.occupied_set v (created_out sound)
  rw [Timer.addTimeEvent, Timer.mem_insert, same]
  simp [Timer.occur]

theorem sound_addTimeEvent : (s.apply now (.addTimeEvent interval is_repeated)).Sound := by
  constructor
  · apply Timer.Ordered.insert
    apply Timer.Ordered.set _ _ (created_out sound)
    exact sound.ordered
  · intro e mem
    rcases (mem_addTimeEvent sound now interval is_repeated).mp mem with old | ⟨rfl, -⟩
    · exact Nat.lt_succ_of_lt (sound.created e old)
    · exact Nat.lt_succ_self _
  · exact fun e mem => Nat.lt_succ_of_lt (sound.past e mem)
  · intro e out
    by_cases same : e = s.timer.created
    · subst same
      change (Timer.event (Timer.insert _ _) _).m_is_cancled = false
      rw [Timer.event_insert, Timer.event_set_same]
    · change (Timer.event (Timer.insert _ _) _).m_is_cancled = false
      rw [Timer.event_insert, Timer.event_set_ne _ _ same]
      exact sound.uncancelled e out

theorem complete_addTimeEvent (complete : s.Complete) :
    (s.apply now (.addTimeEvent interval is_repeated)).Complete ↔
      ¬ s.timer.Occupied (now + interval) := by
  constructor
  · intro next
    have fresh : (s.apply now (.addTimeEvent interval is_repeated)).Pending s.timer.created := by
      have past : ∀ l : List ℕ, (∀ e ∈ l, e < s.timer.created) → s.timer.created ∉ l :=
        fun l lt mem => Nat.lt_irrefl _ (lt _ mem)
      exact ⟨Nat.lt_succ_self _, past _ fun e mem => sound.past e (.inl mem),
        .inr (past _ fun e mem => sound.past e (.inr mem))⟩
    rcases (mem_addTimeEvent sound now interval is_repeated).mp (next _ fresh) with old | new
    · exact absurd old (created_out sound)
    · exact new.2
  · intro free e pending
    apply (mem_addTimeEvent sound now interval is_repeated).mpr
    by_cases same : e = s.timer.created
    · exact .inr ⟨same, free⟩
    · left
      apply complete
      obtain ⟨lt, uncancelled, live⟩ := pending
      refine ⟨lt_of_le_of_ne (Nat.le_of_lt_succ lt) same, uncancelled, ?_⟩
      change (Timer.event (Timer.insert _ _) _).m_is_repeated = true ∨ _ at live
      rwa [Timer.event_insert, Timer.event_set_ne _ _ same] at live

end Add

section Flags
variable {s : History} {e : ℕ} {v : TimeEvent} {cancelled : List ℕ}

theorem sound_flags (sound : s.Sound) (now : ℕ) (time : v.m_occur_time = s.timer.occur e)
    (more : ∀ x ∈ s.cancelled, x ∈ cancelled) (known : ∀ x ∈ cancelled, x < s.timer.created)
    (flag : e ∉ cancelled → v.m_is_cancled = false) :
    Sound { s with now, timer := s.timer.set e v, cancelled } := by
  have times : ∀ x, (s.timer.set e v).occur x = s.timer.occur x := by
    intro x
    by_cases same : x = e
    · subst same
      rw [Timer.occur, Timer.event_set_same, time]
    · exact s.timer.occur_set_ne v same
  constructor
  · apply List.Pairwise.imp _ sound.ordered
    intro a b lt
    rwa [times, times]
  · exact sound.created
  · exact fun x mem => mem.elim (known x) fun mem => sound.past x (.inr mem)
  · intro x out
    by_cases same : x = e
    · subst same
      change ((s.timer.set x v).event x).m_is_cancled = false
      rw [Timer.event_set_same]
      exact flag out
    · change ((s.timer.set e v).event x).m_is_cancled = false
      rw [Timer.event_set_ne _ _ same]
      exact sound.uncancelled x fun mem => out (more x mem)

theorem complete_flags (complete : s.Complete) (now : ℕ)
    (rep : v.m_is_repeated = (s.timer.event e).m_is_repeated)
    (more : ∀ x ∈ s.cancelled, x ∈ cancelled) :
    Complete { s with now, timer := s.timer.set e v, cancelled } := by
  rintro x ⟨lt, out, live⟩
  apply complete x
  refine ⟨lt, fun mem => out (more x mem), ?_⟩
  change ((s.timer.set e v).event x).m_is_repeated = true ∨ _ at live
  by_cases same : x = e
  · subst same
    rwa [Timer.event_set_same, rep] at live
  · rwa [Timer.event_set_ne _ _ same] at live

end Flags

section Reset
variable {s : History} (now e interval : ℕ)

theorem event_resetTimeTo (x : ℕ) :
    ((s.timer.resetTimeTo now e interval).event x).m_is_repeated =
      (s.timer.event x).m_is_repeated ∧
    ((s.timer.event x).m_is_cancled = false →
      ((s.timer.resetTimeTo now e interval).event x).m_is_cancled = false) := by
  unfold Timer.resetTimeTo
  split
  · rw [Timer.event_insert]
    by_cases same : x = e
    · subst same
      rw [Timer.event_set_same]
      exact ⟨rfl, fun _ => rfl⟩
    · rw [Timer.event_set_ne _ _ same]
      exact ⟨rfl, id⟩
  · exact ⟨rfl, id⟩

theorem sound_resetTimeTo (sound : s.Sound) (known : e < s.timer.created) :
    Sound { s with now, timer := s.timer.resetTimeTo now e interval } := by
  constructor
  · exact sound.ordered.resetTimeTo now e interval
  · intro x mem
    change x < (s.timer.resetTimeTo now e interval).created
    rw [Timer.created_resetTimeTo]
    cases found : s.timer.find e with
    | none =>
      change x ∈ (s.timer.resetTimeTo now e interval).m_timeEvents at mem
      rw [Timer.resetTimeTo, found] at mem
      exact sound.created x mem
    | some it =>
      rcases (Timer.mem_resetTimeTo sound.ordered found).mp mem with ⟨old, -⟩ | ⟨rfl, -⟩
      · exact sound.created x old
      · exact known
  · intro x mem
    change x < (s.timer.resetTimeTo now e interval).created
    rw [Timer.created_resetTimeTo]
    exact sound.past x mem
  · intro x out
    exact (event_resetTimeTo now e interval x).2 (sound.uncancelled x out)

theorem pending_resetTimeTo (x : ℕ) :
    Pending { s with now, timer := s.timer.resetTimeTo now e interval } x ↔ s.Pending x := by
  unfold Pending
  change x < (s.timer.resetTimeTo now e interval).created ∧ _ ∧
    (((s.timer.resetTimeTo now e interval).event x).m_is_repeated = true ∨ _) ↔ _
  rw [Timer.created_resetTimeTo, (event_resetTimeTo now e interval x).1]

theorem complete_resetTimeTo (sound : s.Sound) (complete : s.Complete) :
    Complete { s with now, timer := s.timer.resetTimeTo now e interval } ↔
      s.ResetKeeps now e interval := by
  unfold Complete
  simp only [pending_resetTimeTo now e interval]
  cases found : s.timer.find e with
  | none =>
    constructor
    · intro _ it h
      cases found.symm.trans h
    · intro _ x pending
      rw [Timer.resetTimeTo, found]
      exact complete x pending
  | some it =>
    have self : ∀ x, x ∈ s.timer.m_timeEvents → x = e → it = e :=
      fun x mem same => Timer.find_self sound.ordered (same ▸ mem) found
    constructor
    · intro next it' h
      cases found.symm.trans h
      constructor
      · intro ne pending
        rcases (Timer.mem_resetTimeTo sound.ordered found).mp (next it pending) with old | new
        · exact old.2 rfl
        · exact ne new.1
      · intro pending y mem ne
        obtain rfl := self e (complete e pending) rfl
        rcases (Timer.mem_resetTimeTo sound.ordered found).mp (next it pending) with old | new
        · exact absurd rfl old.2
        · exact new.2 y mem ne
    · intro keeps x pending
      obtain ⟨other, apart⟩ := keeps it found
      apply (Timer.mem_resetTimeTo sound.ordered found).mpr
      by_cases same : x = e
      · subst same
        obtain rfl := self x (complete x pending) rfl
        exact .inr ⟨rfl, apart pending⟩
      · refine .inl ⟨complete x pending, ?_⟩
        rintro rfl
        exact other same pending

end Reset

section Expiry
variable {s : History} (sound : s.Sound) (now : ℕ)
include sound

theorem sound_getExpiredcbs : (s.apply now .getExpiredcbs).Sound := by
  have same := s.timer.getExpiredcbs_settings now
  have inside : ∀ x ∈ (s.timer.getExpiredcbs now).1.m_timeEvents, x ∈ s.timer.m_timeEvents := by
    intro x mem
    rcases (Timer.mem_getExpiredcbs sound.ordered).mp mem with old | back
    · exact old.1
    · exact back.1.1
  constructor
  · exact sound.ordered.getExpiredcbs
  · intro x mem
    exact same.created ▸ sound.created x (inside x mem)
  · intro x mem
    change x < (s.timer.getExpiredcbs now).1.created
    rw [same.created]
    rcases mem with mem | mem
    · exact sound.past x (.inl mem)
    · rcases List.mem_append.mp mem with mem | mem
      · exact sound.created x ((Timer.mem_expired sound.ordered).mp mem).1
      · exact sound.past x (.inr mem)
  · intro x out
    exact (same.cancled x).trans (sound.uncancelled x out)

theorem complete_getExpiredcbs (complete : s.Complete) :
    (s.apply now .getExpiredcbs).Complete ↔ s.Keeps (.getExpiredcbs, now) := by
  have same := s.timer.getExpiredcbs_settings now
  have pending : ∀ x, (s.apply now .getExpiredcbs).Pending x ↔ s.Pending x ∧
      ((s.timer.event x).m_is_repeated = true ∨ x ∉ s.timer.expired now) := by
    intro x
    change x < (s.timer.getExpiredcbs now).1.created ∧ x ∉ s.cancelled ∧
      (((s.timer.getExpiredcbs now).1.event x).m_is_repeated = true ∨
        x ∉ s.timer.expired now ++ s.consumed) ↔ _
    rw [same.created, same.repeated, List.mem_append]
    unfold Pending
    tauto
  constructor
  · intro next e mem live rep
    obtain ⟨inside, due⟩ := (Timer.mem_expired sound.ordered).mp mem
    rcases (Timer.mem_getExpiredcbs sound.ordered).mp (next e ((pending e).mpr ⟨live, .inl rep⟩))
      with ⟨-, later⟩ | ⟨-, -, free, apart⟩
    · exact absurd due (Nat.not_le_of_lt later)
    · constructor
      · exact fun y memY later time => free ⟨y, ⟨memY, later⟩, time⟩
      · exact fun y memY => apart y ((Timer.mem_expired sound.ordered).mp memY)
  · intro keeps x live
    obtain ⟨live, rest⟩ := (pending x).mp live
    have inside := complete x live
    apply (Timer.mem_getExpiredcbs sound.ordered).mpr
    by_cases due : s.timer.occur x ≤ now
    · have mem := (Timer.mem_expired sound.ordered).mpr ⟨inside, due⟩
      have rep := rest.resolve_right fun out => out mem
      obtain ⟨free, apart⟩ := keeps x mem live rep
      refine .inr ⟨⟨inside, due⟩, ?_, ?_, ?_⟩
      · rw [Timer.rearms, rep, sound.uncancelled x live.2.1]
        rfl
      · rintro ⟨y, ⟨memY, later⟩, time⟩
        exact free y memY later time
      · exact fun y memY => apart y ((Timer.mem_expired sound.ordered).mpr memY)
    · exact .inl ⟨inside, Nat.lt_of_not_le due⟩

end Expiry

theorem sound_apply {s : History} (sound : s.Sound) {call : TimerCall} (known : s.Known call)
    (now : ℕ) : (s.apply now call).Sound := by
  cases call with
  | addTimeEvent interval is_repeated => exact sound_addTimeEvent sound now interval is_repeated
  | stop e =>
    exact sound_flags sound now rfl (fun _ => id) (fun x mem => sound.past x (.inl mem))
      (sound.uncancelled e)
  | wake e =>
    exact sound_flags sound now rfl (fun _ => id) (fun x mem => sound.past x (.inl mem))
      (fun _ => rfl)
  | cancel e =>
    have cancelled : ∀ x ∈ e :: s.cancelled, x < s.timer.created := by
      intro x mem
      rcases List.mem_cons.mp mem with rfl | mem
      · exact known
      · exact sound.past x (.inl mem)
    exact sound_flags sound now rfl (fun _ => List.mem_cons_of_mem e) cancelled
      fun out => absurd List.mem_cons_self out
  | resetTime e => exact sound_resetTimeTo now e _ sound known
  | resetTimeTo e interval => exact sound_resetTimeTo now e interval sound known
  | getExpiredcbs => exact sound_getExpiredcbs sound now

theorem created_apply (s : History) (call : TimerCall) (now : ℕ) :
    s.timer.created ≤ (s.apply now call).timer.created := by
  cases call with
  | addTimeEvent interval is_repeated => exact Nat.le_succ _
  | stop e | wake e | cancel e => exact le_rfl
  | resetTime e => exact (s.timer.created_resetTimeTo now e _).ge
  | resetTimeTo e interval => exact (s.timer.created_resetTimeTo now e interval).ge
  | getExpiredcbs => exact (s.timer.getExpiredcbs_settings now).created.ge

/-- An event that is not repeated stays as it is, in the set or not, when other events are called;
only its expiry takes it from the set. -/
theorem apply_frame {s : History} (sound : s.Sound) {call : TimerCall} {x : ℕ}
    (other : call.on ≠ some x) (known : x < s.timer.created)
    (once : (s.timer.event x).m_is_repeated = false) (now : ℕ) :
    (s.apply now call).timer.event x = s.timer.event x ∧
      (x ∈ (s.apply now call).timer.m_timeEvents → x ∈ s.timer.m_timeEvents) := by
  have apart : ∀ e, call.on = some e → x ≠ e := by
    rintro e on rfl
    exact other on
  have reset : ∀ e interval, x ≠ e →
      (s.timer.resetTimeTo now e interval).event x = s.timer.event x ∧
        (x ∈ (s.timer.resetTimeTo now e interval).m_timeEvents → x ∈ s.timer.m_timeEvents) := by
    intro e interval ne
    refine ⟨s.timer.event_resetTimeTo_ne ne, fun mem => ?_⟩
    cases found : s.timer.find e with
    | none =>
      rw [Timer.resetTimeTo, found] at mem
      exact mem
    | some it =>
      rcases (Timer.mem_resetTimeTo sound.ordered found).mp mem with old | new
      · exact old.1
      · exact absurd new.1 ne
  cases call with
  | addTimeEvent interval is_repeated =>
    have ne : x ≠ s.timer.created := Nat.ne_of_lt known
    constructor
    · change (Timer.event (Timer.insert _ _) _) = _
      rw [Timer.event_insert, Timer.event_set_ne _ _ ne]
    · intro mem
      rcases (mem_addTimeEvent sound now interval is_repeated).mp mem with old | new
      · exact old
      · exact absurd new.1 ne
  | stop e => exact ⟨s.timer.event_set_ne _ (apart e rfl), id⟩
  | wake e => exact ⟨s.timer.event_set_ne _ (apart e rfl), id⟩
  | cancel e => exact ⟨s.timer.event_set_ne _ (apart e rfl), id⟩
  | resetTime e => exact reset e _ (apart e rfl)
  | resetTimeTo e interval => exact reset e interval (apart e rfl)
  | getExpiredcbs =>
    refine ⟨Timer.getExpiredcbs_once once, fun mem => ?_⟩
    rcases (Timer.mem_getExpiredcbs sound.ordered).mp mem with old | back
    · exact old.1
    · exact back.1.1

theorem sound_step {s t : History} {a : TimerCall × ℕ} (sound : s.Sound)
    (next : step s a = some t) : t.Sound := by
  obtain ⟨⟨-, known⟩, rfl⟩ := step_eq_some.mp next
  exact sound_apply sound known a.2

theorem complete_step {s t : History} {a : TimerCall × ℕ} (sound : s.Sound) (complete : s.Complete)
    (next : step s a = some t) : t.Complete ↔ s.Keeps a := by
  obtain ⟨-, rfl⟩ := step_eq_some.mp next
  obtain ⟨call, now⟩ := a
  cases call with
  | addTimeEvent interval is_repeated =>
    exact complete_addTimeEvent sound now interval is_repeated complete
  | stop e => exact iff_of_true (complete_flags complete now rfl fun _ => id) trivial
  | wake e => exact iff_of_true (complete_flags complete now rfl fun _ => id) trivial
  | cancel e =>
    exact iff_of_true (complete_flags complete now rfl fun _ => List.mem_cons_of_mem e) trivial
  | resetTime e => exact complete_resetTimeTo now e _ sound complete
  | resetTimeTo e interval => exact complete_resetTimeTo now e interval sound complete
  | getExpiredcbs => exact complete_getExpiredcbs sound now complete

/-- In a run whose steps all keep the events to come, every one is in the set; and the first step
that does not keep them loses one. -/
theorem pending_events_kept {as : List (TimerCall × ℕ)} {s : History}
    (run : Run step Keeps {} as s) :
    s.Complete ∧ ∀ a t, step s a = some t → (t.Complete ↔ s.Keeps a) := by
  have both : s.Sound ∧ s.Complete := by
    apply run.invariant (P := fun s => s.Sound ∧ s.Complete)
    · refine ⟨sound_initial, ?_⟩
      intro e pending
      cases pending.1
    · rintro t a u ⟨sound, complete⟩ keeps next
      exact ⟨sound_step sound next, (complete_step sound complete next).mpr keeps⟩
  exact ⟨both.2, fun a t next => complete_step both.1 both.2 next⟩

/-- Events of two intervals, one of them repeated, that never meet. -/
def apart : List (TimerCall × ℕ) :=
  [(.addTimeEvent 100 true, 0), (.addTimeEvent 250 false, 7), (.getExpiredcbs, 101),
    (.resetTimeTo 1 300, 105), (.getExpiredcbs, 220)]

theorem pending_events_kept_apart :
    ∃ s, Run step Keeps {} apart s ∧ s.Complete ∧
      ∀ a t, step s a = some t → (t.Complete ↔ s.Keeps a) := by
  have run : Run step Keeps {} apart _ := .of_guarded rfl
  exact ⟨_, run, pending_events_kept run⟩

/-- Two timers of one interval, a millisecond apart, expire in one call: one of them is gone. -/
theorem pending_event_lost : ∃ s, exec step {} [(.addTimeEvent 1000 true, 0),
    (.addTimeEvent 1000 true, 1), (.getExpiredcbs, 1001)] = some s ∧ ¬ s.Complete :=
  ⟨_, rfl, fun complete => absurd (complete 1 (by decide)) (by decide)⟩

end History

end CRpc
