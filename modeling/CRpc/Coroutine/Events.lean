import CRpc.Coroutine.Timer
import CRpc.Lib.Runs

/-! Which events expiry takes and which a reset moves, after any calls on the timer's events. -/
namespace CRpc
open Transition

inductive EventCall
  | addTimeEvent (interval : ℕ) (is_repeated : Bool)
  | resetTime (e : ℕ)
  | resetTimeTo (e interval : ℕ)
  | wake (e : ℕ)
  | cancel (e : ℕ)
  | stop (e : ℕ)
  | cancleRepeated (e : ℕ)
  | setRepeated (e : ℕ)
  | getExpiredcbs
  deriving DecidableEq

def EventCall.on : EventCall → Option ℕ
  | resetTime e | resetTimeTo e _ | wake e | cancel e | stop e | cancleRepeated e
  | setRepeated e => some e
  | addTimeEvent .. | getExpiredcbs => none

namespace Timer

def called (t : Timer) (now : ℕ) : EventCall → Timer
  | .addTimeEvent interval is_repeated => t.addTimeEvent now interval is_repeated
  | .resetTime e => t.resetTime now e
  | .resetTimeTo e interval => t.resetTimeTo now e interval
  | .wake e => t.wake e
  | .cancel e => t.cancel e
  | .stop e => t.stop e
  | .cancleRepeated e => t.cancleRepeated e
  | .setRepeated e => t.setRepeated e
  | .getExpiredcbs => (t.getExpiredcbs now).1

/-- A call on an event that exists, and the time the clock shows at it: the clock of the system
may be set back. -/
def step (t : Timer) (a : EventCall × ℕ) : Option Timer :=
  if ∀ e ∈ a.1.on, e < t.created then some (t.called a.2 a.1) else none

structure Sorted (t : Timer) : Prop where
  ordered : t.Ordered
  created : ∀ e ∈ t.m_timeEvents, e < t.created

theorem sorted_initial : Sorted {} := by
  constructor
  · exact .nil
  · intro e mem
    cases mem

theorem Sorted.addTimeEvent {t : Timer} (sorted : t.Sorted) (now interval : ℕ)
    (is_repeated : Bool) : (t.addTimeEvent now interval is_repeated).Sorted := by
  have out : t.created ∉ t.m_timeEvents := fun mem => Nat.lt_irrefl _ (sorted.created _ mem)
  have next : Ordered { t with created := t.created + 1 } := sorted.ordered
  constructor
  · exact (next.set _ out).insert t.created
  · intro e mem
    change e < t.created + 1
    rcases mem_insert.mp mem with old | ⟨rfl, -⟩
    · exact Nat.lt_succ_of_lt (sorted.created e old)
    · exact Nat.lt_succ_self _

theorem Sorted.flag {t : Timer} (sorted : t.Sorted) {e : ℕ} {v : TimeEvent}
    (time : v.m_occur_time = t.occur e) : (t.set e v).Sorted := by
  have times : ∀ x, (t.set e v).occur x = t.occur x := by
    intro x
    by_cases same : x = e
    · subst same
      rw [occur, event_set_same, time]
    · exact t.occur_set_ne v same
  constructor
  · apply List.Pairwise.imp _ sorted.ordered
    intro a b lt
    rwa [times, times]
  · exact sorted.created

theorem Sorted.resetTimeTo {t : Timer} (sorted : t.Sorted) {e : ℕ} (known : e < t.created)
    (now interval : ℕ) : (t.resetTimeTo now e interval).Sorted := by
  constructor
  · exact sorted.ordered.resetTimeTo now e interval
  · intro x mem
    rw [created_resetTimeTo]
    cases found : t.find e with
    | none =>
      rw [Timer.resetTimeTo, found] at mem
      exact sorted.created x mem
    | some it =>
      rcases (mem_resetTimeTo sorted.ordered found).mp mem with ⟨old, -⟩ | ⟨rfl, -⟩
      · exact sorted.created x old
      · exact known

theorem Sorted.getExpiredcbs {t : Timer} (sorted : t.Sorted) (now : ℕ) :
    (t.getExpiredcbs now).1.Sorted := by
  constructor
  · exact sorted.ordered.getExpiredcbs
  · intro x mem
    rw [(t.getExpiredcbs_settings now).created]
    rcases (mem_getExpiredcbs sorted.ordered).mp mem with old | back
    · exact sorted.created x old.1
    · exact sorted.created x back.1.1

theorem Sorted.step {t u : Timer} {a : EventCall × ℕ} (sorted : t.Sorted)
    (next : t.step a = some u) : u.Sorted := by
  obtain ⟨call, now⟩ := a
  obtain ⟨known, same⟩ := Option.ite_none_right_eq_some.mp next
  cases same
  cases call with
  | addTimeEvent interval is_repeated => exact sorted.addTimeEvent now interval is_repeated
  | resetTime e => exact sorted.resetTimeTo (known e rfl) now _
  | resetTimeTo e interval => exact sorted.resetTimeTo (known e rfl) now interval
  | wake e | cancel e | stop e | cancleRepeated e | setRepeated e => exact sorted.flag rfl
  | getExpiredcbs => exact sorted.getExpiredcbs now

theorem Sorted.of_run {as : List (EventCall × ℕ)} {t : Timer}
    (run : Run Timer.step Always {} as t) : t.Sorted :=
  run.invariant sorted_initial fun _ _ _ sorted _ next => sorted.step next

theorem rearmAll_event_ne {now x : ℕ} {es : List ℕ} (out : x ∉ es) (t : Timer) :
    (es.foldl (rearm now) t).event x = t.event x := by
  induction es generalizing t with
  | nil => rfl
  | cons e es ih =>
    obtain ⟨ne, out⟩ := not_or.mp fun h => out (List.mem_cons.mpr h)
    have first : (rearm now t e).event x = t.event x := by
      unfold rearm
      split
      · rw [event_insert, event_set_ne _ _ ne]
      · rfl
    exact (ih out (rearm now t e)).trans first

/-- What `getExpiredcbs` owes at a time: callbacks for the events that are due and for no other,
and the rest of the set as it was. -/
structure ExactExpiry (t : Timer) (now : ℕ) : Prop where
  taken : ∀ e, e ∈ (t.getExpiredcbs now).2 ↔
    (e ∈ t.m_timeEvents ∧ t.occur e ≤ now) ∧
      (t.event e).m_is_cancled = false ∧ (t.event e).m_is_stoped = false
  once : (t.getExpiredcbs now).2.Nodup
  increasing : (t.getExpiredcbs now).2.Pairwise fun a b => t.occur a < t.occur b
  later : ∀ e ∈ t.m_timeEvents, now < t.occur e →
    e ∈ (t.getExpiredcbs now).1.m_timeEvents ∧ (t.getExpiredcbs now).1.occur e = t.occur e
  removed : ∀ e ∈ t.m_timeEvents, t.occur e ≤ now →
    (t.event e).m_is_repeated = false ∨ (t.event e).m_is_cancled = true →
      e ∉ (t.getExpiredcbs now).1.m_timeEvents

theorem exactExpiry_of_ordered {t : Timer} (ordered : t.Ordered) (now : ℕ) :
    t.ExactExpiry now := by
  have increasing : (t.getExpiredcbs now).2.Pairwise fun a b => t.occur a < t.occur b :=
    (expired_sorted ordered).sublist List.filter_sublist
  constructor
  · intro e
    rw [getExpiredcbs, List.mem_filter, mem_expired ordered, Bool.and_eq_true, Bool.not_eq_true',
      Bool.not_eq_true']
  · exact increasing.imp fun lt eq => Nat.ne_of_lt lt (congrArg t.occur eq)
  · exact increasing
  · intro e mem lt
    have out : e ∉ t.expired now := by
      rw [mem_expired ordered]
      exact fun h => Nat.not_le_of_lt lt h.2
    refine ⟨(mem_getExpiredcbs ordered).mpr (.inl ⟨mem, lt⟩), ?_⟩
    exact congrArg TimeEvent.m_occur_time (rearmAll_event_ne out _)
  · intro e mem due past mem'
    rcases (mem_getExpiredcbs ordered).mp mem' with later | ⟨-, rearms, -⟩
    · exact Nat.not_le_of_lt later.2 due
    · rw [Timer.rearms, Bool.and_eq_true, Bool.not_eq_true'] at rearms
      rcases past with once | cancelled
      · exact Bool.false_ne_true (once.symm.trans rearms.1)
      · exact Bool.false_ne_true (rearms.2.symm.trans cancelled)

/-- Whatever was called before, the set is in order and expiry is exact. -/
theorem expiry_exact {as : List (EventCall × ℕ)} {t : Timer} (run : Run step Always {} as t) :
    t.Ordered ∧ ∀ now, t.ExactExpiry now :=
  ⟨(Sorted.of_run run).ordered, exactExpiry_of_ordered (Sorted.of_run run).ordered⟩

/-- One event is cancelled and one stopped, one comes round again, and the clock is set back. -/
def mixed : List (EventCall × ℕ) :=
  [(.addTimeEvent 100 true, 50), (.addTimeEvent 100 false, 20), (.addTimeEvent 70 false, 30),
    (.cancel 1, 40), (.stop 0, 60), (.cancleRepeated 0, 70), (.setRepeated 0, 80),
    (.resetTime 2, 90), (.getExpiredcbs, 155), (.wake 0, 156), (.resetTimeTo 2 30, 157)]

theorem expiry_exact_mixed : ∃ t, Run step Always {} mixed t ∧
    t.m_timeEvents = [2, 0] ∧ t.Ordered ∧ ∀ now, t.ExactExpiry now := by
  have run : Run step Always {} mixed _ := .of_exec rfl
  exact ⟨_, run, by decide, expiry_exact run⟩

section Reset
variable (t : Timer) (now e interval : ℕ)

/-- What `resetTime` returns: whether it found an event. -/
def resets : Bool := (t.find e).isSome

/-- A reset that leads to `u` owes this: it says whether the event was in the set, moves it and
leaves every other event. -/
structure OwnReset (u : Timer) : Prop where
  answer : t.resets e = true ↔ e ∈ t.m_timeEvents
  moved : t.resets e = true → e ∈ u.m_timeEvents ∧ u.occur e = now + interval
  others : ∀ x ∈ t.m_timeEvents, x ≠ e → x ∈ u.m_timeEvents ∧ u.occur x = t.occur x

/-- No other event of the set is at a time of this one's: the new time if it is in the set, and
otherwise the time it had. -/
def Alone : Prop :=
  (e ∈ t.m_timeEvents → ∀ x ∈ t.m_timeEvents, x ≠ e → t.occur x ≠ now + interval) ∧
    (e ∉ t.m_timeEvents → ∀ x ∈ t.m_timeEvents, t.occur x ≠ t.occur e)

instance : Decidable (t.Alone now e interval) :=
  inferInstanceAs (Decidable (_ ∧ _))

end Reset

section Reset
variable {t : Timer} {now e interval : ℕ}

theorem resets_iff : t.resets e = true ↔ ∃ x ∈ t.m_timeEvents, t.occur x = t.occur e := by
  rw [resets, find, List.find?_isSome]
  simp only [decide_eq_true_eq]

theorem ownReset_iff (ordered : t.Ordered) :
    t.OwnReset now e interval (t.resetTimeTo now e interval) ↔ t.Alone now e interval := by
  by_cases mem : e ∈ t.m_timeEvents
  · rw [Alone, and_iff_left fun out => absurd mem out, forall_prop_of_true mem]
    have found : t.find e = some e := by
      obtain ⟨it, found⟩ := Option.isSome_iff_exists.mp (resets_iff.mpr ⟨e, mem, rfl⟩)
      exact find_self ordered mem found ▸ found
    have yes : t.resets e = true := by rw [resets, found]; rfl
    constructor
    · intro own
      rcases (mem_resetTimeTo ordered found).mp (own.moved yes).1 with old | new
      · exact absurd rfl old.2
      · exact new.2
    · intro alone
      constructor
      · exact iff_of_true yes mem
      · intro _
        refine ⟨(mem_resetTimeTo ordered found).mpr (.inr ⟨rfl, alone⟩), ?_⟩
        rw [resetTimeTo, found]
        simp [occur]
      · intro x inside ne
        refine ⟨(mem_resetTimeTo ordered found).mpr (.inl ⟨inside, ne⟩), ?_⟩
        exact congrArg TimeEvent.m_occur_time (event_resetTimeTo_ne t ne)
  · rw [Alone, and_iff_right fun inside => absurd inside mem, forall_prop_of_true mem]
    constructor
    · intro own x inside same
      exact mem (own.answer.mp (resets_iff.mpr ⟨x, inside, same⟩))
    · intro alone
      have no : ¬ t.resets e = true := by
        rw [resets_iff]
        rintro ⟨x, inside, same⟩
        exact alone x inside same
      have none : t.find e = none := by
        rwa [resets, Option.isSome_iff_ne_none, not_not] at no
      have still : t.resetTimeTo now e interval = t := by rw [resetTimeTo, none]
      rw [still]
      exact ⟨iff_of_false no mem, fun yes => absurd yes no, fun x inside _ => ⟨inside, rfl⟩⟩

end Reset

/-- A reset keeps to its own event exactly when it is alone at its times. -/
theorem reset_own {as : List (EventCall × ℕ)} {t : Timer} (run : Run step Always {} as t)
    (now e : ℕ) :
    (t.OwnReset now e (t.event e).m_interval (t.resetTime now e) ↔
      t.Alone now e (t.event e).m_interval) ∧
    ∀ interval, t.OwnReset now e interval (t.resetTimeTo now e interval) ↔
      t.Alone now e interval :=
  have ordered := (Sorted.of_run run).ordered
  ⟨ownReset_iff ordered, fun _ => ownReset_iff ordered⟩

theorem reset_own_mixed : ∃ t, Run step Always {} mixed t ∧
    (t.OwnReset 160 0 (t.event 0).m_interval (t.resetTime 160 0) ↔
      t.Alone 160 0 (t.event 0).m_interval) ∧
    t.OwnReset 160 2 30 (t.resetTimeTo 160 2 30) := by
  have run : Run step Always {} mixed _ := .of_exec rfl
  have own := reset_own run 160
  exact ⟨_, run, (own 0).1, ((own 2).2 30).mpr (by decide)⟩

/-- A repeated event whose next time is taken leaves the set when it fires. Its reset finds the
other event, and takes it away. -/
theorem reset_takes_other : ∃ t, exec step {} [(.addTimeEvent 100 true, 0),
      (.addTimeEvent 200 false, 0), (.getExpiredcbs, 100)] = some t ∧
    0 ∉ t.m_timeEvents ∧ t.resets 0 = true ∧ 1 ∈ t.m_timeEvents ∧
    1 ∉ (t.resetTime 150 0).m_timeEvents ∧
    ¬ t.OwnReset 150 0 (t.event 0).m_interval (t.resetTime 150 0) := by
  refine ⟨_, rfl, by decide, by decide, by decide, by decide, ?_⟩
  intro own
  exact absurd (own.answer.mp (by decide)) (by decide)

end Timer

end CRpc
