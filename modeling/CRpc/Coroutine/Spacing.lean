import CRpc.Coroutine.Events

/-! How long an event stays away once it is armed, and how long a timer has nothing to give. -/
namespace CRpc.Timer
open Transition

def latest (t : Timer) : Option ℕ := t.m_timeEvents.find? fun e => !(t.event e).m_is_cancled

/-- `~0ull` if there is none. -/
def getLatestTEOccur (t : Timer) (now : ℕ) : ℕ :=
  match t.latest with
  | none => 2 ^ 64 - 1
  | some e => if t.occur e ≤ now then 0 else t.occur e - now

/-- What expires and is not put back, or is not expired, keeps its time. -/
theorem occur_getExpiredcbs {t : Timer} (ordered : t.Ordered) {now e : ℕ}
    (same : e ∉ t.m_timeEvents ∨ now < t.occur e) :
    (t.getExpiredcbs now).1.event e = t.event e := by
  apply rearmAll_event_ne
  rw [mem_expired ordered]
  rintro ⟨mem, le⟩
  rcases same with out | lt
  · exact out mem
  · omega

/-- An event that expires and comes back comes back after its interval. -/
theorem rearmed_occur (now : ℕ) {e : ℕ} {es : List ℕ} (nodup : es.Nodup) (mem : e ∈ es) {t : Timer}
    (rearms : t.rearms e = true) :
    (es.foldl (rearm now) t).occur e = now + (t.event e).m_interval := by
  obtain ⟨before, after, rfl⟩ := List.append_of_mem mem
  have apart := List.nodup_middle.mp nodup
  obtain ⟨out, -⟩ := List.nodup_cons.mp apart
  rw [List.mem_append, not_or] at out
  have same : SameSettings t (before.foldl (rearm now) t) := rearmAll_settings t now before
  rw [List.foldl_append, List.foldl_cons, occur, rearmAll_event_ne out.2]
  rw [rearm, if_pos ((same.rearms e).trans rearms), event_insert, event_set_same, same.interval]

/-- `e` does not occur before `time`. -/
def Away (e time : ℕ) (t : Timer) : Prop := e ∈ t.m_timeEvents → time ≤ t.occur e

/-- `e` was armed at `last`, for `d` or longer. -/
structure Spaced (e d last : ℕ) (t : Timer) : Prop where
  sorted : t.Sorted
  created : e < t.created
  interval : d ≤ (t.event e).m_interval
  away : Away e (last + d) t

/-- The clock has not gone back behind `last`, and `e` is not given a shorter interval than `d`. -/
def Slow (e d last : ℕ) (_ : Timer) (a : EventCall × ℕ) : Prop :=
  last ≤ a.2 ∧ ∀ interval, a.1 = .resetTimeTo e interval → d ≤ interval

section Armed
variable {e d last now : ℕ} {t : Timer}

/-- After `resetTime(interval)` an event is in the set with its new time, or is not in it. -/
theorem away_resetTimeTo (t : Timer) (now e interval : ℕ) :
    Away e (now + interval) (t.resetTimeTo now e interval) := by
  intro mem
  cases found : t.find e with
  | none =>
    rw [resetTimeTo, found] at mem
    have out := List.find?_eq_none.mp found e mem
    simp at out
  | some it => simp [resetTimeTo, found, occur]

theorem interval_resetTimeTo {interval : ℕ} (long : d ≤ (t.event e).m_interval)
    (given : d ≤ interval) : d ≤ ((t.resetTimeTo now e interval).event e).m_interval := by
  unfold resetTimeTo
  split
  · simpa using given
  · exact long

/-- Another event's reset may take `e` out of the set, and does not bring it in. -/
theorem away_resetTimeTo_ne (ordered : t.Ordered) {x interval time : ℕ} (ne : e ≠ x)
    (away : Away e time t) : Away e time (t.resetTimeTo now x interval) := by
  intro mem
  rw [occur, event_resetTimeTo_ne t ne]
  cases found : t.find x with
  | none =>
    rw [resetTimeTo, found] at mem
    exact away mem
  | some it =>
    rcases (mem_resetTimeTo ordered found).mp mem with old | new
    · exact away old.1
    · exact absurd new.1 ne

theorem away_getExpiredcbs (ordered : t.Ordered) (long : d ≤ (t.event e).m_interval)
    (later : last ≤ now) (away : now < t.occur e → Away e (last + d) t) :
    Away e (last + d) (t.getExpiredcbs now).1 := by
  intro mem
  rcases (mem_getExpiredcbs ordered).mp mem with ⟨old, lt⟩ | ⟨⟨old, le⟩, rearms, -⟩
  · rw [occur, occur_getExpiredcbs ordered (.inr lt)]
    exact away lt old
  · have nodup : (t.expired now).Nodup := (expired_sorted ordered).nodup
    have back := rearmed_occur now
      (t := { t with m_timeEvents := t.m_timeEvents.dropWhile fun e => t.occur e ≤ now })
      nodup ((mem_expired ordered).mpr ⟨old, le⟩) rearms
    change last + d ≤ Timer.occur (List.foldl _ _ _) e
    rw [back]
    change last + d ≤ now + (t.event e).m_interval
    omega

theorem Spaced.flag {x : ℕ} {v : TimeEvent} (spaced : Spaced e d last t)
    (time : v.m_occur_time = t.occur x) (interval : v.m_interval = (t.event x).m_interval) :
    Spaced e d last (t.set x v) := by
  refine ⟨spaced.sorted.flag time, spaced.created, ?_, ?_⟩
  · by_cases same : e = x
    · subst same
      rw [event_set_same, interval]
      exact spaced.interval
    · rw [event_set_ne _ _ same]
      exact spaced.interval
  · intro mem
    have was := spaced.away mem
    by_cases same : e = x
    · subst same
      rwa [occur, event_set_same, time]
    · rwa [occur_set_ne _ _ same]

/-- However the timer is used, an armed event does not come sooner. -/
theorem spaced_step {u : Timer} {a : EventCall × ℕ} (spaced : Spaced e d last t)
    (slow : Slow e d last t a) (h : t.step a = some u) : Spaced e d last u := by
  have sorted := spaced.sorted.step h
  obtain ⟨call, now⟩ := a
  obtain ⟨later, given⟩ := slow
  have resets : ∀ {x interval}, (x = e → d ≤ interval) →
      (t.resetTimeTo now x interval).Sorted → Spaced e d last (t.resetTimeTo now x interval) := by
    intro x interval long sorted
    have created : e < (t.resetTimeTo now x interval).created := by
      rw [created_resetTimeTo]
      exact spaced.created
    by_cases same : x = e
    · subst same
      refine ⟨sorted, created, interval_resetTimeTo spaced.interval (long rfl), ?_⟩
      intro mem
      have := away_resetTimeTo t now x interval mem
      have := long rfl
      change last ≤ now at later
      omega
    · refine ⟨sorted, created, ?_, away_resetTimeTo_ne spaced.sorted.ordered (Ne.symm same)
        spaced.away⟩
      rw [event_resetTimeTo_ne t (Ne.symm same)]
      exact spaced.interval
  obtain ⟨-, next⟩ := Option.ite_none_right_eq_some.mp h
  cases next
  cases call with
  | addTimeEvent interval is_repeated =>
    have ne : e ≠ t.created := spaced.created.ne
    refine ⟨sorted, Nat.lt_succ_of_lt spaced.created, ?_, ?_⟩
    · change d ≤ ((Timer.set _ t.created _).event e).m_interval
      rw [event_set_ne _ _ ne]
      exact spaced.interval
    · intro mem
      rcases mem_insert.mp mem with old | new
      · change last + d ≤ (Timer.set _ t.created _).occur e
        rw [occur_set_ne _ _ ne]
        exact spaced.away old
      · exact absurd new.1 ne
  | resetTime x => exact resets (fun same => same ▸ spaced.interval) sorted
  | resetTimeTo x interval => exact resets (fun same => given interval (by rw [same])) sorted
  | wake x | cancel x | stop x | cancleRepeated x | setRepeated x => exact spaced.flag rfl rfl
  | getExpiredcbs =>
    have settings := t.getExpiredcbs_settings now
    refine ⟨sorted, ?_, ?_, ?_⟩
    · exact settings.created ▸ spaced.created
    · exact (settings.interval e).symm ▸ spaced.interval
    · exact away_getExpiredcbs spaced.sorted.ordered spaced.interval later fun _ => spaced.away

end Armed

/-- The calls that set the time an event occurs at: its making, its resets, its expiry. -/
inductive Arms (t : Timer) (now : ℕ) : EventCall → ℕ → Prop
  | add (interval : ℕ) (is_repeated : Bool) :
      Arms t now (.addTimeEvent interval is_repeated) t.created
  | reset (e : ℕ) : Arms t now (.resetTime e) e
  | resetTo (e interval : ℕ) : Arms t now (.resetTimeTo e interval) e
  | expire {e : ℕ} (given : e ∈ (t.getExpiredcbs now).2) : Arms t now .getExpiredcbs e

theorem spaced_of_arms {s t : Timer} {call : EventCall} {e d last : ℕ} (sorted : s.Sorted)
    (arms : Arms s last call e) (h : s.step (call, last) = some t)
    (long : d ≤ (t.event e).m_interval) : Spaced e d last t := by
  have sorted' := sorted.step h
  obtain ⟨known, next⟩ := Option.ite_none_right_eq_some.mp h
  cases next
  cases arms with
  | add interval is_repeated =>
    have occurs : (s.addTimeEvent last interval is_repeated).event s.created =
        { m_occur_time := last + interval, m_interval := interval, m_is_repeated := is_repeated } :=
      event_set_same _ s.created _
    refine ⟨sorted', Nat.lt_succ_self _, long, fun _ => ?_⟩
    simp only [called, occurs] at long
    change last + d ≤ ((s.addTimeEvent last interval is_repeated).event s.created).m_occur_time
    rw [occurs]
    exact Nat.add_le_add_left long last
  | reset =>
    refine ⟨sorted', ?_, long, fun mem => ?_⟩
    · change e < (s.resetTimeTo last e _).created
      rw [created_resetTimeTo]
      exact known e rfl
    · have same : ((s.resetTime last e).event e).m_interval = (s.event e).m_interval :=
        interval_resetTime s last e e
      have after := away_resetTimeTo s last e (s.event e).m_interval mem
      change d ≤ ((s.resetTime last e).event e).m_interval at long
      rw [same] at long
      exact (Nat.add_le_add_left long last).trans after
  | resetTo _ interval =>
    refine ⟨sorted', ?_, long, fun mem => ?_⟩
    · change e < (s.resetTimeTo last e _).created
      rw [created_resetTimeTo]
      exact known e rfl
    · have after := away_resetTimeTo s last e interval mem
      have same : ((s.resetTimeTo last e interval).event e).m_interval = interval := by
        cases found : s.find e with
        | none =>
          rw [called, resetTimeTo, found] at mem
          have out := List.find?_eq_none.mp found e mem
          simp at out
        | some it => simp [resetTimeTo, found]
      change d ≤ ((s.resetTimeTo last e interval).event e).m_interval at long
      rw [same] at long
      exact (Nat.add_le_add_left long last).trans after
  | expire given =>
    obtain ⟨mem, le⟩ := (mem_expired sorted.ordered).mp (List.mem_of_mem_filter given)
    have settings := s.getExpiredcbs_settings last
    have long' : d ≤ (s.event e).m_interval := settings.interval e ▸ long
    refine ⟨sorted', settings.created ▸ sorted.created e mem, long, ?_⟩
    exact away_getExpiredcbs sorted.ordered long' le_rfl fun lt => absurd le (Nat.not_le_of_lt lt)

/-- No sum of a time and an interval that the call makes wraps around in a `uint64_t`. -/
def Fits (t : Timer) (a : EventCall × ℕ) : Prop :=
  match a.1 with
  | .addTimeEvent interval _ | .resetTimeTo _ interval => a.2 + interval < 2 ^ 64
  | .resetTime e => a.2 + (t.event e).m_interval < 2 ^ 64
  | .getExpiredcbs => ∀ e ∈ t.expired a.2, a.2 + (t.event e).m_interval < 2 ^ 64
  | .wake _ | .cancel _ | .stop _ | .cancleRepeated _ | .setRepeated _ => True

/-- Every time is one that a `uint64_t` holds. -/
def Bounded (t : Timer) : Prop := ∀ e, t.occur e < 2 ^ 64

theorem Bounded.set {t : Timer} (bounded : Bounded t) {x : ℕ} {v : TimeEvent}
    (small : v.m_occur_time < 2 ^ 64) : Bounded (t.set x v) := by
  intro e
  by_cases same : e = x
  · subst same
    rwa [occur, event_set_same]
  · rw [occur_set_ne _ _ same]
    exact bounded e

theorem Bounded.reset {t : Timer} (bounded : Bounded t) {now x interval : ℕ}
    (small : now + interval < 2 ^ 64) : Bounded (t.resetTimeTo now x interval) := by
  unfold resetTimeTo
  split
  · exact Bounded.set (t := { t with m_timeEvents := _ }) bounded small
  · exact bounded

theorem Bounded.rearmAll {now : ℕ} {es : List ℕ} : ∀ {t : Timer}, Bounded t →
    (∀ e ∈ es, now + (t.event e).m_interval < 2 ^ 64) → Bounded (es.foldl (rearm now) t) := by
  induction es with
  | nil => exact fun bounded _ => bounded
  | cons x es ih =>
    intro t bounded fits
    obtain ⟨small, others⟩ := List.forall_mem_cons.mp fits
    have next : Bounded (rearm now t x) := by
      unfold rearm
      split
      · exact Bounded.set bounded small
      · exact bounded
    apply ih next
    intro e mem
    rw [(rearm_settings x).interval]
    exact others e mem

/-- While no sum wraps around, the times are those of the source. -/
theorem bounded_step {t u : Timer} {a : EventCall × ℕ} (bounded : Bounded t) (fits : Fits t a)
    (h : t.step a = some u) : Bounded u := by
  obtain ⟨call, now⟩ := a
  obtain ⟨-, next⟩ := Option.ite_none_right_eq_some.mp h
  cases next
  cases call with
  | addTimeEvent interval is_repeated =>
    exact Bounded.set (t := { t with created := t.created + 1 }) bounded fits
  | resetTime x | resetTimeTo x interval => exact bounded.reset fits
  | wake x | cancel x | stop x | cancleRepeated x | setRepeated x => exact bounded.set (bounded x)
  | getExpiredcbs =>
    exact Bounded.rearmAll
      (t := { t with m_timeEvents := t.m_timeEvents.dropWhile fun e => t.occur e ≤ now })
      bounded fits

/-- From its making, its last reset or its last expiry on, an event's callback is not given before
its interval is over, whatever is done with the timer, as long as no time wraps around in the
source's `uint64_t`. -/
theorem given_after_interval {as bs : List (EventCall × ℕ)} {s t u : Timer} {call : EventCall}
    {e d last now : ℕ} (before : Run Timer.step Fits {} as s) (arms : Arms s last call e)
    (next : s.step (call, last) = some t) (fits : Fits s (call, last))
    (long : d ≤ (t.event e).m_interval)
    (run : Run Timer.step (fun t a => Slow e d last t a ∧ Fits t a) t bs u)
    (given : e ∈ (u.getExpiredcbs now).2) : last + d ≤ now ∧ Bounded u := by
  have sorted := Sorted.of_run (before.mono fun _ _ _ => trivial)
  have bounded : Bounded s := before.invariant (fun _ => Nat.two_pow_pos 64)
    fun _ _ _ bounded fits next => bounded_step bounded fits next
  have armed := spaced_of_arms sorted arms next long
  have spaced : Spaced e d last u :=
    run.invariant armed fun _ _ _ spaced slow next => spaced_step spaced slow.1 next
  obtain ⟨mem, le⟩ := (mem_expired spaced.sorted.ordered).mp (List.mem_of_mem_filter given)
  refine ⟨(spaced.away mem).trans le, ?_⟩
  exact run.invariant (bounded_step bounded fits next)
    fun _ _ _ bounded slow next => bounded_step bounded slow.2 next

/-- A repeated event of 5 milliseconds, given at 7, is given at 12 and not sooner. -/
theorem repeated_spaced : ∃ s t u : Timer, Run Timer.step Fits {} [(.addTimeEvent 5 true, 0)] s ∧
    s.step (.getExpiredcbs, 7) = some t ∧
    Run Timer.step (fun t a => Slow 0 5 7 t a ∧ Fits t a) t [(.stop 0, 8), (.wake 0, 9)] u ∧
    0 ∈ (u.getExpiredcbs 12).2 ∧ 7 + 5 ≤ 12 := by
  let s : Timer := Timer.addTimeEvent {} 0 5 true
  let t : Timer := (s.getExpiredcbs 7).1
  let u : Timer := (t.stop 0).wake 0
  have small : Fits {} (.addTimeEvent 5 true, 0) := by
    change 0 + 5 < 2 ^ 64
    decide
  have before : Run Timer.step Fits {} [(.addTimeEvent 5 true, 0)] s :=
    Run.single small (if_pos (by simp [EventCall.on]))
  have next : s.step (.getExpiredcbs, 7) = some t := if_pos (by simp [EventCall.on])
  have stops : t.step (.stop 0, 8) = some (t.stop 0) := if_pos (by decide)
  have wakes : (t.stop 0).step (.wake 0, 9) = some u := if_pos (by decide)
  have slow : ∀ v, Slow 0 5 7 v (.stop 0, 8) ∧ Slow 0 5 7 v (.wake 0, 9) := fun v =>
    ⟨⟨by decide, nofun⟩, ⟨by decide, nofun⟩⟩
  have run : Run Timer.step (fun t a => Slow 0 5 7 t a ∧ Fits t a) t
      [(.stop 0, 8), (.wake 0, 9)] u :=
    (Run.single ⟨(slow t).1, trivial⟩ stops).snoc ⟨(slow _).2, trivial⟩ wakes
  have given : 0 ∈ (u.getExpiredcbs 12).2 := by decide
  have fits : Fits s (.getExpiredcbs, 7) := by
    change ∀ e ∈ s.expired 7, 7 + (s.event e).m_interval < 2 ^ 64
    decide
  refine ⟨s, t, u, before, next, run, given, ?_⟩
  exact (given_after_interval before (.expire (by decide)) next fits (by decide) run given).1

/-- Calls that bring no event nearer, at times from `now` on and before `limit`. -/
def Calm (now limit : ℕ) (_ : Timer) (a : EventCall × ℕ) : Prop :=
  (match a.1 with
    | .cancel _ | .stop _ | .cancleRepeated _ | .setRepeated _ | .getExpiredcbs => True
    | .addTimeEvent .. | .resetTime _ | .resetTimeTo .. | .wake _ => False) ∧
  now ≤ a.2 ∧ a.2 < limit

/-- What is not cancelled occurs at `limit` or later. -/
structure Idle (limit : ℕ) (t : Timer) : Prop where
  sorted : t.Sorted
  later : ∀ e ∈ t.m_timeEvents, (t.event e).m_is_cancled = false → limit ≤ t.occur e

theorem Idle.none {limit time : ℕ} {t : Timer} (idle : Idle limit t) (before : time < limit) :
    (t.getExpiredcbs time).2 = [] := by
  rw [List.eq_nil_iff_forall_not_mem]
  intro e given
  obtain ⟨mem, le⟩ := (mem_expired idle.sorted.ordered).mp (List.mem_of_mem_filter given)
  have := idle.later e mem (uncancled_of_mem given)
  omega

theorem Idle.flag {limit x : ℕ} {t : Timer} {v : TimeEvent} (idle : Idle limit t)
    (time : v.m_occur_time = t.occur x)
    (cancled : v.m_is_cancled = false → (t.event x).m_is_cancled = false) :
    Idle limit (t.set x v) := by
  refine ⟨idle.sorted.flag time, fun e mem live => ?_⟩
  by_cases same : e = x
  · subst same
    rw [event_set_same] at live
    rw [occur, event_set_same, time]
    exact idle.later e mem (cancled live)
  · rw [event_set_ne _ _ same] at live
    rw [occur_set_ne _ _ same]
    exact idle.later e mem live

theorem idle_step {now limit : ℕ} {t u : Timer} {a : EventCall × ℕ} (idle : Idle limit t)
    (calm : Calm now limit t a) (h : t.step a = some u) : Idle limit u := by
  have sorted := idle.sorted.step h
  obtain ⟨call, time⟩ := a
  obtain ⟨quiet, -, before⟩ := calm
  obtain ⟨-, next⟩ := Option.ite_none_right_eq_some.mp h
  cases next
  cases call with
  | addTimeEvent | resetTime | resetTimeTo | wake => exact quiet.elim
  | cancel x => exact idle.flag rfl nofun
  | stop x | cancleRepeated x | setRepeated x => exact idle.flag rfl id
  | getExpiredcbs =>
    refine ⟨sorted, fun e mem live => ?_⟩
    change time < limit at before
    have live : (t.event e).m_is_cancled = false :=
      ((t.getExpiredcbs_settings time).cancled e).symm.trans live
    rcases (mem_getExpiredcbs idle.sorted.ordered).mp mem with ⟨old, lt⟩ | ⟨⟨old, le⟩, -⟩
    · change limit ≤ (t.getExpiredcbs time).1.occur e
      rw [occur, occur_getExpiredcbs idle.sorted.ordered (.inr lt)]
      exact idle.later e old live
    · have := idle.later e old live
      omega

theorem idle_latest {t : Timer} (sorted : t.Sorted) {now : ℕ}
    (ahead : 0 < t.getLatestTEOccur now) : Idle (now + t.getLatestTEOccur now) t := by
  refine ⟨sorted, fun e mem live => ?_⟩
  cases first : t.latest with
  | none =>
    have cancled := List.find?_eq_none.mp first e mem
    simp [live] at cancled
  | some x =>
    obtain ⟨live', before, after, split, cancled⟩ := List.find?_eq_some_iff_append.mp first
    have time : now + t.getLatestTEOccur now = t.occur x := by
      rw [getLatestTEOccur, first] at ahead ⊢
      simp only at ahead ⊢
      split_ifs at ahead ⊢ <;> omega
    rw [time]
    rw [split, List.mem_append, List.mem_cons] at mem
    have ordered : t.Ordered := sorted.ordered
    rw [Ordered, split] at ordered
    rcases mem with early | rfl | late
    · have := cancled e early
      simp [live] at this
    · exact le_rfl
    · exact (List.rel_of_pairwise_cons (List.pairwise_append.mp ordered).2.1 late).le

/-- Until `getLatestTEOccur` is over the timer has no callback to give, as long as nobody adds,
resets or wakes an event; and then it has one, unless the event has been stopped. -/
theorem latest_exact {as : List (EventCall × ℕ)} {t : Timer} (now : ℕ)
    (before : Run Timer.step Always {} as t) :
    (∀ bs u, Run Timer.step (Calm now (now + t.getLatestTEOccur now)) t bs u → ∀ time, now ≤ time →
      time < now + t.getLatestTEOccur now → (u.getExpiredcbs time).2 = []) ∧
    (∀ e, t.latest = some e → (e ∈ (t.getExpiredcbs (now + t.getLatestTEOccur now)).2 ↔
      (t.event e).m_is_stoped = false)) ∧
    (t.latest = none → ∀ time, (t.getExpiredcbs time).2 = []) := by
  have sorted := Sorted.of_run before
  refine ⟨?_, ?_, ?_⟩
  · intro bs u run time after lt
    have idle : Idle (now + t.getLatestTEOccur now) u :=
      run.invariant (idle_latest sorted (by omega)) fun _ _ _ idle calm next =>
        idle_step idle calm next
    exact idle.none lt
  · intro e first
    have live : (t.event e).m_is_cancled = false := by simpa using List.find?_some first
    have mem : e ∈ t.expired (now + t.getLatestTEOccur now) := by
      rw [mem_expired sorted.ordered]
      refine ⟨List.mem_of_find?_eq_some first, ?_⟩
      rw [getLatestTEOccur, first]
      simp only
      split_ifs <;> omega
    rw [getExpiredcbs, List.mem_filter]
    simp [mem, live]
  · intro none time
    have idle : Idle (time + 1) t := by
      refine ⟨sorted, fun e mem live => ?_⟩
      have cancled := List.find?_eq_none.mp none e mem
      simp [live] at cancled
    exact idle.none (Nat.lt_succ_self time)

/-- An event at 5 behind a cancelled one at 3: at 2 there are 3 milliseconds left. -/
theorem cancelled_passed_over : ∃ t : Timer,
    Run Timer.step Always {}
      [(.addTimeEvent 5 false, 0), (.addTimeEvent 3 false, 0), (.cancel 1, 1)] t ∧
    t.getLatestTEOccur 2 = 3 ∧ (t.getExpiredcbs 4).2 = [] ∧ 0 ∈ (t.getExpiredcbs 5).2 := by
  have done : (exec Timer.step {}
      [(.addTimeEvent 5 false, 0), (.addTimeEvent 3 false, 0), (.cancel 1, 1)]).map (fun t =>
        (t.getLatestTEOccur 2, t.latest, (t.event 0).m_is_stoped)) = some (3, some 0, false) := by
    decide
  obtain ⟨t, run, known⟩ := Option.map_eq_some_iff.mp done
  obtain ⟨wait, known⟩ := Prod.mk.inj known
  obtain ⟨first, goes⟩ := Prod.mk.inj known
  have exact_ := latest_exact 2 (Run.of_exec run)
  rw [wait] at exact_
  exact ⟨t, Run.of_exec run, wait, exact_.1 [] t .refl 4 (by decide) (by decide),
    (exact_.2.1 0 first).mpr goes⟩

end CRpc.Timer
