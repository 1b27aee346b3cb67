import CRpc.Lib.Placements
import Mathlib.Data.List.Induction
import Mathlib.Data.List.Nodup
import Mathlib.Data.Nat.Basic
import Mathlib.Logic.Function.Basic

/-! `timer.h`: events in the order of the times they occur at. -/
namespace CRpc
open Placements

/-- `TimeEvent`. Times are milliseconds that do not wrap. -/
structure TimeEvent where
  m_occur_time : ℕ
  m_interval : ℕ
  m_is_repeated : Bool := false
  m_is_cancled : Bool := false
  m_is_stoped : Bool := false

/-- `Timer`, and the events created so far; an event and its callback are known by number. -/
structure Timer where
  created : ℕ := 0
  event : ℕ → TimeEvent := fun _ => { m_occur_time := 0, m_interval := 0 }
  m_timeEvents : List ℕ := []

namespace Timer

def occur (t : Timer) (e : ℕ) : ℕ := (t.event e).m_occur_time

/-- `TimeEvent::Compare` looks at the times alone: a set keeps one event for each. -/
def insert (t : Timer) (e : ℕ) : Timer :=
  { t with m_timeEvents := (Placing.byKey t.occur).place e t.m_timeEvents }

/-- An event of the same time, whichever it is. -/
def find (t : Timer) (e : ℕ) : Option ℕ := t.m_timeEvents.find? fun x => t.occur x = t.occur e

def set (t : Timer) (e : ℕ) (event : TimeEvent) : Timer :=
  { t with event := Function.update t.event e event }

def addTimeEvent (t : Timer) (now interval : ℕ) (is_repeated : Bool) : Timer :=
  ({ t with created := t.created + 1 }.set t.created
    { m_occur_time := now + interval, m_interval := interval, m_is_repeated := is_repeated }).insert
    t.created

/-- `resetTime(interval)`. -/
def resetTimeTo (t : Timer) (now e interval : ℕ) : Timer :=
  match t.find e with
  | some it => ({ t with m_timeEvents := t.m_timeEvents.erase it }.set e
      { t.event e with
        m_occur_time := now + interval, m_interval := interval, m_is_cancled := false }).insert e
  | none => t

def resetTime (t : Timer) (now e : ℕ) : Timer := t.resetTimeTo now e (t.event e).m_interval

def wake (t : Timer) (e : ℕ) : Timer :=
  t.set e { t.event e with m_is_cancled := false, m_is_stoped := false }

def cancel (t : Timer) (e : ℕ) : Timer := t.set e { t.event e with m_is_cancled := true }

def stop (t : Timer) (e : ℕ) : Timer := t.set e { t.event e with m_is_stoped := true }

def cancleRepeated (t : Timer) (e : ℕ) : Timer := t.set e { t.event e with m_is_repeated := false }

def setRepeated (t : Timer) (e : ℕ) : Timer := t.set e { t.event e with m_is_repeated := true }

def expired (t : Timer) (now : ℕ) : List ℕ := t.m_timeEvents.takeWhile fun e => t.occur e ≤ now

/-- Whether `getExpiredcbs` puts an expired event back. -/
def rearms (t : Timer) (e : ℕ) : Bool := (t.event e).m_is_repeated && !(t.event e).m_is_cancled

def rearm (now : ℕ) (t : Timer) (e : ℕ) : Timer :=
  if t.rearms e then
    (t.set e { t.event e with m_occur_time := now + (t.event e).m_interval }).insert e
  else t

/-- `getExpiredcbs`, with the callbacks it gives. -/
def getExpiredcbs (t : Timer) (now : ℕ) : Timer × List ℕ :=
  let cbs := (t.expired now).filter fun e =>
    !(t.event e).m_is_cancled && !(t.event e).m_is_stoped
  let rest := t.m_timeEvents.dropWhile fun e => t.occur e ≤ now
  ((t.expired now).foldl (rearm now) { t with m_timeEvents := rest }, cbs)

@[simp] theorem event_insert (t : Timer) (e : ℕ) : (t.insert e).event = t.event := rfl

@[simp] theorem created_insert (t : Timer) (e : ℕ) : (t.insert e).created = t.created := rfl

@[simp] theorem occur_insert (t : Timer) (e : ℕ) : (t.insert e).occur = t.occur := rfl

@[simp] theorem created_set (t : Timer) (e : ℕ) (v : TimeEvent) :
    (t.set e v).created = t.created := rfl

@[simp] theorem timeEvents_set (t : Timer) (e : ℕ) (v : TimeEvent) :
    (t.set e v).m_timeEvents = t.m_timeEvents := rfl

@[simp] theorem event_set_same (t : Timer) (e : ℕ) (v : TimeEvent) : (t.set e v).event e = v := by
  simp [set]

theorem event_set_ne (t : Timer) {e x : ℕ} (v : TimeEvent) (ne : x ≠ e) :
    (t.set e v).event x = t.event x := by
  simp [set, ne]

theorem occur_set_ne (t : Timer) {e x : ℕ} (v : TimeEvent) (ne : x ≠ e) :
    (t.set e v).occur x = t.occur x := congrArg TimeEvent.m_occur_time (t.event_set_ne v ne)

def Occupied (t : Timer) (time : ℕ) : Prop := ∃ x ∈ t.m_timeEvents, t.occur x = time

def Ordered (t : Timer) : Prop := t.m_timeEvents.Pairwise fun a b => t.occur a < t.occur b

theorem mem_insert {t : Timer} {e x : ℕ} :
    x ∈ (t.insert e).m_timeEvents ↔ x ∈ t.m_timeEvents ∨ (x = e ∧ ¬ t.Occupied (t.occur e)) := by
  rw [insert, Placing.mem_place_byKey]
  simp [Occupied]

/-- After an insertion the time of the event is taken, by it or by another. -/
theorem occupied_insert {t : Timer} {e time : ℕ} :
    (t.insert e).Occupied time ↔ t.Occupied time ∨ time = t.occur e := by
  constructor
  · rintro ⟨x, mem, rfl⟩
    rcases mem_insert.mp mem with old | ⟨rfl, -⟩
    · exact .inl ⟨x, old, rfl⟩
    · exact .inr rfl
  · rintro (⟨x, mem, same⟩ | rfl)
    · exact ⟨x, mem_insert.mpr (.inl mem), same⟩
    · by_cases taken : t.Occupied (t.occur e)
      · obtain ⟨x, mem, same⟩ := taken
        exact ⟨x, mem_insert.mpr (.inl mem), same⟩
      · exact ⟨e, mem_insert.mpr (.inr ⟨rfl, taken⟩), rfl⟩

theorem Ordered.insert {t : Timer} (ordered : t.Ordered) (e : ℕ) : (t.insert e).Ordered :=
  Placing.placed_byKey.mp (Placing.placed_place_byKey (Placing.placed_byKey.mpr ordered))

/-- The times of the set do not notice a change of another event. -/
theorem occupied_set {t : Timer} {e : ℕ} (v : TimeEvent) (out : e ∉ t.m_timeEvents) {time : ℕ} :
    (t.set e v).Occupied time ↔ t.Occupied time := by
  apply exists_congr
  intro x
  apply and_congr_right
  intro mem
  rw [t.occur_set_ne v (ne_of_mem_of_not_mem mem out)]

theorem Ordered.set {t : Timer} (ordered : t.Ordered) {e : ℕ} (v : TimeEvent)
    (out : e ∉ t.m_timeEvents) : (t.set e v).Ordered := by
  apply List.Pairwise.imp_of_mem _ ordered
  intro a b memA memB lt
  rwa [t.occur_set_ne v (ne_of_mem_of_not_mem memA out),
    t.occur_set_ne v (ne_of_mem_of_not_mem memB out)]

theorem Ordered.nodup {t : Timer} (ordered : t.Ordered) : t.m_timeEvents.Nodup :=
  ordered.imp fun lt eq => Nat.ne_of_lt lt (congrArg t.occur eq)

theorem find_some {t : Timer} {e it : ℕ} (h : t.find e = some it) :
    it ∈ t.m_timeEvents ∧ t.occur it = t.occur e :=
  ⟨List.mem_of_find?_eq_some h, by simpa using List.find?_some h⟩

theorem Ordered.inj {t : Timer} (ordered : t.Ordered) {a b : ℕ} (memA : a ∈ t.m_timeEvents)
    (memB : b ∈ t.m_timeEvents) (same : t.occur a = t.occur b) : a = b := by
  have times : (t.m_timeEvents.map t.occur).Nodup :=
    List.pairwise_map.mpr (ordered.imp Nat.ne_of_lt)
  exact List.inj_on_of_nodup_map times memA memB same

theorem find_self {t : Timer} (ordered : t.Ordered) {e it : ℕ} (mem : e ∈ t.m_timeEvents)
    (h : t.find e = some it) : it = e :=
  ordered.inj (find_some h).1 mem (find_some h).2

/-- The event that `find` gives leaves the set, and with it any claim of `e` to be in it. -/
theorem erased_out {t : Timer} (ordered : t.Ordered) {e it : ℕ} (found : t.find e = some it) :
    e ∉ t.m_timeEvents.erase it := by
  rw [ordered.nodup.mem_erase_iff]
  exact fun h => h.1 (find_self ordered h.2 found).symm

theorem mem_resetTimeTo {t : Timer} (ordered : t.Ordered) {now e it interval x : ℕ}
    (found : t.find e = some it) :
    x ∈ (t.resetTimeTo now e interval).m_timeEvents ↔ (x ∈ t.m_timeEvents ∧ x ≠ it) ∨
      (x = e ∧ ∀ y ∈ t.m_timeEvents, y ≠ it → t.occur y ≠ now + interval) := by
  have out := erased_out ordered found
  rw [resetTimeTo, found]
  simp only
  rw [mem_insert, occupied_set _ out]
  simp only [timeEvents_set, Occupied, ordered.nodup.mem_erase_iff, occur, event_set_same]
  simp only [not_exists, not_and, and_imp, and_comm (a := x ≠ it)]
  constructor
  · exact fun h => h.imp_right fun h => ⟨h.1, fun y mem ne => h.2 y ne mem⟩
  · exact fun h => h.imp_right fun h => ⟨h.1, fun y ne mem => h.2 y mem ne⟩

theorem Ordered.resetTimeTo {t : Timer} (ordered : t.Ordered) (now e interval : ℕ) :
    (t.resetTimeTo now e interval).Ordered := by
  unfold Timer.resetTimeTo
  split
  · rename_i it found
    have erased : Ordered { t with m_timeEvents := t.m_timeEvents.erase it } :=
      List.Pairwise.sublist List.erase_sublist ordered
    exact (erased.set _ (erased_out ordered found)).insert e
  · exact ordered

theorem event_resetTimeTo_ne (t : Timer) {now e interval x : ℕ} (ne : x ≠ e) :
    (t.resetTimeTo now e interval).event x = t.event x := by
  unfold resetTimeTo
  split
  · exact event_set_ne _ _ ne
  · rfl

theorem created_resetTimeTo (t : Timer) (now e interval : ℕ) :
    (t.resetTimeTo now e interval).created = t.created := by
  unfold resetTimeTo
  split <;> rfl

section Expiry
variable {t : Timer} {now : ℕ}

theorem mem_takeWhile_le {key : ℕ → ℕ} {l : List ℕ}
    (sorted : l.Pairwise fun a b => key a < key b) {e : ℕ} :
    e ∈ (l.takeWhile fun e => key e ≤ now) ↔ e ∈ l ∧ key e ≤ now := by
  induction l with
  | nil => simp
  | cons a l ih =>
    have later : ∀ b ∈ l, key a < key b := (List.pairwise_cons.mp sorted).1
    by_cases due : key a ≤ now
    · rw [List.takeWhile_cons_of_pos (by simpa using due), List.mem_cons, ih sorted.of_cons,
        List.mem_cons]
      constructor
      · rintro (rfl | ⟨mem, le⟩)
        · exact ⟨.inl rfl, due⟩
        · exact ⟨.inr mem, le⟩
      · rintro ⟨rfl | mem, le⟩
        · exact .inl rfl
        · exact .inr ⟨mem, le⟩
    · rw [List.takeWhile_cons_of_neg (by simpa using due)]
      constructor
      · intro mem
        cases mem
      · rintro ⟨mem, le⟩
        rcases List.mem_cons.mp mem with rfl | mem
        · exact absurd le due
        · have := later e mem
          omega

theorem mem_expired (ordered : t.Ordered) {e : ℕ} :
    e ∈ t.expired now ↔ e ∈ t.m_timeEvents ∧ t.occur e ≤ now := mem_takeWhile_le ordered

theorem mem_rest (ordered : t.Ordered) {e : ℕ} :
    e ∈ (t.m_timeEvents.dropWhile fun e => t.occur e ≤ now) ↔
      e ∈ t.m_timeEvents ∧ now < t.occur e := by
  have whole : e ∈ t.m_timeEvents ↔
      e ∈ t.expired now ∨ e ∈ t.m_timeEvents.dropWhile fun e => t.occur e ≤ now := by
    rw [← List.mem_append, expired, List.takeWhile_append_dropWhile]
  have apart : e ∈ t.expired now → e ∉ t.m_timeEvents.dropWhile fun e => t.occur e ≤ now := by
    have nodup := ordered.nodup
    rw [← List.takeWhile_append_dropWhile (p := fun e => decide (t.occur e ≤ now))
      (l := t.m_timeEvents), List.nodup_append] at nodup
    exact fun taken dropped => nodup.2.2 e taken e dropped rfl
  rw [mem_expired ordered] at whole apart
  constructor
  · intro mem
    have inside := whole.mpr (.inr mem)
    exact ⟨inside, Nat.lt_of_not_le fun le => apart ⟨inside, le⟩ mem⟩
  · rintro ⟨mem, lt⟩
    exact (whole.mp mem).resolve_left fun due => Nat.not_le_of_lt lt due.2

/-- Putting events back changes when they occur and nothing else about them. -/
structure SameSettings (t u : Timer) : Prop where
  created : u.created = t.created
  interval : ∀ x, (u.event x).m_interval = (t.event x).m_interval
  repeated : ∀ x, (u.event x).m_is_repeated = (t.event x).m_is_repeated
  cancled : ∀ x, (u.event x).m_is_cancled = (t.event x).m_is_cancled

theorem rearm_settings (e : ℕ) : SameSettings t (rearm now t e) := by
  unfold rearm
  split
  · constructor
    · rfl
    all_goals
      intro x
      rw [event_insert]
      by_cases same : x = e
      · subst same
        rw [event_set_same]
      · rw [event_set_ne _ _ same]
  · exact ⟨rfl, fun _ => rfl, fun _ => rfl, fun _ => rfl⟩

theorem SameSettings.trans {u v : Timer} (first : SameSettings t u) (second : SameSettings u v) :
    SameSettings t v :=
  ⟨second.created.trans first.created, fun x => (second.interval x).trans (first.interval x),
    fun x => (second.repeated x).trans (first.repeated x),
    fun x => (second.cancled x).trans (first.cancled x)⟩

theorem SameSettings.rearms {u : Timer} (same : SameSettings t u) (x : ℕ) :
    u.rearms x = t.rearms x := by
  rw [Timer.rearms, same.repeated, same.cancled, Timer.rearms]

theorem mem_rearm {e x : ℕ} (out : e ∉ t.m_timeEvents) :
    x ∈ (rearm now t e).m_timeEvents ↔ x ∈ t.m_timeEvents ∨
      (x = e ∧ t.rearms e = true ∧ ¬ t.Occupied (now + (t.event e).m_interval)) := by
  unfold rearm
  split
  · rename_i rearms
    rw [mem_insert, occupied_set _ out]
    simp [occur, rearms]
  · rename_i rearms
    simp [rearms]

theorem occupied_rearm {e time : ℕ} (out : e ∉ t.m_timeEvents) :
    (rearm now t e).Occupied time ↔ t.Occupied time ∨
      (t.rearms e = true ∧ time = now + (t.event e).m_interval) := by
  unfold rearm
  split
  · rename_i rearms
    rw [occupied_insert, occupied_set _ out]
    simp [occur, rearms]
  · rename_i rearms
    simp [rearms]

theorem Ordered.rearm (ordered : t.Ordered) {e : ℕ} (out : e ∉ t.m_timeEvents) :
    (rearm now t e).Ordered := by
  unfold Timer.rearm
  split
  · exact (ordered.set _ out).insert e
  · exact ordered

theorem rearmAll_settings (t : Timer) (now : ℕ) (es : List ℕ) :
    SameSettings t (es.foldl (rearm now) t) := by
  induction es generalizing t with
  | nil => exact ⟨rfl, fun _ => rfl, fun _ => rfl, fun _ => rfl⟩
  | cons e es ih => exact (rearm_settings e).trans (ih _)

/-- An event comes back unless its next time is taken, by what is left or by one put back before
it. -/
theorem mem_rearmAll {es : List ℕ} (sorted : es.Pairwise fun a b => t.occur a < t.occur b)
    (out : ∀ e ∈ es, e ∉ t.m_timeEvents) :
    (∀ time, (es.foldl (rearm now) t).Occupied time ↔ t.Occupied time ∨
      ∃ x ∈ es, t.rearms x = true ∧ time = now + (t.event x).m_interval) ∧
    ∀ x, x ∈ (es.foldl (rearm now) t).m_timeEvents ↔ x ∈ t.m_timeEvents ∨
      (x ∈ es ∧ t.rearms x = true ∧ ¬ t.Occupied (now + (t.event x).m_interval) ∧
        ∀ y ∈ es, t.rearms y = true → t.occur y < t.occur x →
          (t.event y).m_interval ≠ (t.event x).m_interval) := by
  induction es using List.reverseRecOn with
  | nil => simp
  | append_singleton es e ih =>
    obtain ⟨sorted, -, last⟩ := List.pairwise_append.mp sorted
    obtain ⟨occupied, mem⟩ := ih sorted fun x inside => out x (List.mem_append_left _ inside)
    have same : SameSettings t (es.foldl (rearm now) t) := rearmAll_settings t now es
    have before : ∀ y ∈ es, t.occur y < t.occur e := fun y inside =>
      last y inside e (List.mem_singleton_self e)
    have fresh : e ∉ es := fun inside => Nat.lt_irrefl _ (before e inside)
    have outside : e ∉ t.m_timeEvents := out e (List.mem_append_right _ (List.mem_singleton_self e))
    have out' : e ∉ (es.foldl (rearm now) t).m_timeEvents := by
      rw [mem]
      exact fun h => h.elim outside fun h => fresh h.1
    rw [List.foldl_append, List.foldl_cons, List.foldl_nil]
    constructor
    · intro time
      rw [occupied_rearm out', occupied, same.rearms, same.interval]
      simp only [List.mem_append, List.mem_singleton, or_and_right, exists_or, exists_eq_left,
        or_assoc]
    · intro x
      rw [mem_rearm out', mem, occupied, same.rearms, same.interval]
      constructor
      · rintro ((old | ⟨inside, rearms, free, apart⟩) | ⟨rfl, rearms, free⟩)
        · exact .inl old
        · refine .inr ⟨List.mem_append_left _ inside, rearms, free, ?_⟩
          intro y mem' rearms' lt
          rcases List.mem_append.mp mem' with early | late
          · exact apart y early rearms' lt
          · rw [List.mem_singleton.mp late] at lt
            exact absurd (before x inside) (Nat.not_lt_of_lt lt)
        · refine .inr ⟨List.mem_append_right _ (List.mem_singleton_self x), rearms,
            fun taken => free (.inl taken), ?_⟩
          intro y mem' rearms' lt same'
          rcases List.mem_append.mp mem' with early | late
          · exact free (.inr ⟨y, early, rearms', by rw [same']⟩)
          · rw [List.mem_singleton.mp late] at lt
            exact Nat.lt_irrefl _ lt
      · rintro (old | ⟨mem', rearms, free, apart⟩)
        · exact .inl (.inl old)
        · rcases List.mem_append.mp mem' with early | late
          · refine .inl (.inr ⟨early, rearms, free, ?_⟩)
            exact fun y inside => apart y (List.mem_append_left _ inside)
          · obtain rfl := List.mem_singleton.mp late
            refine .inr ⟨rfl, rearms, ?_⟩
            rintro (taken | ⟨y, inside, rearms', same'⟩)
            · exact free taken
            · exact apart y (List.mem_append_left _ inside) rearms' (before y inside)
                (Nat.add_left_cancel same').symm

theorem Ordered.rearmAll (ordered : t.Ordered) {es : List ℕ}
    (sorted : es.Pairwise fun a b => t.occur a < t.occur b) (out : ∀ e ∈ es, e ∉ t.m_timeEvents) :
    (es.foldl (Timer.rearm now) t).Ordered := by
  induction es using List.reverseRecOn with
  | nil => exact ordered
  | append_singleton es e ih =>
    obtain ⟨sorted, -, last⟩ := List.pairwise_append.mp sorted
    have earlier : ∀ x ∈ es, x ∉ t.m_timeEvents := fun x mem => out x (List.mem_append_left _ mem)
    rw [List.foldl_append]
    apply (ih sorted earlier).rearm
    rw [(mem_rearmAll sorted earlier).2]
    rintro (old | ⟨mem, -⟩)
    · exact out e (List.mem_append_right _ (List.mem_singleton_self e)) old
    · exact Nat.lt_irrefl _ (last e mem e (List.mem_singleton_self e))

theorem expired_sorted (ordered : t.Ordered) :
    (t.expired now).Pairwise fun a b => t.occur a < t.occur b :=
  ordered.sublist (List.takeWhile_sublist _)

theorem expired_out (ordered : t.Ordered) {e : ℕ} (mem : e ∈ t.expired now) :
    e ∉ t.m_timeEvents.dropWhile fun e => t.occur e ≤ now := by
  rw [mem_rest ordered]
  exact fun h => Nat.not_le_of_lt h.2 ((mem_expired ordered).mp mem).2

theorem getExpiredcbs_settings (t : Timer) (now : ℕ) :
    SameSettings t (t.getExpiredcbs now).1 := by
  obtain ⟨created, interval, repeated, cancled⟩ := rearmAll_settings
    { t with m_timeEvents := t.m_timeEvents.dropWhile fun e => t.occur e ≤ now } now
    (t.expired now)
  exact ⟨created, interval, repeated, cancled⟩

theorem Ordered.getExpiredcbs (ordered : t.Ordered) : (t.getExpiredcbs now).1.Ordered := by
  have rest : Ordered { t with
      m_timeEvents := t.m_timeEvents.dropWhile fun e => t.occur e ≤ now } :=
    List.Pairwise.sublist (List.dropWhile_sublist _) ordered
  exact rest.rearmAll (expired_sorted ordered) fun e mem => expired_out ordered mem

theorem mem_getExpiredcbs (ordered : t.Ordered) {x : ℕ} :
    x ∈ (t.getExpiredcbs now).1.m_timeEvents ↔ (x ∈ t.m_timeEvents ∧ now < t.occur x) ∨
      ((x ∈ t.m_timeEvents ∧ t.occur x ≤ now) ∧ t.rearms x = true ∧
        (¬ ∃ y, (y ∈ t.m_timeEvents ∧ now < t.occur y) ∧
          t.occur y = now + (t.event x).m_interval) ∧
        ∀ y, y ∈ t.m_timeEvents ∧ t.occur y ≤ now → t.rearms y = true → t.occur y < t.occur x →
          (t.event y).m_interval ≠ (t.event x).m_interval) := by
  have sorted : (t.expired now).Pairwise fun a b => t.occur a < t.occur b := expired_sorted ordered
  have out : ∀ e ∈ t.expired now, e ∉ t.m_timeEvents.dropWhile fun e => t.occur e ≤ now :=
    fun e mem => expired_out ordered mem
  have all := (@mem_rearmAll { t with
    m_timeEvents := t.m_timeEvents.dropWhile fun e => t.occur e ≤ now } now _ sorted out).2 x
  simp only [Occupied, mem_rest ordered, mem_expired ordered] at all
  exact all

theorem uncancled_of_mem {e : ℕ} (mem : e ∈ (t.getExpiredcbs now).2) :
    (t.event e).m_is_cancled = false := by
  have flags := (List.mem_filter.mp mem).2
  rw [Bool.and_eq_true, Bool.not_eq_true'] at flags
  exact flags.1

theorem rearm_stoped (e x : ℕ) :
    ((rearm now t e).event x).m_is_stoped = (t.event x).m_is_stoped := by
  unfold rearm
  split
  · rw [event_insert]
    by_cases same : x = e
    · subst same
      rw [event_set_same]
    · rw [event_set_ne _ _ same]
  · rfl

theorem getExpiredcbs_stoped (t : Timer) (now x : ℕ) :
    ((t.getExpiredcbs now).1.event x).m_is_stoped = (t.event x).m_is_stoped := by
  have all : ∀ (es : List ℕ) (u : Timer),
      ((es.foldl (rearm now) u).event x).m_is_stoped = (u.event x).m_is_stoped := by
    intro es
    induction es with
    | nil => exact fun _ => rfl
    | cons e es ih => exact fun u => (ih (rearm now u e)).trans (rearm_stoped e x)
  exact all _ _

/-- An event that is not repeated does not change when it expires. -/
theorem getExpiredcbs_once {x : ℕ} (once : (t.event x).m_is_repeated = false) :
    (t.getExpiredcbs now).1.event x = t.event x := by
  have all : ∀ (es : List ℕ) (u : Timer), (u.event x).m_is_repeated = false →
      (es.foldl (rearm now) u).event x = u.event x := by
    intro es
    induction es with
    | nil => exact fun _ _ => rfl
    | cons e es ih =>
      intro u once
      have same : (rearm now u e).event x = u.event x := by
        unfold rearm
        split
        · rename_i again
          have ne : x ≠ e := by
            rintro rfl
            simp [rearms, once] at again
          rw [event_insert, event_set_ne _ _ ne]
        · rfl
      exact (ih _ (by rw [same, once])).trans same
  exact all _ _ once

end Expiry

/-- After `resetTime()` an event of the set is as it was, or the one that was reset, due after its
interval. -/
theorem mem_resetTime {t : Timer} (ordered : t.Ordered) {now e x : ℕ}
    (mem : x ∈ (t.resetTime now e).m_timeEvents) :
    (x ≠ e ∧ x ∈ t.m_timeEvents ∧ (t.resetTime now e).event x = t.event x) ∨
      (x = e ∧ (t.resetTime now e).occur e = now + (t.event e).m_interval) := by
  by_cases same : x = e
  · subst same
    refine .inr ⟨rfl, ?_⟩
    cases found : t.find x with
    | none =>
      rw [resetTime, resetTimeTo, found] at mem
      have out := List.find?_eq_none.mp found x mem
      simp at out
    | some it =>
      rw [resetTime, resetTimeTo, found]
      simp [occur]
  · refine .inl ⟨same, ?_, event_resetTimeTo_ne t same⟩
    cases found : t.find e with
    | none =>
      rw [resetTime, resetTimeTo, found] at mem
      exact mem
    | some it =>
      rcases (mem_resetTimeTo ordered found).mp mem with old | new
      · exact old.1
      · exact absurd new.1 same

theorem interval_resetTime (t : Timer) (now e x : ℕ) :
    ((t.resetTime now e).event x).m_interval = (t.event x).m_interval := by
  by_cases same : x = e
  · subst same
    unfold resetTime resetTimeTo
    split
    · rw [event_insert, event_set_same]
    · rfl
  · rw [resetTime, event_resetTimeTo_ne t same]

theorem resetTimeTo_stoped (t : Timer) (now e interval x : ℕ) :
    ((t.resetTimeTo now e interval).event x).m_is_stoped = (t.event x).m_is_stoped := by
  by_cases same : x = e
  · subst same
    unfold resetTimeTo
    split
    · rw [event_insert, event_set_same]
    · rfl
  · rw [event_resetTimeTo_ne t same]

end Timer

end CRpc
