import CRpc.Coroutine.Scheduler
import Mathlib.Data.List.Nodup

/-! Where a coroutine is, and who may wake it. -/
namespace CRpc

def WorkerPc.holds : WorkerPc → Option ℕ
  | .ended | .idle | .looking => none
  | .popped c | .running c | .returned c | .adding c | .pushing c => some c
  | .timing c => c

/-- A coroutine to be made `READY`. -/
def Hand.wakes : Hand → Option ℕ
  | .freeing _ w | .readying w => some w
  | .empty | .adding _ | .pushing _ => none

def Hand.offers : Hand → Option ℕ
  | .adding w | .pushing w => some w
  | .empty | .freeing _ _ | .readying _ => none

@[simp] def Leaves : List CoroutineInstr → Prop
  | .yield :: _ => True
  | .setWaiting :: rest | .free _ :: rest | .unlock _ :: rest | .release _ :: rest => Leaves rest
  | _ => False

/-- On the way it becomes `WAITING`. -/
@[simp] def SetsWaiting : List CoroutineInstr → Prop
  | .setWaiting :: _ => True
  | .free _ :: rest | .unlock _ :: rest | .release _ :: rest => SetsWaiting rest
  | _ => False

/-- Where a coroutine may be: in `m_tasks`, with a worker, or in a hand to be added. -/
inductive Place
  | task
  | worker (k : ℕ)
  | hand (x : ℕ)
  deriving DecidableEq

/-- Where a coroutine may wait: in a queue, or in the hand of who took it out. -/
inductive Wait
  | queue (spin : Spin)
  | hand (x : ℕ)
  deriving DecidableEq

namespace Scheduler
open Function Transition

def queue (s : Scheduler) : Spin → List ℕ
  | .mutex m => (s.mutex m).m_waitQueue
  | .cv v => (s.cv v).m_waitQueue

@[simp] def IsAt (s : Scheduler) : Place → ℕ → Prop
  | .task, c => c ∈ s.m_tasks
  | .worker k, c => (s.worker k).holds = some c
  | .hand x, c => (s.hand x).offers = some c

@[simp] def Awaits (s : Scheduler) : Wait → ℕ → Prop
  | .queue q, c => c ∈ s.queue q
  | .hand x, c => (s.hand x).wakes = some c

/-- A coroutine on its way to its yield will not be `READY` there. -/
def Leaving (s : Scheduler) (c : ℕ) : Prop :=
  Leaves (s.code c) ∧ (s.m_state c ≠ .READY ∨ SetsWaiting (s.code c))

def Parts (s : Scheduler) (k c : ℕ) : Prop :=
  (s.worker k = .running c ∧ s.Leaving c) ∨ (s.worker k = .returned c ∧ s.m_state c ≠ .READY)

/-- What a worker may be doing with a coroutine that is `TERMINATED`. -/
def Ends (s : Scheduler) (k c : ℕ) : Prop :=
  (s.worker k = .running c ∧ (s.code c).head? = some .yield) ∨ s.worker k = .returned c

/-- The coroutine is in one place at most, waits in one at most, and is in none that matters while
it waits or is `TERMINATED`. -/
structure Fine (s : Scheduler) (c : ℕ) : Prop where
  place : ∀ p p', s.IsAt p c → s.IsAt p' c → p = p'
  wait : ∀ q q', s.Awaits q c → s.Awaits q' c → q = q'
  parted : ∀ q p, s.Awaits q c → s.IsAt p c → ∃ k, p = .worker k ∧ s.Parts k c
  ended : s.m_state c = .TERMINATED →
    (∀ q, ¬ s.Awaits q c) ∧ ∀ p, s.IsAt p c → ∃ k, p = .worker k ∧ s.Ends k c
  fresh : s.m_coroutine_id < c →
    (∀ p, ¬ s.IsAt p c) ∧ (∀ q, ¬ s.Awaits q c) ∧ s.m_state c ≠ .TERMINATED

structure Placed (s : Scheduler) : Prop where
  tasks : s.m_tasks.Nodup
  queues : ∀ q, (s.queue q).Nodup
  fine : ∀ c, s.Fine c

/-- Who makes a coroutine `READY` does so when no worker runs it or has yet to see that it is
not. -/
def Keeps (s : Scheduler) : SchedulerAction → Prop
  | .run k => ∀ c w, s.worker k = .running c → s.hand c = .readying w →
    ∀ j, s.worker j ≠ .running w ∧ s.worker j ≠ .returned w
  | _ => True

theorem placed_initial (m_threads : ℕ) : Placed { m_threads } := by
  have nowhere : ∀ p c, ¬ IsAt { m_threads } p c := by
    intro p c
    cases p <;> simp [WorkerPc.holds, Hand.offers]
  have never : ∀ q c, ¬ Awaits { m_threads } q c := by
    intro q c
    rcases q with ⟨m | v⟩ | x <;> simp [queue, Hand.wakes]
  refine ⟨.nil, ?_, ?_⟩
  · rintro (m | v) <;> exact .nil
  · intro c
    exact ⟨fun p _ here => absurd here (nowhere p c), fun q _ here => absurd here (never q c),
      fun q _ here => absurd here (never q c), nofun,
      fun _ => ⟨fun p => nowhere p c, fun q => never q c, nofun⟩⟩

theorem Parts.same {s t : Scheduler} {k c : ℕ} (parts : s.Parts k c)
    (worker : t.worker k = s.worker k) (code : t.code c = s.code c)
    (state : t.m_state c = s.m_state c) : t.Parts k c := by
  unfold Parts Leaving at parts ⊢
  rwa [worker, code, state]

theorem Ends.same {s t : Scheduler} {k c : ℕ} (ends : s.Ends k c)
    (worker : t.worker k = s.worker k) (code : t.code c = s.code c) : t.Ends k c := by
  unfold Ends at ends ⊢
  rwa [worker, code]

/-- A step that takes a coroutine to no place, and to a wait only from another. -/
theorem Fine.frame {s t : Scheduler} {c : ℕ} (fine : s.Fine c)
    (places : ∀ p, t.IsAt p c → s.IsAt p c)
    (wait : ∀ q q', t.Awaits q c → t.Awaits q' c → q = q')
    (waits : ∀ q, t.Awaits q c → ∃ q', s.Awaits q' c) (state : t.m_state c = s.m_state c)
    (code : t.code c = s.code c)
    (worker : ∀ k, t.IsAt (.worker k) c → t.worker k = s.worker k)
    (created : s.m_coroutine_id ≤ t.m_coroutine_id) : t.Fine c := by
  constructor
  · exact fun p p' here here' => fine.place p p' (places p here) (places p' here')
  · exact wait
  · intro q p waiting here
    obtain ⟨q', waiting⟩ := waits q waiting
    obtain ⟨k, rfl, parts⟩ := fine.parted q' p waiting (places p here)
    exact ⟨k, rfl, parts.same (worker k here) code state⟩
  · intro terminated
    obtain ⟨never, where_⟩ := fine.ended (state ▸ terminated)
    constructor
    · intro q waiting
      obtain ⟨q', waiting⟩ := waits q waiting
      exact never q' waiting
    · intro p here
      obtain ⟨k, rfl, ends⟩ := where_ p (places p here)
      exact ⟨k, rfl, ends.same (worker k here) code⟩
  · intro fresh
    obtain ⟨nowhere, never, live⟩ := fine.fresh (Nat.lt_of_le_of_lt created fresh)
    refine ⟨fun p here => nowhere p (places p here), ?_, state ▸ live⟩
    intro q waiting
    obtain ⟨q', waiting⟩ := waits q waiting
    exact never q' waiting

theorem Fine.still {s t : Scheduler} {c : ℕ} (fine : s.Fine c)
    (places : ∀ p, t.IsAt p c → s.IsAt p c) (waits : ∀ q, t.Awaits q c → s.Awaits q c)
    (state : t.m_state c = s.m_state c) (code : t.code c = s.code c)
    (worker : ∀ k, t.IsAt (.worker k) c → t.worker k = s.worker k)
    (created : s.m_coroutine_id ≤ t.m_coroutine_id) : t.Fine c :=
  fine.frame places (fun q q' one other => fine.wait q q' (waits q one) (waits q' other))
    (fun q waiting => ⟨q, waits q waiting⟩) state code worker created

section Steps
variable {s t : Scheduler} {k c : ℕ}

theorem isAt_same (tasks : t.m_tasks = s.m_tasks) (worker : t.worker = s.worker)
    (hand : t.hand = s.hand) : ∀ p d, t.IsAt p d → s.IsAt p d := by
  rintro (_ | j | x) d at_ <;> simpa [tasks, worker, hand] using at_

theorem awaits_same (queues : ∀ q, t.queue q = s.queue q) (hand : t.hand = s.hand) :
    ∀ q d, t.Awaits q d → s.Awaits q d := by
  rintro (q | x) d waiting <;> simpa [queues, hand] using waiting

/-- Where one hand changes, a coroutine is in it or where it was. -/
theorem isAt_hand {h : Hand} (tasks : t.m_tasks = s.m_tasks) (worker : t.worker = s.worker)
    (hand : t.hand = update s.hand c h) : ∀ p d, t.IsAt p d →
      (p = .hand c ∧ h.offers = some d) ∨ (p ≠ .hand c ∧ s.IsAt p d) := by
  rintro (_ | j | x) d at_
  · exact .inr ⟨nofun, by simpa [tasks] using at_⟩
  · exact .inr ⟨nofun, by simpa [worker] using at_⟩
  · by_cases same : x = c
    · subst same
      rw [IsAt, hand, update_self] at at_
      exact .inl ⟨rfl, at_⟩
    · exact .inr ⟨fun eq => same (Place.hand.inj eq), by simpa [hand, same] using at_⟩

theorem awaits_hand {h : Hand} (queues : ∀ q, t.queue q = s.queue q)
    (hand : t.hand = update s.hand c h) : ∀ q d, t.Awaits q d →
      (q = .hand c ∧ h.wakes = some d) ∨ (q ≠ .hand c ∧ s.Awaits q d) := by
  rintro (q | x) d waiting
  · exact .inr ⟨nofun, by simpa [queues] using waiting⟩
  · by_cases same : x = c
    · subst same
      rw [Awaits, hand, update_self] at waiting
      exact .inl ⟨rfl, waiting⟩
    · exact .inr ⟨fun eq => same (Wait.hand.inj eq), by simpa [hand, same] using waiting⟩

/-- Where one worker goes on, a coroutine is with it or where it was. -/
theorem isAt_worker {pc : WorkerPc} (tasks : t.m_tasks = s.m_tasks)
    (worker : t.worker = update s.worker k pc) (hand : t.hand = s.hand) : ∀ p d, t.IsAt p d →
      (p = .worker k ∧ pc.holds = some d) ∨ (p ≠ .worker k ∧ s.IsAt p d) := by
  rintro (_ | j | x) d at_
  · exact .inr ⟨nofun, by simpa [tasks] using at_⟩
  · by_cases same : j = k
    · subst same
      rw [IsAt, worker, update_self] at at_
      exact .inl ⟨rfl, at_⟩
    · exact .inr ⟨fun eq => same (Place.worker.inj eq), by simpa [worker, same] using at_⟩
  · exact .inr ⟨nofun, by simpa [hand] using at_⟩

end Steps

theorem Fine.moved {t : Scheduler} {c : ℕ} {p : Place} (only : ∀ p', t.IsAt p' c → p' = p)
    (never : ∀ q, ¬ t.Awaits q c) (live : t.m_state c ≠ .TERMINATED)
    (known : c ≤ t.m_coroutine_id) : t.Fine c := by
  constructor
  · exact fun p p' here here' => (only p here).trans (only p' here').symm
  · exact fun q _ waiting => absurd waiting (never q)
  · exact fun q _ waiting => absurd waiting (never q)
  · exact fun terminated => absurd terminated live
  · exact fun fresh => absurd known (Nat.not_le_of_lt fresh)

theorem Fine.settled {s : Scheduler} {c : ℕ} {p : Place} (fine : s.Fine c) (here : s.IsAt p c)
    (no : ∀ k, p = .worker k → ¬ s.Parts k c ∧ (s.Ends k c → s.m_state c ≠ .TERMINATED)) :
    (∀ q, ¬ s.Awaits q c) ∧ s.m_state c ≠ .TERMINATED ∧ c ≤ s.m_coroutine_id := by
  refine ⟨?_, ?_, ?_⟩
  · intro q waiting
    obtain ⟨k, at_, parts⟩ := fine.parted q p waiting here
    exact (no k at_).1 parts
  · intro terminated
    obtain ⟨k, at_, ends⟩ := (fine.ended terminated).2 p here
    exact (no k at_).2 ends terminated
  · exact Nat.le_of_not_lt fun fresh => (fine.fresh fresh).1 p here

section Running
variable {s t : Scheduler} {k c : ℕ} (placed : s.Placed) (here : s.worker k = .running c)
include placed here

omit placed in
theorem isAt_running : s.IsAt (.worker k) c := by
  change (s.worker k).holds = some c
  rw [here]
  rfl

theorem leaving_of_awaits {q : Wait} (waiting : s.Awaits q c) : s.Leaving c := by
  obtain ⟨j, same, parts⟩ := (placed.fine c).parted q _ waiting (isAt_running here)
  cases same
  rcases parts with ⟨-, leaving⟩ | ⟨returned, -⟩
  · exact leaving
  · cases here.symm.trans returned

theorem head_of_terminated (terminated : s.m_state c = .TERMINATED) :
    (s.code c).head? = some .yield := by
  obtain ⟨-, where_⟩ := (placed.fine c).ended terminated
  obtain ⟨j, same, ends⟩ := where_ _ (isAt_running here)
  cases same
  rcases ends with ⟨-, head⟩ | returned
  · exact head
  · cases here.symm.trans returned

theorem fine_running (worker : t.worker k = .running c) (places : ∀ p, t.IsAt p c → s.IsAt p c)
    (wait : ∀ q q', t.Awaits q c → t.Awaits q' c → q = q')
    (leaving : ∀ q, t.Awaits q c → t.Leaving c)
    (ended : t.m_state c = .TERMINATED →
      (∀ q, ¬ t.Awaits q c) ∧ (t.code c).head? = some .yield)
    (created : t.m_coroutine_id = s.m_coroutine_id) : t.Fine c := by
  have only : ∀ p, t.IsAt p c → p = .worker k := fun p at_ =>
    (placed.fine c).place _ _ (places p at_) (isAt_running here)
  constructor
  · exact fun p p' at_ at_' => (only p at_).trans (only p' at_').symm
  · exact wait
  · exact fun q p waiting at_ => ⟨k, only p at_, .inl ⟨worker, leaving q waiting⟩⟩
  · intro terminated
    obtain ⟨never, head⟩ := ended terminated
    exact ⟨never, fun p at_ => ⟨k, only p at_, .inl ⟨worker, head⟩⟩⟩
  · intro fresh
    exact absurd (isAt_running here) (((placed.fine c).fresh (created ▸ fresh)).1 _)

/-- The coroutine changes what it has to do, and perhaps its own state. -/
theorem Placed.goes (head : (s.code c).head? ≠ some .yield)
    (tasks : t.m_tasks = s.m_tasks) (worker : t.worker = s.worker)
    (created : t.m_coroutine_id = s.m_coroutine_id) (queues : ∀ q, t.queue q = s.queue q)
    (hand : t.hand = s.hand)
    (others : ∀ d, d ≠ c → t.m_state d = s.m_state d ∧ t.code d = s.code d)
    (leaving : s.Leaving c → t.Leaving c)
    (state : t.m_state c = .TERMINATED → s.m_state c = .TERMINATED ∨
      ((t.code c).head? = some .yield ∧ ¬ s.Leaving c)) : t.Placed := by
  have places := isAt_same tasks worker hand
  have waits := awaits_same queues hand
  refine ⟨tasks ▸ placed.tasks, fun q => queues q ▸ placed.queues q, ?_⟩
  intro d
  by_cases same : d = c
  · subst same
    refine fine_running placed here (worker ▸ here) (fun p => places p d) ?_ ?_ ?_ created
    · exact fun q q' one other => (placed.fine d).wait q q' (waits q d one) (waits q' d other)
    · exact fun q waiting => leaving (leaving_of_awaits placed here (waits q d waiting))
    · intro terminated
      rcases state terminated with before | ⟨next, not_leaving⟩
      · exact absurd (head_of_terminated placed here before) head
      · refine ⟨fun q waiting => ?_, next⟩
        exact not_leaving (leaving_of_awaits placed here (waits q d waiting))
  · obtain ⟨state, code⟩ := others d same
    exact (placed.fine d).still (fun p => places p d) (fun q => waits q d) state code
      (fun j _ => worker ▸ rfl) (Nat.le_of_eq created.symm)

theorem Placed.joins {q : Spin} (out : ¬ s.Leaving c)
    (tasks : t.m_tasks = s.m_tasks) (worker : t.worker = s.worker)
    (created : t.m_coroutine_id = s.m_coroutine_id) (queue : t.queue q = s.queue q ++ [c])
    (queues : ∀ q', q' ≠ q → t.queue q' = s.queue q') (hand : t.hand = s.hand)
    (others : ∀ d, d ≠ c → t.m_state d = s.m_state d ∧ t.code d = s.code d)
    (leaving : t.Leaving c) (live : t.m_state c ≠ .TERMINATED) : t.Placed := by
  have places := isAt_same tasks worker hand
  have waits : ∀ q' d, t.Awaits q' d → s.Awaits q' d ∨ (d = c ∧ q' = .queue q) := by
    rintro (q' | x) d waiting
    · by_cases same : q' = q
      · subst same
        rw [Awaits, queue, List.mem_append, List.mem_singleton] at waiting
        exact waiting.imp_right fun same => ⟨same, rfl⟩
      · exact .inl (by simpa [queues q' same] using waiting)
    · exact .inl (by simpa [hand] using waiting)
  have never : ∀ q', ¬ s.Awaits q' c := fun q' waiting =>
    out (leaving_of_awaits placed here waiting)
  refine ⟨tasks ▸ placed.tasks, ?_, ?_⟩
  · intro q'
    by_cases same : q' = q
    · subst same
      rw [queue, ← List.concat_eq_append]
      exact (placed.queues q').concat (never (.queue q'))
    · exact queues q' same ▸ placed.queues q'
  · intro d
    by_cases same : d = c
    · subst same
      have only : ∀ q', t.Awaits q' d → q' = .queue q := fun q' waiting =>
        ((waits q' d waiting).resolve_left (never q')).2
      exact fine_running placed here (worker ▸ here) (fun p => places p d)
        (fun q' q'' one other => (only q' one).trans (only q'' other).symm) (fun _ _ => leaving)
        (fun terminated => absurd terminated live) created
    · have before : ∀ q', t.Awaits q' d → s.Awaits q' d := fun q' waiting =>
        (waits q' d waiting).resolve_right fun both => same both.1
      obtain ⟨state, code⟩ := others d same
      exact (placed.fine d).still (fun p => places p d) before state code
        (fun j _ => worker ▸ rfl) (Nat.le_of_eq created.symm)

theorem Placed.takes {q : Spin} {w : ℕ} {rest : List ℕ} {h : Hand}
    (head : (s.code c).head? ≠ some .yield) (front : s.queue q = w :: rest)
    (empty : s.hand c = .empty) (wakes : h.wakes = some w) (offers : h.offers = none)
    (tasks : t.m_tasks = s.m_tasks) (worker : t.worker = s.worker)
    (created : t.m_coroutine_id = s.m_coroutine_id) (queue : t.queue q = rest)
    (queues : ∀ q', q' ≠ q → t.queue q' = s.queue q') (hand : t.hand = update s.hand c h)
    (state : t.m_state = s.m_state) (others : ∀ d, d ≠ c → t.code d = s.code d)
    (leaving : s.Leaving c → t.Leaving c) : t.Placed := by
  have nodup := placed.queues q
  rw [front] at nodup
  have first : s.Awaits (.queue q) w := by simp [front]
  have places : ∀ p d, t.IsAt p d → s.IsAt p d := by
    intro p d at_
    rcases isAt_hand tasks worker hand p d at_ with ⟨-, offered⟩ | ⟨-, before⟩
    · cases offers.symm.trans offered
    · exact before
  have waits : ∀ q' d, t.Awaits q' d → (d = w ∧ q' = .hand c) ∨ (d ≠ w ∧ s.Awaits q' d) := by
    have elsewhere : ∀ q', q' ≠ .queue q → s.Awaits q' w → False := fun q' ne waiting =>
      ne ((placed.fine w).wait _ _ waiting first)
    rintro (q' | x) d waiting
    · right
      by_cases same : q' = q
      · subst same
        rw [Awaits, queue] at waiting
        refine ⟨fun same => (List.nodup_cons.mp nodup).1 (same ▸ waiting), ?_⟩
        simp [front, waiting]
      · have before : s.Awaits (.queue q') d := by simpa [queues q' same] using waiting
        refine ⟨?_, before⟩
        rintro rfl
        exact elsewhere _ (fun eq => same (Wait.queue.inj eq)) before
    · by_cases same : x = c
      · subst same
        left
        simpa [hand, wakes, eq_comm] using waiting
      · right
        have before : s.Awaits (.hand x) d := by simpa [hand, same] using waiting
        refine ⟨?_, before⟩
        rintro rfl
        exact elsewhere (.hand x) nofun before
  have wait : ∀ d q' q'', t.Awaits q' d → t.Awaits q'' d → q' = q'' := by
    intro d q' q'' one other
    rcases waits q' d one with ⟨rfl, rfl⟩ | ⟨ne, one⟩ <;>
      rcases waits q'' _ other with ⟨same, rfl⟩ | ⟨ne', other⟩
    · rfl
    · exact absurd rfl ne'
    · exact absurd same ne
    · exact (placed.fine d).wait q' q'' one other
  have before : ∀ d q', t.Awaits q' d → ∃ q'', s.Awaits q'' d := by
    intro d q' waiting
    rcases waits q' d waiting with ⟨rfl, -⟩ | ⟨-, waiting⟩
    · exact ⟨_, first⟩
    · exact ⟨q', waiting⟩
  refine ⟨tasks ▸ placed.tasks, ?_, ?_⟩
  · intro q'
    by_cases same : q' = q
    · subst same
      exact queue ▸ (List.nodup_cons.mp nodup).2
    · exact queues q' same ▸ placed.queues q'
  · intro d
    by_cases same : d = c
    · subst same
      refine fine_running placed here (worker ▸ here) (fun p => places p d) (wait d) ?_ ?_ created
      · intro q' waiting
        obtain ⟨q'', waiting⟩ := before d q' waiting
        exact leaving (leaving_of_awaits placed here waiting)
      · intro terminated
        rw [state] at terminated
        exact absurd (head_of_terminated placed here terminated) head
    · exact (placed.fine d).frame (fun p => places p d) (wait d) (before d) (congrFun state d)
        (others d same) (fun j _ => worker ▸ rfl) (Nat.le_of_eq created.symm)

theorem Placed.yields {rest : List CoroutineInstr} (code : s.code c = .yield :: rest)
    (tasks : t.m_tasks = s.m_tasks) (worker : t.worker = update s.worker k (.returned c))
    (created : t.m_coroutine_id = s.m_coroutine_id) (queues : ∀ q, t.queue q = s.queue q)
    (hand : t.hand = s.hand) (state : t.m_state = s.m_state)
    (others : ∀ d, d ≠ c → t.code d = s.code d) : t.Placed := by
  have places : ∀ p d, t.IsAt p d → s.IsAt p d := by
    intro p d at_
    rcases isAt_worker tasks worker hand p d at_ with ⟨rfl, held⟩ | ⟨-, before⟩
    · cases held
      exact isAt_running here
    · exact before
  have waits := awaits_same queues hand
  refine ⟨tasks ▸ placed.tasks, fun q => queues q ▸ placed.queues q, ?_⟩
  intro d
  by_cases same : d = c
  · subst same
    have fine := placed.fine d
    have only : ∀ p, t.IsAt p d → p = .worker k := fun p at_ =>
      fine.place _ _ (places p d at_) (isAt_running here)
    have returned : t.worker k = .returned d := by rw [worker, update_self]
    constructor
    · exact fun p p' at_ at_' => (only p at_).trans (only p' at_').symm
    · exact fun q q' one other => fine.wait q q' (waits q d one) (waits q' d other)
    · intro q p waiting at_
      obtain ⟨-, unready⟩ := leaving_of_awaits placed here (waits q d waiting)
      rw [code] at unready
      exact ⟨k, only p at_, .inr ⟨returned, state ▸ unready.resolve_right (fun never => never)⟩⟩
    · intro terminated
      obtain ⟨never, -⟩ := fine.ended (state ▸ terminated)
      exact ⟨fun q waiting => never q (waits q d waiting),
        fun p at_ => ⟨k, only p at_, .inr returned⟩⟩
    · intro fresh
      exact absurd (isAt_running here) ((fine.fresh (created ▸ fresh)).1 _)
  · refine (placed.fine d).still (fun p => places p d) (fun q => waits q d) (congrFun state d)
      (others d same) ?_ (Nat.le_of_eq created.symm)
    intro j at_
    by_cases this : j = k
    · subst this
      simp [worker, WorkerPc.holds, Ne.symm same] at at_
    · rw [worker, update_of_ne this]

end Running

section Hands
variable {s t : Scheduler} {c w : ℕ} (placed : s.Placed)
include placed

theorem Placed.handles {h : Hand} (wakes : h.wakes = (s.hand c).wakes)
    (offers : ∀ w, h.offers = some w → (s.hand c).offers = some w)
    (tasks : t.m_tasks = s.m_tasks) (worker : t.worker = s.worker)
    (created : t.m_coroutine_id = s.m_coroutine_id) (queues : ∀ q, t.queue q = s.queue q)
    (hand : t.hand = update s.hand c h) (state : t.m_state = s.m_state) (code : t.code = s.code) :
    t.Placed := by
  refine ⟨tasks ▸ placed.tasks, fun q => queues q ▸ placed.queues q, fun d => ?_⟩
  refine (placed.fine d).still ?_ ?_ (congrFun state d) (congrFun code d)
    (fun j _ => worker ▸ rfl) (Nat.le_of_eq created.symm)
  · intro p at_
    rcases isAt_hand tasks worker hand p d at_ with ⟨rfl, offered⟩ | ⟨-, before⟩
    · exact offers d offered
    · exact before
  · intro q waiting
    rcases awaits_hand queues hand q d waiting with ⟨rfl, woken⟩ | ⟨-, before⟩
    · exact wakes.symm.trans woken
    · exact before

theorem Placed.readies (now : s.hand c = .readying w)
    (keeps : ∀ j, s.worker j ≠ .running w ∧ s.worker j ≠ .returned w)
    (tasks : t.m_tasks = s.m_tasks) (worker : t.worker = s.worker)
    (created : t.m_coroutine_id = s.m_coroutine_id) (queues : ∀ q, t.queue q = s.queue q)
    (hand : t.hand = update s.hand c (.adding w)) (state : t.m_state = update s.m_state w .READY)
    (code : t.code = s.code) : t.Placed := by
  have waiting : s.Awaits (.hand c) w := by simp [now, Hand.wakes]
  have fine := placed.fine w
  have nowhere : ∀ p, ¬ s.IsAt p w := by
    intro p at_
    obtain ⟨j, -, ⟨running, -⟩ | ⟨returned, -⟩⟩ := fine.parted _ p waiting at_
    · exact (keeps j).1 running
    · exact (keeps j).2 returned
  have places : ∀ p d, t.IsAt p d → s.IsAt p d ∨ (d = w ∧ p = .hand c) := by
    intro p d at_
    rcases isAt_hand tasks worker hand p d at_ with ⟨rfl, offered⟩ | ⟨-, before⟩
    · cases offered
      exact .inr ⟨rfl, rfl⟩
    · exact .inl before
  have waits : ∀ q d, t.Awaits q d → s.Awaits q d ∧ q ≠ .hand c := by
    intro q d awaits
    rcases awaits_hand queues hand q d awaits with ⟨-, woken⟩ | ⟨ne, before⟩
    · cases woken
    · exact ⟨before, ne⟩
  refine ⟨tasks ▸ placed.tasks, fun q => queues q ▸ placed.queues q, ?_⟩
  intro d
  by_cases same : d = w
  · subst same
    apply Fine.moved (p := .hand c)
    · exact fun p at_ => ((places p d at_).resolve_left (nowhere p)).2
    · intro q awaits
      obtain ⟨before, ne⟩ := waits q d awaits
      exact ne (fine.wait _ _ before waiting)
    · simp [state]
    · rw [created]
      exact Nat.le_of_not_lt fun fresh => (fine.fresh fresh).2.1 _ waiting
  · refine (placed.fine d).still ?_ ?_ ?_ (congrFun code d) (fun j _ => worker ▸ rfl)
      (Nat.le_of_eq created.symm)
    · exact fun p at_ => (places p d at_).resolve_right fun both => same both.1
    · exact fun q awaits => (waits q d awaits).1
    · rw [state, update_of_ne same]

theorem Placed.adds (now : s.hand c = .pushing w)
    (tasks : t.m_tasks = s.m_tasks ++ [w]) (worker : t.worker = s.worker)
    (created : t.m_coroutine_id = s.m_coroutine_id) (queues : ∀ q, t.queue q = s.queue q)
    (hand : t.hand = update s.hand c .empty) (state : t.m_state = s.m_state)
    (code : t.code = s.code) : t.Placed := by
  have here : s.IsAt (.hand c) w := by simp [now, Hand.offers]
  have fine := placed.fine w
  obtain ⟨never, live, known⟩ := fine.settled here nofun
  have places : ∀ p d, t.IsAt p d → (s.IsAt p d ∧ p ≠ .hand c) ∨ (d = w ∧ p = .task) := by
    rintro (_ | j | x) d at_
    · rw [IsAt, tasks, List.mem_append, List.mem_singleton] at at_
      exact at_.imp (fun mem => ⟨mem, nofun⟩) fun same => ⟨same, rfl⟩
    · exact .inl ⟨by simpa [worker] using at_, nofun⟩
    · by_cases same : x = c
      · subst same
        simp [hand, Hand.offers] at at_
      · exact .inl ⟨by simpa [hand, same] using at_, fun eq => same (Place.hand.inj eq)⟩
  have waits : ∀ q d, t.Awaits q d → s.Awaits q d := by
    intro q d waiting
    rcases awaits_hand queues hand q d waiting with ⟨-, woken⟩ | ⟨-, before⟩
    · cases woken
    · exact before
  refine ⟨?_, fun q => queues q ▸ placed.queues q, ?_⟩
  · rw [tasks, ← List.concat_eq_append]
    apply placed.tasks.concat
    intro mem
    cases fine.place .task _ mem here
  · intro d
    by_cases same : d = w
    · subst same
      apply Fine.moved (p := .task)
      · intro p at_
        rcases places p d at_ with ⟨before, ne⟩ | ⟨-, eq⟩
        · exact absurd (fine.place _ _ before here) ne
        · exact eq
      · exact fun q waiting => never q (waits q d waiting)
      · exact state ▸ live
      · exact created ▸ known
    · exact (placed.fine d).still
        (fun p at_ => ((places p d at_).resolve_right fun both => same both.1).1)
        (fun q => waits q d) (congrFun state d) (congrFun code d) (fun j _ => worker ▸ rfl)
        (Nat.le_of_eq created.symm)

end Hands

section Workers
variable {s t : Scheduler} {k c : ℕ} (placed : s.Placed)
include placed

/-- A worker goes on with the coroutine it has, which neither waits nor ends there, or without. -/
theorem Placed.turns (pc : WorkerPc)
    (holds : ∀ c, pc.holds = some c → (s.worker k).holds = some c ∧ ¬ s.Parts k c ∧
      (s.Ends k c → s.m_state c ≠ .TERMINATED))
    (tasks : t.m_tasks = s.m_tasks) (worker : t.worker = update s.worker k pc)
    (created : s.m_coroutine_id ≤ t.m_coroutine_id) (queues : ∀ q, t.queue q = s.queue q)
    (hand : t.hand = s.hand) (state : t.m_state = s.m_state) (code : t.code = s.code) :
    t.Placed := by
  have places : ∀ p d, t.IsAt p d → s.IsAt p d := by
    intro p d at_
    rcases isAt_worker tasks worker hand p d at_ with ⟨rfl, held⟩ | ⟨-, before⟩
    · exact (holds d held).1
    · exact before
  have waits := awaits_same queues hand
  refine ⟨tasks ▸ placed.tasks, fun q => queues q ▸ placed.queues q, ?_⟩
  intro d
  have fine := placed.fine d
  by_cases held : pc.holds = some d
  · obtain ⟨here, parts, ends⟩ := holds d held
    obtain ⟨never, live, known⟩ := fine.settled (p := .worker k) here fun j eq => by
      cases eq
      exact ⟨parts, ends⟩
    exact .moved (fun p at_ => fine.place p (.worker k) (places p d at_) here)
      (fun q waiting => never q (waits q d waiting)) (state ▸ live) (Nat.le_trans known created)
  · refine fine.still (fun p => places p d) (fun q => waits q d) (congrFun state d)
      (congrFun code d) ?_ created
    intro j at_
    by_cases same : j = k
    · subst same
      rw [IsAt, worker, update_self] at at_
      exact absurd at_ held
    · rw [worker, update_of_ne same]

theorem Placed.pops {rest : List ℕ} (looking : (s.worker k).holds = none)
    (front : s.m_tasks = c :: rest) (tasks : t.m_tasks = rest)
    (worker : t.worker = update s.worker k (.popped c))
    (created : t.m_coroutine_id = s.m_coroutine_id) (queues : ∀ q, t.queue q = s.queue q)
    (hand : t.hand = s.hand) (state : t.m_state = s.m_state) (code : t.code = s.code) :
    t.Placed := by
  have nodup := placed.tasks
  rw [front] at nodup
  have here : s.IsAt .task c := by simp [front]
  obtain ⟨never, live, known⟩ := (placed.fine c).settled here nofun
  have places : ∀ p d, t.IsAt p d → (d = c ∧ p = .worker k) ∨ (d ≠ c ∧ s.IsAt p d) := by
    have elsewhere : ∀ p, p ≠ .task → ¬ s.IsAt p c := fun p ne at_ =>
      ne ((placed.fine c).place p .task at_ here)
    rintro (_ | j | x) d at_
    · right
      rw [IsAt, tasks] at at_
      refine ⟨?_, by simp [front, at_]⟩
      rintro rfl
      exact (List.nodup_cons.mp nodup).1 at_
    · by_cases same : j = k
      · subst same
        left
        simpa [worker, WorkerPc.holds, eq_comm] using at_
      · right
        have before : s.IsAt (.worker j) d := by simpa [worker, same] using at_
        refine ⟨?_, before⟩
        rintro rfl
        exact elsewhere (.worker j) nofun before
    · right
      have before : s.IsAt (.hand x) d := by simpa [hand] using at_
      refine ⟨?_, before⟩
      rintro rfl
      exact elsewhere (.hand x) nofun before
  have waits := awaits_same queues hand
  refine ⟨tasks ▸ (List.nodup_cons.mp nodup).2, fun q => queues q ▸ placed.queues q, ?_⟩
  intro d
  by_cases same : d = c
  · subst same
    exact .moved (fun p at_ => ((places p d at_).resolve_right fun both => both.1 rfl).2)
      (fun q waiting => never q (waits q d waiting)) (state ▸ live) (created ▸ known)
  · have fine := placed.fine d
    have before : ∀ p, t.IsAt p d → s.IsAt p d := fun p at_ =>
      ((places p d at_).resolve_left fun both => same both.1).2
    refine fine.still before (fun q => waits q d) (congrFun state d) (congrFun code d) ?_
      (Nat.le_of_eq created.symm)
    intro j at_
    by_cases this : j = k
    · subst this
      have held := before _ at_
      rw [IsAt, looking] at held
      cases held
    · rw [worker, update_of_ne this]

/-- A coroutine that waits for nothing and is nowhere else is put in `m_tasks`. -/
theorem Placed.pushes (nowhere : ∀ p, p ≠ .task → ¬ t.IsAt p c) (never : ∀ q, ¬ s.Awaits q c)
    (live : s.m_state c ≠ .TERMINATED) (known : c ≤ t.m_coroutine_id) (out : c ∉ s.m_tasks)
    (tasks : t.m_tasks = s.m_tasks ++ [c])
    (worker : ∀ j d, (t.worker j).holds = some d → t.worker j = s.worker j)
    (created : s.m_coroutine_id ≤ t.m_coroutine_id) (queues : ∀ q, t.queue q = s.queue q)
    (hand : t.hand = s.hand) (state : t.m_state = s.m_state) (code : t.code = s.code) :
    t.Placed := by
  have places : ∀ p d, t.IsAt p d → d ≠ c → s.IsAt p d := by
    rintro (_ | j | x) d at_ ne
    · rw [IsAt, tasks, List.mem_append, List.mem_singleton] at at_
      exact at_.resolve_right ne
    · rw [IsAt, worker j d at_] at at_
      exact at_
    · simpa [hand] using at_
  have waits := awaits_same queues hand
  refine ⟨?_, fun q => queues q ▸ placed.queues q, ?_⟩
  · rw [tasks, ← List.concat_eq_append]
    exact placed.tasks.concat out
  · intro d
    by_cases same : d = c
    · subst same
      refine .moved (p := .task) ?_ (fun q waiting => never q (waits q d waiting)) (state ▸ live)
        known
      intro p at_
      by_contra ne
      exact nowhere p ne at_
    · exact (placed.fine d).still (fun p at_ => places p d at_ same) (fun q => waits q d)
        (congrFun state d) (congrFun code d) (fun j => worker j d) created

end Workers

/-- A worker that neither runs its coroutine nor has it back may go on. -/
theorem settles {s : Scheduler} {k : ℕ} {now : WorkerPc} (pc : WorkerPc)
    (at_ : s.worker k = now) (same : ∀ c, pc.holds = some c → now.holds = some c)
    (apart : ∀ c, now ≠ .running c ∧ now ≠ .returned c) (c : ℕ) (held : pc.holds = some c) :
    (s.worker k).holds = some c ∧ ¬ s.Parts k c ∧ (s.Ends k c → s.m_state c ≠ .TERMINATED) := by
  subst at_
  refine ⟨same c held, ?_, ?_⟩
  · rintro (⟨running, -⟩ | ⟨returned, -⟩)
    · exact (apart c).1 running
    · exact (apart c).2 returned
  · rintro (⟨running, -⟩ | returned)
    · exact absurd running (apart c).1
    · exact absurd returned (apart c).2

theorem placed_work {s t : Scheduler} {k : ℕ} (placed : s.Placed) (h : s.work k = some t) :
    t.Placed := by
  have turns : ∀ pc : WorkerPc, (∀ c, pc.holds = some c → (s.worker k).holds = some c ∧
      ¬ s.Parts k c ∧ (s.Ends k c → s.m_state c ≠ .TERMINATED)) →
      Placed { s with worker := update s.worker k pc } :=
    fun pc holds => placed.turns pc holds rfl rfl (Nat.le_refl _) (fun _ => rfl) rfl rfl rfl
  cases now : s.worker k with
  | ended =>
    simp only [work, now] at h
    obtain ⟨-, h⟩ := Option.ite_none_right_eq_some.mp h
    cases h
    exact placed.turns .idle (fun _ => nofun) rfl rfl (Nat.le_succ _) (fun _ => rfl)
      rfl rfl rfl
  | idle =>
    simp only [work, now] at h
    split at h <;> cases h
    · exact placed.turns .ended (fun _ => nofun) rfl rfl (Nat.le_refl _) (fun _ => rfl)
        rfl rfl rfl
    · exact turns .looking fun _ => nofun
  | looking =>
    simp only [work, now] at h
    split at h <;> cases h
    · exact turns (.timing none) fun _ => nofun
    · exact placed.pops (by rw [now]; rfl) ‹_› rfl rfl rfl (fun _ => rfl) rfl rfl rfl
  | popped c =>
    simp only [work, now] at h
    cases h
    exact turns (.running c) (settles _ now (fun _ => id) fun _ => ⟨nofun, nofun⟩)
  | running c => simp [work, now] at h
  | returned c =>
    simp only [work, now] at h
    split at h <;> cases h
    · rename_i ready
      apply turns (.timing (some c))
      rintro d same
      cases same
      refine ⟨by rw [now]; rfl, ?_, fun _ => by simp [ready]⟩
      rintro (⟨running, -⟩ | ⟨-, unready⟩)
      · cases now.symm.trans running
      · exact unready ready
    · exact turns .idle fun _ => nofun
  | timing c =>
    cases c with
    | none =>
      simp only [work, now] at h
      cases h
      exact turns .idle fun _ => nofun
    | some c =>
      simp only [work, now] at h
      cases h
      exact turns (.adding c) (settles _ now (fun _ => id) fun _ => ⟨nofun, nofun⟩)
  | adding c =>
    simp only [work, now] at h
    split at h <;> cases h
    · exact turns (.pushing c) (settles _ now (fun _ => id) fun _ => ⟨nofun, nofun⟩)
    · exact turns .idle fun _ => nofun
  | pushing c =>
    simp only [work, now] at h
    cases h
    have here : s.IsAt (.worker k) c := by simp [now, WorkerPc.holds]
    have fine := placed.fine c
    obtain ⟨-, parts, ends⟩ :=
      settles (.pushing c) now (fun _ => id) (fun _ => ⟨nofun, nofun⟩) c rfl
    obtain ⟨never, live, known⟩ := fine.settled here fun j eq => by
      cases eq
      exact ⟨parts, ends⟩
    refine placed.pushes (c := c) ?_ never live known ?_ rfl ?_ (Nat.le_refl _) (fun _ => rfl) rfl
      rfl rfl
    · rintro (_ | j | x) ne at_
      · exact ne rfl
      · by_cases same : j = k
        · subst same
          simp [WorkerPc.holds] at at_
        · cases fine.place (.worker j) _ (by simpa [same] using at_) here
          exact same rfl
      · cases fine.place (.hand x) _ at_ here
    · intro mem
      cases fine.place .task _ mem here
    · intro j d held
      by_cases same : j = k
      · subst same
        simp [WorkerPc.holds] at held
      · exact update_of_ne same ..

theorem placed_spawn {s t : Scheduler} (placed : s.Placed) (h : s.spawn = some t) : t.Placed := by
  obtain ⟨-, h⟩ := Option.ite_none_right_eq_some.mp h
  cases h
  obtain ⟨nowhere, never, live⟩ := (placed.fine (s.m_coroutine_id + 1)).fresh (Nat.lt_succ_self _)
  refine placed.pushes ?_ never live (Nat.le_refl _) (nowhere .task) rfl (fun _ _ _ => rfl)
    (Nat.le_succ _) (fun _ => rfl) rfl rfl rfl
  rintro (_ | j | x) ne at_
  · exact ne rfl
  · exact nowhere (.worker j) at_
  · exact nowhere (.hand x) at_

section Queues
variable {s t : Scheduler}

theorem queue_mutex {m : ℕ} {mutex : CoroutineMutex} (mutexes : t.mutex = update s.mutex m mutex)
    (cv : t.cv = s.cv) {q : Spin}
    (other : q ≠ .mutex m ∨ mutex.m_waitQueue = (s.mutex m).m_waitQueue) : t.queue q = s.queue q := by
  cases q with
  | cv v => simp [queue, cv]
  | mutex x =>
    by_cases same : x = m
    · subst same
      simp_all [queue]
    · simp [queue, mutexes, same]

theorem queue_cv {v : ℕ} {cv : CoroutineCV} (mutexes : t.mutex = s.mutex)
    (cvs : t.cv = update s.cv v cv) {q : Spin}
    (other : q ≠ .cv v ∨ cv.m_waitQueue = (s.cv v).m_waitQueue) : t.queue q = s.queue q := by
  cases q with
  | mutex m => simp [queue, mutexes]
  | cv x =>
    by_cases same : x = v
    · subst same
      simp_all [queue]
    · simp [queue, cvs, same]

theorem waitQueue_tryLock {mutex mutex' : CoroutineMutex} {c : ℕ}
    (taken : mutex.tryLock c = some mutex') : mutex'.m_waitQueue = mutex.m_waitQueue := by
  unfold CoroutineMutex.tryLock at taken
  split at taken <;> cases taken
  rfl

theorem queue_unlockSpin (s : Scheduler) (spin q : Spin) :
    (s.unlockSpin spin).queue q = s.queue q := by
  cases spin with
  | mutex m => exact queue_mutex (by rfl) (by rfl) (.inr (by rfl))
  | cv v => exact queue_cv (by rfl) (by rfl) (.inr (by rfl))

end Queues

theorem placed_runInstr {s t : Scheduler} {k c : ℕ} (placed : s.Placed)
    (here : s.worker k = .running c) (empty : s.hand c = .empty) (h : s.runInstr k c = some t) :
    t.Placed := by
  have goes : ∀ rest, (s.code c).head? ≠ some .yield →
      (s.Leaving c → Leaving { s with code := update s.code c rest } c) →
      Placed { s with code := update s.code c rest } :=
    fun rest head leaving => placed.goes here head rfl rfl rfl (fun _ => rfl) rfl
      (fun d ne => by simp [ne]) leaving .inl
  cases code : s.code c with
  | nil => simp [runInstr, code] at h
  | cons instr rest =>
    cases instr with
    | lock m =>
      simp only [runInstr, code] at h
      split at h <;> cases h
      · exact goes _ (by simp [code]) (by simp [Leaving, code])
      · exact goes _ (by simp [code]) (by simp [Leaving, code])
    | tryLock m =>
      simp only [runInstr, code] at h
      split at h <;> cases h
      · rename_i mutex taken
        have same := waitQueue_tryLock taken
        exact placed.goes here (by simp [code]) rfl rfl rfl
          (fun q => queue_mutex (by rfl) (by rfl) (.inr same)) rfl
          (fun d ne => by simp [ne]) (by simp [Leaving, code]) .inl
      · exact goes _ (by simp [code]) (by simp [Leaving, code])
    | enqueue m =>
      simp only [runInstr, code] at h
      cases h
      refine placed.joins here (q := .mutex m) (by simp [Leaving, code]) rfl rfl rfl ?_ ?_ rfl
        (fun d ne => by simp [ne]) (by simp [Leaving]) (by simp)
      · simp [queue, CoroutineMutex.enqueue]
      · exact fun q ne => queue_mutex (by rfl) (by rfl) (.inl ne)
    | own m =>
      simp only [runInstr, code] at h
      cases h
      exact placed.goes here (by simp [code]) rfl rfl rfl
        (fun q => queue_mutex (by rfl) (by rfl) (.inr (by rfl))) rfl
        (fun d ne => by simp [ne]) (by simp [Leaving, code]) .inl
    | unlock m =>
      simp only [runInstr, code] at h
      split at h <;> cases h
      · exact goes _ (by simp [code]) (by simp [Leaving, code])
      · exact goes _ (by simp [code]) (by simp [Leaving, code])
    | release m =>
      simp only [runInstr, code] at h
      split at h <;> cases h
      · rename_i queue_nil
        refine placed.goes here (by simp [code]) rfl rfl rfl ?_ rfl
          (fun d ne => by simp [ne]) (by simp [Leaving, code]) .inl
        exact fun q => queue_mutex (by rfl) (by rfl)
          (.inr (by simp [CoroutineMutex.release, queue_nil]))
      · rename_i w ws front
        refine placed.takes here (q := .mutex m) (w := w) (by simp [code]) front empty rfl rfl rfl
          rfl rfl ?_ ?_ rfl rfl (fun d ne => by simp [ne]) (by simp [Leaving, code])
        · simp [queue, CoroutineMutex.release, front]
        · exact fun q ne => queue_mutex (by rfl) (by rfl) (.inl ne)
    | cvLock v =>
      simp only [runInstr, code] at h
      split at h <;> cases h
      exact placed.goes here (by simp [code]) rfl rfl rfl
        (fun q => queue_cv (by rfl) (by rfl) (.inr (by rfl))) rfl
        (fun d ne => by simp [ne]) (by simp [Leaving, code]) .inl
    | cvPush v mutex =>
      simp only [runInstr, code] at h
      cases h
      refine placed.joins here (q := .cv v) (by simp [Leaving, code]) rfl rfl rfl ?_ ?_ rfl
        (fun d ne => by simp [ne]) ?_ ?_
      · simp [queue]
      · exact fun q ne => queue_cv (by rfl) (by rfl) (.inl ne)
      · cases mutex <;> simp [Leaving, waitCode]
      · intro terminated
        have head := head_of_terminated placed here terminated
        simp [code] at head
    | setWaiting =>
      simp only [runInstr, code] at h
      cases h
      exact placed.goes here (by simp [code]) rfl rfl rfl (fun _ => rfl) rfl
        (fun d ne => by simp [ne]) (by simp [Leaving, code]) (by simp)
    | cvPop v =>
      simp only [runInstr, code] at h
      split at h <;> cases h
      · exact goes _ (by simp [code]) (by simp [Leaving, code])
      · rename_i w ws front
        refine placed.takes here (q := .cv v) (w := w) (by simp [code]) front empty rfl rfl rfl
          rfl rfl ?_ ?_ rfl rfl (fun d ne => by simp [ne]) (by simp [Leaving, code])
        · simp [queue]
        · exact fun q ne => queue_cv (by rfl) (by rfl) (.inl ne)
    | cvPopAll v =>
      simp only [runInstr, code] at h
      split at h <;> cases h
      · exact goes _ (by simp [code]) (by simp [Leaving, code])
      · rename_i w ws front
        refine placed.takes here (q := .cv v) (w := w) (by simp [code]) front empty rfl rfl rfl
          rfl rfl ?_ ?_ rfl rfl (fun d _ => rfl) (by simp [Leaving, code])
        · simp [queue]
        · exact fun q ne => queue_cv (by rfl) (by rfl) (.inl ne)
    | free spin =>
      simp only [runInstr, code] at h
      cases h
      have queues := s.queue_unlockSpin spin
      cases spin
      · exact placed.goes here (by simp [code]) rfl rfl rfl queues rfl
          (fun d ne => by simp [ne, unlockSpin]) (by simp [Leaving, code, unlockSpin]) .inl
      · exact placed.goes here (by simp [code]) rfl rfl rfl queues rfl
          (fun d ne => by simp [ne, unlockSpin]) (by simp [Leaving, code, unlockSpin]) .inl
    | yield =>
      simp only [runInstr, code] at h
      cases h
      exact placed.yields here code rfl rfl rfl (fun _ => rfl) rfl rfl (fun d ne => by simp [ne])
    | terminate =>
      simp only [runInstr, code] at h
      cases h
      refine placed.goes here (by simp [code]) rfl rfl rfl (fun _ => rfl) rfl
        (fun d ne => by simp [ne]) (by simp [Leaving, code]) fun _ => .inr ⟨?_, ?_⟩
      · simp
      · simp [Leaving, code]
    | halt => simp [runInstr, code] at h

theorem placed_runCoroutine {s t : Scheduler} {k c : ℕ} (placed : s.Placed)
    (here : s.worker k = .running c) (keeps : s.Keeps (.run k))
    (h : s.runCoroutine k c = some t) : t.Placed := by
  cases now : s.hand c with
  | empty =>
    simp only [runCoroutine, now] at h
    exact placed_runInstr placed here now h
  | freeing spin w =>
    simp only [runCoroutine, now] at h
    cases h
    have queues := s.queue_unlockSpin spin
    refine placed.handles (c := c) (h := .readying w) (by rw [now]; rfl) (fun _ => nofun) ?_ ?_ ?_
      queues ?_ ?_ ?_ <;> cases spin <;> rfl
  | readying w =>
    simp only [runCoroutine, now] at h
    cases h
    exact placed.readies now (keeps c w here now) rfl rfl rfl (fun _ => rfl) rfl rfl rfl
  | adding w =>
    simp only [runCoroutine, now] at h
    split at h <;> cases h
    · exact placed.handles (c := c) (h := .pushing w) (by rw [now]; rfl)
        (fun v offers => by rw [now]; exact offers) rfl rfl rfl (fun _ => rfl) rfl rfl rfl
    · exact placed.handles (c := c) (h := .empty) (by rw [now]; rfl) (fun _ => nofun) rfl rfl rfl
        (fun _ => rfl) rfl rfl rfl
  | pushing w =>
    simp only [runCoroutine, now] at h
    cases h
    exact placed.adds now rfl rfl rfl (fun _ => rfl) rfl rfl rfl

theorem placed_step {s t : Scheduler} {a : SchedulerAction} (placed : s.Placed) (keeps : s.Keeps a)
    (h : s.step a = some t) : t.Placed := by
  have flag : ∀ m_stop, Placed { s with m_stop } := by
    refine fun m_stop => ⟨placed.tasks, placed.queues, fun c => ?_⟩
    obtain ⟨place, wait, parted, ended, fresh⟩ := placed.fine c
    exact ⟨place, wait, parted, ended, fresh⟩
  cases a with
  | start =>
    cases h
    exact flag false
  | stop =>
    cases h
    exact flag true
  | spawn => exact placed_spawn placed h
  | work k => exact placed_work placed h
  | run k =>
    simp only [step] at h
    split at h
    · exact placed_runCoroutine placed ‹_› keeps h
    · cases h
  | call k call =>
    simp only [step] at h
    split at h
    · rename_i c here
      split at h <;> cases h
      rename_i empty code
      exact placed.goes here (by simp [code]) rfl rfl rfl (fun _ => rfl) rfl
        (fun d ne => by simp [ne]) (by simp [Leaving, code]) .inl
    · cases h

/-- In a run whose coroutines are made `READY` only when no worker runs them or has yet to see that
they are not, a coroutine is at most once in `m_tasks` and with a worker, and one that is
`TERMINATED` is not resumed. -/
theorem one_place {m_threads : ℕ} {as : List SchedulerAction} {s : Scheduler}
    (run : Run step Keeps { m_threads } as s) :
    s.m_tasks.Nodup ∧ (∀ k c, (s.worker k).holds = some c → c ∉ s.m_tasks) ∧
      (∀ j k c, (s.worker j).holds = some c → (s.worker k).holds = some c → j = k) ∧
      ∀ k c, s.worker k = .popped c → s.m_state c ≠ .TERMINATED := by
  have placed : s.Placed := run.invariant (placed_initial m_threads) fun _ _ _ placed keeps next =>
    placed_step placed keeps next
  refine ⟨placed.tasks, ?_, ?_, ?_⟩
  · intro k c held mem
    cases (placed.fine c).place (.worker k) .task held mem
  · intro j k c first second
    cases (placed.fine c).place (.worker j) (.worker k) first second
    rfl
  · intro k c popped
    have here : s.IsAt (.worker k) c := by simp [popped, WorkerPc.holds]
    refine ((placed.fine c).settled here fun j eq => ?_).2.1
    cases eq
    exact (settles (.popped c) popped (fun _ => id) (fun _ => ⟨nofun, nofun⟩) c rfl).2

/-- Two workers, of which the first runs the coroutine 3, which locks a mutex, and the second the
coroutine 4, which joins the queue of the mutex. -/
def contention : List SchedulerAction :=
  [.start, .work 0, .work 1, .spawn, .spawn, .work 0, .work 0, .work 0, .work 1, .work 1, .work 1,
    .call 0 (.lock 7), .run 0, .run 0, .run 0, .call 1 (.lock 7), .run 1, .run 1, .run 1]

/-- The coroutine 3 unlocks the mutex before 4 yields: 4 is in `m_tasks` while it runs. -/
theorem two_places : ∃ s, exec step { m_threads := 2 }
    (contention ++ .call 0 (.unlock 7) :: List.replicate 6 (.run 0)) = some s ∧
      s.worker 1 = .running 4 ∧ 4 ∈ s.m_tasks :=
  ⟨_, rfl, rfl, List.mem_singleton.mpr rfl⟩

/-- The step makes no coroutine `READY`. -/
def plain (s : Scheduler) : SchedulerAction → Bool
  | .run k => match s.worker k with
    | .running c => match s.hand c with
      | .readying _ => false
      | _ => true
    | _ => true
  | _ => true

theorem keeps_of_plain {s : Scheduler} {a : SchedulerAction} (plain : s.plain a = true) :
    s.Keeps a := by
  cases a with
  | run k =>
    intro c w here now
    simp [Scheduler.plain, here, now] at plain
  | _ => trivial

/-- The coroutine 3 unlocks it when 4 has yielded and its worker has seen it `BLOCKED`. -/
theorem one_place_contention : ∃ as s, Run step Keeps { m_threads := 2 } as s ∧
    s.worker 1 = .popped 4 ∧ s.m_tasks.Nodup ∧
      (∀ k c, (s.worker k).holds = some c → c ∉ s.m_tasks) ∧
      (∀ j k c, (s.worker j).holds = some c → (s.worker k).holds = some c → j = k) ∧
      ∀ k c, s.worker k = .popped c → s.m_state c ≠ .TERMINATED := by
  have reached : ∃ s t u, Run step (fun s a => s.plain a = true) { m_threads := 2 } (contention ++
      [.run 1, .work 1, .call 0 (.unlock 7), .run 0, .run 0, .run 0]) s ∧
      s.worker 0 = .running 3 ∧ s.hand 3 = .readying 4 ∧ s.worker 1 = .idle ∧
      (∀ j, s.worker (j + 2) = .ended) ∧ step s (.run 0) = some t ∧
      Run step (fun s a => s.plain a = true) t [.run 0, .run 0, .work 1, .work 1] u ∧
      u.worker 1 = .popped 4 :=
    ⟨_, _, _, .of_guarded rfl, rfl, rfl, rfl, fun _ => rfl, rfl, .of_guarded rfl, rfl⟩
  obtain ⟨s, t, u, before, zero, hand, one, others, next, after, popped⟩ := reached
  have keeps : s.Keeps (.run 0) := by
    intro c w here now j
    cases zero.symm.trans here
    cases hand.symm.trans now
    match j with
    | 0 => simp [zero]
    | 1 => simp [one]
    | j + 2 => simp [others]
  have run := ((before.mono fun _ _ => keeps_of_plain).snoc keeps next).trans
    (after.mono fun _ _ => keeps_of_plain)
  exact ⟨_, u, run, popped, one_place run⟩

end Scheduler

end CRpc
