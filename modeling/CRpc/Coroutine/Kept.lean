import CRpc.Coroutine.Latches
import CRpc.Lib.Runs

/-! No coroutine is lost. Whatever the workers and the coroutines do, one that has been made is in
`m_tasks`, with a worker, in a queue or in a hand until it is `TERMINATED`, as long as `addTask`
takes what is given to it. -/
namespace CRpc

/-- A worker that calls `addTask`. -/
def WorkerPc.adds : WorkerPc → Bool
  | .adding _ => true
  | _ => false

def Hand.adds : Hand → Bool
  | .adding _ => true
  | _ => false

namespace Scheduler
open Function Transition

/-- `addTask` takes what a worker or a coroutine gives to it. -/
def Takes (s : Scheduler) : SchedulerAction → Prop
  | .work k => (s.worker k).adds = true → s.accepts = true
  | .run k => ∀ c ∈ (s.worker k).holds, (s.hand c).adds = true → s.accepts = true
  | _ => True

instance (s : Scheduler) : DecidablePred s.Takes := by
  rintro ⟨⟩ <;> dsimp only [Takes] <;> infer_instance

/-- What a step keeps hold of: a place is lost only where the coroutine is seen not to be `READY`,
and whoever waits no longer is `READY` and in a place. -/
structure Retains (s t : Scheduler) : Prop where
  places : ∀ d, (∃ p, s.IsAt p d) →
    (∃ p, t.IsAt p d) ∨ s.m_state d ≠ .READY ∧ t.m_state d = s.m_state d
  waits : ∀ d, (∃ q, s.Awaits q d) → (∃ q, t.Awaits q d) ∨ t.m_state d = .READY ∧ ∃ p, t.IsAt p d
  state : ∀ d, t.m_state d = s.m_state d ∨ t.m_state d = .TERMINATED ∨ (∃ q, t.Awaits q d) ∨
    t.m_state d = .READY ∧ ∃ p, t.IsAt p d

section Steps
variable {s t : Scheduler} {k c : ℕ}

theorem Retains.goes (tasks : t.m_tasks = s.m_tasks)
    (worker : ∀ j, (t.worker j).holds = (s.worker j).holds)
    (hand : ∀ x, (t.hand x).wakes = (s.hand x).wakes ∧ (t.hand x).offers = (s.hand x).offers)
    (queues : ∀ q, ∀ d ∈ s.queue q, d ∈ t.queue q)
    (state : ∀ d, t.m_state d = s.m_state d ∨ t.m_state d = .TERMINATED ∨ ∃ q, t.Awaits q d) :
    Retains s t := by
  refine ⟨?_, ?_, fun d => (state d).imp_right fun other => other.imp_right .inl⟩
  · rintro d ⟨_ | j | x, here⟩
    · exact .inl ⟨.task, by simpa [tasks] using here⟩
    · exact .inl ⟨.worker j, by simpa [worker] using here⟩
    · exact .inl ⟨.hand x, by simpa [(hand x).2] using here⟩
  · rintro d ⟨q | x, waiting⟩
    · exact .inl ⟨.queue q, queues q d waiting⟩
    · exact .inl ⟨.hand x, by simpa [(hand x).1] using waiting⟩

theorem Retains.takes {q : Spin} {w : ℕ} {rest : List ℕ} {h : Hand} (front : s.queue q = w :: rest)
    (empty : s.hand c = .empty) (wakes : h.wakes = some w) (tasks : t.m_tasks = s.m_tasks)
    (worker : t.worker = s.worker) (hand : t.hand = update s.hand c h) (queue : t.queue q = rest)
    (queues : ∀ q', q' ≠ q → t.queue q' = s.queue q') (state : t.m_state = s.m_state) :
    Retains s t := by
  have others : ∀ x d, (s.hand x).offers = some d ∨ (s.hand x).wakes = some d →
      t.hand x = s.hand x := by
    intro x d held
    have ne : x ≠ c := by
      rintro rfl
      simp [empty, Hand.offers, Hand.wakes] at held
    rw [hand, update_of_ne ne]
  refine ⟨?_, ?_, fun d => .inl (congrFun state d)⟩
  · rintro d ⟨_ | j | x, here⟩
    · exact .inl ⟨.task, by simpa [tasks] using here⟩
    · exact .inl ⟨.worker j, by simpa [worker] using here⟩
    · exact .inl ⟨.hand x, by simpa [others x d (.inl here)] using here⟩
  · rintro d ⟨q' | x, waiting⟩
    · rw [Awaits] at waiting
      by_cases same : q' = q
      · subst same
        rw [front] at waiting
        rcases List.mem_cons.mp waiting with rfl | behind
        · exact .inl ⟨.hand c, by simp [hand, wakes]⟩
        · exact .inl ⟨.queue q', by simpa [queue] using behind⟩
      · exact .inl ⟨.queue q', by simpa [queues q' same] using waiting⟩
    · exact .inl ⟨.hand x, by simpa [others x d (.inr waiting)] using waiting⟩

theorem retains_work (takes : s.Takes (.work k)) (h : s.work k = some t) : Retains s t := by
  have turns : ∀ (t : Scheduler) (pc : WorkerPc), pc.holds = (s.worker k).holds →
      t.worker = update s.worker k pc → t.m_tasks = s.m_tasks → t.hand = s.hand →
      t.mutex = s.mutex → t.cv = s.cv → t.m_state = s.m_state → Retains s t := by
    intro t pc holds worker tasks hand mutex cv state
    refine .goes tasks ?_ (fun x => by simp [hand]) ?_ fun d => .inl (congrFun state d)
    · intro j
      by_cases same : j = k
      · rw [worker, same, update_self, holds]
      · rw [worker, update_of_ne same]
    · rintro (m | v) d mem
      · simpa [queue, mutex] using mem
      · simpa [queue, cv] using mem
  cases now : s.worker k with
  | ended =>
    simp only [work, now] at h
    obtain ⟨-, h⟩ := Option.ite_none_right_eq_some.mp h
    cases h
    exact turns _ .idle (by rw [now]; rfl) rfl rfl rfl rfl rfl rfl
  | idle =>
    simp only [work, now] at h
    split at h <;> cases h
    · exact turns _ .ended (by rw [now]; rfl) rfl rfl rfl rfl rfl rfl
    · exact turns _ .looking (by rw [now]; rfl) rfl rfl rfl rfl rfl rfl
  | looking =>
    simp only [work, now] at h
    split at h <;> cases h
    · exact turns _ (.timing none) (by rw [now]; rfl) rfl rfl rfl rfl rfl rfl
    · rename_i c rest front
      refine ⟨?_, fun d waiting => .inl ?_, fun d => .inl rfl⟩
      · rintro d ⟨_ | j | x, here⟩
        · rw [IsAt, front] at here
          rcases List.mem_cons.mp here with rfl | behind
          · exact .inl ⟨.worker k, by simp [WorkerPc.holds]⟩
          · exact .inl ⟨.task, behind⟩
        · have ne : j ≠ k := by
            rintro rfl
            simp [now, WorkerPc.holds] at here
          exact .inl ⟨.worker j, by simpa [ne] using here⟩
        · exact .inl ⟨.hand x, here⟩
      · exact waiting.imp fun q => awaits_same (fun _ => rfl) rfl q d
  | popped c =>
    simp only [work, now] at h
    cases h
    exact turns _ (.running c) (by rw [now]; rfl) rfl rfl rfl rfl rfl rfl
  | running c => simp [work, now] at h
  | returned c =>
    simp only [work, now] at h
    split at h <;> cases h
    · exact turns _ (.timing (some c)) (by rw [now]; rfl) rfl rfl rfl rfl rfl rfl
    · rename_i unready
      refine ⟨?_, fun d waiting => .inl ?_, fun d => .inl rfl⟩
      · rintro d ⟨_ | j | x, here⟩
        · exact .inl ⟨.task, here⟩
        · by_cases same : j = k
          · subst same
            obtain rfl : c = d := by simpa [now, WorkerPc.holds] using here
            exact .inr ⟨unready, rfl⟩
          · exact .inl ⟨.worker j, by simpa [same] using here⟩
        · exact .inl ⟨.hand x, here⟩
      · exact waiting.imp fun q => awaits_same (fun _ => rfl) rfl q d
  | timing c =>
    cases c with
    | none =>
      simp only [work, now] at h
      cases h
      exact turns _ .idle (by rw [now]; rfl) rfl rfl rfl rfl rfl rfl
    | some c =>
      simp only [work, now] at h
      cases h
      exact turns _ (.adding c) (by rw [now]; rfl) rfl rfl rfl rfl rfl rfl
  | adding c =>
    have accepted : s.accepts = true := takes (by rw [now]; rfl)
    simp only [work, now, accepted, if_true] at h
    cases h
    exact turns _ (.pushing c) (by rw [now]; rfl) rfl rfl rfl rfl rfl rfl
  | pushing c =>
    simp only [work, now] at h
    cases h
    refine ⟨?_, fun d waiting => .inl ?_, fun d => .inl rfl⟩
    · rintro d ⟨_ | j | x, here⟩
      · exact .inl ⟨.task, List.mem_append_left _ here⟩
      · by_cases same : j = k
        · subst same
          obtain rfl : c = d := by simpa [now, WorkerPc.holds] using here
          exact .inl ⟨.task, by simp⟩
        · exact .inl ⟨.worker j, by simpa [same] using here⟩
      · exact .inl ⟨.hand x, here⟩
    · exact waiting.imp fun q => awaits_same (fun _ => rfl) rfl q d

theorem retains_runInstr (latched : s.Latched) (here : s.worker k = .running c)
    (empty : s.hand c = .empty) (h : s.runInstr k c = some t) : Retains s t := by
  have goes : ∀ t : Scheduler, t.m_tasks = s.m_tasks → t.worker = s.worker → t.hand = s.hand →
      (∀ q, t.queue q = s.queue q) → t.m_state = s.m_state → Retains s t :=
    fun t tasks worker hand queues state => .goes tasks (fun j => by rw [worker])
      (fun x => by simp [hand]) (fun q d mem => by rwa [queues]) fun d => .inl (congrFun state d)
  cases code : s.code c with
  | nil => simp [runInstr, code] at h
  | cons instr rest =>
    cases instr with
    | lock m | unlock m =>
      simp only [runInstr, code] at h
      split at h <;> cases h
      · exact goes _ rfl rfl rfl (fun _ => rfl) rfl
      · exact goes _ rfl rfl rfl (fun _ => rfl) rfl
    | tryLock m =>
      simp only [runInstr, code] at h
      split at h <;> cases h
      · rename_i mutex taken
        have same := waitQueue_tryLock taken
        exact goes _ rfl rfl rfl (fun q => queue_mutex (by rfl) (by rfl) (.inr same)) rfl
      · exact goes _ rfl rfl rfl (fun _ => rfl) rfl
    | enqueue m =>
      simp only [runInstr, code] at h
      cases h
      refine .goes rfl (fun _ => rfl) (fun _ => ⟨rfl, rfl⟩) ?_ fun d => ?_
      · intro q d mem
        by_cases same : q = .mutex m
        · subst same
          simpa [queue, CoroutineMutex.enqueue] using .inl mem
        · rwa [queue_mutex (by rfl) (by rfl) (.inl same)]
      · by_cases same : d = c
        · subst same
          exact .inr (.inr ⟨.queue (.mutex m), by simp [queue, CoroutineMutex.enqueue]⟩)
        · exact .inl (update_of_ne same ..)
    | own m =>
      simp only [runInstr, code] at h
      cases h
      exact goes _ rfl rfl rfl (fun q => queue_mutex (by rfl) (by rfl) (.inr (by rfl))) rfl
    | release m =>
      simp only [runInstr, code] at h
      split at h <;> cases h
      · rename_i queue_nil
        exact goes _ rfl rfl rfl (fun q => queue_mutex (by rfl) (by rfl)
          (.inr (by simp [CoroutineMutex.release, queue_nil]))) rfl
      · rename_i w ws front
        refine .takes (q := .mutex m) (w := w) front empty rfl rfl rfl rfl ?_ ?_ rfl
        · simp [queue, CoroutineMutex.release, front]
        · exact fun q ne => queue_mutex (by rfl) (by rfl) (.inl ne)
    | cvLock v =>
      simp only [runInstr, code] at h
      split at h <;> cases h
      exact goes _ rfl rfl rfl (fun q => queue_cv (by rfl) (by rfl) (.inr (by rfl))) rfl
    | cvPush v mutex =>
      simp only [runInstr, code] at h
      cases h
      refine .goes rfl (fun _ => rfl) (fun _ => ⟨rfl, rfl⟩) ?_ fun _ => .inl rfl
      intro q d mem
      by_cases same : q = .cv v
      · subst same
        simpa [queue] using .inl mem
      · rwa [queue_cv (s := s) (by rfl) (by rfl) (.inl same)]
    | setWaiting =>
      -- it has joined the queue, and nobody takes it out while it holds the spin lock
      obtain ⟨v, inside⟩ : ∃ v, Within v (s.code c) := by
        rcases latched.phase c with out | ⟨v, before | within⟩
        · simp [code, CoroutineInstr.outer] at out
        · simp [code] at before
        · exact ⟨v, within⟩
      have joined := latched.joined c v inside (by simp [code])
      simp only [runInstr, code] at h
      cases h
      refine .goes rfl (fun _ => rfl) (fun _ => ⟨rfl, rfl⟩) (fun _ _ => id) fun d => ?_
      by_cases same : d = c
      · subst same
        exact .inr (.inr ⟨.queue (.cv v), joined⟩)
      · exact .inl (update_of_ne same ..)
    | cvPop v | cvPopAll v =>
      simp only [runInstr, code] at h
      split at h <;> cases h
      · exact goes _ rfl rfl rfl (fun _ => rfl) rfl
      · rename_i w ws front
        refine .takes (q := .cv v) (w := w) front empty rfl rfl rfl rfl ?_ ?_ rfl
        · simp [queue]
        · exact fun q ne => queue_cv (by rfl) (by rfl) (.inl ne)
    | free spin =>
      simp only [runInstr, code] at h
      cases h
      have queues := s.queue_unlockSpin spin
      cases spin <;> exact goes _ rfl rfl rfl queues rfl
    | yield =>
      simp only [runInstr, code] at h
      cases h
      refine .goes rfl (fun j => ?_) (fun _ => ⟨rfl, rfl⟩) (fun _ _ => id) fun _ => .inl rfl
      by_cases same : j = k
      · subst same
        simp [here, WorkerPc.holds]
      · simp [same]
    | terminate =>
      simp only [runInstr, code] at h
      cases h
      refine .goes rfl (fun _ => rfl) (fun _ => ⟨rfl, rfl⟩) (fun _ _ => id) fun d => ?_
      by_cases same : d = c
      · subst same
        exact .inr (.inl (update_self ..))
      · exact .inl (update_of_ne same ..)
    | halt => simp [runInstr, code] at h

theorem retains_runCoroutine (latched : s.Latched) (here : s.worker k = .running c)
    (takes : s.Takes (.run k)) (h : s.runCoroutine k c = some t) : Retains s t := by
  have hands : ∀ (t : Scheduler) (v : Hand), v.wakes = (s.hand c).wakes →
      v.offers = (s.hand c).offers → t.hand = update s.hand c v → t.m_tasks = s.m_tasks →
      t.worker = s.worker → (∀ q, t.queue q = s.queue q) → t.m_state = s.m_state →
      Retains s t := by
    intro t v wakes offers hand tasks worker queues state
    refine .goes tasks (fun j => by rw [worker]) (fun x => ?_) (fun q d mem => by rwa [queues])
      fun d => .inl (congrFun state d)
    by_cases same : x = c
    · subst same
      simp [hand, wakes, offers]
    · simp [hand, same]
  cases now : s.hand c with
  | empty =>
    simp only [runCoroutine, now] at h
    exact retains_runInstr latched here now h
  | freeing spin w =>
    simp only [runCoroutine, now] at h
    cases h
    have queues := s.queue_unlockSpin spin
    cases spin <;>
      exact hands _ (.readying w) (by rw [now]; rfl) (by rw [now]; rfl) rfl rfl rfl queues rfl
  | readying w =>
    simp only [runCoroutine, now] at h
    cases h
    have offered : (update s.hand c (.adding w) c).offers = some w := by simp [Hand.offers]
    have others : ∀ x d, (s.hand x).offers = some d ∨ (s.hand x).wakes = some d ∧ d ≠ w →
        update s.hand c (.adding w) x = s.hand x := by
      intro x d held
      refine update_of_ne ?_ ..
      rintro rfl
      simp only [now, Hand.offers, Hand.wakes, Option.some.injEq] at held
      rcases held with held | ⟨rfl, ne⟩
      · cases held
      · exact ne rfl
    refine ⟨?_, fun d waiting => ?_, fun d => ?_⟩
    · rintro d ⟨_ | j | x, at_⟩
      · exact .inl ⟨.task, at_⟩
      · exact .inl ⟨.worker j, at_⟩
      · exact .inl ⟨.hand x, by simpa [others x d (.inl at_)] using at_⟩
    · by_cases same : d = w
      · subst same
        exact .inr ⟨update_self .., .hand c, offered⟩
      · obtain ⟨q | x, waiting⟩ := waiting
        · exact .inl ⟨.queue q, by cases q <;> exact waiting⟩
        · exact .inl ⟨.hand x, by simpa [others x d (.inr ⟨waiting, same⟩)] using waiting⟩
    · by_cases same : d = w
      · subst same
        exact .inr (.inr (.inr ⟨update_self .., .hand c, offered⟩))
      · exact .inl (update_of_ne same ..)
  | adding w =>
    have accepted : s.accepts = true :=
      takes c (by rw [here]; rfl) (by rw [now]; rfl)
    simp only [runCoroutine, now, accepted, if_true] at h
    cases h
    exact hands _ (.pushing w) (by rw [now]; rfl) (by rw [now]; rfl) rfl rfl rfl (fun _ => rfl) rfl
  | pushing w =>
    simp only [runCoroutine, now] at h
    cases h
    refine ⟨?_, ?_, fun d => .inl rfl⟩
    · rintro d ⟨_ | j | x, at_⟩
      · exact .inl ⟨.task, List.mem_append_left _ at_⟩
      · exact .inl ⟨.worker j, at_⟩
      · by_cases same : x = c
        · subst same
          obtain rfl : w = d := by simpa [now, Hand.offers] using at_
          exact .inl ⟨.task, by simp⟩
        · exact .inl ⟨.hand x, by simpa [same] using at_⟩
    · rintro d ⟨q | x, waiting⟩
      · exact .inl ⟨.queue q, by cases q <;> exact waiting⟩
      · have ne : x ≠ c := by
          rintro rfl
          simp [now, Hand.wakes] at waiting
        exact .inl ⟨.hand x, by simpa [ne] using waiting⟩

theorem retains_step {a : SchedulerAction} (latched : s.Latched) (takes : s.Takes a)
    (h : s.step a = some t) : Retains s t := by
  cases a with
  | start | stop =>
    cases h
    exact .goes rfl (fun _ => rfl) (fun _ => ⟨rfl, rfl⟩) (fun _ _ => id) fun _ => .inl rfl
  | spawn =>
    obtain ⟨-, h⟩ := Option.ite_none_right_eq_some.mp h
    cases h
    refine ⟨?_, fun d waiting => .inl ?_, fun _ => .inl rfl⟩
    · rintro d ⟨_ | j | x, here⟩
      · exact .inl ⟨.task, List.mem_append_left _ here⟩
      · exact .inl ⟨.worker j, here⟩
      · exact .inl ⟨.hand x, here⟩
    · exact waiting.imp fun q => awaits_same (fun _ => rfl) rfl q d
  | work k => exact retains_work takes h
  | run k =>
    simp only [step] at h
    split at h
    · exact retains_runCoroutine latched ‹_› takes h
    · cases h
  | call k call =>
    simp only [step] at h
    split at h
    · split at h <;> cases h
      exact .goes rfl (fun _ => rfl) (fun _ => ⟨rfl, rfl⟩) (fun _ _ => id) fun _ => .inl rfl
    · cases h

def spawned (s : Scheduler) : SchedulerAction → List ℕ
  | .spawn => [s.m_coroutine_id + 1]
  | _ => []

/-- Who is not `READY` waits, and who has been made is somewhere. -/
structure Kept (s : Scheduler) (made : List ℕ) : Prop where
  latched : s.Latched
  waits : ∀ c, s.m_state c = .READY ∨ s.m_state c = .TERMINATED ∨ ∃ q, s.Awaits q c
  somewhere : ∀ c ∈ made, s.m_state c = .TERMINATED ∨ (∃ q, s.Awaits q c) ∨ ∃ p, s.IsAt p c

theorem Kept.step {made : List ℕ} {a : SchedulerAction} (kept : s.Kept made) (takes : s.Takes a)
    (h : s.step a = some t) : t.Kept (made ++ s.spawned a) := by
  have retains := retains_step kept.latched takes h
  have still : ∀ c, (∃ q, s.Awaits q c) →
      t.m_state c = .TERMINATED ∨ (∃ q, t.Awaits q c) ∨ ∃ p, t.IsAt p c := fun c waiting =>
    (retains.waits c waiting).elim (fun w => .inr (.inl w)) fun ready => .inr (.inr ready.2)
  refine ⟨latched_step kept.latched h, fun c => ?_, fun c mem => ?_⟩
  · rcases retains.state c with same | terminated | waiting | ⟨ready, -⟩
    · rcases kept.waits c with ready | terminated | waiting
      · exact .inl (same.trans ready)
      · exact .inr (.inl (same.trans terminated))
      · rcases retains.waits c waiting with waiting | ⟨ready, -⟩
        · exact .inr (.inr waiting)
        · exact .inl ready
    · exact .inr (.inl terminated)
    · exact .inr (.inr waiting)
    · exact .inl ready
  · rcases List.mem_append.mp mem with old | new
    · rcases kept.somewhere c old with terminated | waiting | here
      · rcases retains.state c with same | terminated | waiting | ⟨-, here⟩
        · exact .inl (same.trans terminated)
        · exact .inl terminated
        · exact .inr (.inl waiting)
        · exact .inr (.inr here)
      · exact still c waiting
      · rcases retains.places c here with here | ⟨unready, same⟩
        · exact .inr (.inr here)
        · rcases kept.waits c with ready | terminated | waiting
          · exact absurd ready unready
          · exact .inl (same.trans terminated)
          · exact still c waiting
    · cases a with
      | spawn =>
        obtain ⟨-, h⟩ := Option.ite_none_right_eq_some.mp h
        cases h
        obtain rfl := List.mem_singleton.mp new
        exact .inr (.inr ⟨.task, by simp⟩)
      | _ => cases new

end Steps

/-- No coroutine is lost. In every run whose `addTask` takes what is given to it, a coroutine that
has been made is `TERMINATED`, or waits in a queue or a hand, where it can be made `READY`, or is
`READY` and in `m_tasks`, with a worker, or in a hand to be added. -/
theorem none_lost {m_threads : ℕ} {as : List SchedulerAction} {s : Scheduler}
    (run : Run step Takes { m_threads } as s) {c : ℕ}
    (made : c ∈ gather step spawned { m_threads } as) :
    s.m_state c = .TERMINATED ∨ (∃ q, s.Awaits q c) ∨
      s.m_state c = .READY ∧ ∃ p, s.IsAt p c := by
  have kept : s.Kept (gather step spawned { m_threads } as) :=
    run.gathers spawned (P := Kept) ⟨latched_initial m_threads, fun _ => .inl rfl, nofun⟩
      fun _ _ _ _ kept takes next => kept.step takes next
  rcases kept.somewhere c made with terminated | waiting | here
  · exact .inl terminated
  · exact .inr (.inl waiting)
  · rcases kept.waits c with ready | terminated | waiting
    · exact .inr (.inr ⟨ready, here⟩)
    · exact .inl terminated
    · exact .inr (.inl waiting)

theorem loser_kept : ∃ s, Run step Takes { m_threads := 2 } contention s ∧
    s.m_state 4 = .BLOCKED ∧ ∃ q, s.Awaits q 4 := by
  have done : (exec (guarded step Takes) { m_threads := 2 } contention).any
      (fun s => s.m_state 4 = .BLOCKED) = true := by decide +kernel
  have made : 4 ∈ gather step spawned { m_threads := 2 } contention := by decide +kernel
  obtain ⟨s, run, seen⟩ := (Option.any_eq_true _ _).mp done
  have run : Run step Takes { m_threads := 2 } contention s := .of_guarded run
  have blocked : s.m_state 4 = .BLOCKED := of_decide_eq_true seen
  rcases none_lost run made with terminated | waiting | ⟨ready, -⟩
  · cases blocked.symm.trans terminated
  · exact ⟨s, run, blocked, waiting⟩
  · cases blocked.symm.trans ready

end Scheduler

end CRpc
