import CRpc.Coroutine.Scheduler
import CRpc.Lib.Runs
import CRpc.Lib.Sums

/-! `Scheduler::start` and `stop` with the threads they make and wait for. -/
namespace CRpc
open Function Transition

/-- Who calls `stop`: a thread of the program, or the coroutine that a worker runs. -/
inductive Stopper
  | thread (n : ℕ)
  | worker (k : ℕ)
  deriving DecidableEq

/-- A scheduler with `workerThreads`, whose objects have a thread or none. A thread that was created
has yet to count itself; `stopping` tells who is in the loop of `stop`, and `adding` how many calls
of `addTask` have passed its test. No step reads `resumed`, which worker has resumed what. -/
structure Lifecycle where
  scheduler : Scheduler
  workerThreads : List (Option ℕ) := []
  created : ℕ → Bool := fun _ => false
  stopping : Stopper → Bool := fun _ => false
  adding : ℕ := 0
  terminated : Bool := false
  resumed : List (ℕ × ℕ) := []

/-- `returns` is the end of `stop`, `enter` a new thread's way into `run`; `test` and `push` are the
two halves of `addTask`. -/
inductive LifecycleAction
  | start
  | stop (caller : Stopper)
  | returns (caller : Stopper)
  | enter (k : ℕ)
  | work (k : ℕ)
  | run (k : ℕ)
  | call (k : ℕ) (call : CoroutineCall)
  | test
  | push

/-- Counted in `m_runningThreads`. -/
@[simp] def WorkerPc.live : WorkerPc → ℕ
  | .ended => 0
  | _ => 1

/-- On the way to `resume`, which `m_stop` does not keep it from. -/
@[simp] def WorkerPc.due : WorkerPc → ℕ
  | .looking | .popped _ => 1
  | _ => 0

@[simp] def WorkerPc.resumes : WorkerPc → List ℕ
  | .popped c => [c]
  | _ => []

theorem WorkerPc.live_eq_zero {pc : WorkerPc} : pc.live = 0 ↔ pc = .ended := by
  cases pc <;> simp

/-- The step of a worker or of its coroutine: where the worker is afterwards, and what it makes of
the count. -/
structure Scheduler.Moved (s t : Scheduler) (k : ℕ) (pc : WorkerPc) : Prop where
  worker : t.worker = update s.worker k pc
  threads : t.m_threads = s.m_threads
  stop : t.m_stop = s.m_stop
  count : t.m_runningThreads = s.m_runningThreads - ((s.worker k).live - pc.live)
  due : s.m_stop = true → pc.due + (s.worker k).resumes.length ≤ (s.worker k).due

namespace Scheduler

theorem moved_work {s t : Scheduler} {k : ℕ} (live : s.worker k ≠ .ended)
    (h : s.work k = some t) : ∃ pc, Moved s t k pc := by
  cases now : s.worker k with
  | ended => exact absurd now live
  | running c => simp [work, now] at h
  | idle =>
    simp only [work, now] at h
    split at h
    · rename_i stopped
      cases h
      exact ⟨.ended, rfl, rfl, rfl, by simp [now], fun _ => by simp [now]⟩
    · rename_i goes
      cases h
      exact ⟨.looking, rfl, rfl, rfl, by simp [now], fun stopped => absurd stopped goes⟩
  | looking | returned c | adding c =>
    simp only [work, now] at h
    split at h <;> cases h <;> exact ⟨_, rfl, rfl, rfl, by simp [now], fun _ => by simp [now]⟩
  | popped c | pushing c =>
    simp only [work, now] at h
    cases h
    exact ⟨_, rfl, rfl, rfl, by simp [now], fun _ => by simp [now]⟩
  | timing c =>
    cases c <;>
    · simp only [work, now] at h
      cases h
      exact ⟨_, rfl, rfl, rfl, by simp [now], fun _ => by simp [now]⟩

theorem moved_runInstr {s t : Scheduler} {k c : ℕ} (here : s.worker k = .running c)
    (h : s.runInstr k c = some t) : ∃ pc, Moved s t k pc := by
  have same : s.worker = update s.worker k (.running c) := by rw [← here, update_eq_self]
  have stays : ∀ u : Scheduler, u.worker = s.worker → u.m_threads = s.m_threads →
      u.m_stop = s.m_stop → u.m_runningThreads = s.m_runningThreads →
      ∃ pc, Moved s u k pc := fun u worker threads stop count =>
    ⟨.running c, worker.trans same, threads, stop, by simp [count, here], by simp [here]⟩
  cases code : s.code c with
  | nil => simp [runInstr, code] at h
  | cons instr rest =>
    cases instr with
    | lock m | unlock m | tryLock m | release m | cvLock v | cvPop v | cvPopAll v =>
      simp only [runInstr, code] at h
      split at h <;> cases h <;> exact stays _ rfl rfl rfl rfl
    | enqueue m | own m | setWaiting | terminate | cvPush v mutex =>
      simp only [runInstr, code] at h
      cases h
      exact stays _ rfl rfl rfl rfl
    | free spin =>
      simp only [runInstr, code] at h
      cases h
      cases spin <;> exact stays _ rfl rfl rfl rfl
    | yield =>
      simp only [runInstr, code] at h
      cases h
      exact ⟨.returned c, rfl, rfl, rfl, by simp [here], by simp [here]⟩
    | halt => simp [runInstr, code] at h

theorem moved_runCoroutine {s t : Scheduler} {k c : ℕ} (here : s.worker k = .running c)
    (h : s.runCoroutine k c = some t) : ∃ pc, Moved s t k pc := by
  have stays : ∀ u : Scheduler, u.worker = s.worker → u.m_threads = s.m_threads →
      u.m_stop = s.m_stop → u.m_runningThreads = s.m_runningThreads →
      ∃ pc, Moved s u k pc := fun u worker threads stop count =>
    ⟨s.worker k, by rw [worker, update_eq_self], threads, stop, by simp [count],
      fun _ => by simp [here]⟩
  cases now : s.hand c with
  | empty =>
    simp only [runCoroutine, now] at h
    exact moved_runInstr here h
  | freeing spin w =>
    simp only [runCoroutine, now] at h
    cases h
    cases spin <;> exact stays _ rfl rfl rfl rfl
  | adding w =>
    simp only [runCoroutine, now] at h
    split at h <;> cases h <;> exact stays _ rfl rfl rfl rfl
  | readying w | pushing w =>
    simp only [runCoroutine, now] at h
    cases h
    exact stays _ rfl rfl rfl rfl

theorem moved_run {s t : Scheduler} {k : ℕ} (h : s.step (.run k) = some t) :
    ∃ c, s.worker k = .running c ∧ ∃ pc, Moved s t k pc := by
  simp only [step] at h
  split at h
  · rename_i c here
    exact ⟨c, here, moved_runCoroutine here h⟩
  · cases h

theorem moved_call {s t : Scheduler} {k : ℕ} {call : CoroutineCall}
    (h : s.step (.call k call) = some t) : ∃ c, s.worker k = .running c ∧ ∃ pc, Moved s t k pc := by
  simp only [step] at h
  split at h
  · rename_i c here
    split at h <;> cases h
    exact ⟨c, here, s.worker k, by rw [update_eq_self], rfl, rfl, by simp, fun _ => by simp [here]⟩
  · cases h

end Scheduler

namespace Lifecycle

/-- `std::vector::resize`; what it takes off the end is destroyed. -/
def resize (workerThreads : List (Option ℕ)) (m_threads : ℕ) : List (Option ℕ) :=
  workerThreads.take m_threads ++ List.replicate (m_threads - workerThreads.length) none

/-- Destroying a `std::thread` that nobody has joined ends the process. -/
def start (s : Lifecycle) : Lifecycle :=
  if s.scheduler.m_stop = false then s
  else if (s.workerThreads.drop s.scheduler.m_threads).any Option.isSome then
    { s with terminated := true }
  else { s with
    scheduler := { s.scheduler with m_stop := false }
    workerThreads := resize s.workerThreads s.scheduler.m_threads ++
      (List.range s.scheduler.m_threads).map some
    created := fun k => decide (k < s.scheduler.m_threads) }

/-- A coroutine calls what it likes while a worker runs it; a thread of the program, always. -/
def calls (s : Lifecycle) : Stopper → Bool
  | .thread _ => true
  | .worker k => match s.scheduler.worker k with
    | .running _ => true
    | _ => false

/-- `stop` up to its loop; a scheduler that is stopped already returns at once. -/
def stop (s : Lifecycle) (caller : Stopper) : Option Lifecycle :=
  if s.stopping caller = false ∧ s.calls caller then
    if s.scheduler.m_stop then some s
    else some { s with
      scheduler := { s.scheduler with m_stop := true }
      stopping := update s.stopping caller true }
  else none

/-- `while(m_runningThreads!=0);` ends. -/
def returns (s : Lifecycle) (caller : Stopper) : Option Lifecycle :=
  if s.stopping caller ∧ s.scheduler.m_runningThreads = 0 then
    some { s with stopping := update s.stopping caller false }
  else none

/-- `StartCoroutine` and `m_runningThreads++`. -/
def enter (s : Lifecycle) (k : ℕ) : Option Lifecycle :=
  if s.created k then
    some { s with
      created := update s.created k false
      scheduler := { s.scheduler with
        m_coroutine_id := s.scheduler.m_coroutine_id + 1
        m_runningThreads := s.scheduler.m_runningThreads + 1
        worker := update s.scheduler.worker k .idle } }
  else none

/-- A worker in `run`. -/
def work (s : Lifecycle) (k : ℕ) : Option Lifecycle :=
  if s.scheduler.worker k = .ended then none
  else (s.scheduler.work k).map fun scheduler =>
    { s with scheduler, resumed := s.resumed ++ (s.scheduler.worker k).resumes.map (k, ·) }

/-- A coroutine that is in the loop of `stop` does nothing else. -/
def step (s : Lifecycle) (a : LifecycleAction) : Option Lifecycle :=
  if s.terminated then none
  else match a with
  | .start => some s.start
  | .stop caller => s.stop caller
  | .returns caller => s.returns caller
  | .enter k => s.enter k
  | .work k => s.work k
  | .run k =>
    if s.stopping (.worker k) then none
    else (s.scheduler.step (.run k)).map fun scheduler => { s with scheduler }
  | .call k call =>
    if s.stopping (.worker k) then none
    else (s.scheduler.step (.call k call)).map fun scheduler => { s with scheduler }
  | .test => if s.scheduler.accepts then some { s with adding := s.adding + 1 } else none
  | .push =>
    if 0 < s.adding then
      some { s with
        adding := s.adding - 1
        scheduler := { s.scheduler with
          m_coroutine_id := s.scheduler.m_coroutine_id + 1
          m_tasks := s.scheduler.m_tasks ++ [s.scheduler.m_coroutine_id + 1] } }
    else none

inductive Move (s : Lifecycle) : LifecycleAction → Lifecycle → Prop
  | startsNot (goes : s.scheduler.m_stop = false) : Move s .start s
  | terminates (stopped : s.scheduler.m_stop = true)
      (joinable : (s.workerThreads.drop s.scheduler.m_threads).any Option.isSome = true) :
      Move s .start { s with terminated := true }
  | starts (stopped : s.scheduler.m_stop = true)
      (free : (s.workerThreads.drop s.scheduler.m_threads).any Option.isSome = false) :
      Move s .start { s with
        scheduler := { s.scheduler with m_stop := false }
        workerThreads := resize s.workerThreads s.scheduler.m_threads ++
          (List.range s.scheduler.m_threads).map some
        created := fun k => decide (k < s.scheduler.m_threads) }
  | stopsNot {caller} (stopped : s.scheduler.m_stop = true) : Move s (.stop caller) s
  | stops {caller} (goes : s.scheduler.m_stop = false) (calls : s.calls caller = true) :
      Move s (.stop caller) { s with
        scheduler := { s.scheduler with m_stop := true }
        stopping := update s.stopping caller true }
  | returns {caller} (waits : s.stopping caller = true)
      (none : s.scheduler.m_runningThreads = 0) :
      Move s (.returns caller) { s with stopping := update s.stopping caller false }
  | enters {k} (created : s.created k = true) :
      Move s (.enter k) { s with
        created := update s.created k false
        scheduler := { s.scheduler with
          m_coroutine_id := s.scheduler.m_coroutine_id + 1
          m_runningThreads := s.scheduler.m_runningThreads + 1
          worker := update s.scheduler.worker k .idle } }
  | works {k scheduler pc} (live : s.scheduler.worker k ≠ .ended)
      (next : s.scheduler.work k = some scheduler)
      (moved : s.scheduler.Moved scheduler k pc) :
      Move s (.work k)
        { s with scheduler, resumed := s.resumed ++ (s.scheduler.worker k).resumes.map (k, ·) }
  | runs {a k c scheduler pc} (own : a = .run k ∨ ∃ call, a = .call k call)
      (free : s.stopping (.worker k) = false) (here : s.scheduler.worker k = .running c)
      (moved : s.scheduler.Moved scheduler k pc) :
      Move s a { s with scheduler }
  | tests (accepts : s.scheduler.accepts = true) : Move s .test { s with adding := s.adding + 1 }
  | pushes (some : 0 < s.adding) :
      Move s .push { s with
        adding := s.adding - 1
        scheduler := { s.scheduler with
          m_coroutine_id := s.scheduler.m_coroutine_id + 1
          m_tasks := s.scheduler.m_tasks ++ [s.scheduler.m_coroutine_id + 1] } }

theorem move_of_step {s t : Lifecycle} {a : LifecycleAction} (h : s.step a = some t) :
    s.terminated = false ∧ Move s a t := by
  unfold step at h
  split at h
  · cases h
  · rename_i alive
    refine ⟨Bool.eq_false_iff.mpr alive, ?_⟩
    cases a with
    | start =>
      cases h
      unfold start
      split
      · exact .startsNot ‹_›
      · rename_i goes
        have stopped := (Bool.not_eq_false _).mp goes
        split
        · exact .terminates stopped ‹_›
        · exact .starts stopped (Bool.eq_false_iff.mpr ‹_›)
    | stop caller =>
      obtain ⟨⟨-, calls⟩, h⟩ := Option.ite_none_right_eq_some.mp h
      split at h
      · cases h
        exact .stopsNot ‹_›
      · cases h
        exact .stops (Bool.eq_false_iff.mpr ‹_›) calls
    | returns caller =>
      obtain ⟨⟨waits, none⟩, h⟩ := Option.ite_none_right_eq_some.mp h
      cases h
      exact .returns waits none
    | enter k =>
      obtain ⟨created, h⟩ := Option.ite_none_right_eq_some.mp h
      cases h
      exact .enters created
    | work k =>
      obtain ⟨live, h⟩ := Option.ite_none_left_eq_some.mp h
      obtain ⟨scheduler, next, rfl⟩ := Option.map_eq_some_iff.mp h
      obtain ⟨pc, moved⟩ := Scheduler.moved_work live next
      exact .works live next moved
    | run k =>
      obtain ⟨free, h⟩ := Option.ite_none_left_eq_some.mp h
      obtain ⟨scheduler, next, rfl⟩ := Option.map_eq_some_iff.mp h
      obtain ⟨c, here, pc, moved⟩ := Scheduler.moved_run next
      exact .runs (.inl rfl) (Bool.eq_false_iff.mpr free) here moved
    | call k call =>
      obtain ⟨free, h⟩ := Option.ite_none_left_eq_some.mp h
      obtain ⟨scheduler, next, rfl⟩ := Option.map_eq_some_iff.mp h
      obtain ⟨c, here, pc, moved⟩ := Scheduler.moved_call next
      exact .runs (.inr ⟨call, rfl⟩) (Bool.eq_false_iff.mpr free) here moved
    | test =>
      obtain ⟨accepts, h⟩ := Option.ite_none_right_eq_some.mp h
      cases h
      exact .tests accepts
    | push =>
      obtain ⟨some, h⟩ := Option.ite_none_right_eq_some.mp h
      cases h
      exact .pushes some

def fresh (m_threads : ℕ) : Lifecycle := { scheduler := { m_threads } }

/-- A scheduler of `m` threads that nobody has started. -/
structure Fresh (s : Lifecycle) : Prop where
  stopped : s.scheduler.m_stop = true
  none : s.workerThreads = []
  ended : ∀ k, s.scheduler.worker k = .ended
  created : ∀ k, s.created k = false
  stopping : ∀ caller, s.stopping caller = false

/-- The objects `start` leaves: those of `resize`, and those with a thread. -/
def Started (m : ℕ) (s : Lifecycle) : Prop :=
  s.workerThreads = List.replicate m none ++ (List.range m).map some

/-- Every worker in `run` is counted, one for each thread, and a coroutine that waits in `stop`
keeps its worker. -/
structure Manned (m : ℕ) (s : Lifecycle) : Prop where
  threads : s.scheduler.m_threads = m
  count : s.scheduler.m_runningThreads = ∑ k ∈ Finset.range m, (s.scheduler.worker k).live
  within : ∀ k, s.scheduler.worker k ≠ .ended → k < m
  created : ∀ k, s.created k = true → k < m ∧ s.scheduler.worker k = .ended
  held : ∀ k, s.stopping (.worker k) = true → ∃ c, s.scheduler.worker k = .running c

def Once (m : ℕ) (s : Lifecycle) : Prop := s.Fresh ∨ s.Started m

theorem manned_fresh (m : ℕ) : Manned m (fresh m) where
  threads := rfl
  count := (Finset.sum_eq_zero fun _ _ => rfl).symm
  within k live := absurd rfl live
  created k made := by cases made
  held k waits := by cases waits

/-- A worker that moves on keeps the count, for it was counted. -/
theorem Manned.moved {m k : ℕ} {s t : Lifecycle} {pc : WorkerPc} (manned : Manned m s)
    (live : s.scheduler.worker k ≠ .ended) (moved : s.scheduler.Moved t.scheduler k pc)
    (created : t.created = s.created) (stopping : t.stopping = s.stopping)
    (held : t.stopping (.worker k) = true → ∃ c, pc = .running c) : Manned m t := by
  have here : k ∈ Finset.range m := Finset.mem_range.mpr (manned.within k live)
  have sum := Sums.sum_update_add here WorkerPc.live s.scheduler.worker pc
  have some := Sums.weight_le here WorkerPc.live s.scheduler.worker
  have counted : (s.scheduler.worker k).live = 1 := by
    cases now : s.scheduler.worker k with
    | ended => exact absurd now live
    | _ => rfl
  have most : pc.live ≤ 1 := by cases pc <;> simp
  refine ⟨moved.threads.trans manned.threads, ?_, ?_, ?_, ?_⟩
  · rw [moved.count, manned.count, moved.worker]
    omega
  · intro j runs
    by_cases same : j = k
    · exact same ▸ manned.within k live
    · rw [moved.worker, update_of_ne same] at runs
      exact manned.within j runs
  · intro j made
    rw [created] at made
    have apart : j ≠ k := by
      rintro rfl
      exact live (manned.created j made).2
    rw [moved.worker, update_of_ne apart]
    exact manned.created j made
  · intro j waits
    by_cases same : j = k
    · subst same
      obtain ⟨c, rfl⟩ := held waits
      exact ⟨c, by rw [moved.worker, update_self]⟩
    · rw [moved.worker, update_of_ne same]
      exact manned.held j (stopping ▸ waits)

theorem manned_step {m : ℕ} {s t : Lifecycle} {a : LifecycleAction} (manned : Manned m s)
    (once : Once m s) (h : s.step a = some t) : Manned m t := by
  cases (move_of_step h).2 with
  | startsNot | terminates | stopsNot | tests | pushes =>
    exact ⟨manned.threads, manned.count, manned.within, manned.created, manned.held⟩
  | starts stopped free =>
    refine ⟨manned.threads, manned.count, manned.within, ?_, manned.held⟩
    intro k made
    have lt : k < m := manned.threads ▸ of_decide_eq_true made
    rcases once with fresh | started
    · exact ⟨lt, fresh.ended k⟩
    · -- the vector still has the threads of the first start
      rw [manned.threads, started, List.drop_left' (by simp)] at free
      simp only [List.any_map, List.any_eq_false, List.mem_range] at free
      exact absurd rfl (free k lt)
  | @stops caller goes calls =>
    refine ⟨manned.threads, manned.count, manned.within, manned.created, ?_⟩
    intro k waits
    by_cases same : .worker k = caller
    · subst same
      simp only [Lifecycle.calls] at calls
      split at calls
      · exact ⟨_, ‹_›⟩
      · cases calls
    · exact manned.held k (by simpa [update_of_ne same] using waits)
  | @returns caller waits none =>
    refine ⟨manned.threads, manned.count, manned.within, manned.created, ?_⟩
    intro k waits
    by_cases same : .worker k = caller
    · subst same
      simp at waits
    · exact manned.held k (by simpa [update_of_ne same] using waits)
  | @enters k created =>
    obtain ⟨lt, ended⟩ := manned.created k created
    have here : k ∈ Finset.range m := Finset.mem_range.mpr lt
    have sum := Sums.sum_update_add here WorkerPc.live s.scheduler.worker .idle
    rw [ended] at sum
    refine ⟨manned.threads, ?_, ?_, ?_, ?_⟩
    · simp only [WorkerPc.live] at sum
      simp only [manned.count]
      exact sum.symm
    · intro j runs
      by_cases same : j = k
      · exact same ▸ lt
      · exact manned.within j (by simpa [update_of_ne same] using runs)
    · intro j made
      by_cases same : j = k
      · subst same
        simp at made
      · simp only [update_of_ne same] at made ⊢
        exact manned.created j made
    · intro j waits
      obtain ⟨c, running⟩ := manned.held j waits
      by_cases same : j = k
      · subst same
        rw [ended] at running
        cases running
      · exact ⟨c, by simpa [update_of_ne same] using running⟩
  | @works k scheduler pc live next moved =>
    refine manned.moved live moved rfl rfl ?_
    intro waits
    obtain ⟨c, running⟩ := manned.held k waits
    rw [Scheduler.work, running] at next
    cases next
  | runs own free here moved =>
    refine manned.moved (by rw [here]; exact nofun) moved rfl rfl ?_
    intro waits
    exact absurd waits (Bool.eq_false_iff.mp free)

theorem once_step {m : ℕ} {s t : Lifecycle} {a : LifecycleAction} (manned : Manned m s)
    (once : Once m s) (h : s.step a = some t) : Once m t := by
  rcases once with fresh | started
  · cases (move_of_step h).2 with
    | startsNot | stopsNot | terminates | tests | pushes =>
      exact .inl ⟨fresh.stopped, fresh.none, fresh.ended, fresh.created, fresh.stopping⟩
    | starts stopped free =>
      right
      simp [Started, resize, fresh.none, manned.threads]
    | stops goes => exact absurd (fresh.stopped.symm.trans goes) nofun
    | returns waits => exact absurd ((fresh.stopping _).symm.trans waits) nofun
    | enters created => exact absurd ((fresh.created _).symm.trans created) nofun
    | works live => exact absurd (fresh.ended _) live
    | runs own free here => exact absurd ((fresh.ended _).symm.trans here) nofun
  · right
    cases (move_of_step h).2 with
    | starts stopped free =>
      rw [manned.threads, started, List.drop_left' (by simp)] at free
      rcases Nat.eq_zero_or_pos m with rfl | pos
      · simp [Started, resize, manned.threads]
      · simp only [List.any_map, List.any_eq_false, List.mem_range] at free
        exact absurd rfl (free 0 pos)
    | _ => exact started

/-- How many coroutines the workers resume without another look at `m_stop`. -/
def due (m : ℕ) (s : Lifecycle) : ℕ := ∑ k ∈ Finset.range m, (s.scheduler.worker k).due

theorem due_one (pc : WorkerPc) : pc.due ≤ 1 := by
  cases pc <;> simp

theorem due_le (m : ℕ) (s : Lifecycle) : s.due m ≤ m := by
  calc s.due m ≤ (Finset.range m).card • 1 :=
        Finset.sum_le_card_nsmul _ _ 1 fun k _ => due_one (s.scheduler.worker k)
    _ = m := by simp

structure Stopped (m : ℕ) (s : Lifecycle) : Prop where
  manned : Manned m s
  started : s.Started m
  stopped : s.scheduler.m_stop = true

theorem due_moved {m k : ℕ} {s t : Lifecycle} {pc : WorkerPc} (stopped : Stopped m s)
    (live : s.scheduler.worker k ≠ .ended) (moved : s.scheduler.Moved t.scheduler k pc) :
    t.due m + (s.scheduler.worker k).resumes.length ≤ s.due m := by
  have here : k ∈ Finset.range m := Finset.mem_range.mpr (stopped.manned.within k live)
  have sum := Sums.sum_update_add here WorkerPc.due s.scheduler.worker pc
  have less := moved.due stopped.stopped
  rw [due, due, moved.worker]
  omega

theorem stopped_step {m : ℕ} (pos : 0 < m) {s t : Lifecycle} {a : LifecycleAction}
    (stopped : Stopped m s) (h : s.step a = some t) :
    Stopped m t ∧ t.resumed.length + t.due m ≤ s.resumed.length + s.due m := by
  have manned := manned_step stopped.manned (.inr stopped.started) h
  cases (move_of_step h).2 with
  | startsNot | terminates | stopsNot | returns | tests | pushes =>
    exact ⟨⟨manned, stopped.started, stopped.stopped⟩, le_rfl⟩
  | starts _ free =>
    rw [stopped.manned.threads, stopped.started, List.drop_left' (by simp)] at free
    simp only [List.any_map, List.any_eq_false, List.mem_range] at free
    exact absurd rfl (free 0 pos)
  | stops goes => exact absurd (stopped.stopped.symm.trans goes) nofun
  | @enters k created =>
    refine ⟨⟨manned, stopped.started, stopped.stopped⟩, ?_⟩
    obtain ⟨lt, ended⟩ := stopped.manned.created k created
    have sum := Sums.sum_update_add (Finset.mem_range.mpr lt) WorkerPc.due s.scheduler.worker .idle
    rw [ended] at sum
    exact (Nat.add_left_cancel_iff.mpr sum).le
  | @works k scheduler pc live next moved =>
    have less := due_moved (t := { s with scheduler }) stopped live moved
    refine ⟨⟨manned, stopped.started, moved.stop.trans stopped.stopped⟩, ?_⟩
    rw [List.length_append, List.length_map]
    change _ + _ + due m { s with scheduler } ≤ _
    omega
  | @runs _ k c scheduler pc own free here moved =>
    have live : s.scheduler.worker k ≠ .ended := by
      rw [here]
      exact nofun
    have less := due_moved (t := { s with scheduler }) stopped live moved
    refine ⟨⟨manned, stopped.started, moved.stop.trans stopped.stopped⟩, ?_⟩
    change s.resumed.length + due m { s with scheduler } ≤ _
    omega

def turns (s : Lifecycle) (k : ℕ) : ℕ := s.resumed.countP fun r => r.1 = k

theorem turns_works {s : Lifecycle} {k : ℕ} {cs : List ℕ} {scheduler : Scheduler} (j : ℕ) :
    turns { s with scheduler, resumed := s.resumed ++ cs.map (k, ·) } j =
      s.turns j + if j = k then cs.length else 0 := by
  rw [turns, turns, List.countP_append, List.countP_map]
  by_cases same : j = k
  · subst same
    simp [Function.comp_def]
  · simp [Function.comp_def, same, Ne.symm same]

theorem turn_step {m : ℕ} {s t : Lifecycle} {a : LifecycleAction} (stopped : Stopped m s)
    (h : s.step a = some t) (j : ℕ) :
    t.turns j + (t.scheduler.worker j).due ≤ s.turns j + (s.scheduler.worker j).due := by
  have turn : ∀ {k : ℕ} {scheduler : Scheduler} {pc : WorkerPc},
      s.scheduler.Moved scheduler k pc → (scheduler.worker j).due +
        (if j = k then (s.scheduler.worker k).resumes.length else 0) ≤
          (s.scheduler.worker j).due := by
    intro k scheduler pc moved
    rw [moved.worker]
    by_cases same : j = k
    · subst same
      rw [update_self, if_pos rfl]
      exact moved.due stopped.stopped
    · rw [update_of_ne same, if_neg same]
      exact le_rfl
  cases (move_of_step h).2 with
  | startsNot | terminates | starts | stopsNot | stops | returns | tests | pushes => exact le_rfl
  | @enters k created =>
    by_cases same : j = k
    · subst same
      simp [turns]
    · simp [turns, same]
  | @works k scheduler pc live next moved =>
    have less := turn moved
    rw [turns_works]
    change _ + (scheduler.worker j).due ≤ _
    omega
  | @runs _ k c scheduler pc own free here moved =>
    have less := turn moved
    change s.turns j + (scheduler.worker j).due ≤ _
    omega

theorem stopped_run {m : ℕ} (pos : 0 < m) {s t : Lifecycle} {as : List LifecycleAction}
    (stopped : Stopped m s) (run : Run step Always s as t) :
    Stopped m t ∧ t.resumed.length + t.due m ≤ s.resumed.length + s.due m ∧
      ∀ j, t.turns j + (t.scheduler.worker j).due ≤
        s.turns j + (s.scheduler.worker j).due := by
  induction run with
  | refl => exact ⟨stopped, le_rfl, fun _ => le_rfl⟩
  | snoc _ _ next ih =>
    obtain ⟨before, all, each⟩ := ih
    obtain ⟨now, le⟩ := stopped_step pos before next
    exact ⟨now, le.trans all, fun j => (turn_step before next j).trans (each j)⟩

/-- The workers have left; a thread that comes late leaves at once. -/
structure Over (m : ℕ) (s : Lifecycle) : Prop extends Stopped m s where
  quiet : ∀ k, s.scheduler.worker k = .ended ∨ s.scheduler.worker k = .idle

/-- Nothing is resumed, and what is queued stays; calls of `addTask` that had passed its test may
still add to it. -/
def Leaves (s t : Lifecycle) : Prop :=
  t.resumed = s.resumed ∧ ∃ tasks, t.scheduler.m_tasks = s.scheduler.m_tasks ++ tasks ∧
    tasks.length + t.adding = s.adding

theorem Leaves.same {s t : Lifecycle} (resumed : t.resumed = s.resumed)
    (tasks : t.scheduler.m_tasks = s.scheduler.m_tasks) (adding : t.adding = s.adding) :
    Leaves s t := ⟨resumed, [], by rw [tasks, List.append_nil], by simp [adding]⟩

theorem Leaves.trans {s t u : Lifecycle} (first : Leaves s t) (second : Leaves t u) :
    Leaves s u := by
  obtain ⟨resumed, tasks, queue, count⟩ := first
  obtain ⟨resumed', tasks', queue', count'⟩ := second
  refine ⟨resumed'.trans resumed, tasks ++ tasks', ?_, ?_⟩
  · rw [queue', queue, List.append_assoc]
  · rw [List.length_append]
    omega

theorem over_step {m : ℕ} (pos : 0 < m) {s t : Lifecycle} {a : LifecycleAction} (past : Over m s)
    (h : s.step a = some t) : Over m t ∧ Leaves s t := by
  have stopped := (stopped_step pos past.toStopped h).1
  cases (move_of_step h).2 with
  | startsNot | terminates | stopsNot | returns =>
    exact ⟨⟨stopped, past.quiet⟩, .same rfl rfl rfl⟩
  | starts => exact absurd stopped.stopped nofun
  | stops goes => exact absurd (past.stopped.symm.trans goes) nofun
  | @enters k created =>
    refine ⟨⟨stopped, fun j => ?_⟩, .same rfl rfl rfl⟩
    by_cases same : j = k
    · exact .inr (by rw [same]; exact update_self ..)
    · exact (past.quiet j).imp (update_of_ne same ..).trans (update_of_ne same ..).trans
  | @works k scheduler pc live next moved =>
    have idle := (past.quiet k).resolve_left live
    rw [Scheduler.work, idle] at next
    simp only [past.stopped, if_true] at next
    cases next
    refine ⟨⟨stopped, fun j => ?_⟩, .same (by simp [idle]) rfl rfl⟩
    by_cases same : j = k
    · exact .inl (by rw [same]; exact update_self ..)
    · exact (past.quiet j).imp (update_of_ne same ..).trans (update_of_ne same ..).trans
  | @runs _ k c _ _ own free here moved =>
    rcases past.quiet k with ended | idle
    · exact absurd (ended.symm.trans here) nofun
    · exact absurd (idle.symm.trans here) nofun
  | tests accepts => simp [Scheduler.accepts, past.stopped] at accepts
  | pushes some =>
    refine ⟨⟨stopped, past.quiet⟩, rfl, [_], rfl, ?_⟩
    change 1 + (s.adding - 1) = s.adding
    omega

/-- A call of `stop` that sees no worker left was no worker's own. -/
theorem over_of_returns {m : ℕ} {s t : Lifecycle} {caller : Stopper} (stopped : Stopped m s)
    (h : s.step (.returns caller) = some t) : (∃ n, caller = .thread n) ∧ Over m t := by
  cases (move_of_step h).2 with
  | returns waits none =>
    have ended : ∀ k, s.scheduler.worker k = .ended := by
      intro k
      by_contra live
      have here := Finset.mem_range.mpr (stopped.manned.within k live)
      have some := Sums.weight_le here WorkerPc.live s.scheduler.worker
      rw [← stopped.manned.count, none] at some
      exact live (WorkerPc.live_eq_zero.mp (Nat.le_zero.mp some))
    constructor
    · cases caller with
      | thread n => exact ⟨n, rfl⟩
      | worker k =>
        obtain ⟨c, running⟩ := stopped.manned.held k waits
        exact absurd ((ended k).symm.trans running) nofun
    · have manned := manned_step stopped.manned (.inr stopped.started) h
      exact ⟨⟨manned, stopped.started, stopped.stopped⟩, fun k => .inl (ended k)⟩
  | runs own =>
    rcases own with own | ⟨call, own⟩ <;> cases own

theorem manned_run {m : ℕ} {s : Lifecycle} {as : List LifecycleAction}
    (run : Run step Always (fresh m) as s) : Manned m s ∧ Once m s := by
  apply run.invariant (P := fun s => Manned m s ∧ Once m s)
  · exact ⟨manned_fresh m, .inl ⟨rfl, rfl, fun _ => rfl, fun _ => rfl, fun _ => rfl⟩⟩
  · exact fun t a u kept _ next => ⟨manned_step kept.1 kept.2 next, once_step kept.1 kept.2 next⟩

/-- After `stop` has set its flag each worker resumes at most one coroutine, all of them at most one
for each, and a `start` ends the process. Once a call of `stop` has left its loop, which no coroutine
of the scheduler ever does, nothing is resumed and nothing leaves the queue. -/
theorem stop_final {m : ℕ} (pos : 0 < m) {as bs : List LifecycleAction} {s t u : Lifecycle}
    {caller : Stopper} (before : Run step Always (fresh m) as s)
    (goes : s.scheduler.m_stop = false) (stops : s.step (.stop caller) = some t)
    (after : Run step Always t bs u) :
    (∀ j, u.turns j ≤ t.turns j + 1) ∧ u.resumed.length ≤ t.resumed.length + m ∧
      (∀ v, u.step .start = some v → v.terminated = true) ∧
      ∀ c v cs w, u.step (.returns c) = some v → Run step Always v cs w →
        (∃ n, c = .thread n) ∧ Leaves v w := by
  obtain ⟨manned, once⟩ := manned_run before
  have started : s.Started m := once.resolve_left fun fresh =>
    absurd (fresh.stopped.symm.trans goes) nofun
  have stopped : Stopped m t := by
    have manned' := manned_step manned once stops
    cases (move_of_step stops).2 with
    | stopsNot stopped => exact absurd (stopped.symm.trans goes) nofun
    | stops => exact ⟨manned', started, rfl⟩
    | runs own =>
      rcases own with own | ⟨call, own⟩ <;> cases own
  obtain ⟨now, le, each⟩ := stopped_run pos stopped after
  refine ⟨?_, ?_, ?_, ?_⟩
  · intro j
    have one := due_one (t.scheduler.worker j)
    exact (Nat.le_add_right _ _).trans ((each j).trans (Nat.add_le_add_left one _))
  · have most := due_le m t
    omega
  · intro v starts
    cases (move_of_step starts).2 with
    | startsNot goes => exact absurd (now.stopped.symm.trans goes) nofun
    | terminates => rfl
    | starts _ free => exact absurd (stopped_step pos now starts).1.stopped nofun
    | runs own =>
      rcases own with own | ⟨call, own⟩ <;> cases own
  · intro c v cs w returns rest
    obtain ⟨outside, past⟩ := over_of_returns now returns
    refine ⟨outside, ?_⟩
    have kept : Over m w ∧ Leaves v w := by
      induction rest with
      | refl => exact ⟨past, .same rfl rfl rfl⟩
      | snoc _ _ next ih =>
        obtain ⟨past', leaves⟩ := over_step pos ih.1 next
        exact ⟨past', ih.2.trans leaves⟩
    exact kept.2

/-- One worker counts itself while `stop` waits for it to leave; a second start is the last. -/
theorem one_worker_stops : ∃ s t, Run step Always (fresh 1) [.start, .enter 0, .test] s ∧
    s.step (.stop (.thread 0)) = some t ∧ ∀ bs u, Run step Always t bs u →
      u.turns 0 ≤ t.turns 0 + 1 ∧ ∀ v, u.step .start = some v → v.terminated = true := by
  have done : (exec step (fresh 1) [.start, .enter 0, .test]).map (fun s =>
      (s.scheduler.m_stop, (s.step (.stop (.thread 0))).isSome)) = some (false, true) := by
    decide +kernel
  obtain ⟨s, run, flags⟩ := Option.map_eq_some_iff.mp done
  obtain ⟨goes, stops⟩ := Prod.mk.inj flags
  obtain ⟨t, stops⟩ := Option.isSome_iff_exists.mp stops
  refine ⟨s, t, Run.of_exec run, stops, fun bs u after => ?_⟩
  obtain ⟨each, -, last, -⟩ := stop_final Nat.one_pos (Run.of_exec run) goes stops after
  exact ⟨each 0, last⟩

/-- The worker leaves, the call returns, and what `addTask` had accepted is left in the queue. -/
example : (exec step (fresh 1) [.start, .enter 0, .test, .stop (.thread 0), .work 0,
      .returns (.thread 0), .push]).map (fun s => (s.scheduler.m_tasks, s.resumed,
        (s.step .start).map Lifecycle.terminated)) = some ([2], [], some true) := by
  decide +kernel

end Lifecycle
end CRpc
