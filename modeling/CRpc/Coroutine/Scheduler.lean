import CRpc.Coroutine.Mutex

/-! `Scheduler::run` and the coroutines it runs, step by step. -/
namespace CRpc

/-- `CoroutineCV`; `m_mutex` knows who holds the spin lock. -/
structure CoroutineCV where
  m_mutex : Option ℕ := none
  m_waitQueue : List ℕ := []

/-- The spin lock of a `CoroutineMutex` or `CoroutineCV`, and the queue that goes with it. -/
inductive Spin
  | mutex (m : ℕ)
  | cv (v : ℕ)
  deriving DecidableEq

/-- The steps of the calls below. `halt` stands after the end of `MainFunc`. -/
inductive CoroutineInstr
  | lock (m : ℕ)
  | tryLock (m : ℕ)
  | enqueue (m : ℕ)
  | own (m : ℕ)
  | unlock (m : ℕ)
  | release (m : ℕ)
  | cvLock (v : ℕ)
  | cvPush (v : ℕ) (mutex : Option ℕ)
  | setWaiting
  | cvPop (v : ℕ)
  | cvPopAll (v : ℕ)
  | free (spin : Spin)
  | yield
  | terminate
  | halt
  deriving DecidableEq

inductive CoroutineCall
  | lock (m : ℕ)
  | unlock (m : ℕ)
  | wait (v : ℕ)
  | waitWith (v m : ℕ)
  | notify (v : ℕ)
  | notifyAll (v : ℕ)
  | yield
  | finish

def CoroutineCall.code : CoroutineCall → List CoroutineInstr
  | lock m => [.lock m]
  | unlock m => [.unlock m]
  | wait v => [.cvLock v, .cvPush v none]
  | waitWith v m => [.cvLock v, .cvPush v (some m)]
  | notify v => [.cvLock v, .cvPop v]
  | notifyAll v => [.cvLock v, .cvPopAll v]
  | yield => [.yield]
  | finish => [.terminate]

/-- What follows `m_waitQueue.push` in the two `wait`s. -/
def waitCode (v : ℕ) : Option ℕ → List CoroutineInstr → List CoroutineInstr
  | none, rest => .setWaiting :: .free (.cv v) :: .yield :: rest
  | some m, rest =>
    .unlock m :: .setWaiting :: .free (.cv v) :: .yield :: .lock m :: rest

/-- What a coroutine does with a `wait_coroutine` it took from a queue: it may have a spin lock to
release, then comes `setState`, then `addTask`, which first tests and then pushes. -/
inductive Hand
  | empty
  | freeing (spin : Spin) (wait_coroutine : ℕ)
  | readying (wait_coroutine : ℕ)
  | adding (wait_coroutine : ℕ)
  | pushing (wait_coroutine : ℕ)
  deriving DecidableEq

/-- Where a worker is in `Scheduler::run`, with its `cur_coroutine`. `timing` is
`getTaskFromTimer`. -/
inductive WorkerPc
  | ended
  | idle
  | looking
  | popped (cur_coroutine : ℕ)
  | running (cur_coroutine : ℕ)
  | returned (cur_coroutine : ℕ)
  | timing (cur_coroutine : Option ℕ)
  | adding (cur_coroutine : ℕ)
  | pushing (cur_coroutine : ℕ)
  deriving DecidableEq

/-- The scheduler, its workers, and the coroutines with their mutexes and condition variables. A
coroutine's `code` is what is left of it for whoever runs it: two workers that have it at once take
turns at its steps, where the two threads of the source are in one context. -/
structure Scheduler where
  m_threads : ℕ
  m_runningThreads : ℕ := 0
  m_stop : Bool := true
  m_tasks : List ℕ := []
  worker : ℕ → WorkerPc := fun _ => .ended
  m_coroutine_id : ℕ := 0
  m_state : ℕ → CoroutineState := fun _ => .READY
  code : ℕ → List CoroutineInstr := fun _ => []
  hand : ℕ → Hand := fun _ => .empty
  mutex : ℕ → CoroutineMutex := fun _ => {}
  cv : ℕ → CoroutineCV := fun _ => {}

/-- Threads that start and stop the scheduler or give it a new task; a worker; the coroutine that a
worker runs, in a call or beginning one. -/
inductive SchedulerAction
  | start
  | stop
  | spawn
  | work (k : ℕ)
  | run (k : ℕ)
  | call (k : ℕ) (call : CoroutineCall)

namespace Scheduler
open Function

/-- The test of `addTask`. -/
def accepts (s : Scheduler) : Bool := s.m_runningThreads = s.m_threads ∧ s.m_stop = false

/-- `addTask` of a function: nobody knows the new coroutine before it is in the queue. -/
def spawn (s : Scheduler) : Option Scheduler :=
  if s.accepts then
    some { s with
      m_coroutine_id := s.m_coroutine_id + 1
      m_tasks := s.m_tasks ++ [s.m_coroutine_id + 1] }
  else none

/-- The next step of a worker; what `getTaskFromTimer` adds is spawned. -/
def work (s : Scheduler) (k : ℕ) : Option Scheduler :=
  match s.worker k with
  | .ended =>
    if k < s.m_threads ∧ s.m_stop = false then
      some { s with
        m_coroutine_id := s.m_coroutine_id + 1
        m_runningThreads := s.m_runningThreads + 1
        worker := update s.worker k .idle }
    else none
  | .idle =>
    if s.m_stop then
      some { s with
        m_runningThreads := s.m_runningThreads - 1
        worker := update s.worker k .ended }
    else some { s with worker := update s.worker k .looking }
  | .looking => match s.m_tasks with
    | [] => some { s with worker := update s.worker k (.timing none) }
    | c :: m_tasks => some { s with m_tasks, worker := update s.worker k (.popped c) }
  | .popped c => some { s with worker := update s.worker k (.running c) }
  | .running _ => none
  | .returned c =>
    if s.m_state c = .READY then some { s with worker := update s.worker k (.timing (some c)) }
    else some { s with worker := update s.worker k .idle }
  | .timing none => some { s with worker := update s.worker k .idle }
  | .timing (some c) => some { s with worker := update s.worker k (.adding c) }
  | .adding c =>
    if s.accepts then some { s with worker := update s.worker k (.pushing c) }
    else some { s with worker := update s.worker k .idle }
  | .pushing c =>
    some { s with m_tasks := s.m_tasks ++ [c], worker := update s.worker k .idle }

def unlockSpin (s : Scheduler) : Spin → Scheduler
  | .mutex m => { s with mutex := update s.mutex m (s.mutex m).free }
  | .cv v => { s with cv := update s.cv v { s.cv v with m_mutex := none } }

/-- The next step of the coroutine `c`, which the worker `k` runs. -/
def runInstr (s : Scheduler) (k c : ℕ) : Option Scheduler :=
  match s.code c with
  | [] | .halt :: _ => none
  | .lock m :: rest =>
    if (s.mutex m).m_coroutineId = c then some { s with code := update s.code c rest }
    else some { s with code := update s.code c (.tryLock m :: .own m :: rest) }
  | .tryLock m :: rest => match (s.mutex m).tryLock c with
    | some mutex =>
      some { s with mutex := update s.mutex m mutex, code := update s.code c rest }
    | none => some { s with code := update s.code c (.enqueue m :: rest) }
  | .enqueue m :: rest =>
    some { s with
      mutex := update s.mutex m ((s.mutex m).enqueue c)
      m_state := update s.m_state c .BLOCKED
      code := update s.code c (.yield :: .tryLock m :: rest) }
  | .own m :: rest =>
    some { s with mutex := update s.mutex m ((s.mutex m).own c), code := update s.code c rest }
  | .unlock m :: rest =>
    if (s.mutex m).m_coroutineId = c then
      some { s with code := update s.code c (.release m :: rest) }
    else some { s with code := update s.code c rest }
  | .release m :: rest => match (s.mutex m).m_waitQueue with
    | [] => some { s with
        mutex := update s.mutex m (s.mutex m).release
        code := update s.code c (.free (.mutex m) :: rest) }
    | w :: _ => some { s with
        mutex := update s.mutex m (s.mutex m).release
        hand := update s.hand c (.freeing (.mutex m) w)
        code := update s.code c rest }
  | .cvLock v :: rest => match (s.cv v).m_mutex with
    | none => some { s with
        cv := update s.cv v { s.cv v with m_mutex := some c }
        code := update s.code c rest }
    | some _ => none
  | .cvPush v mutex :: rest =>
    some { s with
      cv := update s.cv v { s.cv v with m_waitQueue := (s.cv v).m_waitQueue ++ [c] }
      code := update s.code c (waitCode v mutex rest) }
  | .setWaiting :: rest =>
    some { s with m_state := update s.m_state c .WAITING, code := update s.code c rest }
  | .cvPop v :: rest => match (s.cv v).m_waitQueue with
    | [] => some { s with code := update s.code c (.free (.cv v) :: rest) }
    | w :: m_waitQueue => some { s with
        cv := update s.cv v { s.cv v with m_waitQueue }
        hand := update s.hand c (.freeing (.cv v) w)
        code := update s.code c rest }
  | .cvPopAll v :: rest => match (s.cv v).m_waitQueue with
    | [] => some { s with code := update s.code c (.free (.cv v) :: rest) }
    | w :: m_waitQueue => some { s with
        cv := update s.cv v { s.cv v with m_waitQueue }
        hand := update s.hand c (.readying w) }
  | .free spin :: rest => some { s.unlockSpin spin with code := update s.code c rest }
  | .yield :: rest =>
    some { s with worker := update s.worker k (.returned c), code := update s.code c rest }
  | .terminate :: _ =>
    some { s with
      m_state := update s.m_state c .TERMINATED
      code := update s.code c [.yield, .halt] }

/-- A coroutine with a `wait_coroutine` in its hand is done with that first. -/
def runCoroutine (s : Scheduler) (k c : ℕ) : Option Scheduler :=
  match s.hand c with
  | .empty => s.runInstr k c
  | .freeing spin w => some { s.unlockSpin spin with hand := update s.hand c (.readying w) }
  | .readying w =>
    some { s with m_state := update s.m_state w .READY, hand := update s.hand c (.adding w) }
  | .adding w =>
    if s.accepts then some { s with hand := update s.hand c (.pushing w) }
    else some { s with hand := update s.hand c .empty }
  | .pushing w =>
    some { s with m_tasks := s.m_tasks ++ [w], hand := update s.hand c .empty }

def step (s : Scheduler) : SchedulerAction → Option Scheduler
  | .start => some { s with m_stop := false }
  | .stop => some { s with m_stop := true }
  | .spawn => s.spawn
  | .work k => s.work k
  | .run k => match s.worker k with
    | .running c => s.runCoroutine k c
    | _ => none
  | .call k call => match s.worker k with
    | .running c => match s.hand c, s.code c with
      | .empty, [] => some { s with code := update s.code c call.code }
      | _, _ => none
    | _ => none

end Scheduler

end CRpc
