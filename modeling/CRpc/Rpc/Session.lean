import CRpc.Lib.Runs
import Mathlib.Data.List.Count

/-! `RpcSession`: its socket, its two flags and its two loops, over drops and reconnects. -/
namespace CRpc
open Transition

/-- What one call to `recv` gives the receive loop. -/
inductive Recv
  | again
  | bytes (n : ℕ)
  | closed
  | failed
  deriving DecidableEq

/-- How far `Socket::receive(Message&)` is: which of its seven receives runs, the bytes of it so
far, the bytes in the serializer, and the length it read for the last receive. -/
structure Reading where
  part : ℕ := 0
  got : ℕ := 0
  size : ℕ := 0
  contentLenth : ℕ := 0
  deriving DecidableEq

/-- After a call to `recv`: still in a message, or `handle_receive` ends, or throws. -/
inductive Progress
  | reading (r : Reading)
  | ended
  | thrown
  deriving DecidableEq

namespace Reading

/-- Four receives of one byte, two of eight, and the content. -/
def want (r : Reading) : ℕ := if r.part < 4 then 1 else if r.part < 6 then 8 else r.contentLenth

/-- The current receive returns with `kept` bytes; `lenth` is what the header says. -/
def finish (r : Reading) (kept lenth : ℕ) : Progress :=
  let size := r.size + kept
  if r.part < 5 then .reading ⟨r.part + 1, 0, size, 0⟩
  else if r.part = 5 then
    -- an empty message ends the loop, a short header makes `>>` throw
    if size = 0 then .ended
    else if size < 20 then .thrown
    else if lenth = 0 then .reading {}
    else .reading ⟨6, 0, size, lenth⟩
  else .reading {}

def recv (r : Reading) (lenth : ℕ) : Recv → Progress
  | .again => .reading r
  | .bytes n =>
    let got := r.got + min n (r.want - r.got)
    if got = r.want then r.finish got lenth else .reading { r with got }
  | .closed => r.finish r.got lenth
  -- the string was not assigned
  | .failed => r.finish 0 lenth

end Reading

/-- A coroutine of `handle_receive`. -/
inductive Receiver
  | running (r : Reading)
  | returned
  deriving DecidableEq

def Receiver.isRunning : Receiver → Bool
  | .running _ => true
  | .returned => false

/-- `RpcSession` with the coroutines it has scheduled; a `handle_send` never returns. -/
structure RpcSession where
  m_sockfd : Option ℕ := none
  /-- `Socket::connect` has succeeded on this descriptor -/
  established : Bool := false
  m_is_connected : Bool := false
  m_has_connect : Bool := false
  receivers : List Receiver := []
  senders : ℕ := 0
  deriving DecidableEq

namespace RpcSession

def close (s : RpcSession) : RpcSession := { s with m_sockfd := none, established := false }

/-- `Socket::create`, with the descriptor `socket` returns. -/
def create (s : RpcSession) (fd : Option ℕ) : RpcSession :=
  { s with m_sockfd := fd, established := false }

/-- `Socket::connect`, which epoll reports a failure to without a descriptor. -/
def socketConnect (s : RpcSession) (up : Bool) : Bool × RpcSession :=
  if s.m_sockfd.isSome && up then
    (true, { s with established := true, m_is_connected := true })
  else (false, s)

/-- `m_has_connect = true` and the two tasks. -/
def startLoops (s : RpcSession) : RpcSession :=
  { s with
    m_has_connect := true
    senders := s.senders + 1
    receivers := s.receivers ++ [.running {}] }

def connect (s : RpcSession) (fd : Option ℕ) (up : Bool) : Bool × RpcSession :=
  let (ok, s) := (s.create fd).socketConnect up
  if ok then (true, s.startLoops) else (false, s)

def testAndreConnect (s : RpcSession) (fd : Option ℕ) (up : Bool) : Bool × RpcSession :=
  if s.m_is_connected then (true, s)
  else
    let (ok, s) := (s.close.create fd).socketConnect up
    if !ok then (false, s)
    else if s.m_has_connect then (true, s)
    else (true, s.startLoops)

/-- `recv` returning zero is the only sign of a lost peer that `Socket` keeps. -/
def observe (s : RpcSession) (r : Recv) : RpcSession :=
  if r = .closed then { s with m_is_connected := false } else s

/-- The `i`-th receive loop calls `recv`. -/
def receive (s : RpcSession) (i lenth : ℕ) (r : Recv) : Option RpcSession :=
  match s.receivers[i]? with
  | some (.running reading) =>
    let s := s.observe r
    match reading.recv lenth r with
    | .reading reading => some { s with receivers := s.receivers.set i (.running reading) }
    | .ended => some { s.close with receivers := s.receivers.set i .returned }
    -- nothing catches what a coroutine throws
    | .thrown => none
  | _ => none

inductive Action
  | connect (fd : Option ℕ) (up : Bool)
  | testAndreConnect (fd : Option ℕ) (up : Bool)
  | receive (i lenth : ℕ) (r : Recv)

def step (s : RpcSession) : Action → Option RpcSession
  | .connect fd up => some (s.connect fd up).2
  | .testAndreConnect fd up => some (s.testAndreConnect fd up).2
  | .receive i lenth r => s.receive i lenth r

/-- The socket is open and connected, with one receive loop and one send loop on it. -/
def Serves (s : RpcSession) : Prop :=
  s.m_sockfd.isSome = true ∧ s.established = true ∧
    s.receivers.countP Receiver.isRunning = 1 ∧ s.senders = 1

instance (s : RpcSession) : Decidable (Serves s) :=
  inferInstanceAs (Decidable (_ ∧ _ ∧ _ ∧ _))

/-- `connect` starts loops once, and fails only while the session is not connected;
`testAndreConnect` finds or makes a connection only while no receive loop has returned. -/
def Keeps (s : RpcSession) : Action → Prop
  | .connect fd up =>
    if fd.isSome && up then s.m_has_connect = false else s.m_is_connected = false
  | .testAndreConnect fd up =>
    s.m_is_connected = true ∨ (fd.isSome && up) = true → Receiver.returned ∉ s.receivers
  | .receive _ _ _ => True

instance (s : RpcSession) : DecidablePred (Keeps s) := by
  rintro ⟨⟩ <;> dsimp only [Keeps] <;> infer_instance

structure Sound (s : RpcSession) : Prop where
  loops : s.receivers.length = s.senders
  started : s.senders = if s.m_has_connect then 1 else 0
  connected : s.m_is_connected = true → s.m_has_connect = true
  up : s.m_is_connected = true → s.established = true ∨ Receiver.returned ∈ s.receivers
  opened : s.established = true → s.m_sockfd.isSome = true

/-- The session after a successful `Socket::connect` on a new descriptor. -/
def linked (s : RpcSession) (fd : Option ℕ) : RpcSession :=
  { s with m_sockfd := fd, established := true, m_is_connected := true }

theorem connect_cases (s : RpcSession) (fd : Option ℕ) (up : Bool) :
    ((fd.isSome && up) = true ∧ s.connect fd up = (true, (s.linked fd).startLoops)) ∨
    ((fd.isSome && up) = false ∧ s.connect fd up = (false, s.create fd)) := by
  unfold connect socketConnect create
  cases h : fd.isSome && up with
  | true => exact .inl ⟨rfl, by simp [linked]⟩
  | false => exact .inr ⟨rfl, by simp⟩

theorem testAndreConnect_cases (s : RpcSession) (fd : Option ℕ) (up : Bool) :
    (s.m_is_connected = true ∧ s.testAndreConnect fd up = (true, s)) ∨
    (s.m_is_connected = false ∧ (fd.isSome && up) = false ∧
      s.testAndreConnect fd up = (false, s.create fd)) ∨
    (s.m_is_connected = false ∧ (fd.isSome && up) = true ∧ s.m_has_connect = true ∧
      s.testAndreConnect fd up = (true, s.linked fd)) ∨
    (s.m_is_connected = false ∧ (fd.isSome && up) = true ∧ s.m_has_connect = false ∧
      s.testAndreConnect fd up = (true, (s.linked fd).startLoops)) := by
  unfold testAndreConnect socketConnect create
  cases connected : s.m_is_connected with
  | true => exact .inl ⟨rfl, rfl⟩
  | false =>
    cases h : fd.isSome && up with
    | false => exact .inr (.inl ⟨rfl, rfl, by simp [close, connected]⟩)
    | true =>
      cases started : s.m_has_connect with
      | true => exact .inr (.inr (.inl ⟨rfl, rfl, rfl, by simp [close, linked, started]⟩))
      | false => exact .inr (.inr (.inr ⟨rfl, rfl, rfl, by simp [close, linked, started]⟩))

theorem observe_receivers (s : RpcSession) (r : Recv) : (s.observe r).receivers = s.receivers := by
  unfold observe
  split <;> rfl

theorem receive_cases {s s' : RpcSession} {i lenth : ℕ} {r : Recv}
    (h : s.receive i lenth r = some s') : ∃ old, s.receivers[i]? = some (.running old) ∧
      ((∃ new, s' = { s.observe r with receivers := s.receivers.set i (.running new) }) ∨
        s' = { (s.observe r).close with receivers := s.receivers.set i .returned }) := by
  unfold receive at h
  split at h
  · rename_i old found
    refine ⟨old, found, ?_⟩
    simp only [observe_receivers] at h
    split at h
    · cases h
      exact .inl ⟨_, rfl⟩
    · cases h
      exact .inr rfl
    · cases h
  · cases h

theorem Sound.startLoops {s : RpcSession} (sound : Sound s) (fresh : s.m_has_connect = false)
    (fd : Option ℕ) (opened : fd.isSome = true) : Sound (s.linked fd).startLoops where
  loops := by
    change (s.receivers ++ [Receiver.running {}]).length = s.senders + 1
    rw [List.length_append, sound.loops]
    rfl
  started := by
    have := sound.started
    rw [fresh] at this
    exact congrArg (· + 1) this
  connected _ := rfl
  up _ := .inl rfl
  opened _ := opened

theorem Sound.linked {s : RpcSession} (sound : Sound s) (started : s.m_has_connect = true)
    (fd : Option ℕ) (opened : fd.isSome = true) : Sound (s.linked fd) where
  loops := sound.loops
  started := sound.started
  connected _ := started
  up _ := .inl rfl
  opened _ := opened

theorem Sound.create {s : RpcSession} (sound : Sound s) (down : s.m_is_connected = false)
    (fd : Option ℕ) : Sound (s.create fd) where
  loops := sound.loops
  started := sound.started
  connected up := absurd up (by rw [show (s.create fd).m_is_connected = _ from down]; decide)
  up up := absurd up (by rw [show (s.create fd).m_is_connected = _ from down]; decide)
  opened up := by cases up

theorem returned_set {l : List Receiver} {i : ℕ} {old new : Reading}
    (running : l[i]? = some (.running old)) (mem : Receiver.returned ∈ l) :
    Receiver.returned ∈ l.set i (.running new) := by
  obtain ⟨j, lt, at_j⟩ := List.getElem_of_mem mem
  have ne : i ≠ j := by
    rintro rfl
    rw [List.getElem?_eq_getElem lt, at_j] at running
    cases running
  rw [List.mem_iff_getElem]
  refine ⟨j, by rwa [List.length_set], ?_⟩
  rw [List.getElem_set_ne ne, at_j]

theorem Sound.observe {s : RpcSession} (sound : Sound s) (r : Recv) : Sound (s.observe r) := by
  unfold RpcSession.observe
  split
  · exact ⟨sound.loops, sound.started, nofun, nofun, sound.opened⟩
  · exact sound

theorem Sound.receive {s s' : RpcSession} (sound : Sound s) {i lenth : ℕ} {r : Recv}
    (h : s.receive i lenth r = some s') : Sound s' := by
  obtain ⟨old, found, next⟩ := receive_cases h
  have seen := sound.observe r
  have length : ∀ x, (s.receivers.set i x).length = (s.observe r).senders := by
    intro x
    rw [List.length_set, ← s.observe_receivers r, seen.loops]
  rcases next with ⟨new, rfl⟩ | rfl
  · refine ⟨length _, seen.started, seen.connected, ?_, seen.opened⟩
    intro connected
    rcases seen.up connected with established | returned
    · exact .inl established
    · rw [observe_receivers] at returned
      exact .inr (returned_set found returned)
  · refine ⟨length _, seen.started, seen.connected, ?_, nofun⟩
    intro _
    have lt := (List.getElem?_eq_some_iff.mp found).1
    exact .inr (List.mem_set lt Receiver.returned)

theorem Sound.step {s s' : RpcSession} (sound : Sound s) {a : Action} (keeps : Keeps s a)
    (next : step s a = some s') : Sound s' := by
  cases a with
  | connect fd up =>
    cases next
    change if (fd.isSome && up) = true then s.m_has_connect = false else s.m_is_connected = false
      at keeps
    rcases s.connect_cases fd up with ⟨ok, eq⟩ | ⟨ok, eq⟩
    · rw [if_pos ok] at keeps
      rw [eq]
      exact sound.startLoops keeps fd (Bool.and_eq_true_iff.mp ok).1
    · simp only [ok, Bool.false_eq_true, if_false] at keeps
      rw [eq]
      exact sound.create keeps fd
  | testAndreConnect fd up =>
    cases next
    rcases s.testAndreConnect_cases fd up with ⟨-, eq⟩ | ⟨down, -, eq⟩ |
      ⟨-, ok, started, eq⟩ | ⟨-, ok, fresh, eq⟩
    · rw [eq]
      exact sound
    · rw [eq]
      exact sound.create down fd
    · rw [eq]
      exact sound.linked started fd (Bool.and_eq_true_iff.mp ok).1
    · rw [eq]
      exact sound.startLoops fresh fd (Bool.and_eq_true_iff.mp ok).1
  | receive i lenth r => exact sound.receive next

theorem sound_run {as : List Action} {s : RpcSession} (run : Run step Keeps {} as s) : Sound s := by
  apply run.invariant
  · exact ⟨rfl, rfl, nofun, nofun, nofun⟩
  · intro t a u sound keeps next
    exact sound.step keeps next

def dropped : List Action :=
  .connect (some 3) true :: List.replicate 6 (.receive 0 0 .closed)

end RpcSession

end CRpc
