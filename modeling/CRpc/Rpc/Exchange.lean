import CRpc.Coroutine.Channal
import CRpc.Lib.Runs
import CRpc.Rpc.Protocol
import Mathlib.Logic.Function.Basic

/-! One `RpcSession` between its callers and its peer: requests out, responses back. -/
namespace CRpc
open Transition

/-- `Message::RPC_DEFAULT` and `Message::RPC_PUBLISH`. -/
def RPC_DEFAULT : UInt8 := 14
def RPC_PUBLISH : UInt8 := 11

/-- Where `RpcCLient::call` stands; `c` is the channel its `send` has made, `r` what it took
from it. -/
inductive Caller
  | start
  /-- `send`: at the lock of `m_mutex` -/
  | locking (c : ℕ)
  /-- `send`: the channel goes into the map under the lock -/
  | registering (c : ℕ)
  /-- `send`: the message goes into `m_send_channal` -/
  | sending (c : ℕ)
  /-- the timer is set, the caller pops its channel -/
  | waiting (c : ℕ)
  /-- the pop has returned; the timer is still set -/
  | popped (c : ℕ) (r : Option Message)
  /-- `earseResponseChannal`: at the lock of `m_mutex` -/
  | erasing (c : ℕ) (r : Option Message)
  /-- `earseResponseChannal`: the entry goes under the lock -/
  | removing (c : ℕ) (r : Option Message)
  /-- the call has returned; behind the erasure it touches nothing of the session -/
  | done (c : ℕ) (r : Option Message)

namespace Caller

def channel : Caller → Option ℕ
  | start => none
  | locking c | registering c | sending c | waiting c => some c
  | popped c _ | erasing c _ | removing c _ | done c _ => some c

def obtained : Caller → Option Message
  | popped _ r | erasing _ r | removing _ r | done _ r => r
  | _ => none

/-- The request has been put into `m_send_channal`. -/
def Sent : Caller → Prop
  | start | locking _ | registering _ | sending _ => False
  | _ => True

/-- Its entry in `m_response_channals`. -/
def entry : Caller → Option ℕ
  | sending c | waiting c => some c
  | popped c _ | erasing c _ | removing c _ => some c
  | start | locking _ | registering _ | done _ _ => none

def Holds : Caller → Prop
  | registering _ | removing _ _ => True
  | _ => False

end Caller

/-- Where `handle_receive` stands. -/
inductive Receiving
  | reading
  /-- a message was received, `m_mutex` is not locked yet -/
  | received (m : Message)
  | locked (m : Message)
  /-- its channel was found; the push holds `m_mutex` -/
  | pushing (m : Message) (c : ℕ)
  | unlocking

namespace Receiving

def hand : Receiving → List Message
  | received m | locked m | pushing m _ => [m]
  | reading | unlocking => []

def Holds : Receiving → Prop
  | locked _ | pushing _ _ | unlocking => True
  | reading | received _ => False

end Receiving

inductive Owner (ι : Type)
  | receiver
  | caller (i : ι)
  deriving DecidableEq

/-- The session, its callers, and what is under way to and from the peer. -/
structure Exchange (ι : Type) where
  callers : ι → Caller := fun _ => .start
  /-- the reply channels; those from `made` on are not made yet -/
  channals : ℕ → CoroutineChannal Message := fun _ => { m_capacity := 1 }
  made : ℕ := 0
  m_mutex : Option (Owner ι) := none
  m_response_channals : UInt64 → Option ℕ := fun _ => none
  m_send_channal : CoroutineChannal Message := { m_capacity := 1024 }
  /-- the message `handle_send` has popped -/
  sender : Option Message := none
  /-- how many more messages the connection takes -/
  window : ℕ := 0
  /-- requests the peer has not answered -/
  requests : List Message := []
  /-- responses not received yet -/
  responses : List Message := []
  receiver : Receiving := .reading
  /-- every response the peer has sent -/
  answers : List Message := []
  /-- every message a caller has popped -/
  delivered : List Message := []

inductive CallerAct
  | begin | lock | register | send | pop | timeout | cancel | lockErase | erase

inductive SenderAct
  | take | write

inductive ReceiverAct
  | receive | lock | find | push | unlock

/-- Steps of the callers and their timers, of the two loops, and of the peer, who answers the
`k`-th of its requests with `m`. -/
inductive Act (ι : Type)
  | caller (i : ι) (a : CallerAct)
  /-- the timer of a call that has returned; its `recv_channal` now names the channel `c` -/
  | late (i : ι) (c : ℕ)
  | sender (a : SenderAct)
  /-- the peer takes bytes off the connection, as many as a message has -/
  | read
  | answer (k : ℕ) (m : Message)
  | receiver (a : ReceiverAct)

/-- Not a timer's callback after its call has returned. -/
def Act.InTime {ι : Type} : Act ι → Prop
  | .late _ _ => False
  | _ => True

instance {ι : Type} : DecidablePred (Act.InTime (ι := ι)) := fun a =>
  match a with
  | .late _ _ => .isFalse not_false
  | .caller _ _ | .sender _ | .read | .answer _ _ | .receiver _ => .isTrue trivial

namespace Exchange

variable {ι : Type} [DecidableEq ι]

def setCaller (s : Exchange ι) (i : ι) (c : Caller) : Exchange ι :=
  { s with callers := Function.update s.callers i c }

def setChannal (s : Exchange ι) (c : ℕ) (ch : CoroutineChannal Message) : Exchange ι :=
  { s with channals := Function.update s.channals c ch }

/-- `m_response_channals[seq]`, under the lock that ends with it. -/
def setResponse (s : Exchange ι) (seq : UInt64) (c : Option ℕ) : Exchange ι :=
  { s with m_response_channals := Function.update s.m_response_channals seq c, m_mutex := none }

def callerStep (request : ι → Message) (s : Exchange ι) (i : ι) : CallerAct → Option (Exchange ι)
  | .begin =>
    match s.callers i with
    | .start => some ({ s with made := s.made + 1 }.setCaller i (.locking s.made))
    | _ => none
  | .lock =>
    match s.callers i, s.m_mutex with
    | .locking c, none => some ({ s with m_mutex := some (.caller i) }.setCaller i (.registering c))
    | _, _ => none
  | .register =>
    match s.callers i with
    | .registering c => some ((s.setResponse (request i).seq (some c)).setCaller i (.sending c))
    | _ => none
  | .send =>
    match s.callers i, s.m_send_channal.push (request i) with
    | .sending c, some (_, m_send_channal) =>
      some ({ s with m_send_channal }.setCaller i (.waiting c))
    | _, _ => none
  | .pop =>
    match s.callers i with
    | .waiting c =>
      match (s.channals c).pop with
      | some (r, ch) =>
        some (({ s with delivered := s.delivered ++ r.toList }.setChannal c ch).setCaller i
          (.popped c r))
      | none => none
    | _ => none
  | .timeout =>
    -- the timer's task may have been taken before the cancel and run after it; between the
    -- erasure and the return it closes the same channel as before the erasure
    match s.callers i with
    | .waiting c | .popped c _ | .erasing c _ | .removing c _ =>
      some (s.setChannal c (s.channals c).close)
    | _ => none
  | .cancel =>
    match s.callers i with
    | .popped c r => some (s.setCaller i (.erasing c r))
    | _ => none
  | .lockErase =>
    match s.callers i, s.m_mutex with
    | .erasing c r, none =>
      some ({ s with m_mutex := some (.caller i) }.setCaller i (.removing c r))
    | _, _ => none
  | .erase =>
    match s.callers i with
    | .removing c r => some ((s.setResponse (request i).seq none).setCaller i (.done c r))
    | _ => none

/-- The lambda that `call` gives its timer holds `recv_channal` by reference, to a frame that is
gone. -/
def lateStep (s : Exchange ι) (i : ι) (c : ℕ) : Option (Exchange ι) :=
  match s.callers i with
  | .done _ _ => if c < s.made then some (s.setChannal c (s.channals c).close) else none
  | _ => none

/-- `handle_send`. -/
def senderStep (s : Exchange ι) : SenderAct → Option (Exchange ι)
  | .take =>
    match s.sender, s.m_send_channal.pop with
    | none, some (some m, m_send_channal) => some { s with m_send_channal, sender := some m }
    | _, _ => none
  | .write =>
    match s.sender with
    | some m =>
      if m.type = RPC_DEFAULT then some { s with sender := none }
      else match s.window with
        -- `send` spins on `EAGAIN`
        | 0 => none
        | window + 1 =>
          some { s with sender := none, window, requests := s.requests ++ [m] }
    | none => none

/-- The peer answers a request once, with its `seq`, and publishes nothing. -/
def answerStep (s : Exchange ι) (k : ℕ) (m : Message) : Option (Exchange ι) :=
  match s.requests[k]? with
  | some q =>
    if m.seq = q.seq ∧ m.type ≠ RPC_PUBLISH then
      some { s with
        requests := s.requests.eraseIdx k
        responses := s.responses ++ [m]
        answers := s.answers ++ [m] }
    else none
  | none => none

/-- `handle_receive`; without `RPC_PUBLISH` it does not take the branch for it. -/
def receiverStep (s : Exchange ι) : ReceiverAct → Option (Exchange ι)
  | .receive =>
    match s.receiver, s.responses with
    | .reading, m :: responses => some { s with receiver := .received m, responses }
    | _, _ => none
  | .lock =>
    match s.receiver, s.m_mutex with
    | .received m, none => some { s with receiver := .locked m, m_mutex := some .receiver }
    | _, _ => none
  | .find =>
    match s.receiver with
    | .locked m =>
      match s.m_response_channals m.seq with
      | some c => some { s with receiver := .pushing m c }
      | none => some { s with receiver := .unlocking }
    | _ => none
  | .push =>
    match s.receiver with
    | .pushing m c =>
      match (s.channals c).push m with
      | some (_, ch) => some ({ s with receiver := .unlocking }.setChannal c ch)
      | none => none
    | _ => none
  | .unlock =>
    match s.receiver with
    | .unlocking => some { s with receiver := .reading, m_mutex := none }
    | _ => none

def step (request : ι → Message) (s : Exchange ι) : Act ι → Option (Exchange ι)
  | .caller i a => s.callerStep request i a
  | .late i c => s.lateStep i c
  | .sender a => s.senderStep a
  | .read => some { s with window := s.window + 1 }
  | .answer k m => s.answerStep k m
  | .receiver a => s.receiverStep a

/-- The runs in which no timer's callback comes after its call has returned. -/
def InTime (_ : Exchange ι) (a : Act ι) : Prop := a.InTime

instance (s : Exchange ι) : DecidablePred (InTime s) := inferInstanceAs (DecidablePred Act.InTime)

inductive Move (request : ι → Message) (s : Exchange ι) : Act ι → Exchange ι → Prop
  | begin {i} (at_ : s.callers i = .start) :
      Move request s (.caller i .begin)
        ({ s with made := s.made + 1 }.setCaller i (.locking s.made))
  | lock {i c} (at_ : s.callers i = .locking c) (free : s.m_mutex = none) :
      Move request s (.caller i .lock)
        ({ s with m_mutex := some (.caller i) }.setCaller i (.registering c))
  | register {i c} (at_ : s.callers i = .registering c) :
      Move request s (.caller i .register)
        ((s.setResponse (request i).seq (some c)).setCaller i (.sending c))
  | send {i c} (at_ : s.callers i = .sending c) {ch : CoroutineChannal Message}
      (queue : ch = s.m_send_channal ∨
        ch.m_queue = s.m_send_channal.m_queue ++ [request i]) :
      Move request s (.caller i .send) ({ s with m_send_channal := ch }.setCaller i (.waiting c))
  | pop {i c} (at_ : s.callers i = .waiting c) {r ch} (pop : (s.channals c).pop = some (r, ch)) :
      Move request s (.caller i .pop)
        (({ s with delivered := s.delivered ++ r.toList }.setChannal c ch).setCaller i
          (.popped c r))
  | timeout {i c} (at_ : (s.callers i).channel = some c) :
      Move request s (.caller i .timeout) (s.setChannal c (s.channals c).close)
  | cancel {i c r} (at_ : s.callers i = .popped c r) :
      Move request s (.caller i .cancel) (s.setCaller i (.erasing c r))
  | lockErase {i c r} (at_ : s.callers i = .erasing c r) (free : s.m_mutex = none) :
      Move request s (.caller i .lockErase)
        ({ s with m_mutex := some (.caller i) }.setCaller i (.removing c r))
  | erase {i c r} (at_ : s.callers i = .removing c r) :
      Move request s (.caller i .erase)
        ((s.setResponse (request i).seq none).setCaller i (.done c r))
  | take {m ch} (idle : s.sender = none) (queue : s.m_send_channal.m_queue = m :: ch.m_queue) :
      Move request s (.sender .take) { s with m_send_channal := ch, sender := some m }
  | drop {m} (at_ : s.sender = some m) : Move request s (.sender .write) { s with sender := none }
  | write {m window} (at_ : s.sender = some m) (room : s.window = window + 1) :
      Move request s (.sender .write)
        { s with sender := none, window, requests := s.requests ++ [m] }
  | read : Move request s .read { s with window := s.window + 1 }
  | answer {k m q} (pending : s.requests[k]? = some q) (seq : m.seq = q.seq) :
      Move request s (.answer k m) { s with
        requests := s.requests.eraseIdx k
        responses := s.responses ++ [m]
        answers := s.answers ++ [m] }
  | receive {m rest} (idle : s.receiver = .reading) (next : s.responses = m :: rest) :
      Move request s (.receiver .receive) { s with receiver := .received m, responses := rest }
  | lockReceive {m} (at_ : s.receiver = .received m) (free : s.m_mutex = none) :
      Move request s (.receiver .lock)
        { s with receiver := .locked m, m_mutex := some .receiver }
  | find {m c} (at_ : s.receiver = .locked m) (found : s.m_response_channals m.seq = some c) :
      Move request s (.receiver .find) { s with receiver := .pushing m c }
  | miss {m} (at_ : s.receiver = .locked m) (erased : s.m_response_channals m.seq = none) :
      Move request s (.receiver .find) { s with receiver := .unlocking }
  | push {m c b ch} (at_ : s.receiver = .pushing m c)
      (push : (s.channals c).push m = some (b, ch)) :
      Move request s (.receiver .push) ({ s with receiver := .unlocking }.setChannal c ch)
  | unlock (at_ : s.receiver = .unlocking) :
      Move request s (.receiver .unlock) { s with receiver := .reading, m_mutex := none }

variable {request : ι → Message} {s s' : Exchange ι}

theorem move_of_callerStep {i : ι} {a : CallerAct} (h : s.callerStep request i a = some s') :
    Move request s (.caller i a) s' := by
  cases a with
  | begin =>
    dsimp only [callerStep] at h
    split at h <;> cases h
    exact .begin ‹_›
  | lock =>
    dsimp only [callerStep] at h
    split at h <;> cases h
    exact .lock ‹_› ‹_›
  | register =>
    dsimp only [callerStep] at h
    split at h <;> cases h
    exact .register ‹_›
  | send =>
    dsimp only [callerStep] at h
    split at h <;> cases h
    rename_i at_ queue
    apply Move.send at_
    rcases CoroutineChannal.push_cases queue with ⟨-, rfl⟩ | ⟨-, rfl⟩
    · exact .inl rfl
    · exact .inr rfl
  | pop =>
    dsimp only [callerStep] at h
    split at h
    · split at h <;> cases h
      exact .pop ‹_› ‹_›
    · cases h
  | timeout =>
    dsimp only [callerStep] at h
    split at h <;> cases h <;> exact .timeout (by simp [*, Caller.channel])
  | cancel =>
    dsimp only [callerStep] at h
    split at h <;> cases h
    exact .cancel ‹_›
  | lockErase =>
    dsimp only [callerStep] at h
    split at h <;> cases h
    exact .lockErase ‹_› ‹_›
  | erase =>
    dsimp only [callerStep] at h
    split at h <;> cases h
    exact .erase ‹_›

theorem move_of_senderStep {a : SenderAct} (h : s.senderStep a = some s') :
    Move request s (.sender a) s' := by
  cases a with
  | take =>
    dsimp only [senderStep] at h
    split at h <;> cases h
    rename_i idle pop
    rcases CoroutineChannal.pop_cases pop with ⟨none, -⟩ | ⟨m, rest, eq, queue, rfl⟩
    · cases none
    · cases eq
      exact .take idle queue
  | write =>
    dsimp only [senderStep] at h
    split at h
    · split at h
      · cases h
        exact .drop ‹_›
      · split at h <;> cases h
        exact .write ‹_› ‹_›
    · cases h

theorem move_of_receiverStep {a : ReceiverAct} (h : s.receiverStep a = some s') :
    Move request s (.receiver a) s' := by
  cases a with
  | receive =>
    dsimp only [receiverStep] at h
    split at h <;> cases h
    exact .receive ‹_› ‹_›
  | lock =>
    dsimp only [receiverStep] at h
    split at h <;> cases h
    exact .lockReceive ‹_› ‹_›
  | find =>
    dsimp only [receiverStep] at h
    split at h
    · split at h <;> cases h
      · exact .find ‹_› ‹_›
      · exact .miss ‹_› ‹_›
    · cases h
  | push =>
    dsimp only [receiverStep] at h
    split at h
    · split at h <;> cases h
      exact .push ‹_› ‹_›
    · cases h
  | unlock =>
    dsimp only [receiverStep] at h
    split at h <;> cases h
    exact .unlock ‹_›

theorem move_of_step {a : Act ι} (inTime : a.InTime) (h : step request s a = some s') :
    Move request s a s' := by
  cases a with
  | caller i a => exact move_of_callerStep h
  | late => exact inTime.elim
  | sender a => exact move_of_senderStep h
  | read =>
    cases h
    exact .read
  | answer k m =>
    change answerStep s k m = some s' at h
    dsimp only [answerStep] at h
    split at h
    · split at h <;> cases h
      rename_i pending ok
      exact .answer pending ok.1
    · cases h
  | receiver a => exact move_of_receiverStep h

end Exchange

end CRpc
