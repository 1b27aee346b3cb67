import CRpc.Raft.Config

/-! `raft_logger.h`: the log of one node, its commit index and the state the
committed entries are applied to. -/
namespace CRpc.Raft

/-- `std::vector<Entry>::max_size()`; an `Entry` takes 120 bytes and `push_back`
throws `length_error` beyond this. -/
def maxEntries : Nat := (2 ^ 63 - 1) / 120

/-- `std::multimap::emplace`: keys stay ordered and a new value goes behind the
values already stored under its key. -/
def emplaceAddress (name : String) (address : IpPort) :
    List (String × IpPort) → List (String × IpPort)
  | [] => [(name, address)]
  | (key, value) :: rest =>
      if name < key then (name, address) :: (key, value) :: rest
      else (key, value) :: emplaceAddress name address rest

/-- `m_mutex` tells whether the `run()` coroutine left the logger's mutex locked:
every other coroutine releases it before it can be seen, and so does every later
operation of `run()` itself, whose `lock` returns at once and whose `unlock` works.
`applied` is the log file `theAppliedLogOfNode`. -/
structure RaftLogger where
  m_entries : List Entry := [{}]
  m_lastApplied : Nat := 0
  m_commitIndex : Nat := 0
  m_addresses : List (String × IpPort) := []
  applied : List Entry := []
  m_mutex : Bool := false

namespace RaftLogger

/-- `m_entries[m_entries.size()-1]` -/
def lastEntry (l : RaftLogger) : Entry := l.m_entries.getLast?.getD {}

def is_newer (l : RaftLogger) (term index : Nat) : Bool :=
  if l.lastEntry.term < term then true
  else if term = l.lastEntry.term then decide (l.lastEntry.index ≤ index)
  else false

def getLastTerm (l : RaftLogger) : Nat := l.lastEntry.term
def getLastIndex (l : RaftLogger) : Nat := l.lastEntry.index

def getEntry (l : RaftLogger) (index : Nat) : Entry :=
  l.m_entries[index]?.getD { op := .null }

def setCommitIndex (l : RaftLogger) (index : Nat) : RaftLogger :=
  { l with m_commitIndex := index, m_mutex := false }

def applyOp (addresses : List (String × IpPort)) (entry : Entry) : List (String × IpPort) :=
  match entry.op with
  | .register => emplaceAddress entry.f_name ⟨entry.f_ip, entry.f_port⟩ addresses
  | _ => addresses

/-- One round of the apply coroutine. There is no result when
`m_entries[m_lastApplied+1]` lies outside the vector. -/
def applyRound (l : RaftLogger) : Option RaftLogger :=
  if l.m_lastApplied < l.m_commitIndex then
    match l.m_entries[l.m_lastApplied + 1]? with
    | some entry => some { l with
        m_addresses := applyOp l.m_addresses entry
        applied := l.applied ++ [entry]
        m_lastApplied := l.m_lastApplied + 1 }
    | none => none
  else some l

/-- The loop of `appendEntry` that walks from the last entry to the first, with
`n` entries left to look at. `none`: the iterator has passed `begin()`. -/
def findPrev (entries : List Entry) (prevLogIndex : Nat) : Nat → Option Nat
  | 0 => none
  | n + 1 =>
      match entries[n]? with
      | none => none
      | some e =>
          if prevLogIndex < e.index then findPrev entries prevLogIndex n
          else if e.index = prevLogIndex then some n
          else findPrev entries prevLogIndex n

/-- Whether `appendEntry` accepts, and the position it keeps the log up to. The
entry before `begin()` which a failed walk leaves the iterator at counts as a
mismatch. -/
def matchPrev (l : RaftLogger) (prevLogIndex prevLogTerm : Nat) : Option Nat :=
  match findPrev l.m_entries prevLogIndex l.m_entries.length with
  | some p => if (l.getEntry p).term = prevLogTerm then some p else none
  | none => none

/-- `appendEntry(new_entry, prevLogIndex, prevLogTerm)`. A rejection returns
without releasing the mutex. -/
def appendAfter (l : RaftLogger) (new_entry : Entry) (prevLogIndex prevLogTerm : Nat) :
    Option (RaftLogger × Bool) :=
  match l.matchPrev prevLogIndex prevLogTerm with
  | none => some ({ l with m_mutex := true }, false)
  | some p =>
      if p + 1 < maxEntries then
        some ({ l with m_entries := l.m_entries.take (p + 1) ++ [new_entry], m_mutex := false }, true)
      else none

/-- `appendEntry(new_entry)`, used by a leader; the result carries the new index. -/
def appendEntry (l : RaftLogger) (new_entry : Entry) : Option (RaftLogger × Nat) :=
  if l.m_entries.length < maxEntries then
    some ({ l with
      m_entries := l.m_entries ++ [{ new_entry with index := l.getLastIndex + 1 }]
      m_mutex := false }, l.m_entries.length)
  else none

end RaftLogger
end CRpc.Raft
