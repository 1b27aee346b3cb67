import Mathlib.Algebra.Group.Nat.Defs
import Mathlib.Tactic.Common

/-! The data of `raft_config.h`: what a log entry holds and what the two remote
procedures of the Raft nodes carry. Numbers are `uint64_t` unless said otherwise. -/
namespace CRpc.Raft

def u64 (n : Nat) : Nat := n % 2 ^ 64

/-- `x - 1` on `uint64_t`; zero wraps to the greatest value. -/
def pred64 (n : Nat) : Nat := (n + (2 ^ 64 - 1)) % 2 ^ 64

/-- `uint64_t(-1)`: no leader is known, or no vote was cast. -/
def noNode : Nat := 2 ^ 64 - 1

theorem u64_of_lt {n : Nat} (h : n < 2 ^ 64) : u64 n = n := Nat.mod_eq_of_lt h

@[simp] theorem pred64_zero : pred64 0 = 2 ^ 64 - 1 := by decide

theorem pred64_of_pos {n : Nat} (pos : 0 < n) (h : n ≤ 2 ^ 64) : pred64 n = n - 1 := by
  unfold pred64
  omega

theorem pred64_u64 {n : Nat} (h : n < 2 ^ 64) : pred64 (u64 (n + 1)) = n := by
  unfold pred64 u64
  omega

theorem pred64_u64_le (n : Nat) : pred64 (u64 (n + 1)) ≤ n := by
  unfold pred64 u64
  omega

/-- The vector of addresses a node is built with. `m_nodes.size()` is all the
protocol reads of it, and a vector never grows to `PTRDIFF_MAX` elements. -/
structure Config where
  size : Nat
  size_lt : size < 2 ^ 63

/-- `Nodes`, the only configuration of the repository. -/
def threeNodes : Config := ⟨3, by decide⟩

/-- `ip_port` of `util/utils.h`. -/
structure IpPort where
  m_ip : String
  m_port : UInt16
  deriving DecidableEq, Repr

inductive Op
  | empty | noOp | register | heartbeat | null
  deriving DecidableEq, Repr

structure Entry where
  index : Nat := 0
  term : Nat := 0
  op : Op := .empty
  f_name : String := ""
  f_ip : String := ""
  f_port : UInt16 := 0
  deriving DecidableEq, Repr

structure RaftVoteParams where
  term : Nat
  candidateId : Nat
  lastLogIndex : Nat
  lastLogTerm : Nat
  deriving DecidableEq, Repr

structure RaftVoteRets where
  term : Nat
  voteGranted : Bool
  deriving DecidableEq, Repr

structure AppendEntriesParams where
  term : Nat
  leaderId : Nat
  prevLogIndex : Nat
  prevLogTerm : Nat
  entry : Entry
  leaderCommit : Nat
  deriving DecidableEq, Repr

structure AppendEntriesRets where
  success : Bool := false
  term : Nat := 0
  deriving DecidableEq, Repr

end CRpc.Raft
