import CRpc.Raft.Matching
import CRpc.Raft.Rounds

/-! How a follower comes by the log of its leader: one round of `replicateLog` after the
other, from an entry both have on. -/
namespace CRpc.Raft

open Cluster Transition

/-- `n` rounds, the first of them as call `k`. -/
def rounds (i l j : Nat) : Nat → Nat → List Action
  | _, 0 => []
  | k, n + 1 => round i l j k ++ rounds i l j (k + 1) n

/-- The two logs agree up to where node `j` is served next, and there is more to serve. -/
structure Lags (s : Cluster) (i j : Nat) : Prop where
  pos : 0 < (s.nodes i).m_nextIndexs j
  inside : (s.nodes i).m_nextIndexs j < (s.entries i).length
  same : (s.entries j).take ((s.nodes i).m_nextIndexs j) =
    (s.entries i).take ((s.nodes i).m_nextIndexs j)

/-- What rounds of leader `i` from `s` to `t` leave behind: node `j` has the first `n` of its
entries, and the leader counts them. -/
structure Fed (cfg : Config) (s t : Cluster) (i j n : Nat) : Prop where
  kept : t.entries i = s.entries i
  stored : t.entries j = (s.entries i).take n
  next : (t.nodes i).m_nextIndexs j = n
  leader : ∃ c, t.progress i = { s.progress i with
      matchIndexs := Function.update (s.nodes i).m_matchIndexs j (n - 1), commitIndex := c } ∧
    (s.progress i).commitIndex ≤ c ∧ c ≤ max (n - 1) (s.progress i).commitIndex ∧
    (RaftNode.threshold cfg ≤ (insert j ((s.nodes i).replicas cfg i (n - 1))).card →
      c = max (n - 1) (s.progress i).commitIndex)
  follower : ∃ c, t.progress j = { s.progress j with commitIndex := c }

section Feeding

variable {cfg : Config} {s : Cluster} {i l j : Nat}

def Shares (s : Cluster) (i j : Nat) : Prop :=
  ∃ d ∈ s.entries i, ∃ e ∈ s.entries j, d.index + 1 = (s.nodes i).m_nextIndexs j ∧
    e.index = d.index ∧ e.term = d.term

theorem Lags.shares (positions : Positions s) (lags : Lags s i j) : Shares s i j := by
  obtain ⟨pos, inside, same⟩ := lags
  have here : (s.entries i)[(s.nodes i).m_nextIndexs j - 1]? =
      some (s.entries i)[(s.nodes i).m_nextIndexs j - 1] := List.getElem?_eq_getElem (by omega)
  have there : (s.entries j)[(s.nodes i).m_nextIndexs j - 1]? =
      some (s.entries i)[(s.nodes i).m_nextIndexs j - 1] := by
    have both := congrArg (fun es => es[(s.nodes i).m_nextIndexs j - 1]?) same
    simpa [List.getElem?_take_of_lt (Nat.sub_one_lt_of_lt pos), here] using both
  have index := (positions.log i).index _ _ here
  exact ⟨_, List.mem_of_getElem? here, _, List.mem_of_getElem? there, by omega, rfl, rfl⟩

theorem Shares.lags (logs : LogsMatch s) (shares : Shares s i j)
    (behind : (s.nodes i).m_nextIndexs j < (s.entries i).length) : Lags s i j := by
  obtain ⟨d, hd, e, he, next, index, term⟩ := shares
  refine ⟨by omega, behind, ?_⟩
  rw [← next]
  exact (logs i j d hd e he index.symm term.symm).symm

theorem Fed.lags {t : Cluster} {n : Nat} (fed : Fed cfg s t i j n) (pos : 0 < n)
    (behind : n < (s.entries i).length) : Lags t i j := by
  refine ⟨fed.next ▸ pos, ?_, ?_⟩
  · rw [fed.next, fed.kept]
    exact behind
  · rw [fed.next, fed.kept, fed.stored, List.take_take, min_self]

theorem Fed.trans {t u : Cluster} {m n : Nat} (first : Fed cfg s t i j m) (le : m ≤ n)
    (second : Fed cfg t u i j n) : Fed cfg s u i j n := by
  refine ⟨second.kept.trans first.kept, first.kept ▸ second.stored, second.next, ?_, ?_⟩
  · obtain ⟨c, eq, ge, top, -⟩ := first.leader
    obtain ⟨d, eq', ge', top', full'⟩ := second.leader
    have matched : (t.nodes i).m_matchIndexs =
        Function.update (s.nodes i).m_matchIndexs j (m - 1) := congrArg Progress.matchIndexs eq
    have commit : (t.progress i).commitIndex = c := congrArg Progress.commitIndex eq
    have same : insert j ((t.nodes i).replicas cfg i (n - 1)) =
        insert j ((s.nodes i).replicas cfg i (n - 1)) := by
      ext v
      by_cases at_ : v = j
      · simp [at_]
      · simp [RaftNode.replicas, matched, at_]
    rw [same, commit] at full'
    rw [commit] at ge' top'
    refine ⟨d, ?_, by omega, by omega, fun quorum => ?_⟩
    · rw [eq', eq, matched, Function.update_idem]
    · have := full' quorum
      omega
  · obtain ⟨c, eq⟩ := first.follower
    obtain ⟨d, eq'⟩ := second.follower
    exact ⟨d, by rw [eq', eq]⟩

end Feeding

section Beat

variable {cfg : Config} {s : Cluster} {i l j : Nat}

end Beat

end CRpc.Raft
