import CRpc.Lib.Ledger

/-! Gentle moves of a ledger keep what a quorum has stored: every later leader begins
with it. -/
namespace Ledger

variable {ι ε : Type*} {stamp : ε → ℕ} {l l' : Ledger ι ε} {all : Finset ι}

/-- Some leader after `T` and before `U` began without `X`. -/
def Lost (l : Ledger ι ε) (X : List ε) (T U : ℕ) : Prop :=
  ∃ W r, T < W ∧ W < U ∧ l.reign W = some r ∧ ¬ X <+: r.base

theorem Lost.mono {X : List ε} {T U V : ℕ} (lost : Lost l X T U) (grows : Grows l l')
    (le : U ≤ V) : Lost l' X T V := by
  obtain ⟨W, r, after, before, reign, missing⟩ := lost
  obtain ⟨r', reign', -, base, -⟩ := grows.reign W r reign
  exact ⟨W, r', after, before.trans_le le, reign', base ▸ missing⟩

theorem Lost.before {X : List ε} {T U : ℕ} (lost : Lost l X T (U + 1))
    (fresh : l.reign U = none) : Lost l X T U := by
  obtain ⟨W, r, after, before, reign, missing⟩ := lost
  refine ⟨W, r, after, lt_of_le_of_ne (Nat.le_of_lt_succ before) ?_, reign, missing⟩
  rintro rfl
  rw [fresh] at reign
  cases reign

theorem lastStamp_le {es pre : List ε} (sorted : es.Pairwise fun d e => stamp d ≤ stamp e)
    (h : pre <+: es) : lastStamp stamp pre ≤ lastStamp stamp es := by
  obtain ⟨rest, rfl⟩ := h
  rcases List.eq_nil_or_concat pre with rfl | ⟨front, d, rfl⟩
  · exact Nat.zero_le _
  · rcases List.eq_nil_or_concat rest with rfl | ⟨middle, e, rfl⟩
    · rw [List.append_nil]
    · have le : stamp d ≤ stamp e :=
        (List.pairwise_append.mp sorted).2.2 d (by simp) e (by simp)
      have last : lastStamp stamp (front.concat d ++ middle.concat e) = stamp e := by
        simp [lastStamp, ← List.append_assoc]
      rw [last]
      simpa [lastStamp] using le

theorem UpToDate.keeps {new old pre : List ε} (newer : UpToDate stamp new old)
    (sorted : old.Pairwise fun d e => stamp d ≤ stamp e) (h : pre <+: old) :
    UpToDate stamp new pre := by
  have le := lastStamp_le sorted h
  have len := h.length_le
  rcases newer with later | ⟨same, longer⟩
  · exact .inl (by omega)
  · rcases Nat.lt_or_ge (lastStamp stamp pre) (lastStamp stamp new) with later | ge
    · exact .inl later
    · exact .inr ⟨by omega, by omega⟩

theorem UpToDate.refl (es : List ε) : UpToDate stamp es es := .inr ⟨rfl, le_rfl⟩

theorem upToDate_nil (es : List ε) : UpToDate stamp es [] := by
  rcases Nat.eq_zero_or_pos (lastStamp stamp es) with zero | pos
  · exact .inr ⟨zero.symm, Nat.zero_le _⟩
  · exact .inl pos

variable (stamp all) in
structure Retention (l : Ledger ι ε) : Prop where
  kept : ∀ v T r p, l.reign T = some r → p ≤ l.ack v T →
    r.log.take p <+: l.log v ∨ Lost l (r.log.take p) T (l.term v + 1)
  cast : ∀ v T r p U es, l.reign T = some r → p ≤ l.ack v T → T < U →
    l.ballot v U = some es → UpToDate stamp es (r.log.take p) ∨ Lost l (r.log.take p) T U
  elected : ∀ T r, l.reign T = some r → T ≠ 0 →
    ∃ Q, Quorum.Majority all Q ∧ ∀ v ∈ Q, l.ballot v T = some r.base

namespace Retention

/-- The vote of a node for a log that is at least as up to date as its own. -/
theorem cast_upToDate (ret : Retention stamp all l) (inv : Inv stamp l) {v : ι} {T U p : ℕ}
    {r : Reign ι ε} {es : List ε} (reign : l.reign T = some r) (le : p ≤ l.ack v T)
    (term : l.term v = U) (fresh : l.reign U = none) (newer : UpToDate stamp es (l.log v)) :
    UpToDate stamp es (r.log.take p) ∨ Lost l (r.log.take p) T U := by
  rcases ret.kept v T r p reign le with held | lost
  · exact .inl (newer.keeps (inv.sorted v) held)
  · exact .inr (Lost.before (term ▸ lost) fresh)

/-- What a node has stored of a reign stays while the node is in its term. -/
theorem stored (ret : Retention stamp all l) {v : ι} {r : Reign ι ε} {p : ℕ}
    (reign : l.reign (l.term v) = some r) (acked : p ≤ l.ack v (l.term v)) :
    r.log.take p <+: l.log v := by
  rcases ret.kept v (l.term v) r p reign acked with held | ⟨W, -, after, before, -⟩
  · exact held
  · omega

variable [DecidableEq ι]

theorem raise (ret : Retention stamp all l) {v : ι} {T : ℕ} (le : l.term v ≤ T) :
    Retention stamp all (l.raise v T) := by
  have grows := raise_grows le
  refine ⟨fun w U r p reign acked => ?_, fun w U r p V es reign acked lt ballot => ?_,
    ret.elected⟩
  · exact (ret.kept w U r p reign acked).imp_right fun lost =>
      lost.mono grows (Nat.succ_le_succ (grows.term w))
  · exact (ret.cast w U r p V es reign acked lt ballot).imp_right fun lost =>
      lost.mono grows le_rfl

theorem cast_ (ret : Retention stamp all l) (inv : Inv stamp l) {v c : ι} {T : ℕ}
    (term : l.term v = T) (fresh : l.reign T = none)
    (newer : UpToDate stamp (l.log c) (l.log v)) : Retention stamp all (l.cast v c T) := by
  refine ⟨fun w U r p reign acked => ?_, fun w U r p V es reign acked lt ballot => ?_,
    fun U r reign pos => ?_⟩
  · exact (ret.kept w U r p reign acked).imp_right fun lost => lost.mono cast_grows le_rfl
  · rw [cast_ballot] at ballot
    split_ifs at ballot with here
    · obtain ⟨rfl, rfl⟩ := here
      cases ballot
      exact (ret.cast_upToDate inv reign acked term fresh newer).imp_right fun lost =>
        lost.mono cast_grows le_rfl
    · exact (ret.cast w U r p V es reign acked lt ballot).imp_right fun lost =>
        lost.mono cast_grows le_rfl
  · obtain ⟨Q, majority, votes⟩ := ret.elected U r reign pos
    refine ⟨Q, majority, fun w mem => ?_⟩
    rw [cast_ballot, if_neg, votes w mem]
    rintro ⟨-, rfl⟩
    rw [cast_reign, fresh] at reign
    cases reign

theorem elect (ret : Retention stamp all l) (inv : Inv stamp l) {c : ι} {T : ℕ} {e : ε}
    {Q : Finset ι} (term : l.term c = T) (fresh : l.reign T = none)
    (majority : Quorum.Majority all Q)
    (votes : ∀ v ∈ Q, v = c ∨ l.ballot v T = some (l.log c)) :
    Retention stamp all (l.elect c T e) := by
  have grows := elect_grows inv (c := c) (e := e) fresh
  have zero := inv.ack_eq_zero fresh
  refine ⟨fun w U r p reign acked => ?_, fun w U r p V es reign acked lt ballot => ?_,
    fun U r reign pos => ?_⟩
  · rw [elect_reign] at reign
    rw [elect_ack] at acked
    rw [elect_log]
    by_cases same : U = T
    · rw [if_pos same] at reign
      cases reign
      left
      by_cases at_ : w = c
      · rw [if_pos at_]
        exact List.take_prefix ..
      · rw [if_neg (by simp [at_]), same, zero w] at acked
        rw [Nat.le_zero.mp acked]
        exact List.nil_prefix
    · rw [if_neg same] at reign
      rw [if_neg (by simp [same])] at acked
      rcases ret.kept w U r p reign acked with held | lost
      · left
        split_ifs with at_
        · exact (at_ ▸ held).trans (List.prefix_append ..)
        · exact held
      · exact .inr (lost.mono grows le_rfl)
  · rw [elect_reign] at reign
    rw [elect_ack] at acked
    rw [elect_ballot] at ballot
    by_cases same : U = T
    · subst same
      rw [if_neg (by rintro ⟨-, rfl⟩; exact lt_irrefl _ lt)] at ballot
      rw [if_pos rfl] at reign
      cases reign
      by_cases at_ : w = c
      · subst at_
        have := inv.balloted w V (by simp [ballot])
        omega
      · rw [if_neg (by simp [at_]), zero w] at acked
        rw [Nat.le_zero.mp acked]
        exact .inl (upToDate_nil es)
    · rw [if_neg same] at reign
      rw [if_neg (by simp [same])] at acked
      split_ifs at ballot with here
      · obtain ⟨rfl, rfl⟩ := here
        cases ballot
        exact (ret.cast_upToDate inv reign acked term fresh (.refl _)).imp_right fun lost =>
          lost.mono grows le_rfl
      · exact (ret.cast w U r p V es reign acked lt ballot).imp_right fun lost =>
          lost.mono grows le_rfl
  · rw [elect_reign] at reign
    by_cases same : U = T
    · rw [if_pos same] at reign
      cases reign
      refine ⟨Q, majority, fun w mem => ?_⟩
      rw [elect_ballot]
      split_ifs with here
      · rfl
      · subst same
        exact (votes w mem).resolve_left fun at_ => here ⟨at_, rfl⟩
    · rw [if_neg same] at reign
      obtain ⟨R, majority', votes'⟩ := ret.elected U r reign pos
      refine ⟨R, majority', fun w mem => ?_⟩
      rw [elect_ballot, if_neg (by simp [same]), votes' w mem]

theorem append (ret : Retention stamp all l) (inv : Inv stamp l) {T : ℕ} {r : Reign ι ε} {e : ε}
    (reign : l.reign T = some r) (term : l.term r.node = T) :
    Retention stamp all (l.append T r e) := by
  have grows := append_grows inv (e := e) reign
  have log : l.log r.node = r.log := (inv.current T r reign).2 term
  have short : ∀ w p, p ≤ l.ack w T → (r.log ++ [e]).take p = r.log.take p := fun w p acked =>
    List.take_append_of_le_length (acked.trans (inv.ack_le reign w))
  have longer : ∀ w X, X <+: l.log w → X <+: (l.append T r e).log w := by
    intro w X held
    rw [append_log]
    split_ifs with at_
    · rw [at_, log] at held
      exact held.trans (List.prefix_append ..)
    · exact held
  refine ⟨fun w U r' p reign' acked => ?_, fun w U r' p V es reign' acked lt ballot => ?_,
    fun U r' reign' pos => ?_⟩
  · rw [append_reign] at reign'
    rw [append_ack] at acked
    by_cases same : U = T
    · subst same
      rw [if_pos rfl] at reign'
      cases reign'
      by_cases at_ : w = r.node
      · left
        rw [append_log, if_pos at_]
        exact List.take_prefix ..
      · rw [if_neg (by simp [at_])] at acked
        rw [short w p acked]
        exact (ret.kept w U r p reign acked).imp (longer w _) fun lost => lost.mono grows le_rfl
    · rw [if_neg same] at reign'
      rw [if_neg (by simp [same])] at acked
      exact (ret.kept w U r' p reign' acked).imp (longer w _) fun lost => lost.mono grows le_rfl
  · rw [append_reign] at reign'
    rw [append_ack] at acked
    by_cases same : U = T
    · subst same
      rw [if_pos rfl] at reign'
      cases reign'
      by_cases at_ : w = r.node
      · subst at_
        have := inv.balloted r.node V (by rw [← append_ballot U r e, ballot]; simp)
        omega
      · rw [if_neg (by simp [at_])] at acked
        rw [short w p acked]
        exact (ret.cast w U r p V es reign acked lt ballot).imp_right fun lost =>
          lost.mono grows le_rfl
    · rw [if_neg same] at reign'
      rw [if_neg (by simp [same])] at acked
      exact (ret.cast w U r' p V es reign' acked lt ballot).imp_right fun lost =>
        lost.mono grows le_rfl
  · rw [append_reign] at reign'
    split_ifs at reign' with same
    · cases reign'
      exact ret.elected U r (same ▸ reign) pos
    · exact ret.elected U r' reign' pos

theorem accept (ret : Retention stamp all l) (inv : Inv stamp l) {v : ι} {T : ℕ}
    {r : Reign ι ε} {n : ℕ} (reign : l.reign T = some r) (term : l.term v = T)
    (keeps : Keeps (l.log v) r.log n) : Retention stamp all (l.accept v T r n) := by
  have grows := accept_grows (l := l) (v := v) (T := T) (r := r) (n := n)
  have shared : ∀ X, X <+: l.log v → X <+: r.log → X <+: r.log.take n := fun X old new =>
    List.prefix_of_prefix_length_le new (List.take_prefix ..) (by
      have := keeps X old new
      have := new.length_le
      simp only [List.length_take]
      omega)
  refine ⟨fun w U r' p reign' acked => ?_, fun w U r' p V es reign' acked lt ballot => ?_,
    ret.elected⟩
  · rw [accept_reign] at reign'
    rw [accept_ack] at acked
    rw [accept_log]
    by_cases at_ : w = v
    · subst at_
      rw [if_pos rfl]
      rcases Nat.lt_trichotomy U T with earlier | same | later
      · rw [if_neg (by omega)] at acked
        rcases ret.kept w U r' p reign' acked with held | lost
        · by_cases based : r'.log.take p <+: r.base
          · obtain ⟨-, own, split, -⟩ := inv.own T r reign
            exact .inl (shared _ held (based.trans (split ▸ List.prefix_append ..)))
          · exact .inr ⟨T, r, earlier, by rw [accept_term, term]; omega, reign, based⟩
        · exact .inr (lost.mono grows le_rfl)
      · subst same
        obtain rfl : r = r' := Option.some.inj (reign.symm.trans reign')
        rw [if_pos ⟨rfl, rfl⟩] at acked
        left
        rcases le_max_iff.mp acked with old | new
        · rcases ret.kept w U r p reign old with held | ⟨W, -, after, before, -⟩
          · exact shared _ held (List.take_prefix ..)
          · omega
        · exact List.take_prefix_take_left new
      · rw [if_neg (by omega)] at acked
        have zero : l.ack w U = 0 := by
          by_contra some_
          have := (inv.acked w U some_).1
          omega
        rw [zero] at acked
        rw [Nat.le_zero.mp acked]
        exact .inl List.nil_prefix
    · rw [if_neg (by simp [at_])] at acked
      rw [if_neg at_]
      exact (ret.kept w U r' p reign' acked).imp_right fun lost => lost.mono grows le_rfl
  · rw [accept_ack] at acked
    split_ifs at acked with here
    · obtain ⟨rfl, rfl⟩ := here
      have := inv.balloted w V (by rw [← accept_ballot w U r n, ballot]; simp)
      omega
    · exact (ret.cast w U r' p V es reign' acked lt ballot).imp_right fun lost =>
        lost.mono grows le_rfl

theorem move {gentle : Prop} (ret : Retention stamp all l) (inv : Inv stamp l)
    (move : Move stamp all gentle l l') (g : gentle) : Retention stamp all l' := by
  cases move with
  | raise v T le => exact ret.raise le
  | cast v c T term fresh newer => exact ret.cast_ inv term fresh newer
  | elect c T e Q term fresh _ majority votes => exact ret.elect inv term fresh majority votes
  | append T r e reign term _ => exact ret.append inv reign term
  | accept v T r n reign term _ _ keeps => exact ret.accept inv reign term (keeps g)

theorem moves {gentle : Prop} (ret : Retention stamp all l) (inv : Inv stamp l)
    (moves : Moves stamp all gentle l l') (g : gentle) : Retention stamp all l' := by
  induction moves with
  | refl => exact ret
  | tail before move ih => exact ih.move (Moves.inv_grows before inv).1 move g

end Retention

theorem prefix_getElem? {α : Type*} {xs ys : List α} (pre : xs <+: ys) {i : ℕ} {x : α}
    (at_ : xs[i]? = some x) : ys[i]? = some x := by
  obtain ⟨rest, rfl⟩ := pre
  rwa [List.getElem?_append_left (List.getElem?_eq_some_iff.mp at_).1]

variable (stamp all) in
/-- A quorum has stored position `p` of the log of term `T`, an entry of that term. -/
def Chosen (l : Ledger ι ε) (T p : ℕ) (r : Reign ι ε) : Prop :=
  l.reign T = some r ∧ (∃ e, r.log[p]? = some e ∧ stamp e = T) ∧
    ∃ Q, Quorum.Majority all Q ∧ ∀ v ∈ Q, p < l.ack v T

theorem Chosen.mono {T p : ℕ} {r : Reign ι ε} (chosen : Chosen stamp all l T p r)
    (grows : Grows l l') : ∃ r', Chosen stamp all l' T p r' ∧ r.log <+: r'.log := by
  obtain ⟨reign, ⟨e, at_, made⟩, Q, majority, acked⟩ := chosen
  obtain ⟨r', reign', -, -, longer⟩ := grows.reign T r reign
  exact ⟨r', ⟨reign', ⟨e, prefix_getElem? longer at_, made⟩, Q, majority,
    fun v mem => (acked v mem).trans_le (grows.ack v T)⟩, longer⟩

/-- The last entry of a nonempty log, and what its term's leader had up to it. -/
theorem Held.last {es : List ε} (held : Held stamp l es) (nonempty : es ≠ []) :
    ∃ d r, es[es.length - 1]? = some d ∧ lastStamp stamp es = stamp d ∧
      l.reign (stamp d) = some r ∧ es <+: r.log := by
  obtain ⟨front, d, rfl⟩ := (List.eq_nil_or_concat es).resolve_left nonempty
  have at_ : (front.concat d)[(front.concat d).length - 1]? = some d := by simp
  obtain ⟨r, reign, pre⟩ := held _ d at_
  refine ⟨d, r, at_, by simp [lastStamp], reign, ?_⟩
  rwa [List.take_of_length_le (by omega)] at pre

/-- A log that ends in a term is the beginning of what its leader has. -/
theorem Held.prefix_reign {es : List ε} (held : Held stamp l es) (nonempty : es ≠ [])
    {r : Reign ι ε} (reign : l.reign (lastStamp stamp es) = some r) : es <+: r.log := by
  obtain ⟨d, q, -, last, reign', pre⟩ := held.last nonempty
  rw [last, reign'] at reign
  exact Option.some.inj reign ▸ pre

theorem lastStamp_take {es : List ε} {p : ℕ} {e : ε} (at_ : es[p]? = some e) :
    lastStamp stamp (es.take (p + 1)) = stamp e := by
  obtain ⟨lt, rfl⟩ := List.getElem?_eq_some_iff.mp at_
  rw [List.take_succ_eq_append_getElem lt]
  simp [lastStamp, -List.take_append_getElem]

/-- Leader completeness: what was chosen in a term opens the log of every later leader. -/
theorem Retention.complete [DecidableEq ι] (ret : Retention stamp all l) (inv : Inv stamp l)
    {T p : ℕ} {r : Reign ι ε} (chosen : Chosen stamp all l T p r) {U : ℕ} {s : Reign ι ε}
    (later : T < U) (reign : l.reign U = some s) : r.log.take (p + 1) <+: s.base := by
  obtain ⟨reignT, ⟨e, at_, made⟩, Q, majority, acked⟩ := chosen
  have lt := (List.getElem?_eq_some_iff.mp at_).1
  have last : lastStamp stamp (r.log.take (p + 1)) = T := (lastStamp_take at_).trans made
  have len : (r.log.take (p + 1)).length = p + 1 := by
    rw [List.length_take]
    omega
  induction U using Nat.strong_induction_on generalizing s with
  | h U ih =>
      have found : ¬ Lost l (r.log.take (p + 1)) T U := by
        rintro ⟨W, w, after, before, reignW, missing⟩
        exact missing (ih W before after reignW)
      obtain ⟨R, majority', votes⟩ := ret.elected U s reign (by omega)
      obtain ⟨v, inQ, inR⟩ := majority.meet majority'
      have newer := (ret.cast v T r (p + 1) U s.base reignT (acked v inQ) later
        (votes v inR)).resolve_right found
      rw [UpToDate, last, len] at newer
      obtain ⟨-, own, split, -, below⟩ := inv.own U s reign
      have base : s.base <+: s.log := split ▸ List.prefix_append ..
      have nonempty : s.base ≠ [] := by
        rintro empty
        simp [empty, lastStamp] at newer
      have held : Held stamp l s.base := by
        rw [List.prefix_iff_eq_take.mp base]
        exact (inv.reignHeld U s reign).take _
      obtain ⟨d, w, last', stamp_d, reignW, pre⟩ := held.last nonempty
      rw [stamp_d] at newer
      rcases newer with after | ⟨same, longer⟩
      · -- the last entry of the base is of a term in between
        have early := ih (stamp d) (below d (List.mem_of_getElem? last')) after reignW
        obtain ⟨-, own', split', -, below'⟩ := inv.own (stamp d) w reignW
        have w_base : w.base <+: w.log := split' ▸ List.prefix_append ..
        refine List.prefix_of_prefix_length_le (early.trans w_base) pre
          (early.length_le.trans ?_)
        by_contra short
        have inside : w.log[s.base.length - 1]? = some d :=
          prefix_getElem? pre last'
        rw [split', List.getElem?_append_left (by omega)] at inside
        exact lt_irrefl _ (below' d (List.mem_of_getElem? inside))
      · obtain rfl : r = w := by
          rw [← same, reignT] at reignW
          exact Option.some.inj reignW
        exact List.prefix_of_prefix_length_le (List.take_prefix ..) pre (len.trans_le longer)

theorem Retention.agree [DecidableEq ι] (ret : Retention stamp all l) (inv : Inv stamp l)
    {T U p q m : ℕ} {r s : Reign ι ε} (hr : Chosen stamp all l T p r)
    (hs : Chosen stamp all l U q s) (le : m ≤ p + 1) (le' : m ≤ q + 1) :
    r.log.take m = s.log.take m := by
  have half : ∀ {T U p : ℕ} {r s : Reign ι ε}, Chosen stamp all l T p r →
      l.reign U = some s → T < U → m ≤ p + 1 → r.log.take m = s.log.take m := by
    intro T U p r s hr reign lt le
    obtain ⟨-, own, split, -⟩ := inv.own U s reign
    have pre := (ret.complete inv hr lt reign).trans (split ▸ List.prefix_append ..)
    obtain ⟨e, at_, -⟩ := hr.2.1
    have := (List.getElem?_eq_some_iff.mp at_).1
    have eq := List.prefix_iff_eq_take.mp pre
    rw [List.length_take, min_eq_left (by omega)] at eq
    calc r.log.take m = (r.log.take (p + 1)).take m := by rw [List.take_take, min_eq_left le]
      _ = (s.log.take (p + 1)).take m := by rw [eq]
      _ = s.log.take m := by rw [List.take_take, min_eq_left le]
  rcases Nat.lt_trichotomy T U with lt | rfl | gt
  · exact half hr hs.1 lt le
  · rw [Option.some.inj (hr.1.symm.trans hs.1)]
  · exact (half hs hr.1 gt le').symm

/-- A node in the term of a choice or beyond keeps what it has of it. -/
theorem Retention.stays [DecidableEq ι] {gentle : Prop} (ret : Retention stamp all l)
    (inv : Inv stamp l) (move : Move stamp all gentle l l') (g : gentle) {T p m : ℕ}
    {r : Reign ι ε} (chosen : Chosen stamp all l T p r) (le : m ≤ p + 1) {v : ι}
    (term : T ≤ l.term v) (has : r.log.take m <+: l.log v) : r.log.take m <+: l'.log v := by
  cases move with
  | raise w U _ => exact has
  | cast w c U _ _ _ => exact has
  | elect c U e Q _ _ _ _ _ =>
      rw [elect_log]
      split_ifs with at_
      · exact (at_ ▸ has).trans (List.prefix_append ..)
      · exact has
  | append U s e reign term' _ =>
      rw [append_log]
      split_ifs with at_
      · rw [at_, (inv.current U s reign).2 term'] at has
        exact has.trans (List.prefix_append ..)
      · exact has
  | accept w U s n reign term' _ _ keeps =>
      rw [accept_log]
      split_ifs with at_
      · subst at_
        have inside : r.log.take m <+: s.log := by
          rcases Nat.lt_or_ge T U with lt | ge
          · obtain ⟨-, own, split, -⟩ := inv.own U s reign
            exact (List.take_prefix_take_left le).trans ((ret.complete inv chosen lt reign).trans
              (split ▸ List.prefix_append ..))
          · obtain rfl : T = U := by omega
            rw [Option.some.inj (chosen.1.symm.trans reign)]
            exact List.take_prefix ..
        have := keeps g _ has inside
        exact List.prefix_of_prefix_length_le inside (List.take_prefix ..) (by
          have := inside.length_le
          simp only [List.length_take] at *
          omega)
      · exact has

variable (stamp all) in
/-- The first `m` entries of `es` were chosen, in a term no later than `T`. -/
def Settled (l : Ledger ι ε) (T m : ℕ) (es : List ε) : Prop :=
  ∃ U p r, Chosen stamp all l U p r ∧ U ≤ T ∧ m ≤ p + 1 ∧ r.log.take m <+: es

theorem Chosen.length {T p : ℕ} {r : Reign ι ε} (chosen : Chosen stamp all l T p r) :
    p < r.log.length := by
  obtain ⟨-, ⟨e, at_, -⟩, -⟩ := chosen
  exact (List.getElem?_eq_some_iff.mp at_).1

namespace Settled

variable {T U m n : ℕ} {es fs : List ε}

theorem length (settled : Settled stamp all l T m es) : m ≤ es.length := by
  obtain ⟨V, p, r, chosen, -, le, pre⟩ := settled
  have := chosen.length
  have := pre.length_le
  rw [List.length_take] at this
  omega

theorem later (settled : Settled stamp all l T m es) (le : T ≤ U) :
    Settled stamp all l U m es := by
  obtain ⟨V, p, r, chosen, early, bound, pre⟩ := settled
  exact ⟨V, p, r, chosen, early.trans le, bound, pre⟩

theorem shorter (settled : Settled stamp all l T m es) (le : n ≤ m) :
    Settled stamp all l T n es := by
  obtain ⟨V, p, r, chosen, early, bound, pre⟩ := settled
  exact ⟨V, p, r, chosen, early, le.trans bound, (List.take_prefix_take_left le).trans pre⟩

theorem congr (settled : Settled stamp all l T m es) (same : es.take m <+: fs) :
    Settled stamp all l T m fs := by
  obtain ⟨V, p, r, chosen, early, bound, pre⟩ := settled
  refine ⟨V, p, r, chosen, early, bound, List.IsPrefix.trans ?_ same⟩
  exact List.prefix_take_iff.mpr ⟨pre, List.length_take_le ..⟩

theorem mono (settled : Settled stamp all l T m es) (grows : Grows l l') :
    Settled stamp all l' T m es := by
  obtain ⟨V, p, r, chosen, early, bound, pre⟩ := settled
  obtain ⟨r', chosen', longer⟩ := chosen.mono grows
  have := chosen.length
  refine ⟨V, p, r', chosen', early, bound, ?_⟩
  obtain ⟨rest, eq⟩ := longer
  rwa [← eq, List.take_append_of_le_length (by omega)]

theorem chosen (settled : Settled stamp all l T m es) :
    ∃ U p r, Chosen stamp all l U p r ∧ U ≤ T ∧ m ≤ p + 1 ∧ es.take m = r.log.take m := by
  obtain ⟨V, p, r, chosen, early, bound, ⟨rest, rfl⟩⟩ := settled
  have := chosen.length
  refine ⟨V, p, r, chosen, early, bound, ?_⟩
  rw [List.take_append_of_le_length (by rw [List.length_take]; omega), List.take_take, min_self]

theorem agree [DecidableEq ι] (ret : Retention stamp all l) (inv : Inv stamp l)
    (hm : Settled stamp all l T m es) (hn : Settled stamp all l U n fs) {k : ℕ} (le : k ≤ m)
    (le' : k ≤ n) : es.take k = fs.take k := by
  obtain ⟨V, p, r, hr, -, pb, er⟩ := (hm.shorter le).chosen
  obtain ⟨W, q, s, hs, -, qb, es'⟩ := (hn.shorter le').chosen
  rw [er, es', ret.agree inv hr hs pb qb]

theorem complete [DecidableEq ι] (ret : Retention stamp all l) (inv : Inv stamp l)
    (settled : Settled stamp all l T m es) (later : T < U) {s : Reign ι ε}
    (reign : l.reign U = some s) : es.take m <+: s.base := by
  obtain ⟨V, p, r, chosen, early, bound, same⟩ := settled.chosen
  rw [same]
  exact (List.take_prefix_take_left bound).trans
    (ret.complete inv chosen (early.trans_lt later) reign)

theorem stays [DecidableEq ι] {gentle : Prop} (ret : Retention stamp all l) (inv : Inv stamp l)
    (moves : Moves stamp all gentle l l') (g : gentle) {v : ι}
    (settled : Settled stamp all l (l.term v) m (l.log v)) :
    Settled stamp all l' (l'.term v) m (l'.log v) := by
  induction moves with
  | refl => exact settled
  | @tail l₁ l₂ before move ih =>
      obtain ⟨V, p, r, chosen, early, bound, pre⟩ := ih
      have inv₁ := (Moves.inv_grows before inv).1
      have held := (ret.moves inv before g).stays inv₁ move g chosen bound early pre
      have grows := move.grows inv₁
      exact (Settled.mono ⟨V, p, r, chosen, early, bound, held⟩ grows).later (grows.term v)

end Settled

end Ledger
