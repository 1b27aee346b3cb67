import CRpc.Lib.Majority
import Mathlib.Data.List.Infix
import Mathlib.Logic.Function.Basic
import Mathlib.Logic.Relation

/-! Logs that the leaders of numbered terms extend and everybody else copies, for any
entries that carry the number of the term they were made in. -/

/-- A leadership: its holder, the log it began with and the log it has grown to. -/
structure Reign (ι ε : Type*) where
  node : ι
  base : List ε
  log : List ε

/-- `ballot v T` is the log `v` voted for in term `T`; `ack v T` is the length up to
which `v` has stored the log of the reign of `T` while it was in that term. -/
structure Ledger (ι ε : Type*) where
  term : ι → ℕ
  log : ι → List ε
  reign : ℕ → Option (Reign ι ε)
  ballot : ι → ℕ → Option (List ε)
  ack : ι → ℕ → ℕ

namespace Ledger

variable {ι ε : Type*} {stamp : ε → ℕ} {l l' : Ledger ι ε}

section Operations

variable [DecidableEq ι]

/-- Node `v` enters term `T`. -/
def raise (l : Ledger ι ε) (v : ι) (T : ℕ) : Ledger ι ε :=
  { l with term := Function.update l.term v T }

/-- Node `v` votes for the log of `c` in term `T`. -/
def cast (l : Ledger ι ε) (v c : ι) (T : ℕ) : Ledger ι ε :=
  { l with ballot := Function.update l.ballot v (Function.update (l.ballot v) T (some (l.log c))) }

/-- Node `c` takes office in term `T` with a first entry. -/
def elect (l : Ledger ι ε) (c : ι) (T : ℕ) (e : ε) : Ledger ι ε :=
  { l with
    log := Function.update l.log c (l.log c ++ [e])
    reign := Function.update l.reign T (some ⟨c, l.log c, l.log c ++ [e]⟩)
    ballot := Function.update l.ballot c (Function.update (l.ballot c) T (some (l.log c)))
    ack := Function.update l.ack c (Function.update (l.ack c) T ((l.log c).length + 1)) }

/-- The leader of term `T` adds an entry. -/
def append (l : Ledger ι ε) (T : ℕ) (r : Reign ι ε) (e : ε) : Ledger ι ε :=
  { l with
    log := Function.update l.log r.node (r.log ++ [e])
    reign := Function.update l.reign T (some { r with log := r.log ++ [e] })
    ack := Function.update l.ack r.node
      (Function.update (l.ack r.node) T (r.log.length + 1)) }

/-- Node `v` makes its log the first `n` entries of the log of the reign of `T`. -/
def accept (l : Ledger ι ε) (v : ι) (T : ℕ) (r : Reign ι ε) (n : ℕ) : Ledger ι ε :=
  { l with
    log := Function.update l.log v (r.log.take n)
    ack := Function.update l.ack v (Function.update (l.ack v) T (max (l.ack v T) n)) }

theorem update_pair {α : Type*} (f : ι → ℕ → α) (v w : ι) (T U : ℕ) (x : α) :
    Function.update f v (Function.update (f v) T x) w U = if w = v ∧ U = T then x else f w U := by
  by_cases at_ : w = v
  · subst at_
    by_cases same : U = T
    · subst same
      simp
    · simp [same]
  · simp [at_]

@[simp] theorem raise_term (v w : ι) (T : ℕ) :
    (l.raise v T).term w = if w = v then T else l.term w := Function.update_apply ..
@[simp] theorem raise_log (v : ι) (T : ℕ) : (l.raise v T).log = l.log := rfl
@[simp] theorem raise_reign (v : ι) (T : ℕ) : (l.raise v T).reign = l.reign := rfl
@[simp] theorem raise_ballot (v : ι) (T : ℕ) : (l.raise v T).ballot = l.ballot := rfl
@[simp] theorem raise_ack (v : ι) (T : ℕ) : (l.raise v T).ack = l.ack := rfl

@[simp] theorem cast_term (v c : ι) (T : ℕ) : (l.cast v c T).term = l.term := rfl
@[simp] theorem cast_log (v c : ι) (T : ℕ) : (l.cast v c T).log = l.log := rfl
@[simp] theorem cast_reign (v c : ι) (T : ℕ) : (l.cast v c T).reign = l.reign := rfl
@[simp] theorem cast_ballot (v c w : ι) (T U : ℕ) : (l.cast v c T).ballot w U =
    if w = v ∧ U = T then some (l.log c) else l.ballot w U := update_pair ..
@[simp] theorem cast_ack (v c : ι) (T : ℕ) : (l.cast v c T).ack = l.ack := rfl

@[simp] theorem elect_term (c : ι) (T : ℕ) (e : ε) : (l.elect c T e).term = l.term := rfl
@[simp] theorem elect_log (c w : ι) (T : ℕ) (e : ε) :
    (l.elect c T e).log w = if w = c then l.log c ++ [e] else l.log w := Function.update_apply ..
@[simp] theorem elect_reign (c : ι) (T U : ℕ) (e : ε) : (l.elect c T e).reign U =
    if U = T then some ⟨c, l.log c, l.log c ++ [e]⟩ else l.reign U := Function.update_apply ..
@[simp] theorem elect_ballot (c w : ι) (T U : ℕ) (e : ε) : (l.elect c T e).ballot w U =
    if w = c ∧ U = T then some (l.log c) else l.ballot w U := update_pair ..
@[simp] theorem elect_ack (c w : ι) (T U : ℕ) (e : ε) : (l.elect c T e).ack w U =
    if w = c ∧ U = T then (l.log c).length + 1 else l.ack w U := update_pair ..

@[simp] theorem append_term (T : ℕ) (r : Reign ι ε) (e : ε) :
    (l.append T r e).term = l.term := rfl
@[simp] theorem append_log (T : ℕ) (r : Reign ι ε) (e : ε) (w : ι) : (l.append T r e).log w =
    if w = r.node then r.log ++ [e] else l.log w := Function.update_apply ..
@[simp] theorem append_reign (T U : ℕ) (r : Reign ι ε) (e : ε) : (l.append T r e).reign U =
    if U = T then some { r with log := r.log ++ [e] } else l.reign U := Function.update_apply ..
@[simp] theorem append_ballot (T : ℕ) (r : Reign ι ε) (e : ε) :
    (l.append T r e).ballot = l.ballot := rfl
@[simp] theorem append_ack (T U : ℕ) (r : Reign ι ε) (e : ε) (w : ι) : (l.append T r e).ack w U =
    if w = r.node ∧ U = T then r.log.length + 1 else l.ack w U := update_pair ..

@[simp] theorem accept_term (v : ι) (T : ℕ) (r : Reign ι ε) (n : ℕ) :
    (l.accept v T r n).term = l.term := rfl
@[simp] theorem accept_log (v w : ι) (T : ℕ) (r : Reign ι ε) (n : ℕ) :
    (l.accept v T r n).log w = if w = v then r.log.take n else l.log w := Function.update_apply ..
@[simp] theorem accept_reign (v : ι) (T : ℕ) (r : Reign ι ε) (n : ℕ) :
    (l.accept v T r n).reign = l.reign := rfl
@[simp] theorem accept_ballot (v : ι) (T : ℕ) (r : Reign ι ε) (n : ℕ) :
    (l.accept v T r n).ballot = l.ballot := rfl
@[simp] theorem accept_ack (v w : ι) (T U : ℕ) (r : Reign ι ε) (n : ℕ) :
    (l.accept v T r n).ack w U = if w = v ∧ U = T then max (l.ack v T) n else l.ack w U :=
  update_pair ..

end Operations

variable (stamp) in
def lastStamp (es : List ε) : ℕ := (es.getLast?.map stamp).getD 0

variable (stamp) in
/-- A later last term wins, and of equal last terms the longer log. -/
def UpToDate (new old : List ε) : Prop :=
  lastStamp stamp old < lastStamp stamp new ∨
    lastStamp stamp old = lastStamp stamp new ∧ old.length ≤ new.length

/-- `n` entries of `new` keep all that `old` has in common with `new`. -/
def Keeps (old new : List ε) (n : ℕ) : Prop := ∀ p, p <+: old → p <+: new → p.length ≤ n

variable (stamp) in
/-- The moves of a ledger. Where `gentle` holds, nobody drops an entry it shares with
the reign it copies from. -/
inductive Move [DecidableEq ι] (all : Finset ι) (gentle : Prop) (l : Ledger ι ε) : Ledger ι ε → Prop
  | raise (v : ι) (T : ℕ) : l.term v ≤ T → Move all gentle l (l.raise v T)
  | cast (v c : ι) (T : ℕ) : l.term v = T → l.reign T = none →
      UpToDate stamp (l.log c) (l.log v) → Move all gentle l (l.cast v c T)
  | elect (c : ι) (T : ℕ) (e : ε) (Q : Finset ι) : l.term c = T → l.reign T = none →
      stamp e = T → Quorum.Majority all Q →
      (∀ v ∈ Q, v = c ∨ l.ballot v T = some (l.log c)) → Move all gentle l (l.elect c T e)
  | append (T : ℕ) (r : Reign ι ε) (e : ε) : l.reign T = some r → l.term r.node = T →
      stamp e = T → Move all gentle l (l.append T r e)
  | accept (v : ι) (T : ℕ) (r : Reign ι ε) (n : ℕ) : l.reign T = some r → l.term v = T →
      v ≠ r.node → n ≤ r.log.length → (gentle → Keeps (l.log v) r.log n) →
      Move all gentle l (l.accept v T r n)

variable (stamp) in
/-- Up to each of its entries, `es` is what the leader of the entry's term had. -/
def Held (l : Ledger ι ε) (es : List ε) : Prop :=
  ∀ p e, es[p]? = some e → ∃ r, l.reign (stamp e) = some r ∧ es.take (p + 1) <+: r.log

structure Grows (l l' : Ledger ι ε) : Prop where
  term : ∀ v, l.term v ≤ l'.term v
  reign : ∀ T r, l.reign T = some r →
    ∃ r', l'.reign T = some r' ∧ r'.node = r.node ∧ r'.base = r.base ∧ r.log <+: r'.log
  ack : ∀ v T, l.ack v T ≤ l'.ack v T

theorem Grows.refl (l : Ledger ι ε) : Grows l l :=
  ⟨fun _ => le_rfl, fun _ r h => ⟨r, h, rfl, rfl, List.prefix_rfl⟩, fun _ _ => le_rfl⟩

theorem Grows.trans {a b c : Ledger ι ε} (ab : Grows a b) (bc : Grows b c) : Grows a c := by
  refine ⟨fun v => (ab.term v).trans (bc.term v), fun T r h => ?_,
    fun v T => (ab.ack v T).trans (bc.ack v T)⟩
  obtain ⟨r', h', node, base, longer⟩ := ab.reign T r h
  obtain ⟨r'', h'', node', base', longer'⟩ := bc.reign T r' h'
  exact ⟨r'', h'', node'.trans node, base'.trans base, longer.trans longer'⟩

theorem Grows.none (grows : Grows l l') {T : ℕ} (h : l'.reign T = none) : l.reign T = none := by
  cases old : l.reign T with
  | none => rfl
  | some r =>
      obtain ⟨r', new, -⟩ := grows.reign T r old
      rw [h] at new
      cases new

theorem Held.mono {es : List ε} (held : Held stamp l es) (grows : Grows l l') :
    Held stamp l' es := by
  intro p e h
  obtain ⟨r, reign, pre⟩ := held p e h
  obtain ⟨r', reign', -, -, longer⟩ := grows.reign _ r reign
  exact ⟨r', reign', pre.trans longer⟩

theorem Held.take {es : List ε} (held : Held stamp l es) (n : ℕ) : Held stamp l (es.take n) := by
  intro p e h
  rw [List.getElem?_take] at h
  split_ifs at h with lt
  obtain ⟨r, reign, pre⟩ := held p e h
  refine ⟨r, reign, ?_⟩
  rwa [List.take_take, min_eq_left (by omega)]

theorem Held.snoc {es : List ε} {e : ε} (held : Held stamp l es) {r : Reign ι ε}
    (reign : l.reign (stamp e) = some r) (all : es ++ [e] <+: r.log) :
    Held stamp l (es ++ [e]) := by
  intro p d h
  rcases Nat.lt_or_ge p es.length with old | new
  · rw [List.getElem?_append_left old] at h
    rw [List.take_append_of_le_length (by omega)]
    exact held p d h
  · rw [List.getElem?_append_right new] at h
    obtain ⟨zero, rfl⟩ : p - es.length = 0 ∧ e = d := by
      cases at_ : p - es.length with
      | zero => simpa [at_] using h
      | succ n => simp [at_] at h
    refine ⟨r, reign, ?_⟩
    rwa [List.take_of_length_le (by simp; omega)]

variable (stamp) in
/-- What every move keeps. -/
structure Inv (l : Ledger ι ε) : Prop where
  bounded : ∀ v, ∀ e ∈ l.log v, stamp e ≤ l.term v
  held : ∀ v, Held stamp l (l.log v)
  reignHeld : ∀ T r, l.reign T = some r → Held stamp l r.log
  sorted : ∀ v, (l.log v).Pairwise fun d e => stamp d ≤ stamp e
  current : ∀ T r, l.reign T = some r →
    T ≤ l.term r.node ∧ (l.term r.node = T → l.log r.node = r.log)
  own : ∀ T r, l.reign T = some r → r.log.Pairwise (fun d e => stamp d ≤ stamp e) ∧
    ∃ own, r.log = r.base ++ own ∧ (∀ e ∈ own, stamp e = T) ∧ ∀ e ∈ r.base, stamp e < T
  acked : ∀ v T, l.ack v T ≠ 0 → T ≤ l.term v ∧ ∃ r, l.reign T = some r ∧ l.ack v T ≤ r.log.length
  served : ∀ T r, l.reign T = some r → r.log.length ≤ l.ack r.node T
  balloted : ∀ v T, l.ballot v T ≠ none → T ≤ l.term v

theorem Held.stamp_ne {es : List ε} (held : Held stamp l es) {T : ℕ} (fresh : l.reign T = none)
    {e : ε} (mem : e ∈ es) : stamp e ≠ T := by
  rintro rfl
  obtain ⟨p, h⟩ := List.mem_iff_getElem?.mp mem
  obtain ⟨r, reign, -⟩ := held p e h
  rw [fresh] at reign
  cases reign

theorem pairwise_snoc {es : List ε} {e : ε} (sorted : es.Pairwise fun d e => stamp d ≤ stamp e)
    (last : ∀ d ∈ es, stamp d ≤ stamp e) : (es ++ [e]).Pairwise fun d e => stamp d ≤ stamp e := by
  rw [List.pairwise_append]
  exact ⟨sorted, List.pairwise_singleton .., fun d mem e' new => by
    obtain rfl := List.mem_singleton.mp new
    exact last d mem⟩

theorem Inv.stamp_le (inv : Inv stamp l) {T : ℕ} {r : Reign ι ε} (reign : l.reign T = some r)
    {e : ε} (mem : e ∈ r.log) : stamp e ≤ T := by
  obtain ⟨-, own, split, stamps, below⟩ := inv.own T r reign
  rw [split] at mem
  rcases List.mem_append.mp mem with base | own
  · exact (below e base).le
  · exact (stamps e own).le

theorem Inv.ack_eq_zero (inv : Inv stamp l) {T : ℕ} (fresh : l.reign T = none) (w : ι) :
    l.ack w T = 0 := by
  by_contra some_
  obtain ⟨-, r, h, -⟩ := inv.acked w T some_
  rw [fresh] at h
  cases h

theorem Inv.ack_le (inv : Inv stamp l) {T : ℕ} {r : Reign ι ε} (reign : l.reign T = some r)
    (w : ι) : l.ack w T ≤ r.log.length := by
  by_cases zero : l.ack w T = 0
  · omega
  · obtain ⟨-, r', h, le⟩ := inv.acked w T zero
    obtain rfl : r = r' := Option.some.inj (reign.symm.trans h)
    exact le

/-- Logs that hold entries of one term at one position have the same past. -/
theorem Held.matching {es fs : List ε} (he : Held stamp l es) (hf : Held stamp l fs) {p : ℕ}
    {d e : ε} (hd : es[p]? = some d) (he' : fs[p]? = some e) (same : stamp d = stamp e) :
    es.take (p + 1) = fs.take (p + 1) := by
  obtain ⟨r, reign, pe⟩ := he p d hd
  obtain ⟨r', reign', pf⟩ := hf p e he'
  obtain rfl : r = r' := Option.some.inj (reign.symm.trans (same ▸ reign'))
  have le := (List.getElem?_eq_some_iff.mp hd).1
  have lf := (List.getElem?_eq_some_iff.mp he').1
  rw [List.prefix_iff_eq_take.mp pe, List.prefix_iff_eq_take.mp pf, List.length_take,
    List.length_take]
  congr 1
  omega

variable [DecidableEq ι]

theorem raise_grows {v : ι} {T : ℕ} (le : l.term v ≤ T) : Grows l (l.raise v T) := by
  refine ⟨fun w => ?_, fun U r h => ⟨r, h, rfl, rfl, List.prefix_rfl⟩, fun _ _ => le_rfl⟩
  rw [raise_term]
  split_ifs with at_
  · exact at_ ▸ le
  · exact le_rfl

theorem raise_inv (inv : Inv stamp l) {v : ι} {T : ℕ} (le : l.term v ≤ T) :
    Inv stamp (l.raise v T) := by
  have grows := raise_grows le
  refine ⟨fun w e mem => (inv.bounded w e mem).trans (grows.term w),
    fun w => (inv.held w).mono grows, fun U r h => (inv.reignHeld U r h).mono grows, inv.sorted,
    fun U r h => ?_, inv.own, fun w U h => ?_, inv.served, fun w U h => ?_⟩
  · obtain ⟨le', same⟩ := inv.current U r h
    refine ⟨le'.trans (grows.term r.node), fun eq => same ?_⟩
    exact le_antisymm (eq ▸ grows.term r.node) le'
  · exact (inv.acked w U h).imp_left fun h => h.trans (grows.term w)
  · exact (inv.balloted w U h).trans (grows.term w)

theorem cast_grows {v c : ι} {T : ℕ} : Grows l (l.cast v c T) :=
  ⟨fun _ => le_rfl, fun _ r h => ⟨r, h, rfl, rfl, List.prefix_rfl⟩, fun _ _ => le_rfl⟩

theorem cast_inv (inv : Inv stamp l) {v c : ι} {T : ℕ} (term : l.term v = T) :
    Inv stamp (l.cast v c T) := by
  refine ⟨inv.bounded, fun w => (inv.held w).mono cast_grows,
    fun U r h => (inv.reignHeld U r h).mono cast_grows, inv.sorted, inv.current, inv.own,
    inv.acked, inv.served, fun w U h => ?_⟩
  rw [cast_ballot] at h
  split_ifs at h with here
  · obtain ⟨rfl, rfl⟩ := here
    exact term.ge
  · exact inv.balloted w U h

/-- A leader adds an entry of its term to its log: what this leaves to check. -/
theorem Inv.written (inv : Inv stamp l) (grows : Grows l l') {c : ι} {T : ℕ} {e : ε}
    {es base own : List ε} (term : l.term c = T) (log : l.log c = es) (made : stamp e = T)
    (split : es ++ [e] = base ++ own) (stamps : ∀ d ∈ own, stamp d = T)
    (below : ∀ d ∈ base, stamp d < T) (terms : l'.term = l.term)
    (logs : ∀ w, l'.log w = if w = c then es ++ [e] else l.log w)
    (reigns : ∀ U, l'.reign U = if U = T then some ⟨c, base, es ++ [e]⟩ else l.reign U)
    (acks : ∀ w U, l'.ack w U = if w = c ∧ U = T then es.length + 1 else l.ack w U)
    (acked : ∀ w, l.ack w T ≠ 0 → l.ack w T ≤ es.length)
    (balloted : ∀ w U, l'.ballot w U ≠ none → U ≤ l.term w) : Inv stamp l' := by
  have sorted : (es ++ [e]).Pairwise fun d e => stamp d ≤ stamp e :=
    pairwise_snoc (log ▸ inv.sorted c) fun d mem => made ▸ term ▸ inv.bounded c d (log ▸ mem)
  have held : Held stamp l' (es ++ [e]) :=
    (log ▸ (inv.held c).mono grows).snoc (by rw [made, reigns, if_pos rfl]) List.prefix_rfl
  refine ⟨fun w d mem => ?_, fun w => ?_, fun U r h => ?_, fun w => ?_, fun U r h => ?_,
    fun U r h => ?_, fun w U h => ?_, fun U r h => ?_, terms ▸ balloted⟩
  · rw [logs] at mem
    rw [terms]
    split_ifs at mem with at_
    · subst at_
      rcases List.mem_append.mp mem with old | new
      · exact inv.bounded w d (log ▸ old)
      · obtain rfl := List.mem_singleton.mp new
        exact (made.trans term.symm).le
    · exact inv.bounded w d mem
  · rw [logs]
    split_ifs
    · exact held
    · exact (inv.held w).mono grows
  · rw [reigns] at h
    split_ifs at h
    · cases h
      exact held
    · exact (inv.reignHeld U r h).mono grows
  · rw [logs]
    split_ifs
    · exact sorted
    · exact inv.sorted w
  · rw [reigns] at h
    rw [terms]
    split_ifs at h with same
    · cases h
      exact ⟨same ▸ term.ge, fun _ => by rw [logs, if_pos rfl]⟩
    · obtain ⟨le, old⟩ := inv.current U r h
      refine ⟨le, fun eq => ?_⟩
      rw [logs, if_neg, old eq]
      intro at_
      exact same (eq.symm.trans (at_ ▸ term))
  · rw [reigns] at h
    split_ifs at h with same
    · cases h
      subst same
      exact ⟨sorted, own, split, stamps, below⟩
    · exact inv.own U r h
  · rw [acks] at h ⊢
    rw [reigns, terms]
    by_cases same : U = T
    · subst same
      simp only [and_true, if_true] at h ⊢
      split_ifs at h ⊢ with at_
      · subst at_
        exact ⟨term.ge, _, rfl, by simp⟩
      · have := acked w h
        exact ⟨(inv.acked w U h).1, _, rfl, by simp; omega⟩
    · simp only [same, and_false, if_false] at h ⊢
      exact inv.acked w U h
  · rw [reigns] at h
    rw [acks]
    split_ifs at h with same
    · cases h
      simp [same]
    · rw [if_neg (by simp [same])]
      exact inv.served U r h

theorem elect_grows (inv : Inv stamp l) {c : ι} {T : ℕ} {e : ε} (fresh : l.reign T = none) :
    Grows l (l.elect c T e) := by
  refine ⟨fun _ => le_rfl, fun U r h => ⟨r, ?_, rfl, rfl, List.prefix_rfl⟩, fun w U => ?_⟩
  · rw [elect_reign, if_neg, h]
    rintro rfl
    rw [fresh] at h
    cases h
  · rw [elect_ack]
    split_ifs with here
    · rw [here.2, inv.ack_eq_zero fresh w]
      exact Nat.zero_le _
    · exact le_rfl

theorem elect_inv (inv : Inv stamp l) {c : ι} {T : ℕ} {e : ε} (term : l.term c = T)
    (fresh : l.reign T = none) (made : stamp e = T) : Inv stamp (l.elect c T e) := by
  have below : ∀ d ∈ l.log c, stamp d < T := fun d mem =>
    lt_of_le_of_ne (term ▸ inv.bounded c d mem) ((inv.held c).stamp_ne fresh mem)
  refine inv.written (elect_grows inv fresh) term rfl made rfl (by simpa using made) below rfl
    (fun w => elect_log c w T e) (fun U => elect_reign c T U e) (fun w U => elect_ack c w T U e)
    (fun w some_ => absurd (inv.ack_eq_zero fresh w) some_) fun w U h => ?_
  rw [elect_ballot] at h
  split_ifs at h with here
  · obtain ⟨rfl, rfl⟩ := here
    exact term.ge
  · exact inv.balloted w U h

theorem append_grows (inv : Inv stamp l) {T : ℕ} {r : Reign ι ε} {e : ε}
    (reign : l.reign T = some r) : Grows l (l.append T r e) := by
  refine ⟨fun _ => le_rfl, fun U r' h => ?_, fun w U => ?_⟩
  · rw [append_reign]
    split_ifs with same
    · subst same
      obtain rfl : r = r' := Option.some.inj (reign.symm.trans h)
      exact ⟨_, rfl, rfl, rfl, List.prefix_append _ _⟩
    · exact ⟨r', h, rfl, rfl, List.prefix_rfl⟩
  · rw [append_ack]
    split_ifs with here
    · rw [here.2]
      exact (inv.ack_le reign w).trans (Nat.le_succ _)
    · exact le_rfl

theorem append_inv (inv : Inv stamp l) {T : ℕ} {r : Reign ι ε} {e : ε}
    (reign : l.reign T = some r) (term : l.term r.node = T) (made : stamp e = T) :
    Inv stamp (l.append T r e) := by
  obtain ⟨-, own, split, stamps, below⟩ := inv.own T r reign
  have longer : r.log ++ [e] = r.base ++ (own ++ [e]) := by simp [split]
  refine inv.written (append_grows inv reign) term ((inv.current T r reign).2 term) made longer
    (fun d mem => ?_) below rfl
    (fun w => append_log T r e w) (fun U => append_reign T U r e) (fun w U => append_ack T U r e w)
    (fun w _ => inv.ack_le reign w) inv.balloted
  rcases List.mem_append.mp mem with old | new
  · exact stamps d old
  · exact List.mem_singleton.mp new ▸ made

theorem accept_grows {v : ι} {T : ℕ} {r : Reign ι ε} {n : ℕ} : Grows l (l.accept v T r n) := by
  refine ⟨fun _ => le_rfl, fun _ r h => ⟨r, h, rfl, rfl, List.prefix_rfl⟩, fun w U => ?_⟩
  rw [accept_ack]
  split_ifs with here
  · obtain ⟨rfl, rfl⟩ := here
    exact le_max_left ..
  · exact le_rfl

theorem accept_inv (inv : Inv stamp l) {v : ι} {T : ℕ} {r : Reign ι ε} {n : ℕ}
    (reign : l.reign T = some r) (term : l.term v = T) (ne : v ≠ r.node)
    (bound : n ≤ r.log.length) : Inv stamp (l.accept v T r n) := by
  have grows := accept_grows (l := l) (v := v) (T := T) (r := r) (n := n)
  refine ⟨fun w d mem => ?_, fun w => ?_, fun U r' h => (inv.reignHeld U r' h).mono grows,
    fun w => ?_, fun U r' h => ?_, inv.own, fun w U h => ?_, fun U r' h => ?_, inv.balloted⟩
  · rw [accept_log] at mem
    split_ifs at mem with at_
    · subst at_
      exact term ▸ inv.stamp_le reign (List.mem_of_mem_take mem)
    · exact inv.bounded w d mem
  · rw [accept_log]
    split_ifs
    · exact ((inv.reignHeld T r reign).take n).mono grows
    · exact (inv.held w).mono grows
  · rw [accept_log]
    split_ifs
    · exact (inv.own T r reign).1.sublist (List.take_sublist ..)
    · exact inv.sorted w
  · obtain ⟨le, log⟩ := inv.current U r' h
    refine ⟨le, fun eq => ?_⟩
    rw [accept_log, if_neg, log eq]
    rintro rfl
    obtain rfl : U = T := eq.symm.trans term
    exact ne (congrArg Reign.node (Option.some.inj (h.symm.trans reign)))
  · rw [accept_ack] at h ⊢
    split_ifs at h ⊢ with here
    · obtain ⟨rfl, rfl⟩ := here
      exact ⟨term.ge, r, reign, max_le (inv.ack_le reign w) bound⟩
    · exact inv.acked w U h
  · exact (inv.served U r' h).trans (grows.ack r'.node U)

theorem Move.grows {all : Finset ι} {gentle : Prop} (move : Move stamp all gentle l l')
    (inv : Inv stamp l) : Grows l l' := by
  cases move with
  | raise v T le => exact raise_grows le
  | cast v c T _ _ _ => exact cast_grows
  | elect c T e Q _ fresh _ _ _ => exact elect_grows inv fresh
  | append T r e reign _ _ => exact append_grows inv reign
  | accept v T r n _ _ _ _ _ => exact accept_grows

theorem Move.inv {all : Finset ι} {gentle : Prop} (move : Move stamp all gentle l l')
    (inv : Inv stamp l) : Inv stamp l' := by
  cases move with
  | raise v T le => exact raise_inv inv le
  | cast v c T term _ _ => exact cast_inv inv term
  | elect c T e Q term fresh made _ _ => exact elect_inv inv term fresh made
  | append T r e reign term made => exact append_inv inv reign term made
  | accept v T r n reign term ne bound _ => exact accept_inv inv reign term ne bound

variable (stamp) in
def Moves (all : Finset ι) (gentle : Prop) : Ledger ι ε → Ledger ι ε → Prop :=
  Relation.ReflTransGen (Move stamp all gentle)

theorem Moves.inv_grows {all : Finset ι} {gentle : Prop} (moves : Moves stamp all gentle l l')
    (inv : Inv stamp l) : Inv stamp l' ∧ Grows l l' := by
  induction moves with
  | refl => exact ⟨inv, .refl l⟩
  | tail _ move ih => exact ⟨move.inv ih.1, ih.2.trans (move.grows ih.1)⟩

end Ledger
