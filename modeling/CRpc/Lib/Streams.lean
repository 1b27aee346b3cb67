import Mathlib.Control.Monad.Basic
import Mathlib.Data.List.Basic
import Mathlib.Tactic.TypeStar

/-! A stream socket: the calls see a byte stream in pieces of any size. -/
namespace Streams

inductive Arrival
  | again
  /-- at most `more + 1` symbols have arrived -/
  | ready (more : ℕ)
  | closed
  | failed
  deriving DecidableEq

inductive Departure
  | again
  /-- room for `n` symbols -/
  | room (n : ℕ)
  | failed
  deriving DecidableEq

/-- What a call to receive returns; no symbols at the end of the stream. -/
inductive Outcome (α : Type)
  | again
  | failed
  | got (data : List α)

variable {α β γ σ : Type}

/-- The result for a reader that wants at least one and at most `want` symbols. -/
def Arrival.outcome (want : ℕ) (incoming : List α) : Arrival → Outcome α
  | .again => .again
  | .failed => .failed
  | .closed => .got (incoming.take want)
  | .ready more => if incoming.isEmpty then .again else .got (incoming.take (min want (more + 1)))

/-- The stream still to come, and what the calls to receive it find. -/
structure Feed (α : Type) where
  incoming : List α
  arrivals : List Arrival

/-- Why a program has no result: its calls have not returned yet, it threw, or what it does is
undefined. -/
inductive Stop
  | waiting
  | thrown
  | undefined

def Feed.Open (f : Feed α) : Prop := ∀ a ∈ f.arrivals, a ≠ .closed ∧ a ≠ .failed

def Arrival.isReady : Arrival → Bool
  | .ready _ => true
  | _ => false

def Departure.hasRoom : Departure → Bool
  | .room n => 0 < n
  | _ => false

def Feed.supply (f : Feed α) : ℕ := f.arrivals.countP Arrival.isReady

theorem Feed.open_replicate (incoming : List α) (n more : ℕ) :
    Feed.Open ⟨incoming, .replicate n (.ready more)⟩ := by
  intro a mem
  simp [List.eq_of_mem_replicate mem]

theorem Feed.supply_replicate (incoming : List α) (n more : ℕ) :
    Feed.supply ⟨incoming, .replicate n (.ready more)⟩ = n := by
  simp [Feed.supply, List.countP_replicate, Arrival.isReady]

/-- An open stream that begins with `bs` makes `p` take `bs` and return `v`, unless fewer
pieces than symbols of `bs` arrive. -/
def Obtains (feed : σ → Feed α) (p : StateT σ (Except Stop) β) (bs : List α) (v : β) : Prop :=
  ∀ s rest, (feed s).Open → (feed s).incoming = bs ++ rest →
    (∃ s', p s = .ok (v, s') ∧ (feed s').Open ∧ (feed s').incoming = rest ∧
      (feed s).supply ≤ (feed s').supply + bs.length) ∨
    (p s = .error .waiting ∧ (feed s).supply < bs.length)

/-- Where less than `n` symbols are to come, `p` waits. -/
def Starves (feed : σ → Feed α) (p : StateT σ (Except Stop) β) (n : ℕ) : Prop :=
  ∀ s, (feed s).Open → (feed s).incoming.length < n → p s = .error .waiting

section

variable {feed : σ → Feed α}

theorem Obtains.pure (v : β) : Obtains feed (Pure.pure v) [] v := by
  intro s rest isOpen h
  exact .inl ⟨s, rfl, isOpen, h, Nat.le_add_right _ _⟩

theorem Obtains.bind {p : StateT σ (Except Stop) β} {f : β → StateT σ (Except Stop) γ}
    {xs ys : List α} {v : β} {w : γ} (first : Obtains feed p xs v)
    (second : Obtains feed (f v) ys w) : Obtains feed (p >>= f) (xs ++ ys) w := by
  intro s rest isOpen h
  have run : (p >>= f) s = p s >>= fun r => f r.1 r.2 := rfl
  rw [List.append_assoc] at h
  rw [run, List.length_append]
  rcases first s _ isOpen h with ⟨s', eq, isOpen', incoming, supply⟩ | ⟨eq, short⟩
  · rw [eq]
    rcases second s' rest isOpen' incoming with ⟨s'', eq', isOpen'', rest', supply'⟩ | ⟨eq', short⟩
    · exact .inl ⟨s'', eq', isOpen'', rest', by omega⟩
    · exact .inr ⟨eq', by omega⟩
  · rw [eq]
    exact .inr ⟨rfl, by omega⟩

theorem Obtains.finish {p : StateT σ (Except Stop) β} {f : β → StateT σ (Except Stop) γ}
    {bs : List α} {v : β} {w : γ} (first : Obtains feed p bs v)
    (second : Obtains feed (f v) [] w) : Obtains feed (p >>= f) bs w := by
  have := first.bind second
  rwa [List.append_nil] at this

theorem Starves.bind {p : StateT σ (Except Stop) β} {f : β → StateT σ (Except Stop) γ} {k n : ℕ}
    (short : Starves feed p k)
    (first : ∀ bs, bs.length = k → ∃ v, Obtains feed p bs v ∧ Starves feed (f v) n) :
    Starves feed (p >>= f) (k + n) := by
  intro s isOpen little
  change (p s >>= fun r => f r.1 r.2) = _
  by_cases few : (feed s).incoming.length < k
  · rw [short s isOpen few]
    rfl
  · obtain ⟨v, obtains, starves⟩ := first ((feed s).incoming.take k) (by
      rw [List.length_take]
      omega)
    rcases obtains s ((feed s).incoming.drop k) isOpen (List.take_append_drop k _).symm with
      ⟨s', eq, isOpen', rest, -⟩ | ⟨eq, -⟩
    · rw [eq]
      apply starves s' isOpen'
      rw [rest, List.length_drop]
      omega
    · rw [eq]
      rfl

theorem Starves.zero (p : StateT σ (Except Stop) β) : Starves feed p 0 := fun _ _ little =>
  absurd little (Nat.not_lt_zero _)

end

/-- What an open stream gives a reader that wants something: nothing yet, or a piece. -/
theorem outcome_open {a : Arrival} {want : ℕ} {incoming : List α}
    (isOpen : a ≠ .closed ∧ a ≠ .failed) (wants : 0 < want) (some : incoming ≠ []) :
    (a.isReady = false ∧ a.outcome want incoming = .again) ∨
      ∃ b bs rest, a.outcome want incoming = .got (b :: bs) ∧ incoming = b :: bs ++ rest ∧
        bs.length < want := by
  cases a with
  | again => exact .inl ⟨rfl, rfl⟩
  | closed => exact absurd rfl isOpen.1
  | failed => exact absurd rfl isOpen.2
  | ready more =>
    cases incoming with
    | nil => exact absurd rfl some
    | cons b incoming =>
      obtain ⟨n, eq⟩ : ∃ n, min want (more + 1) = n + 1 := ⟨min want (more + 1) - 1, by omega⟩
      refine .inr ⟨b, incoming.take n, incoming.drop n, ?_, ?_, ?_⟩
      · simp [Arrival.outcome, eq]
      · rw [List.cons_append, List.take_append_drop]
      · rw [List.length_take]
        omega

def Arrival.Live (a : Arrival) : Prop := a ≠ .closed ∧ a ≠ .failed

instance (a : Arrival) : Decidable a.Live := inferInstanceAs (Decidable (_ ∧ _))

/-- The call finds that no more of the stream comes, with `rest` of it still to come at most. -/
def Arrival.Ends (rest : List α) : Arrival → Prop
  | .failed => True
  | .closed => rest = []
  | .again | .ready _ => False

instance [DecidableEq α] (rest : List α) : DecidablePred (Arrival.Ends rest)
  | .failed => inferInstanceAs (Decidable True)
  | .closed => inferInstanceAs (Decidable (_ = _))
  | .again | .ready _ => inferInstanceAs (Decidable False)

/-- What these calls hand to a reader that has `got` and, with any symbols, wants so many more. -/
def handed (want : List α → ℕ) (got incoming : List α) : List Arrival → List α
  | [] => got
  | a :: arrivals =>
    match a.outcome (want got) incoming with
    | .got bs => handed want (got ++ bs) (incoming.drop bs.length) arrivals
    | .again | .failed => handed want got incoming arrivals

/-- What a reader finds in an open stream that has nothing to give. -/
theorem outcome_empty {a : Arrival} {want : ℕ} (live : a.Live) :
    a.outcome want ([] : List α) = .again := by
  cases a with
  | again => rfl
  | ready more => rfl
  | closed => exact absurd rfl live.1
  | failed => exact absurd rfl live.2

theorem outcome_zero (a : Arrival) (incoming : List α) :
    a.outcome 0 incoming = .again ∨ a.outcome 0 incoming = .failed ∨
      a.outcome 0 incoming = .got [] := by
  cases a with
  | again => exact .inl rfl
  | failed => exact .inr (.inl rfl)
  | closed => exact .inr (.inr rfl)
  | ready more =>
    rw [Arrival.outcome, Nat.zero_min, List.take_zero]
    split
    · exact .inl rfl
    · exact .inr (.inr rfl)

theorem handed_full {want : List α → ℕ} {got : List α} (full : want got = 0) {incoming : List α}
    {arrivals : List Arrival} : handed want got incoming arrivals = got := by
  induction arrivals generalizing incoming with
  | nil => rfl
  | cons a arrivals ih =>
    rw [handed, full]
    rcases outcome_zero a incoming with again | failed | none
    · rw [again]
      exact ih
    · rw [failed]
      exact ih
    · rw [none]
      simp only [List.append_nil]
      exact ih

theorem outcome_prefix {a : Arrival} {want : ℕ} {incoming bs : List α}
    (got : a.outcome want incoming = .got bs) : ∃ rest, incoming = bs ++ rest := by
  cases a with
  | again | failed => cases got
  | closed =>
    cases got
    exact ⟨_, (List.take_append_drop _ _).symm⟩
  | ready more =>
    rw [Arrival.outcome] at got
    split at got
    · cases got
    · cases got
      exact ⟨_, (List.take_append_drop _ _).symm⟩

/-- A reader keeps what it has got and goes on in the stream's order. -/
theorem handed_append (want : List α → ℕ) (arrivals : List Arrival) :
    ∀ got incoming : List α, ∃ more rest, incoming = more ++ rest ∧
      handed want got incoming arrivals = got ++ more := by
  induction arrivals with
  | nil => exact fun got incoming => ⟨[], incoming, rfl, (List.append_nil got).symm⟩
  | cons a arrivals ih =>
    intro got incoming
    rw [handed]
    cases piece : a.outcome (want got) incoming with
    | again | failed => exact ih got incoming
    | got bs =>
      obtain ⟨rest, rfl⟩ := outcome_prefix piece
      obtain ⟨more, rest', rfl, same⟩ := ih (got ++ bs) rest
      refine ⟨bs ++ more, rest', (List.append_assoc ..).symm, ?_⟩
      simp only [List.drop_left, same, List.append_assoc]

end Streams
