import CRpc.Rpc.Exchange
import Mathlib.Data.List.Nodup
import Mathlib.Data.List.Perm.Basic

/-! Every reply channel carries its own caller's response, once, and no caller holds up the
receive loop. -/
namespace CRpc
open Transition

namespace Exchange

variable {ι : Type} {request : ι → Message} {s s' : Exchange ι} {a : Act ι}

def chan (s : Exchange ι) (i : ι) : Option ℕ := (s.callers i).channel

def pending (s : Exchange ι) : List Message :=
  s.requests ++ (s.sender.toList ++ s.m_send_channal.m_queue)

/-- Responses that have left the peer and are not in a reply channel. -/
def gone (s : Exchange ι) : List Message := s.delivered ++ (s.receiver.hand ++ s.responses)

structure Owned (request : ι → Message) (chan : ι → Option ℕ) (made : ℕ)
    (responseChannals : UInt64 → Option ℕ) (receiver : Receiving) : Prop where
  made : ∀ i c, chan i = some c → c < made
  apart : ∀ i j c, chan i = some c → chan j = some c → i = j
  mapped : ∀ x c, responseChannals x = some c → ∃ i, (request i).seq = x ∧ chan i = some c
  pushing : ∀ m c, receiver = .pushing m c → ∃ i, (request i).seq = m.seq ∧ chan i = some c

/-- The requests and their answers, each with its own `seq`. -/
structure Routed (request : ι → Message) (callers : ι → Caller) (pending answers : List Message) :
    Prop where
  nodup : ((answers ++ pending).map Message.seq).Nodup
  source : ∀ m ∈ answers ++ pending, ∃ i, (request i).seq = m.seq ∧ (callers i).Sent

structure Carried (request : ι → Message) (chan : ι → Option ℕ)
    (channals : ℕ → CoroutineChannal Message) (answers gone : List Message) : Prop where
  nodup : (gone.map Message.seq).Nodup
  answered : ∀ m ∈ gone, m ∈ answers
  queued : ∀ i c, chan i = some c → ∀ m ∈ (channals c).m_queue,
    m.seq = (request i).seq ∧ m ∈ answers ∧ m.seq ∉ gone.map Message.seq
  unowned : ∀ c, (∀ i, chan i ≠ some c) → (channals c).m_queue = []
  capacity : ∀ c, (channals c).m_capacity = 1
  single : ∀ c, (channals c).m_queue.length ≤ 1

def IsOwned (request : ι → Message) (s : Exchange ι) : Prop :=
  Owned request (chan s) s.made s.m_response_channals s.receiver

def IsRouted (request : ι → Message) (s : Exchange ι) : Prop :=
  Routed request s.callers (pending s) s.answers

def IsCarried (request : ι → Message) (s : Exchange ι) : Prop :=
  Carried request (chan s) s.channals s.answers (gone s)

theorem Owned.begin {chan chan' : ι → Option ℕ} {made : ℕ} {map : UInt64 → Option ℕ}
    {r : Receiving} {i : ι} (owned : Owned request chan made map r) (fresh : chan i = none)
    (here : chan' i = some made) (others : ∀ j, j ≠ i → chan' j = chan j) :
    Owned request chan' (made + 1) map r := by
  have old : ∀ j c, chan j = some c → chan' j = some c := by
    intro j c h
    rw [others j (by rintro rfl; rw [fresh] at h; cases h), h]
  have origin : ∀ j c, chan' j = some c → (j = i ∧ c = made) ∨ chan j = some c := by
    intro j c h
    by_cases eq : j = i
    · subst eq
      rw [here] at h
      exact .inl ⟨rfl, (Option.some.inj h).symm⟩
    · rw [others j eq] at h
      exact .inr h
  refine ⟨?_, ?_, ?_, ?_⟩
  · intro j c h
    rcases origin j c h with ⟨-, rfl⟩ | h
    · exact Nat.lt_succ_self _
    · exact (owned.made j c h).trans (Nat.lt_succ_self _)
  · intro j k c hj hk
    rcases origin j c hj with ⟨rfl, rfl⟩ | hj <;> rcases origin k c hk with ⟨rfl, eq⟩ | hk
    · rfl
    · exact absurd (owned.made k _ hk) (lt_irrefl _)
    · subst eq
      exact absurd (owned.made j _ hj) (lt_irrefl _)
    · exact owned.apart j k c hj hk
  · intro x c h
    obtain ⟨j, seq, mine⟩ := owned.mapped x c h
    exact ⟨j, seq, old j c mine⟩
  · intro m c h
    obtain ⟨j, seq, mine⟩ := owned.pushing m c h
    exact ⟨j, seq, old j c mine⟩

theorem Owned.update {chan : ι → Option ℕ} {made : ℕ} {map : UInt64 → Option ℕ} {r : Receiving}
    {i : ι} {o : Option ℕ} (owned : Owned request chan made map r)
    (mine : ∀ c, o = some c → chan i = some c) :
    Owned request chan made (Function.update map (request i).seq o) r := by
  refine ⟨owned.made, owned.apart, ?_, owned.pushing⟩
  intro x c h
  by_cases eq : x = (request i).seq
  · subst eq
    rw [Function.update_self] at h
    exact ⟨i, rfl, mine c h⟩
  · rw [Function.update_of_ne eq] at h
    exact owned.mapped x c h

theorem Owned.receiver {chan : ι → Option ℕ} {made : ℕ} {map : UInt64 → Option ℕ}
    {r r' : Receiving} (owned : Owned request chan made map r)
    (pushing : ∀ m c, r' = .pushing m c → map m.seq = some c) : Owned request chan made map r' :=
  ⟨owned.made, owned.apart, owned.mapped, fun m c h => owned.mapped _ c (pushing m c h)⟩

section

variable [DecidableEq ι]

theorem chan_setCaller {i : ι} {c : Caller} (same : c.channel = (s.callers i).channel) :
    chan (s.setCaller i c) = chan s := by
  funext j
  by_cases eq : j = i
  · subst eq
    simp [chan, setCaller, same]
  · simp [chan, setCaller, eq]

theorem owned_step (owned : IsOwned request s) (move : Move request s a s') :
    IsOwned request s' := by
  unfold IsOwned at owned ⊢
  cases move with
  | @begin i at_ =>
    apply owned.begin (i := i)
    · simp [chan, at_, Caller.channel]
    · simp [chan, setCaller, Caller.channel]
    · intro j ne
      simp [chan, setCaller, ne]
  | lock at_ | send at_ | cancel at_ | lockErase at_ =>
    rw [chan_setCaller (by rw [at_]; rfl)]
    exact owned
  | pop at_ =>
    rw [chan_setCaller (by simp [setChannal, at_, Caller.channel])]
    exact owned
  | @register i c at_ =>
    rw [chan_setCaller (by simp [setResponse, at_, Caller.channel])]
    apply owned.update
    intro c' eq
    cases eq
    simp [chan, at_, Caller.channel]
  | @erase i c r at_ =>
    rw [chan_setCaller (by simp [setResponse, at_, Caller.channel])]
    apply owned.update
    intro c eq
    cases eq
  | timeout | take | drop | write | read | answer => exact owned
  | receive | lockReceive | miss | push | unlock =>
    apply owned.receiver
    intro m c eq
    cases eq
  | find at_ found =>
    apply owned.receiver
    intro m c h
    cases h
    exact found

theorem sent_setCaller {i : ι} {c : Caller} (sent : (s.callers i).Sent → c.Sent) (j : ι)
    (h : (s.callers j).Sent) : ((s.setCaller i c).callers j).Sent := by
  by_cases eq : j = i
  · subst eq
    simpa [setCaller] using sent h
  · simpa [setCaller, eq] using h

end

theorem Routed.mono {callers callers' : ι → Caller} {pending answers : List Message}
    (routed : Routed request callers pending answers)
    (sent : ∀ i, (callers i).Sent → (callers' i).Sent) :
    Routed request callers' pending answers := by
  refine ⟨routed.nodup, ?_⟩
  intro m mem
  obtain ⟨i, seq, was⟩ := routed.source m mem
  exact ⟨i, seq, sent i was⟩

theorem Routed.sublist {callers : ι → Caller} {pending pending' answers : List Message}
    (routed : Routed request callers pending answers) (sub : pending'.Sublist pending) :
    Routed request callers pending' answers := by
  have all : (answers ++ pending').Sublist (answers ++ pending) := sub.append_left answers
  exact ⟨routed.nodup.sublist (all.map _), fun m mem => routed.source m (all.subset mem)⟩

theorem Routed.send {callers callers' : ι → Caller} {pending answers : List Message} {i : ι}
    (routed : Routed request callers pending answers)
    (distinct : Function.Injective fun i => (request i).seq) (fresh : ¬ (callers i).Sent)
    (now : (callers' i).Sent) (sent : ∀ i, (callers i).Sent → (callers' i).Sent) :
    Routed request callers' (pending ++ [request i]) answers := by
  refine ⟨?_, ?_⟩
  · rw [← List.append_assoc, List.map_append, List.nodup_append]
    refine ⟨routed.nodup, by simp, ?_⟩
    rintro _ old x here rfl
    obtain ⟨m, mem, same⟩ := List.mem_map.mp old
    obtain ⟨j, seq, was⟩ := routed.source m mem
    obtain rfl : j = i := distinct (seq.trans (same.trans (List.mem_singleton.mp here)))
    exact fresh was
  · intro m mem
    rw [← List.append_assoc, List.mem_append] at mem
    rcases mem with mem | mem
    · obtain ⟨j, seq, was⟩ := routed.source m mem
      exact ⟨j, seq, sent j was⟩
    · obtain rfl := List.mem_singleton.mp mem
      exact ⟨i, rfl, now⟩

theorem Routed.answer {callers : ι → Caller} {requests rest answers : List Message} {k : ℕ}
    {m q : Message} (routed : Routed request callers (requests ++ rest) answers)
    (pending : requests[k]? = some q) (seq : m.seq = q.seq) :
    Routed request callers (requests.eraseIdx k ++ rest) (answers ++ [m]) := by
  obtain ⟨lt, rfl⟩ := List.getElem?_eq_some_iff.mp pending
  have perm := List.getElem_cons_eraseIdx_perm lt
  have same : ((answers ++ [m]) ++ (requests.eraseIdx k ++ rest)).map Message.seq =
      (answers ++ (requests[k] :: requests.eraseIdx k ++ rest)).map Message.seq := by
    simp [seq]
  refine ⟨?_, ?_⟩
  · rw [same]
    apply ((((perm.append_right rest).append_left answers).map Message.seq).nodup_iff).mpr
    exact routed.nodup
  · intro m' mem
    have old : m' = m ∨ m' ∈ answers ++ (requests ++ rest) := by
      simp only [List.mem_append, List.mem_singleton] at mem ⊢
      rcases mem with (mem | mem) | mem | mem
      · exact .inr (.inl mem)
      · exact .inl mem
      · exact .inr (.inr (.inl (List.mem_of_mem_eraseIdx mem)))
      · exact .inr (.inr (.inr mem))
    rcases old with rfl | old
    · rw [seq]
      exact routed.source _ (by simp)
    · exact routed.source m' old

section

variable [DecidableEq ι]

theorem routed_step (distinct : Function.Injective fun i => (request i).seq)
    (routed : IsRouted request s) (move : Move request s a s') : IsRouted request s' := by
  unfold IsRouted at routed ⊢
  cases move with
  | begin at_ | lock at_ | register at_ =>
    exact routed.mono (sent_setCaller fun was => by simp [at_, Caller.Sent] at was)
  | pop at_ | cancel at_ | lockErase at_ | erase at_ =>
    exact routed.mono (sent_setCaller fun _ => trivial)
  | @send i c at_ ch queue =>
    have sent := sent_setCaller (s := { s with m_send_channal := ch }) (i := i)
      (c := .waiting c) fun _ => trivial
    rcases queue with rfl | queue
    · exact routed.mono sent
    · have last : pending ({ s with m_send_channal := ch }.setCaller i (.waiting c)) =
          pending s ++ [request i] := by
        simp [pending, setCaller, queue]
      rw [last]
      apply routed.send distinct
      · simp [at_, Caller.Sent]
      · simp [setCaller, Caller.Sent]
      · exact sent
  | timeout | read | receive | lockReceive | find | miss | push | unlock => exact routed
  | @take m ch idle queue =>
    have same : pending { s with m_send_channal := ch, sender := some m } = pending s := by
      simp [pending, idle, queue]
    rw [same]
    exact routed
  | drop at_ =>
    apply routed.sublist
    apply List.Sublist.append_left
    exact List.sublist_append_right _ _
  | @write m window at_ =>
    have same : pending { s with sender := none, window, requests := s.requests ++ [m] } =
        pending s := by
      simp [pending, at_]
    rw [same]
    exact routed
  | answer here seq => exact routed.answer here seq

end

theorem Carried.sublist {chan : ι → Option ℕ} {channals : ℕ → CoroutineChannal Message}
    {answers gone gone' : List Message} (carried : Carried request chan channals answers gone)
    (sub : gone'.Sublist gone) : Carried request chan channals answers gone' := by
  refine ⟨carried.nodup.sublist (sub.map _), fun m mem => carried.answered m (sub.subset mem), ?_,
    carried.unowned, carried.capacity, carried.single⟩
  intro i c mine m mem
  obtain ⟨seq, answered, apart⟩ := carried.queued i c mine m mem
  exact ⟨seq, answered, fun here => apart ((sub.map _).subset here)⟩

theorem Carried.hand {chan : ι → Option ℕ} {channals : ℕ → CoroutineChannal Message}
    {answers gone gone' : List Message} (carried : Carried request chan channals answers gone)
    (same : gone' = gone) : Carried request chan channals answers gone' := by
  rwa [same]

theorem Carried.begin {chan chan' : ι → Option ℕ} {channals : ℕ → CoroutineChannal Message}
    {answers gone : List Message} {made : ℕ} {i : ι}
    (carried : Carried request chan channals answers gone) (fresh : ∀ j, chan j ≠ some made)
    (here : chan' i = some made) (none : chan i = none) (others : ∀ j, j ≠ i → chan' j = chan j) :
    Carried request chan' channals answers gone := by
  refine ⟨carried.nodup, carried.answered, ?_, ?_, carried.capacity, carried.single⟩
  · intro j c mine m mem
    by_cases eq : j = i
    · subst eq
      rw [here] at mine
      cases mine
      rw [carried.unowned made fresh] at mem
      cases mem
    · rw [others j eq] at mine
      exact carried.queued j c mine m mem
  · intro c unowned
    apply carried.unowned
    intro j mine
    apply unowned j
    rw [others j (by rintro rfl; rw [none] at mine; cases mine), mine]

theorem Carried.cons {chan : ι → Option ℕ} {channals : ℕ → CoroutineChannal Message}
    {answers gone gone' : List Message} {m : Message}
    (carried : Carried request chan channals answers gone) (perm : gone'.Perm (m :: gone))
    (answered : m ∈ answers) (fresh : m.seq ∉ gone.map Message.seq)
    (free : ∀ i c, chan i = some c → ∀ m' ∈ (channals c).m_queue, m'.seq ≠ m.seq) :
    Carried request chan channals answers gone' := by
  have seqs := perm.map Message.seq
  refine ⟨?_, ?_, ?_, carried.unowned, carried.capacity, carried.single⟩
  · rw [seqs.nodup_iff, List.map_cons, List.nodup_cons]
    exact ⟨fresh, carried.nodup⟩
  · intro m' mem
    rcases List.mem_cons.mp (perm.mem_iff.mp mem) with rfl | mem
    · exact answered
    · exact carried.answered m' mem
  · intro i c mine m' mem
    obtain ⟨seq, old, apart⟩ := carried.queued i c mine m' mem
    refine ⟨seq, old, ?_⟩
    rw [seqs.mem_iff, List.map_cons, List.mem_cons]
    exact fun here => here.elim (free i c mine m' mem) apart

theorem Carried.answer {chan : ι → Option ℕ} {channals : ℕ → CoroutineChannal Message}
    {answers gone gone' : List Message} {m : Message}
    (carried : Carried request chan channals answers gone)
    (fresh : m.seq ∉ answers.map Message.seq) (last : gone' = gone ++ [m]) :
    Carried request chan channals (answers ++ [m]) gone' := by
  have more : Carried request chan channals (answers ++ [m]) gone := by
    refine ⟨carried.nodup, fun m' mem => List.mem_append_left _ (carried.answered m' mem), ?_,
      carried.unowned, carried.capacity, carried.single⟩
    intro i c mine m' mem
    obtain ⟨seq, old, apart⟩ := carried.queued i c mine m' mem
    exact ⟨seq, List.mem_append_left _ old, apart⟩
  apply more.cons (m := m)
  · rw [last]
    exact List.perm_append_singleton m gone
  · simp
  · intro here
    obtain ⟨m', mem, same⟩ := List.mem_map.mp here
    exact fresh (List.mem_map.mpr ⟨m', carried.answered m' mem, same⟩)
  · intro i c mine m' mem same
    exact fresh (same ▸ List.mem_map_of_mem (carried.queued i c mine m' mem).2.1)

theorem Carried.replace {chan : ι → Option ℕ} {channals : ℕ → CoroutineChannal Message}
    {answers gone queue : List Message} {i : ι} {c : ℕ}
    (carried : Carried request chan channals answers gone)
    (apart : ∀ j, chan j = some c → j = i) (mine : chan i = some c) (single : queue.length ≤ 1)
    (queued : ∀ m ∈ queue,
      m.seq = (request i).seq ∧ m ∈ answers ∧ m.seq ∉ gone.map Message.seq) :
    Carried request chan (Function.update channals c { channals c with m_queue := queue })
      answers gone := by
  refine ⟨carried.nodup, carried.answered, ?_, ?_, ?_, ?_⟩
  · intro j c' mine' m mem
    by_cases eq : c' = c
    · subst eq
      obtain rfl := apart j mine'
      rw [Function.update_self] at mem
      exact queued m mem
    · rw [Function.update_of_ne eq] at mem
      exact carried.queued j c' mine' m mem
  · intro c' unowned
    have ne : c' ≠ c := by
      rintro rfl
      exact unowned i mine
    rw [Function.update_of_ne ne]
    exact carried.unowned c' unowned
  · intro c'
    by_cases eq : c' = c
    · subst eq
      rw [Function.update_self]
      exact carried.capacity c'
    · rw [Function.update_of_ne eq]
      exact carried.capacity c'
  · intro c'
    by_cases eq : c' = c
    · subst eq
      rw [Function.update_self]
      exact single
    · rw [Function.update_of_ne eq]
      exact carried.single c'

/-- A channel whose queue is unchanged, its state of being closed aside. -/
theorem Carried.same {chan : ι → Option ℕ} {channals channals' : ℕ → CoroutineChannal Message}
    {answers gone : List Message} (carried : Carried request chan channals answers gone)
    (queue : ∀ c, (channals' c).m_queue = (channals c).m_queue)
    (capacity : ∀ c, (channals' c).m_capacity = (channals c).m_capacity) :
    Carried request chan channals' answers gone := by
  refine ⟨carried.nodup, carried.answered, ?_, ?_, ?_, ?_⟩
  · intro i c mine
    rw [queue]
    exact carried.queued i c mine
  · intro c unowned
    rw [queue]
    exact carried.unowned c unowned
  · intro c
    rw [capacity]
    exact carried.capacity c
  · intro c
    rw [queue]
    exact carried.single c

theorem Carried.closed {chan : ι → Option ℕ} {channals : ℕ → CoroutineChannal Message}
    {answers gone : List Message} (carried : Carried request chan channals answers gone) (c : ℕ) :
    Carried request chan (Function.update channals c (channals c)) answers gone := by
  rwa [Function.update_eq_self]

/-- The receive loop puts the message in hand into its caller's channel. -/
theorem Carried.push {chan : ι → Option ℕ} {channals : ℕ → CoroutineChannal Message}
    {answers delivered responses : List Message} {i : ι} {c : ℕ} {m : Message}
    (carried : Carried request chan channals answers (delivered ++ ([m] ++ responses)))
    (apart : ∀ j, chan j = some c → j = i) (mine : chan i = some c)
    (seq : (request i).seq = m.seq) (empty : (channals c).m_queue = []) :
    Carried request chan
      (Function.update channals c { channals c with m_queue := (channals c).m_queue ++ [m] })
      answers (delivered ++ responses) := by
  have split : (delivered ++ ([m] ++ responses)).Perm (m :: (delivered ++ responses)) :=
    List.perm_middle
  have out : m.seq ∉ (delivered ++ responses).map Message.seq :=
    (List.nodup_cons.mp ((split.map Message.seq).nodup_iff.mp carried.nodup)).1
  apply (carried.sublist (List.Sublist.append_left (List.sublist_append_right _ _) _)).replace
    apart mine
  · simp [empty]
  · intro m' mem
    rw [empty, List.nil_append, List.mem_singleton] at mem
    subst mem
    exact ⟨seq.symm, carried.answered m' (by simp), out⟩

theorem Carried.pop {chan : ι → Option ℕ} {channals : ℕ → CoroutineChannal Message}
    {answers delivered coming : List Message} {i : ι} {c : ℕ} {m : Message} {rest : List Message}
    (carried : Carried request chan channals answers (delivered ++ coming))
    (distinct : Function.Injective fun i => (request i).seq)
    (apart : ∀ j, chan j = some c → j = i) (mine : chan i = some c)
    (queue : (channals c).m_queue = m :: rest) :
    Carried request chan (Function.update channals c { channals c with m_queue := rest })
      answers ((delivered ++ [m]) ++ coming) := by
  obtain ⟨seq, answered, other⟩ := carried.queued i c mine m (by simp [queue])
  obtain rfl : rest = [] := by
    have single := carried.single c
    rw [queue, List.length_cons] at single
    exact List.eq_nil_of_length_eq_zero (by omega)
  have taken : Carried request chan (Function.update channals c { channals c with m_queue := [] })
      answers (delivered ++ coming) := carried.replace apart mine (Nat.zero_le _) nofun
  apply taken.cons (m := m)
  · rw [List.append_assoc]
    exact List.perm_middle
  · exact answered
  · exact other
  · intro j c' mine' m' mem same
    by_cases eq : c' = c
    · subst eq
      rw [Function.update_self] at mem
      cases mem
    · rw [Function.update_of_ne eq] at mem
      have seq' := (carried.queued j c' mine' m' mem).1
      obtain rfl : j = i := distinct (seq'.symm.trans (same.trans seq))
      exact eq (Option.some.inj (mine'.symm.trans mine))

section

variable [DecidableEq ι]

theorem carried_step (distinct : Function.Injective fun i => (request i).seq)
    (owned : IsOwned request s) (routed : IsRouted request s) (carried : IsCarried request s)
    (move : Move request s a s') : IsCarried request s' := by
  unfold IsCarried at carried ⊢
  cases move with
  | @begin i at_ =>
    have fresh : ∀ j, chan s j ≠ some s.made := fun j mine =>
      absurd (owned.made j _ mine) (lt_irrefl _)
    apply carried.begin (i := i) fresh
    · simp [chan, setCaller, Caller.channel]
    · simp [chan, at_, Caller.channel]
    · intro j ne
      simp [chan, setCaller, ne]
  | lock at_ | send at_ | cancel at_ | lockErase at_ =>
    rw [chan_setCaller (by rw [at_]; rfl)]
    exact carried
  | register at_ | erase at_ =>
    rw [chan_setCaller (by simp [setResponse, at_, Caller.channel])]
    exact carried
  | @pop i c at_ r ch pop =>
    have mine : chan s i = some c := by simp [chan, at_, Caller.channel]
    rw [chan_setCaller (by simp [setChannal, at_, Caller.channel])]
    rcases CoroutineChannal.pop_cases pop with ⟨rfl, rfl⟩ | ⟨m, rest, rfl, queue, rfl⟩
    · have same : gone s = (s.delivered ++ []) ++ (s.receiver.hand ++ s.responses) := by
        rw [List.append_nil, gone]
      exact (carried.hand same.symm).closed c
    · exact carried.pop distinct (fun j mine' => owned.apart j i c mine' mine) mine queue
  | @timeout i c at_ =>
    apply carried.same
    · intro c'
      by_cases eq : c' = c
      · subst eq
        simp [setChannal, CoroutineChannal.close]
      · simp [setChannal, eq]
    · intro c'
      by_cases eq : c' = c
      · subst eq
        simp [setChannal, CoroutineChannal.close]
      · simp [setChannal, eq]
  | take | drop | write | read => exact carried
  | @answer k m q here seq =>
    apply carried.answer
    · intro old
      have pending : q.seq ∈ (pending s).map Message.seq :=
        List.mem_map_of_mem (List.mem_append_left _ (List.mem_of_getElem? here))
      have nodup := routed.nodup
      rw [List.map_append] at nodup
      exact (List.nodup_append.mp nodup).2.2 _ (seq ▸ old) _ pending rfl
    · simp [gone]
  | receive idle next => exact carried.hand (by simp [gone, idle, next, Receiving.hand])
  | lockReceive at_ | find at_ | unlock at_ =>
    exact carried.hand (by simp [gone, at_, Receiving.hand])
  | miss at_ =>
    apply carried.sublist
    apply List.Sublist.append_left
    exact List.sublist_append_right _ _
  | @push m c b ch at_ push =>
    obtain ⟨i, seq, mine⟩ := owned.pushing m c at_
    rcases CoroutineChannal.push_cases push with ⟨-, rfl⟩ | ⟨room, rfl⟩
    · refine Carried.closed (carried.sublist ?_) c
      apply List.Sublist.append_left
      exact List.sublist_append_right _ _
    · have empty : (s.channals c).m_queue = [] := by
        rw [carried.capacity] at room
        exact List.eq_nil_of_length_eq_zero (by omega)
      have hand : gone s = s.delivered ++ ([m] ++ s.responses) := by
        simp [gone, at_, Receiving.hand]
      rw [hand] at carried
      exact carried.push (fun j mine' => owned.apart j i c mine' mine) mine seq empty

def Truthful (request : ι → Message) (s : Exchange ι) : Prop :=
  ∀ i m, (s.callers i).obtained = some m → m.seq = (request i).seq ∧ m ∈ s.answers

theorem truthful_moved {i : ι} {c : Caller} (truthful : Truthful request s)
    (callers : s'.callers = Function.update s.callers i c) (answers : s'.answers = s.answers)
    (own : ∀ m, c.obtained = some m → m.seq = (request i).seq ∧ m ∈ s.answers) :
    Truthful request s' := by
  intro j m h
  rw [callers] at h
  rw [answers]
  by_cases eq : j = i
  · subst eq
    rw [Function.update_self] at h
    exact own m h
  · rw [Function.update_of_ne eq] at h
    exact truthful j m h

theorem truthful_step (carried : IsCarried request s) (truthful : Truthful request s)
    (move : Move request s a s') : Truthful request s' := by
  cases move with
  | begin | lock | register | send => exact truthful_moved truthful rfl rfl nofun
  | @pop i c at_ r ch pop =>
    refine truthful_moved truthful rfl rfl ?_
    rcases CoroutineChannal.pop_cases pop with ⟨rfl, -⟩ | ⟨m, rest, rfl, queue, -⟩
    · nofun
    · intro m' eq
      cases eq
      have mine : chan s i = some c := by simp [chan, at_, Caller.channel]
      obtain ⟨seq, answered, -⟩ := carried.queued i c mine m (by simp [queue])
      exact ⟨seq, answered⟩
  | @cancel i c r at_ | @lockErase i c r at_ | @erase i c r at_ =>
    refine truthful_moved truthful rfl rfl ?_
    intro m eq
    apply truthful i m
    rw [at_]
    exact eq
  | answer =>
    intro i m h
    obtain ⟨seq, answered⟩ := truthful i m h
    exact ⟨seq, List.mem_append_left _ answered⟩
  | timeout | take | drop | write | read | receive | lockReceive | find | miss | push | unlock =>
    exact truthful

end

/-- Who is between a lock and an unlock of `m_mutex`. -/
def holds (s : Exchange ι) : Owner ι → Prop
  | .receiver => s.receiver.Holds
  | .caller i => (s.callers i).Holds

/-- `m_mutex` says who that is. -/
def Exclusive (s : Exchange ι) : Prop := ∀ o, s.m_mutex = some o ↔ holds s o

theorem exclusive_keep (exclusive : Exclusive s) (mutex : s'.m_mutex = s.m_mutex)
    (same : ∀ o, holds s' o ↔ holds s o) : Exclusive s' := by
  intro o
  rw [mutex, same]
  exact exclusive o

theorem exclusive_acquire {x : Owner ι} (exclusive : Exclusive s) (free : s.m_mutex = none)
    (mutex : s'.m_mutex = some x) (now : holds s' x)
    (same : ∀ o, o ≠ x → (holds s' o ↔ holds s o)) : Exclusive s' := by
  intro o
  rw [mutex]
  by_cases eq : o = x
  · subst eq
    exact ⟨fun _ => now, fun _ => rfl⟩
  · rw [same o eq, ← exclusive o, free]
    exact ⟨fun h => absurd (Option.some.inj h).symm eq, nofun⟩

theorem exclusive_release {x : Owner ι} (exclusive : Exclusive s) (held : holds s x)
    (mutex : s'.m_mutex = none) (now : ¬ holds s' x)
    (same : ∀ o, o ≠ x → (holds s' o ↔ holds s o)) : Exclusive s' := by
  intro o
  rw [mutex]
  refine ⟨nofun, ?_⟩
  intro h
  by_cases eq : o = x
  · subst eq
    exact absurd h now
  · rw [same o eq, ← exclusive o, (exclusive x).mpr held] at h
    exact absurd (Option.some.inj h).symm eq

theorem holds_receiver {o : Owner ι} (ne : o ≠ .receiver) (callers : s'.callers = s.callers) :
    holds s' o ↔ holds s o := by
  cases o with
  | receiver => exact absurd rfl ne
  | caller j => rw [holds, holds, callers]

theorem exclusive_receiver (exclusive : Exclusive s) (mutex : s'.m_mutex = s.m_mutex)
    (callers : s'.callers = s.callers) (same : s'.receiver.Holds ↔ s.receiver.Holds) :
    Exclusive s' := by
  apply exclusive_keep exclusive mutex
  intro o
  by_cases eq : o = .receiver
  · subst eq
    exact same
  · exact holds_receiver eq callers

section

variable [DecidableEq ι]

theorem holds_caller {i : ι} {c : Caller} {o : Owner ι} (ne : o ≠ .caller i)
    (callers : s'.callers = Function.update s.callers i c) (receiver : s'.receiver = s.receiver) :
    holds s' o ↔ holds s o := by
  cases o with
  | receiver => rw [holds, holds, receiver]
  | caller j =>
    have other : j ≠ i := by
      rintro rfl
      exact ne rfl
    rw [holds, holds, callers, Function.update_of_ne other]

theorem holds_self {i : ι} {c : Caller} (callers : s'.callers = Function.update s.callers i c) :
    holds s' (.caller i) ↔ c.Holds := by
  rw [holds, callers, Function.update_self]

theorem exclusive_moved {i : ι} {c : Caller} (exclusive : Exclusive s)
    (callers : s'.callers = Function.update s.callers i c) (receiver : s'.receiver = s.receiver)
    (mutex : s'.m_mutex = s.m_mutex) (same : c.Holds ↔ (s.callers i).Holds) : Exclusive s' := by
  apply exclusive_keep exclusive mutex
  intro o
  by_cases eq : o = .caller i
  · subst eq
    exact (holds_self callers).trans same
  · exact holds_caller eq callers receiver

theorem exclusive_lock {i : ι} {c : Caller} (exclusive : Exclusive s) (free : s.m_mutex = none)
    (callers : s'.callers = Function.update s.callers i c) (receiver : s'.receiver = s.receiver)
    (mutex : s'.m_mutex = some (.caller i)) (now : c.Holds) : Exclusive s' := by
  apply exclusive_acquire exclusive free mutex
  · exact (holds_self callers).mpr now
  · intro o ne
    exact holds_caller ne callers receiver

theorem exclusive_unlock {i : ι} {c : Caller} (exclusive : Exclusive s)
    (held : (s.callers i).Holds) (callers : s'.callers = Function.update s.callers i c)
    (receiver : s'.receiver = s.receiver) (mutex : s'.m_mutex = none) (now : ¬ c.Holds) :
    Exclusive s' := by
  apply exclusive_release (x := .caller i) exclusive held mutex
  · exact fun holds => now ((holds_self callers).mp holds)
  · intro o ne
    exact holds_caller ne callers receiver

theorem exclusive_step (exclusive : Exclusive s) (move : Move request s a s') :
    Exclusive s' := by
  cases move with
  | begin at_ | send at_ | pop at_ | cancel at_ =>
    exact exclusive_moved exclusive rfl rfl rfl (by simp [at_, Caller.Holds])
  | lock at_ free | lockErase at_ free => exact exclusive_lock exclusive free rfl rfl rfl trivial
  | register at_ | erase at_ =>
    refine exclusive_unlock exclusive ?_ rfl rfl rfl not_false
    rw [at_]
    trivial
  | timeout | take | drop | write | read | answer => exact exclusive
  | receive at_ => exact exclusive_receiver exclusive rfl rfl (by simp [at_, Receiving.Holds])
  | lockReceive at_ free =>
    exact exclusive_acquire exclusive free rfl trivial fun o ne => holds_receiver ne rfl
  | find at_ | miss at_ | push at_ =>
    exact exclusive_receiver exclusive rfl rfl (by simp [setChannal, at_, Receiving.Holds])
  | unlock at_ =>
    apply exclusive_release (x := .receiver) exclusive _ rfl _
    · exact fun o ne => holds_receiver ne rfl
    · rw [holds, at_]
      trivial
    · exact not_false

/-- The map has an entry for a caller while it stands between its two locked sections. -/
def Listed (request : ι → Message) (s : Exchange ι) : Prop :=
  ∀ i, s.m_response_channals (request i).seq = (s.callers i).entry

theorem listed_moved {i : ι} {c : Caller} (listed : Listed request s)
    (callers : s'.callers = Function.update s.callers i c)
    (map : s'.m_response_channals = s.m_response_channals)
    (same : c.entry = (s.callers i).entry) : Listed request s' := by
  intro j
  rw [map, callers]
  by_cases eq : j = i
  · subst eq
    rw [Function.update_self, same]
    exact listed j
  · rw [Function.update_of_ne eq]
    exact listed j

theorem listed_setResponse {i : ι} {c : Caller} {o : Option ℕ}
    (distinct : Function.Injective fun i => (request i).seq) (listed : Listed request s)
    (entry : c.entry = o) : Listed request ((s.setResponse (request i).seq o).setCaller i c) := by
  intro j
  by_cases eq : j = i
  · subst eq
    simp [setCaller, setResponse, entry]
  · have other : (request j).seq ≠ (request i).seq := fun same => eq (distinct same)
    simp only [setCaller, setResponse, Function.update_of_ne eq, Function.update_of_ne other]
    exact listed j

theorem listed_step (distinct : Function.Injective fun i => (request i).seq)
    (listed : Listed request s) (move : Move request s a s') : Listed request s' := by
  cases move with
  | begin at_ | lock at_ | send at_ | pop at_ | cancel at_ | lockErase at_ =>
    exact listed_moved listed rfl rfl (by simp [at_, Caller.entry])
  | register | erase => exact listed_setResponse distinct listed rfl
  | timeout | take | drop | write | read | answer | receive | lockReceive | find | miss | push
  | unlock => exact listed

/-- Whether a step is the caller's own, or the receive loop's with its response. -/
def Concerns (request : ι → Message) (s : Exchange ι) (i : ι) : Act ι → Prop
  | .caller j _ | .late j _ => j = i
  | .receiver .push => ∃ m c, s.receiver = .pushing m c ∧ m.seq = (request i).seq
  | .receiver _ | .sender _ | .read | .answer _ _ => False

structure Untouched (request : ι → Message) (s s' : Exchange ι) (i : ι) : Prop where
  caller : s'.callers i = s.callers i
  entry : s'.m_response_channals (request i).seq = s.m_response_channals (request i).seq
  channal : ∀ c, (s.callers i).channel = some c → s'.channals c = s.channals c

theorem untouched_caller {i j : ι} {b : CallerAct}
    (distinct : Function.Injective fun i => (request i).seq) (owned : IsOwned request s)
    (ne : j ≠ i) (move : Move request s (.caller j b) s') : Untouched request s s' i := by
  have other : (request i).seq ≠ (request j).seq := fun same => ne (distinct same).symm
  have alone : ∀ c c', (s.callers j).channel = some c → (s.callers i).channel = some c' →
      c' ≠ c := by
    rintro c _ mine yours rfl
    exact ne (owned.apart j i _ mine yours)
  cases move with
  | begin | lock | send | cancel | lockErase =>
    exact ⟨Function.update_of_ne ne.symm _ _, rfl, fun _ _ => rfl⟩
  | register | erase =>
    exact ⟨Function.update_of_ne ne.symm _ _, Function.update_of_ne other _ _, fun _ _ => rfl⟩
  | pop at_ =>
    refine ⟨Function.update_of_ne ne.symm _ _, rfl, ?_⟩
    intro c' yours
    exact Function.update_of_ne (alone _ c' (by rw [at_]; rfl) yours) _ _
  | timeout at_ =>
    refine ⟨rfl, rfl, ?_⟩
    intro c' yours
    exact Function.update_of_ne (alone _ c' at_ yours) _ _

theorem untouched {i : ι} (distinct : Function.Injective fun i => (request i).seq)
    (owned : IsOwned request s) (apart : ¬ Concerns request s i a) (move : Move request s a s') :
    Untouched request s s' i := by
  cases a with
  | caller j b => exact untouched_caller distinct owned apart move
  | late => cases move
  | read => cases move; exact ⟨rfl, rfl, fun _ _ => rfl⟩
  | sender b => cases move <;> exact ⟨rfl, rfl, fun _ _ => rfl⟩
  | answer k m => cases move; exact ⟨rfl, rfl, fun _ _ => rfl⟩
  | receiver b =>
    cases move with
    | @push m c b ch at_ push =>
      refine ⟨rfl, rfl, ?_⟩
      intro c' yours
      apply Function.update_of_ne
      rintro rfl
      obtain ⟨j, seq, mine⟩ := owned.pushing m c' at_
      obtain rfl := owned.apart i j c' yours mine
      exact apart ⟨m, c', at_, seq.symm⟩
    | receive | lockReceive | find | miss | unlock => exact ⟨rfl, rfl, fun _ _ => rfl⟩

end

structure Sound (request : ι → Message) (s : Exchange ι) : Prop where
  owned : IsOwned request s
  routed : IsRouted request s
  carried : IsCarried request s
  truthful : Truthful request s
  exclusive : Exclusive s
  listed : Listed request s

theorem sound_initial : Sound request ({} : Exchange ι) where
  owned := ⟨nofun, nofun, nofun, nofun⟩
  routed := ⟨List.nodup_nil, nofun⟩
  carried := ⟨List.nodup_nil, nofun, nofun, fun _ _ => rfl, fun _ => rfl, fun _ => Nat.zero_le _⟩
  truthful := nofun
  exclusive := by
    intro o
    cases o with
    | receiver => exact ⟨nofun, nofun⟩
    | caller i => exact ⟨nofun, nofun⟩
  listed := fun _ => rfl

theorem Sound.answered (sound : Sound request s) : (s.answers.map Message.seq).Nodup := by
  have nodup := sound.routed.nodup
  rw [List.map_append] at nodup
  exact (List.nodup_append.mp nodup).1

section

variable [DecidableEq ι]

theorem sound_step (distinct : Function.Injective fun i => (request i).seq)
    (sound : Sound request s) (move : Move request s a s') : Sound request s' where
  owned := owned_step sound.owned move
  routed := routed_step distinct sound.routed move
  carried := carried_step distinct sound.owned sound.routed sound.carried move
  truthful := truthful_step sound.carried sound.truthful move
  exclusive := exclusive_step sound.exclusive move
  listed := listed_step distinct sound.listed move

theorem sound_run {as : List (Act ι)} (distinct : Function.Injective fun i => (request i).seq)
    (run : Run (step request) InTime {} as s) : Sound request s :=
  run.invariant sound_initial fun _ _ _ sound inTime next =>
    sound_step distinct sound (move_of_step inTime next)

theorem receiver_steps (b : ReceiverAct) (can : (s.receiverStep b).isSome) :
    ∃ b s', step request s (.receiver b) = some s' :=
  ⟨b, Option.isSome_iff_exists.mp can⟩

/-- The receive loop takes its next step, unless nothing has come in or a caller has the lock. -/
theorem Sound.unblocked (sound : Sound request s) :
    (s.receiver = .reading ∧ s.responses = []) ∨ (∃ i, s.m_mutex = some (.caller i)) ∨
      ∃ b s', step request s (.receiver b) = some s' := by
  cases at_ : s.receiver with
  | reading =>
    cases next : s.responses with
    | nil => exact .inl ⟨rfl, rfl⟩
    | cons m rest => exact .inr (.inr (receiver_steps .receive (by simp [receiverStep, at_, next])))
  | received m =>
    cases mutex : s.m_mutex with
    | none => exact .inr (.inr (receiver_steps .lock (by simp [receiverStep, at_, mutex])))
    | some o =>
      cases o with
      | caller i => exact .inr (.inl ⟨i, rfl⟩)
      | receiver =>
        have held := (sound.exclusive .receiver).mp mutex
        rw [holds, at_] at held
        exact held.elim
  | locked m =>
    cases found : s.m_response_channals m.seq with
    | none => exact .inr (.inr (receiver_steps .find (by simp [receiverStep, at_, found])))
    | some c => exact .inr (.inr (receiver_steps .find (by simp [receiverStep, at_, found])))
  | pushing m c =>
    -- the message in hand is in no channel, so its caller's has room
    obtain ⟨i, seq, mine⟩ := sound.owned.pushing m c at_
    have empty : (s.channals c).m_queue = [] := by
      apply List.eq_nil_iff_forall_not_mem.mpr
      intro m' mem
      obtain ⟨same, -, apart⟩ := sound.carried.queued i c mine m' mem
      apply apart
      rw [same, seq]
      exact List.mem_map_of_mem (by simp [gone, at_, Receiving.hand])
    have room : 0 < (s.channals c).m_capacity := by
      rw [sound.carried.capacity]
      exact Nat.one_pos
    obtain ⟨b, ch, push⟩ := CoroutineChannal.push_empty empty room m
    exact .inr (.inr (receiver_steps .push (by simp [receiverStep, at_, push])))
  | unlocking => exact .inr (.inr (receiver_steps .unlock (by simp [receiverStep, at_])))

theorem Sound.released {i : ι} (sound : Sound request s) (held : s.m_mutex = some (.caller i)) :
    ∃ b s', step request s (.caller i b) = some s' ∧ s'.m_mutex = none := by
  have inside := (sound.exclusive (.caller i)).mp held
  rw [holds] at inside
  cases at_ : s.callers i with
  | registering c =>
    refine ⟨.register, (s.setResponse (request i).seq (some c)).setCaller i (.sending c), ?_, rfl⟩
    simp only [step, callerStep, at_]
  | removing c r =>
    refine ⟨.erase, (s.setResponse (request i).seq none).setCaller i (.done c r), ?_, rfl⟩
    simp only [step, callerStep, at_]
  | start | locking | sending | waiting | popped | erasing | done =>
    rw [at_] at inside
    exact inside.elim

structure Correlates (request : ι → Message) (s : Exchange ι) : Prop where
  /-- an obtained message is the peer's one answer with the caller's own `seq` -/
  own : ∀ i m, (s.callers i).obtained = some m →
    m ∈ s.answers ∧ ∀ m' ∈ s.answers, m'.seq = (request i).seq ↔ m' = m
  once : (s.delivered.map Message.seq).Nodup
  /-- a response that comes after its caller's erase is dropped -/
  dropped : ∀ i c r m, s.callers i = .done c r → m.seq = (request i).seq →
    s.receiver = .locked m →
    step request s (.receiver .find) = some { s with receiver := .unlocking }
  unblocked : (s.receiver = .reading ∧ s.responses = []) ∨ (∃ i, s.m_mutex = some (.caller i)) ∨
    ∃ b s', step request s (.receiver b) = some s'
  released : ∀ i, s.m_mutex = some (.caller i) →
    ∃ b s', step request s (.caller i b) = some s' ∧ s'.m_mutex = none
  /-- a step of one caller, or with its response, leaves the others alone -/
  apart : ∀ i b s', b.InTime → step request s b = some s' → ¬ Concerns request s i b →
    Untouched request s s' i

/-- In any order of sends, answers, timeouts and erases, callers whose requests differ in `seq`
get their own responses, and the receive loop is not held up by any of them, as long as no timer's
callback comes after its call has returned. -/
theorem responses_correlate {as : List (Act ι)}
    (distinct : Function.Injective fun i => (request i).seq)
    (run : Run (step request) InTime {} as s) : Correlates request s := by
  have sound := sound_run distinct run
  constructor
  · intro i m h
    obtain ⟨seq, answered⟩ := sound.truthful i m h
    refine ⟨answered, fun m' mem => ⟨?_, ?_⟩⟩
    · intro same
      exact List.inj_on_of_nodup_map sound.answered mem answered (same.trans seq.symm)
    · rintro rfl
      exact seq
  · have nodup := sound.carried.nodup
    rw [gone, List.map_append] at nodup
    exact (List.nodup_append.mp nodup).1
  · intro i c r m done seq at_
    have erased : s.m_response_channals m.seq = none := by
      rw [seq, sound.listed i, done]
      rfl
    simp only [step, receiverStep, at_, erased]
  · exact sound.unblocked
  · intro i held
    exact sound.released held
  · intro i b s' inTime next apart
    exact untouched distinct sound.owned apart (move_of_step inTime next)

end

/-- Two requests, with `seq` 2 and 1. -/
def twoRequests (late : Bool) : Message := .new 0 0 1 (if late then 2 else 1) 0

def sends (late : Bool) : List (Act Bool) :=
  [.caller late .begin, .caller late .lock, .caller late .register, .caller late .send,
    .sender .take, .read, .sender .write]

def erases (late : Bool) : List (Act Bool) :=
  [.caller late .pop, .caller late .cancel, .caller late .lockErase, .caller late .erase]

def receives : List (Act Bool) :=
  [.receiver .receive, .receiver .lock, .receiver .find, .receiver .push, .receiver .unlock]

/-- Both are answered, the second first; the first times out and its response finds no entry. -/
def lateResponse : List (Act Bool) :=
  sends true ++ sends false ++ [.answer 1 (.new 4 0 1 1 0), .answer 0 (.new 4 0 1 2 0)] ++
  receives ++ erases false ++ [.caller true .timeout] ++ erases true ++
  [.receiver .receive, .receiver .lock, .receiver .find]

theorem late_response_run : ∃ s, Run (step twoRequests) InTime {} lateResponse s := by
  have ends : (exec (guarded (step twoRequests) InTime) {} lateResponse).isSome = true := by
    decide +kernel
  obtain ⟨s, run⟩ := Option.isSome_iff_exists.mp ends
  exact ⟨s, .of_guarded run⟩

theorem distinct_twoRequests : Function.Injective fun late => (twoRequests late).seq :=
  (by decide : ∀ a b, (twoRequests a).seq = (twoRequests b).seq → a = b)

theorem late_response_correlates :
    ∃ s, exec (step twoRequests) {} lateResponse = some s ∧ Correlates twoRequests s := by
  obtain ⟨s, run⟩ := late_response_run
  exact ⟨s, run.ends, responses_correlate distinct_twoRequests run⟩

/-- One call has its response and returns, while its timer's callback waits for a worker; the next
call of the same coroutine waits where the first has waited. -/
def servedCall : List (Act Bool) :=
  sends true ++ [.answer 0 (.new 4 0 1 2 0)] ++ receives ++ erases true ++ sends false

/-- The callback closes the channel of the second call, which is answered and gets nothing. -/
theorem late_callback_closes : ∃ s t u : Exchange Bool,
    exec (step twoRequests) {} servedCall = some s ∧
    step twoRequests s (.late true 1) = some t ∧
    exec (step twoRequests) t ([.answer 0 (.new 4 0 1 1 0)] ++ receives ++ erases false) = some u ∧
    ¬ Concerns twoRequests s false (.late true 1) ∧ ¬ Untouched twoRequests s t false ∧
    u.callers false = .done 1 none := by
  refine ⟨_, _, _, rfl, rfl, rfl, Bool.noConfusion, ?_, rfl⟩
  intro untouched
  have same := untouched.channal 1 rfl
  exact absurd (congrArg CoroutineChannal.m_is_close same) (by decide)

end Exchange

end CRpc
