import CRpc.Rpc.Connections

/-! Which heartbeat timers expire at `RpcRegister`, and over which connections. -/
namespace CRpc.Registry
open Function Multimaps Transition Util

namespace Connections

/-- What `handleMsg` makes of a request on the socket `c`. -/
inductive Handled (s : Connections) (c : ℕ) (request : Request) : Connections → Prop
  | init (services : List Service) (asked : request = .report .RPC_SERVER_INIT services)
      (m_addresses : Multimap Text IpPort) (registered : List (ℕ × Service)) :
      Handled s c request { s with
        reg := ⟨m_addresses, if s.m_sockfd c ∈ s.reg.m_heartbeat_timers
          then s.reg.m_heartbeat_timers else s.m_sockfd c :: s.reg.m_heartbeat_timers⟩
        history := s.history.apply s.now (.addTimeEvent 1500 false)
        socket := update s.socket s.history.timer.created (some c)
        heartbeat := if s.m_sockfd c ∈ s.reg.m_heartbeat_timers then s.heartbeat
          else update s.heartbeat (s.m_sockfd c) s.history.timer.created
        beat := update s.beat c s.now
        registered }
  | resets (asked : request = .heartBeat) (has : s.m_sockfd c ∈ s.reg.m_heartbeat_timers) :
      Handled s c request { s with
        history := s.history.apply s.now (.resetTime (s.heartbeat (s.m_sockfd c)))
        beat := update s.beat c s.now }
  | misses (asked : request = .heartBeat) (has : s.m_sockfd c ∉ s.reg.m_heartbeat_timers) :
      Handled s c request { s with beat := update s.beat c s.now }
  | answers (asked : request.beats = false) (m_addresses : Multimap Text IpPort)
      (registered : List (ℕ × Service)) :
      Handled s c request { s with reg := { s.reg with m_addresses }, registered }

theorem perform_answers {c : ℕ} {fd : Int32} {effects : List Effect}
    (did : ∀ e ∈ effects, ∃ message, e = .send fd message) (s : Connections) :
    effects.foldl (perform c) s = s := by
  induction effects generalizing s with
  | nil => rfl
  | cons e effects ih =>
    obtain ⟨message, rfl⟩ := did e List.mem_cons_self
    exact ih (fun x mem => did x (List.mem_cons_of_mem _ mem)) s

theorem handled_handleMsg {s t : Connections} {c : ℕ} {request : Request} {seq : UInt64}
    (h : s.handleMsg c request seq = some t) : Handled s c request t := by
  obtain ⟨⟨⟨m_addresses, timers⟩, effects⟩, delivered, done⟩ := Option.bind_eq_some_iff.mp h
  obtain rfl := Option.some.inj done
  cases (deliver_did delivered).1 with
  | init services asked message did timers =>
    subst asked did
    dsimp only at timers
    subst timers
    exact .init services rfl _ _
  | beat asked same did =>
    subst asked
    rw [same]
    by_cases has : s.m_sockfd c ∈ s.reg.m_heartbeat_timers
    · rw [if_pos has] at did
      subst did
      simpa [perform, Request.beats, Request.registers] using Handled.resets rfl has
    · rw [if_neg has] at did
      subst did
      simpa [Request.beats, Request.registers] using Handled.misses rfl has
  | answer asked did timers =>
    dsimp only at timers
    subst timers
    rw [perform_answers did, asked]
    exact .answers asked _ _

/-- An event made by `addTimeEvent(1500, ..., false)`. -/
def OneShot (h : History) (e : ℕ) : Prop :=
  e < h.timer.created ∧ (h.timer.event e).m_is_repeated = false ∧
    (h.timer.event e).m_interval = 1500

/-- An open connection is the one that is found under its descriptor, the events with a socket are
those of `handleServerInit`, and so are the events in `m_heartbeat_timers`. -/
structure Kept (s : Connections) : Prop where
  sound : s.history.Sound
  found : ∀ c, s.m_sockfd c ≠ -1 → s.m_clientSockets (s.m_sockfd c) = some c
  accepted : ∀ fd c, s.m_clientSockets fd = some c → c < s.accepted
  timers : ∀ e c, s.socket e = some c → OneShot s.history e
  owners : ∀ e c, s.socket e = some c → c < s.accepted
  heartbeats : ∀ fd ∈ s.reg.m_heartbeat_timers, ∃ c, s.socket (s.heartbeat fd) = some c
  beats : ∀ c, s.beat c ≤ s.now

theorem kept_initial : Kept {} :=
  ⟨History.sound_initial, fun _ opened => absurd rfl opened, nofun, nofun, nofun, nofun,
    fun _ => le_rfl⟩

variable {s t : Connections}

/-- What is open when `c` has been closed is another connection, and was open before. -/
theorem opened_of_closed {m_sockfd : ℕ → Int32} {c d : ℕ}
    (opened : update m_sockfd c (-1) d ≠ -1) :
    d ≠ c ∧ update m_sockfd c (-1) d = m_sockfd d := by
  by_cases same : d = c
  · rw [same, update_self] at opened
    exact absurd rfl opened
  · exact ⟨same, update_of_ne same ..⟩

theorem Kept.same_socket (kept : s.Kept) {c d : ℕ} (opened : s.m_sockfd c ≠ -1)
    (same : s.m_sockfd d = s.m_sockfd c) : d = c := by
  have first := kept.found d (same ▸ opened)
  rw [same, kept.found c opened] at first
  exact (Option.some.inj first).symm

theorem Kept.opened_lt (kept : s.Kept) {c : ℕ} (opened : s.m_sockfd c ≠ -1) : c < s.accepted :=
  kept.accepted _ c (kept.found c opened)

theorem oneShot_apply {h : History} (sound : h.Sound) {call : TimerCall} {e : ℕ}
    (fits : call.on = some e → call = .resetTime e) (shot : OneShot h e) (now : ℕ) :
    OneShot (h.apply now call) e := by
  obtain ⟨known, once, interval⟩ := shot
  refine ⟨known.trans_le (History.created_apply h call now), ?_⟩
  by_cases called : call.on = some e
  · obtain rfl := fits called
    constructor
    · exact (History.event_resetTimeTo now e _ e).1.trans once
    · exact (h.timer.interval_resetTime now e e).trans interval
  · rw [(History.apply_frame sound called known once now).1]
    exact ⟨once, interval⟩

theorem Kept.beats_now (kept : s.Kept) (c d : ℕ) : update s.beat c s.now d ≤ s.now := by
  by_cases same : d = c
  · rw [same, update_self]
  · rw [update_of_ne same]
    exact kept.beats d

theorem kept_handled (kept : s.Kept) {c : ℕ} {request : Request} (opened : s.m_sockfd c ≠ -1)
    (h : Handled s c request t) : t.Kept := by
  have beats := kept.beats_now c
  cases h with
  | init services asked m_addresses registered =>
    have known : s.history.Known (.addTimeEvent 1500 false) := trivial
    have sound := History.sound_apply kept.sound known s.now
    refine ⟨sound, kept.found, kept.accepted, ?_, ?_, ?_, beats⟩
    · intro e d (mine : update s.socket s.history.timer.created (some c) e = some d)
      by_cases same : e = s.history.timer.created
      · subst same
        refine ⟨Nat.lt_succ_self _, ?_⟩
        change (Timer.event (Timer.insert _ _) _).m_is_repeated = false ∧
          (Timer.event (Timer.insert _ _) _).m_interval = 1500
        rw [Timer.event_insert, Timer.event_set_same]
        exact ⟨rfl, rfl⟩
      · rw [update_of_ne same] at mine
        exact oneShot_apply kept.sound (by rintro ⟨⟩) (kept.timers e d mine) s.now
    · intro e d (mine : update s.socket s.history.timer.created (some c) e = some d)
      by_cases same : e = s.history.timer.created
      · rw [same, update_self] at mine
        cases mine
        exact kept.opened_lt opened
      · rw [update_of_ne same] at mine
        exact kept.owners e d mine
    · have socket : ∀ e, (∃ d, s.socket e = some d) ∨ e = s.history.timer.created →
          ∃ d, update s.socket s.history.timer.created (some c) e = some d := by
        intro e known
        by_cases same : e = s.history.timer.created
        · exact ⟨c, by rw [same, update_self]⟩
        · rw [update_of_ne same]
          exact known.resolve_right same
      by_cases has : s.m_sockfd c ∈ s.reg.m_heartbeat_timers
      · simp only [if_pos has]
        exact fun fd mem => socket _ (.inl (kept.heartbeats fd mem))
      · simp only [if_neg has]
        intro fd mem
        apply socket
        by_cases same : fd = s.m_sockfd c
        · exact .inr (by rw [same, update_self])
        · rw [update_of_ne same]
          exact .inl (kept.heartbeats fd (List.mem_of_ne_of_mem same mem))
  | resets asked has =>
    obtain ⟨d, mine⟩ := kept.heartbeats _ has
    have known : s.history.Known (.resetTime (s.heartbeat (s.m_sockfd c))) :=
      (kept.timers _ d mine).1
    refine ⟨History.sound_apply kept.sound known s.now, kept.found, kept.accepted, ?_,
      kept.owners, kept.heartbeats, beats⟩
    intro e d mine
    refine oneShot_apply kept.sound ?_ (kept.timers e d mine) s.now
    rintro ⟨⟩
    rfl
  | misses asked has =>
    exact ⟨kept.sound, kept.found, kept.accepted, kept.timers, kept.owners, kept.heartbeats, beats⟩
  | answers asked m_addresses registered =>
    exact ⟨kept.sound, kept.found, kept.accepted, kept.timers, kept.owners, kept.heartbeats,
      kept.beats⟩

theorem kept_step {a : ConnectionAction} (kept : s.Kept) (h : s.step a = some t) : t.Kept := by
  cases stepped_of_step h with
  | accept fd valid free =>
    refine ⟨kept.sound, ?_, ?_, kept.timers, ?_, kept.heartbeats, kept.beats⟩
    · intro c (opened : update s.m_sockfd s.accepted fd c ≠ -1)
      change update s.m_clientSockets fd _ (update s.m_sockfd s.accepted fd c) = some c
      by_cases same : c = s.accepted
      · rw [same, update_self, update_self]
      · rw [update_of_ne same] at opened ⊢
        rw [update_of_ne (free c (kept.opened_lt opened)), kept.found c opened]
    · intro other c (clients : update s.m_clientSockets fd (some s.accepted) other = some c)
      by_cases same : other = fd
      · rw [same, update_self] at clients
        cases clients
        exact Nat.lt_succ_self _
      · rw [update_of_ne same] at clients
        exact Nat.lt_succ_of_lt (kept.accepted other c clients)
    · exact fun e c mine => Nat.lt_succ_of_lt (kept.owners e c mine)
  | message c fd request seq t client opened handled =>
    exact kept_handled kept opened (handled_handleMsg handled)
  | peerClose c fd client opened =>
    refine ⟨kept.sound, ?_, ?_, kept.timers, kept.owners, kept.heartbeats, kept.beats⟩
    · intro d (open' : update s.m_sockfd c (-1) d ≠ -1)
      change update s.m_clientSockets fd none (update s.m_sockfd c (-1) d) = some d
      obtain ⟨ne, same⟩ := opened_of_closed open'
      rw [same] at open' ⊢
      have apart : s.m_sockfd d ≠ fd := by
        rintro rfl
        exact ne (Option.some.inj ((kept.found d open').symm.trans client))
      rw [update_of_ne apart, kept.found d open']
    · intro other d (clients : update s.m_clientSockets fd none other = some d)
      by_cases same : other = fd
      · rw [same, update_self] at clients
        cases clients
      · rw [update_of_ne same] at clients
        exact kept.accepted other d clients
  | callback c e mine waits =>
    refine ⟨kept.sound, ?_, kept.accepted, kept.timers, kept.owners, ?_, kept.beats⟩
    · intro d (open' : update s.m_sockfd c (-1) d ≠ -1)
      change s.m_clientSockets (update s.m_sockfd c (-1) d) = some d
      obtain ⟨-, same⟩ := opened_of_closed open'
      rw [same] at open' ⊢
      exact kept.found d open'
    · exact fun fd mem => kept.heartbeats fd (List.mem_filter.mp mem).1
  | expire now read =>
    have known : s.history.Known .getExpiredcbs := trivial
    have sound := History.sound_apply kept.sound known now
    refine ⟨sound, kept.found, kept.accepted, ?_, kept.owners, kept.heartbeats, kept.beats⟩
    exact fun e c mine => oneShot_apply kept.sound (by rintro ⟨⟩) (kept.timers e c mine) now
  | tick ms =>
    exact ⟨kept.sound, kept.found, kept.accepted, kept.timers, kept.owners, kept.heartbeats,
      fun c => (kept.beats c).trans (Nat.le_add_right _ ms)⟩
  | elsewhere call known foreign =>
    refine ⟨History.sound_apply kept.sound known s.now, kept.found, kept.accepted, ?_,
      kept.owners, kept.heartbeats, kept.beats⟩
    intro e c mine
    refine oneShot_apply kept.sound (fun called => ?_) (kept.timers e c mine) s.now
    cases (foreign.2 e called).symm.trans mine

/-- The timer that would close an open socket is the one that a `HEART_BEAT` on it resets. -/
def Resets (s : Connections) : Prop := ∀ e c, s.socket e = some c → s.m_sockfd c ≠ -1 →
  s.m_sockfd c ∈ s.reg.m_heartbeat_timers ∧ s.heartbeat (s.m_sockfd c) = e

/-- Such a timer is due 1500 ms after the last beat at the earliest. -/
def Late (s : Connections) : Prop := ∀ e ∈ s.history.timer.m_timeEvents, ∀ c,
  s.socket e = some c → s.m_sockfd c ≠ -1 → s.beat c + 1500 ≤ s.history.timer.occur e

/-- An `RPC_SERVER_INIT` finds no timer under its descriptor. -/
def FreshInit (s : Connections) : ConnectionAction → Prop
  | .message fd (.report .RPC_SERVER_INIT _) _ =>
    ∀ c ∈ s.m_clientSockets fd, s.m_sockfd c ∉ s.reg.m_heartbeat_timers
  | _ => True

theorem freshInit_of_beats {fd : Int32} {request : Request} {seq : UInt64}
    (h : request.beats = false) : s.FreshInit (.message fd request seq) := by
  cases request with
  | report kind services =>
    cases kind with
    | RPC_SERVER_INIT => cases h
    | _ => trivial
  | _ => trivial

theorem Resets.closes {reg : RpcRegister} {m_clientSockets : Int32 → Option ℕ}
    {callbacks : List ℕ} {c : ℕ} (resets : s.Resets)
    (others : ∀ d, s.m_sockfd d ≠ -1 → d ≠ c → s.m_sockfd d ∈ s.reg.m_heartbeat_timers →
      s.m_sockfd d ∈ reg.m_heartbeat_timers) :
    Resets { s with reg, m_clientSockets, callbacks, m_sockfd := update s.m_sockfd c (-1) } := by
  intro e d mine (opened : update s.m_sockfd c (-1) d ≠ -1)
  change update s.m_sockfd c (-1) d ∈ reg.m_heartbeat_timers ∧
    s.heartbeat (update s.m_sockfd c (-1) d) = e
  obtain ⟨ne, same⟩ := opened_of_closed opened
  rw [same] at opened ⊢
  obtain ⟨has, timer⟩ := resets e d mine opened
  exact ⟨others d opened ne has, timer⟩

/-- An `RPC_SERVER_INIT` keeps the timers within reach if and only if its own is kept. -/
theorem resets_init (kept : s.Kept) (resets : s.Resets) {c : ℕ} (opened : s.m_sockfd c ≠ -1)
    {m_addresses : Multimap Text IpPort} {history : History} {beat : ℕ → ℕ}
    {registered : List (ℕ × Service)} :
    Resets { s with
      history, beat, registered
      reg := ⟨m_addresses, if s.m_sockfd c ∈ s.reg.m_heartbeat_timers
        then s.reg.m_heartbeat_timers else s.m_sockfd c :: s.reg.m_heartbeat_timers⟩
      socket := update s.socket s.history.timer.created (some c)
      heartbeat := if s.m_sockfd c ∈ s.reg.m_heartbeat_timers then s.heartbeat
        else update s.heartbeat (s.m_sockfd c) s.history.timer.created } ↔
      s.m_sockfd c ∉ s.reg.m_heartbeat_timers := by
  constructor
  · intro next has
    have mine : update s.socket s.history.timer.created (some c)
      s.history.timer.created = some c := update_self ..
    obtain ⟨-, same⟩ := next _ c mine opened
    simp only [if_pos has] at same
    obtain ⟨d, old⟩ := kept.heartbeats _ has
    exact Nat.ne_of_lt (kept.timers _ d old).1 same
  · intro free
    simp only [if_neg free]
    intro e d (mine : update s.socket s.history.timer.created (some c) e = some d) opened'
    by_cases same : e = s.history.timer.created
    · rw [same, update_self] at mine
      cases mine
      refine ⟨List.mem_cons_self, ?_⟩
      rw [same]
      exact update_self ..
    · rw [update_of_ne same] at mine
      obtain ⟨has, kept⟩ := resets e d mine opened'
      have apart : s.m_sockfd d ≠ s.m_sockfd c := fun eq => free (eq ▸ has)
      exact ⟨List.mem_cons_of_mem _ has, (update_of_ne apart ..).trans kept⟩

/-- The timers of open sockets stay within reach of their `HEART_BEAT`s, until an
`RPC_SERVER_INIT` makes one that is not kept. -/
theorem resets_step {a : ConnectionAction} (kept : s.Kept) (resets : s.Resets)
    (h : s.step a = some t) : t.Resets ↔ s.FreshInit a := by
  cases stepped_of_step h with
  | accept fd valid free =>
    refine iff_of_true ?_ trivial
    intro e c mine
    have old : c ≠ s.accepted := Nat.ne_of_lt (kept.owners e c mine)
    change update s.m_sockfd s.accepted fd c ≠ -1 →
      update s.m_sockfd s.accepted fd c ∈ s.reg.m_heartbeat_timers ∧
        s.heartbeat (update s.m_sockfd s.accepted fd c) = e
    rw [update_of_ne old]
    exact resets e c mine
  | message c fd request seq t client opened handled =>
    cases handled_handleMsg handled with
    | init services asked m_addresses registered =>
      subst asked
      have fresh : s.FreshInit (.message fd (.report .RPC_SERVER_INIT services) seq) ↔
          s.m_sockfd c ∉ s.reg.m_heartbeat_timers := by
        simp [FreshInit, client]
      rw [fresh]
      exact resets_init kept resets opened
    | resets asked has =>
      subst asked
      exact iff_of_true resets trivial
    | misses asked has =>
      subst asked
      exact iff_of_true resets trivial
    | answers asked m_addresses registered => exact iff_of_true resets (freshInit_of_beats asked)
  | peerClose c fd client opened => exact iff_of_true (resets.closes fun _ _ _ => id) trivial
  | callback c e mine waits =>
    refine iff_of_true (resets.closes ?_) trivial
    intro d opened ne has
    apply List.mem_filter.mpr
    refine ⟨has, decide_eq_true fun same => ne ?_⟩
    exact (kept.same_socket opened same.symm).symm
  | expire | tick | elsewhere => exact iff_of_true resets trivial

theorem Late.closes {reg : RpcRegister} {m_clientSockets : Int32 → Option ℕ}
    {callbacks : List ℕ} {c : ℕ} (late : s.Late) :
    Late { s with reg, m_clientSockets, callbacks, m_sockfd := update s.m_sockfd c (-1) } := by
  intro e mem d mine (opened : update s.m_sockfd c (-1) d ≠ -1)
  rw [(opened_of_closed opened).2] at opened
  exact late e mem d mine opened

theorem Late.calls (kept : s.Kept) (late : s.Late) {call : TimerCall} {callbacks : List ℕ}
    (foreign : ∀ e, call.on = some e → s.socket e = none) (now : ℕ) :
    Late { s with history := s.history.apply now call, callbacks } := by
  intro e mem c mine opened
  obtain ⟨known, once, -⟩ := kept.timers e c mine
  have other : call.on ≠ some e := by
    intro called
    cases (foreign e called).symm.trans mine
  obtain ⟨same, inside⟩ := History.apply_frame kept.sound other known once now
  change s.beat c + 1500 ≤ ((s.history.apply now call).timer.event e).m_occur_time
  rw [same]
  exact late e (inside mem) c mine opened

theorem late_handled (kept : s.Kept) (resets : s.Resets) (late : s.Late) {c : ℕ} {request : Request}
    (fresh : ∀ services, request = .report .RPC_SERVER_INIT services →
      s.m_sockfd c ∉ s.reg.m_heartbeat_timers)
    (h : Handled s c request t) : t.Late := by
  have others : ∀ e d, s.socket e = some d → s.m_sockfd d ≠ -1 →
      (s.m_sockfd c ∈ s.reg.m_heartbeat_timers → s.heartbeat (s.m_sockfd c) ≠ e) →
      update s.beat c s.now d = s.beat d := by
    intro e d mine opened apart
    apply update_of_ne
    rintro rfl
    obtain ⟨has, same⟩ := resets e d mine opened
    exact apart has same
  have beats := kept.beats_now c
  cases h with
  | init services asked m_addresses registered =>
    have free := fresh services asked
    intro e mem d (mine : update s.socket s.history.timer.created (some c) e = some d) opened
    change update s.beat c s.now d + 1500 ≤
      ((s.history.apply s.now (.addTimeEvent 1500 false)).timer.event e).m_occur_time
    rcases (History.mem_addTimeEvent kept.sound s.now 1500 false).mp mem with old | ⟨rfl, -⟩
    · have ne : e ≠ s.history.timer.created := Nat.ne_of_lt (kept.sound.created e old)
      rw [update_of_ne ne] at mine
      rw [others e d mine opened fun has => absurd has free]
      change _ ≤ (Timer.event (Timer.insert _ _) e).m_occur_time
      rw [Timer.event_insert, Timer.event_set_ne _ _ ne]
      exact late e old d mine opened
    · change _ ≤ (Timer.event (Timer.insert _ _) _).m_occur_time
      rw [Timer.event_insert, Timer.event_set_same]
      exact Nat.add_le_add_right (beats d) 1500
  | resets asked has =>
    intro e mem d mine opened
    change update s.beat c s.now d + 1500 ≤
      (s.history.timer.resetTime s.now (s.heartbeat (s.m_sockfd c))).occur e
    rcases Timer.mem_resetTime kept.sound.ordered mem with ⟨ne, old, same⟩ | ⟨rfl, due⟩
    · rw [others e d mine opened fun _ => ne.symm, Timer.occur, same]
      exact late e old d mine opened
    · rw [due, (kept.timers _ d mine).2.2]
      exact Nat.add_le_add_right (beats d) 1500
  | misses asked has =>
    intro e mem d mine opened
    change update s.beat c s.now d + 1500 ≤ _
    rw [others e d mine opened fun has' => absurd has' has]
    exact late e mem d mine opened
  | answers asked m_addresses registered => exact late

theorem late_step {a : ConnectionAction} (kept : s.Kept) (resets : s.Resets) (late : s.Late)
    (fresh : s.FreshInit a) (h : s.step a = some t) : t.Late := by
  cases stepped_of_step h with
  | accept fd valid free =>
    intro e mem c mine
    have old : c ≠ s.accepted := Nat.ne_of_lt (kept.owners e c mine)
    change update s.m_sockfd s.accepted fd c ≠ -1 → _
    rw [update_of_ne old]
    exact late e mem c mine
  | message c fd request seq t client opened handled =>
    refine late_handled kept resets late ?_ (handled_handleMsg handled)
    rintro services rfl
    exact fresh c client
  | peerClose | callback => exact late.closes
  | expire now read => exact late.calls kept (by rintro _ ⟨⟩) now
  | tick ms => exact late
  | elsewhere call known foreign => exact late.calls kept foreign.2 s.now

/-- In a run whose `RPC_SERVER_INIT`s find no timer under their descriptors, no timer of an open
connection expires within 1500 ms of the connection's last beat, and each `HEART_BEAT` resets the
timer that would close its socket; the first `RPC_SERVER_INIT` that finds one makes a timer that no
`HEART_BEAT` reaches. -/
theorem beating_never_expires {as : List ConnectionAction} (run : Run step FreshInit {} as s) :
    (∀ now e c, e ∈ s.history.timer.expired now → s.socket e = some c → s.m_sockfd c ≠ -1 →
      s.beat c + 1500 ≤ now) ∧
    s.Resets ∧ ∀ a t, s.step a = some t → (t.Resets ↔ s.FreshInit a) := by
  have all : s.Kept ∧ s.Resets ∧ s.Late := by
    apply run.invariant (P := fun s => s.Kept ∧ s.Resets ∧ s.Late)
    · exact ⟨kept_initial, nofun, nofun⟩
    · rintro t a u ⟨kept, resets, late⟩ fresh next
      exact ⟨kept_step kept next, (resets_step kept resets next).mpr fresh,
        late_step kept resets late fresh next⟩
  obtain ⟨kept, resets, late⟩ := all
  refine ⟨?_, resets, fun a t next => resets_step kept resets next⟩
  intro now e c expired mine opened
  obtain ⟨mem, due⟩ := (Timer.mem_expired kept.sound.ordered).mp expired
  exact (late e mem c mine opened).trans due

instance (s : Connections) : DecidablePred s.FreshInit
  | .message fd (.report .RPC_SERVER_INIT _) _ =>
    inferInstanceAs (Decidable (∀ c ∈ s.m_clientSockets fd, _))
  | .message _ (.report .RPC_SERVICE_REGISTER _) _ => isTrue trivial
  | .message _ (.report .RPC_SERVICE_DELETE _) _ => isTrue trivial
  | .message _ .heartBeat _ => isTrue trivial
  | .message _ .clientInit _ => isTrue trivial
  | .message _ (.serviceDiscover _) _ => isTrue trivial
  | .accept _ => isTrue trivial
  | .peerClose _ => isTrue trivial
  | .callback _ => isTrue trivial
  | .expire _ => isTrue trivial
  | .tick _ => isTrue trivial
  | .elsewhere _ => isTrue trivial

/-- A server beats once and falls silent: its timer is due 1500 ms later. -/
def silent : List ConnectionAction :=
  [.accept 5, .message 5 (.report .RPC_SERVER_INIT [served]) 1, .tick 1000,
    .message 5 .heartBeat 2, .expire 1000, .tick 1500]

theorem silent_expires : ∃ s, Run step FreshInit {} silent s ∧
    0 ∈ s.history.timer.expired 2500 ∧ s.m_sockfd 0 = 5 ∧ s.beat 0 + 1500 ≤ 2500 ∧ s.Resets ∧
    ∀ a t, s.step a = some t → (t.Resets ↔ s.FreshInit a) := by
  have done : (exec (guarded step FreshInit) {} silent).map (fun s =>
      decide ((0 ∈ s.history.timer.expired 2500 ∧ s.socket 0 = some 0) ∧ s.m_sockfd 0 = 5)) =
      some true := by decide +kernel
  obtain ⟨s, run, seen⟩ := Option.map_eq_some_iff.mp done
  obtain ⟨⟨expired, mine⟩, opened⟩ := of_decide_eq_true seen
  obtain ⟨late, resets, next⟩ := beating_never_expires (.of_guarded run)
  have open' : s.m_sockfd 0 ≠ -1 := by
    rw [opened]
    decide
  exact ⟨s, .of_guarded run, expired, opened, late 2500 0 0 expired mine open', resets, next⟩

/-- A peer closes its connection and the next one gets the same descriptor: its `HEART_BEAT` resets
the timer of the first. -/
def reused : List ConnectionAction :=
  [.accept 5, .message 5 (.report .RPC_SERVER_INIT [served]) 1, .peerClose 5, .tick 1, .accept 5,
    .message 5 (.report .RPC_SERVER_INIT [served]) 1, .tick 999, .message 5 .heartBeat 2,
    .tick 501]

/-- A server is disconnected 501 ms after its last beat. -/
theorem beating_expires : ∃ s, Run step Always {} reused s ∧
    (1 ∈ s.history.timer.expired 1501 ∧ s.socket 1 = some 1) ∧ s.m_sockfd 1 = 5 ∧
    s.beat 1 = 1000 ∧
    ¬ ∀ now e c, e ∈ s.history.timer.expired now → s.socket e = some c → s.m_sockfd c ≠ -1 →
      s.beat c + 1500 ≤ now := by
  have done : (exec step {} reused).map (fun s =>
      decide ((1 ∈ s.history.timer.expired 1501 ∧ s.socket 1 = some 1) ∧ s.m_sockfd 1 = 5 ∧
        s.beat 1 = 1000)) = some true := by decide +kernel
  obtain ⟨s, run, seen⟩ := Option.map_eq_some_iff.mp done
  obtain ⟨⟨expired, mine⟩, opened, beat⟩ := of_decide_eq_true seen
  refine ⟨s, .of_exec run, ⟨expired, mine⟩, opened, beat, fun claim => ?_⟩
  have open' : s.m_sockfd 1 ≠ -1 := by
    rw [opened]
    decide
  have late := claim 1501 1 1 expired mine open'
  rw [beat] at late
  omega

end Connections

end CRpc.Registry
