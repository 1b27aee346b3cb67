import CRpc.Lib.Runs
import CRpc.Socket.Truncation
import Mathlib.Logic.Function.Basic

/-! `TCPServer::run`: what the server sends back on each of its connections. -/
namespace CRpc
open Function Streams Transition

/-- A connection as the kernel has it: what comes from the peer and what goes to it. -/
structure Peer where
  socket : Socket := ⟨⟨[], []⟩, false⟩
  outlet : Outlet := ⟨[], []⟩

/-- `m_clientSockets`, with the `m_sockfd` of each socket, and the kernel's side: what `epoll`
watches and which connection a descriptor is, by the order of `accept`. No step reads `origin`, all
that the peer of a connection ever sends. -/
structure TCPServer where
  m_clientSockets : ℕ → Option ℕ := fun _ => none
  watched : ℕ → Bool := fun _ => false
  opened : ℕ → Option ℕ := fun _ => none
  accepted : ℕ := 0
  peers : ℕ → Peer := fun _ => {}
  origin : ℕ → List UInt8 := fun _ => []

/-- The events of `epoll_wait`: a new connection, for which `EPOLL_CTL_ADD` may fail, and a socket
that can be read. -/
inductive TCPEvent
  | accept (fd : ℕ) (feed : Feed UInt8) (departures : List Departure) (added : Bool)
  | ready (fd : ℕ)

namespace TCPServer

/-- The kernel gives out a descriptor that is not open. Without a place in `epoll` the socket is
closed at once. -/
def accept (s : TCPServer) (fd : ℕ) (feed : Feed UInt8) (departures : List Departure)
    (added : Bool) : TCPServer :=
  let s := { s with
    accepted := s.accepted + 1
    peers := update s.peers s.accepted ⟨⟨feed, false⟩, ⟨[], departures⟩⟩
    origin := update s.origin s.accepted feed.incoming }
  if added then { s with
    opened := update s.opened fd (some (s.accepted - 1))
    watched := update s.watched fd true
    m_clientSockets := update s.m_clientSockets fd (some fd) }
  else s

/-- `receive(data, 4)`, whose buffer fits, on a client's socket and what follows. There is no result while the loops
that receive and send go on. -/
def echo (s : TCPServer) (fd m_sockfd c : ℕ) : Option TCPServer :=
  match Socket.receiveBuffered 4 (s.peers c).socket with
  | .error _ => none
  | .ok (none, socket) =>
    some { s with peers := update s.peers c { s.peers c with socket } }
  | .ok (some [], socket) => some { s with
      peers := update s.peers c { s.peers c with socket }
      watched := update s.watched m_sockfd false
      opened := update s.opened m_sockfd none
      m_clientSockets := update s.m_clientSockets fd none }
  | .ok (some data, socket) =>
    match Socket.sendLoop data 0 (s.peers c).outlet.wire (s.peers c).outlet.departures with
    | .error _ => none
    | .ok (_, outlet) => some { s with peers := update s.peers c ⟨socket, outlet⟩ }

def step (s : TCPServer) : TCPEvent → Option TCPServer
  | .accept fd feed departures added =>
    if s.opened fd = none then some (s.accept fd feed departures added) else none
  | .ready fd =>
    if s.watched fd then
      match s.m_clientSockets fd with
      | none => some s
      | some m_sockfd => match s.opened m_sockfd with
        -- `recv` fails
        | none => some s
        | some c => s.echo fd m_sockfd c
    else none

end TCPServer

namespace Socket

theorem receiveLoop_takes {size : ℕ} {c : Bool} {arrivals : List Arrival} :
    ∀ {incoming got : List UInt8} {x : Option (List UInt8)} {k : Socket},
    receiveLoop size c incoming got arrivals = .ok (x, k) → Arrival.failed ∉ arrivals →
    ∃ more, x = some (got ++ more) ∧ incoming = more ++ k.feed.incoming ∧
      Arrival.failed ∉ k.feed.arrivals := by
  induction arrivals with
  | nil =>
    intro incoming got x k h up
    rw [receiveLoop] at h
    split at h
    · cases h
      exact ⟨[], by rw [List.append_nil], rfl, up⟩
    · cases h
  | cons a arrivals ih =>
    intro incoming got x k h up
    have later : Arrival.failed ∉ arrivals := fun mem => up (List.mem_cons_of_mem _ mem)
    rw [receiveLoop] at h
    split at h
    · cases h
      exact ⟨[], by rw [List.append_nil], rfl, up⟩
    · cases outcome : a.outcome (size - got.length) incoming with
      | again =>
        rw [outcome] at h
        exact ih h later
      | failed =>
        have same : a = .failed := by
          cases a with
          | failed => rfl
          | again | closed => cases outcome
          | ready more =>
            rw [Arrival.outcome] at outcome
            split at outcome <;> cases outcome
        exact absurd (same ▸ List.mem_cons_self) up
      | got bs =>
        rw [outcome] at h
        cases bs with
        | nil =>
          cases h
          exact ⟨[], by rw [List.append_nil], rfl, later⟩
        | cons b bs =>
          obtain ⟨more, rfl, split, up'⟩ := ih h later
          obtain ⟨rest, rfl⟩ := outcome_prefix outcome
          rw [List.drop_left] at split
          exact ⟨b :: bs ++ more, by rw [List.append_assoc], by rw [split, List.append_assoc], up'⟩

end Socket

namespace TCPServer

/-- What `epoll` watches is in the table under its own descriptor, and open. -/
structure Coherent (s : TCPServer) : Prop where
  table : ∀ fd m_sockfd, s.m_clientSockets fd = some m_sockfd →
    m_sockfd = fd ∧ s.watched fd = true ∧ ∃ c, s.opened fd = some c
  watched : ∀ fd, s.watched fd = true → s.m_clientSockets fd = some fd
  known : ∀ fd c, s.opened fd = some c → c < s.accepted
  apart : ∀ fd fd' c, s.opened fd = some c → s.opened fd' = some c → fd = fd'

theorem coherent_initial : Coherent {} := by
  constructor <;> intros <;> contradiction

/-- The event of a socket changes its own connection. The socket is closed where nothing comes. -/
inductive Handled (s : TCPServer) (fd c : ℕ) : TCPServer → Prop
  | refused (socket : Socket) (x : Socket.receiveBuffered 4 (s.peers c).socket = .ok (none, socket)) :
      Handled s fd c { s with peers := update s.peers c { s.peers c with socket } }
  | closed (socket : Socket)
      (x : Socket.receiveBuffered 4 (s.peers c).socket = .ok (some [], socket)) :
      Handled s fd c { s with
        peers := update s.peers c { s.peers c with socket }
        watched := update s.watched fd false
        opened := update s.opened fd none
        m_clientSockets := update s.m_clientSockets fd none }
  | echoed (data : List UInt8) (socket : Socket) (sent : Bool) (outlet : Outlet)
      (x : Socket.receiveBuffered 4 (s.peers c).socket = .ok (some data, socket))
      (sends : Socket.sendLoop data 0 (s.peers c).outlet.wire (s.peers c).outlet.departures =
        .ok (sent, outlet)) :
      Handled s fd c { s with peers := update s.peers c ⟨socket, outlet⟩ }

theorem handled_of_echo {s t : TCPServer} {fd c : ℕ} (h : s.echo fd fd c = some t) :
    Handled s fd c t := by
  unfold echo at h
  split at h
  · cases h
  · rename_i socket x
    cases h
    exact .refused socket x
  · rename_i socket x
    cases h
    exact .closed socket x
  · rename_i data socket _ x
    split at h
    · cases h
    · rename_i sent outlet sends
      cases h
      exact .echoed data socket sent outlet x sends

/-- In a coherent server an event reaches the connection it is about. -/
theorem handled_of_ready {s t : TCPServer} {fd : ℕ} (coherent : Coherent s)
    (h : s.step (.ready fd) = some t) : ∃ c, s.opened fd = some c ∧ Handled s fd c t := by
  obtain ⟨watched, h⟩ := Option.ite_none_right_eq_some.mp h
  have entry := coherent.watched fd watched
  obtain ⟨-, -, c, here⟩ := coherent.table fd fd entry
  rw [entry] at h
  simp only [here] at h
  exact ⟨c, here, handled_of_echo h⟩

theorem Coherent.accept {s : TCPServer} (coherent : Coherent s) {fd : ℕ} (free : s.opened fd = none)
    (feed : Feed UInt8) (departures : List Departure) (added : Bool) :
    Coherent (s.accept fd feed departures added) := by
  cases added with
  | false =>
    exact ⟨coherent.table, coherent.watched,
      fun x c here => Nat.lt_succ_of_lt (coherent.known x c here), coherent.apart⟩
  | true =>
    have others : ∀ {x : ℕ} {c : ℕ}, x ≠ fd →
        (s.accept fd feed departures true).opened x = some c → s.opened x = some c := by
      intro x c ne here
      simpa [TCPServer.accept, ne] using here
    have own : (s.accept fd feed departures true).opened fd = some s.accepted := by
      simp [TCPServer.accept]
    have counts : (s.accept fd feed departures true).accepted = s.accepted + 1 := rfl
    constructor
    · intro x m_sockfd entry
      by_cases same : x = fd
      · subst same
        have : x = m_sockfd := by simpa [TCPServer.accept] using entry
        exact ⟨this.symm, by simp [TCPServer.accept], _, own⟩
      · have old : s.m_clientSockets x = some m_sockfd := by
          simpa [TCPServer.accept, same] using entry
        obtain ⟨eq, watched, c, here⟩ := coherent.table x m_sockfd old
        exact ⟨eq, by simpa [TCPServer.accept, same] using watched, c,
          by simpa [TCPServer.accept, same] using here⟩
    · intro x watched
      by_cases same : x = fd
      · subst same
        simp [TCPServer.accept]
      · have old := coherent.watched x (by simpa [TCPServer.accept, same] using watched)
        simpa [TCPServer.accept, same] using old
    · intro x c here
      rw [counts]
      by_cases same : x = fd
      · subst same
        rw [own] at here
        cases here
        exact Nat.lt_succ_self _
      · exact Nat.lt_succ_of_lt (coherent.known x c (others same here))
    · intro x y c here here'
      have fresh : ∀ {z}, z ≠ fd → (s.accept fd feed departures true).opened z = some c →
          c ≠ s.accepted := fun ne at_ => (coherent.known _ c (others ne at_)).ne
      by_cases same : x = fd <;> by_cases same' : y = fd
      · rw [same, same']
      · subst same
        rw [own] at here
        exact absurd (Option.some.inj here).symm (fresh same' here')
      · subst same'
        rw [own] at here'
        exact absurd (Option.some.inj here').symm (fresh same here)
      · exact coherent.apart x y c (others same here) (others same' here')

theorem Coherent.handled {s t : TCPServer} {fd c : ℕ} (coherent : Coherent s)
    (handled : Handled s fd c t) : Coherent t := by
  cases handled with
  | refused | echoed =>
    exact ⟨coherent.table, coherent.watched, coherent.known, coherent.apart⟩
  | closed =>
    have others : ∀ {x : ℕ} {c' : ℕ}, update s.opened fd none x = some c' →
        x ≠ fd ∧ s.opened x = some c' := by
      intro x c' here
      by_cases same : x = fd
      · subst same
        simp at here
      · exact ⟨same, by simpa [same] using here⟩
    constructor
    · intro x m_sockfd entry
      by_cases same : x = fd
      · subst same
        simp at entry
      · obtain ⟨eq, watched, c', here⟩ := coherent.table x m_sockfd (by simpa [same] using entry)
        exact ⟨eq, by simpa [same] using watched, c', by simpa [same] using here⟩
    · intro x watched
      by_cases same : x = fd
      · subst same
        simp at watched
      · simpa [same] using coherent.watched x (by simpa [same] using watched)
    · exact fun x c' here => coherent.known x c' (others here).2
    · exact fun x y c' here here' => coherent.apart x y c' (others here).2 (others here').2

theorem coherent_step {s t : TCPServer} {a : TCPEvent} (coherent : Coherent s)
    (h : s.step a = some t) : Coherent t := by
  cases a with
  | accept fd feed departures added =>
    obtain ⟨free, same⟩ := Option.ite_none_right_eq_some.mp h
    cases same
    exact coherent.accept free feed departures added
  | ready fd =>
    obtain ⟨c, -, handled⟩ := handled_of_ready coherent h
    exact coherent.handled handled

/-- No call on the connection `c` fails. -/
def Sound (c : ℕ) (s : TCPServer) : TCPEvent → Prop
  | .accept _ feed departures _ => s.accepted = c →
    Arrival.failed ∉ feed.arrivals ∧ ∀ d ∈ departures, d ≠ .failed
  | .ready _ => True

instance (c : ℕ) (s : TCPServer) : DecidablePred (Sound c s)
  | .accept .. => inferInstanceAs (Decidable (_ → _ ∧ _))
  | .ready _ => inferInstanceAs (Decidable True)

structure Echoed (c : ℕ) (s : TCPServer) : Prop where
  arrivals : Arrival.failed ∉ (s.peers c).socket.feed.arrivals
  up : (s.peers c).outlet.Up
  all : s.origin c = (s.peers c).outlet.wire ++ (s.peers c).socket.feed.incoming

theorem Echoed.handled {s t : TCPServer} {fd c d : ℕ} (echoed : Echoed c s)
    (handled : Handled s fd d t) : Echoed c t := by
  have frame : ∀ {u : TCPServer}, c ≠ d → u.peers c = s.peers c → u.origin = s.origin →
      Echoed c u := by
    intro u _ peer origin
    refine ⟨?_, ?_, ?_⟩
    · rw [peer]
      exact echoed.arrivals
    · rw [peer]
      exact echoed.up
    · rw [origin, peer]
      exact echoed.all
  by_cases same : c = d
  · subst same
    cases handled with
    | refused socket x =>
      obtain ⟨more, none, -⟩ := Socket.receiveLoop_takes x echoed.arrivals
      cases none
    | closed socket x =>
      obtain ⟨more, taken, split, up⟩ := Socket.receiveLoop_takes x echoed.arrivals
      obtain rfl : more = [] := (List.nil_append more).symm.trans (Option.some.inj taken).symm
      refine ⟨?_, ?_, ?_⟩ <;> simp only [update_self]
      · exact up
      · exact echoed.up
      · rw [echoed.all, split, List.nil_append]
    | echoed data socket sent outlet x sends =>
      obtain ⟨more, taken, split, up⟩ := Socket.receiveLoop_takes x echoed.arrivals
      obtain rfl : data = more := (Option.some.inj taken).trans (List.nil_append more)
      rcases @Socket.sendLoop_up data _ 0 _ echoed.up with ⟨outlet', eq, up', wire, -⟩ | ⟨eq, -⟩
      · cases sends.symm.trans eq
        refine ⟨?_, ?_, ?_⟩ <;> simp only [update_self]
        · exact up
        · exact up'
        · rw [echoed.all, split, wire, List.drop_zero, List.append_assoc]
      · cases sends.symm.trans eq
  · cases handled with
    | refused | closed | echoed => exact frame same (update_of_ne same ..) rfl

theorem echoed_step {s t : TCPServer} {a : TCPEvent} {c : ℕ} (coherent : Coherent s)
    (echoed : c < s.accepted → Echoed c s) (sound : Sound c s a) (h : s.step a = some t) :
    c < t.accepted → Echoed c t := by
  cases a with
  | accept fd feed departures added =>
    obtain ⟨-, same⟩ := Option.ite_none_right_eq_some.mp h
    cases same
    intro known
    have shape : (s.accept fd feed departures added).accepted = s.accepted + 1 ∧
        (s.accept fd feed departures added).peers =
          update s.peers s.accepted ⟨⟨feed, false⟩, ⟨[], departures⟩⟩ ∧
        (s.accept fd feed departures added).origin =
          update s.origin s.accepted feed.incoming := by
      cases added <;> exact ⟨rfl, rfl, rfl⟩
    obtain ⟨count, peers, origin⟩ := shape
    by_cases same : c = s.accepted
    · subst same
      obtain ⟨arrivals, up⟩ := sound rfl
      refine ⟨?_, ?_, ?_⟩
      · rw [peers, update_self]
        exact arrivals
      · rw [peers, update_self]
        exact up
      · rw [peers, origin, update_self, update_self]
        rfl
    · have old := echoed (by omega)
      refine ⟨?_, ?_, ?_⟩
      · rw [peers, update_of_ne same]
        exact old.arrivals
      · rw [peers, update_of_ne same]
        exact old.up
      · rw [peers, origin, update_of_ne same, update_of_ne same]
        exact old.all
  | ready fd =>
    obtain ⟨d, -, handled⟩ := handled_of_ready coherent h
    intro known
    have same : t.accepted = s.accepted := by cases handled <;> rfl
    exact (echoed (same ▸ known)).handled handled

/-- Between events, whatever its other connections do and whichever descriptors are used again, the
server has sent back on a connection whose calls do not fail what it has received on it, in order;
and what `epoll` watches are the sockets of its table, each for a connection of its own. Inside an
event the bytes of a receive that is not over are in neither list. -/
theorem echo_exact {as : List TCPEvent} {s : TCPServer} {c : ℕ} (run : Run step (Sound c) {} as s) :
    (c < s.accepted →
      s.origin c = (s.peers c).outlet.wire ++ (s.peers c).socket.feed.incoming) ∧
    (∀ fd, s.watched fd = true ↔ s.m_clientSockets fd = some fd) ∧
    ∀ fd, s.watched fd = true → ∃ d, s.opened fd = some d ∧ d < s.accepted ∧
      ∀ fd', s.opened fd' = some d → fd' = fd := by
  have kept : Coherent s ∧ (c < s.accepted → Echoed c s) :=
    run.invariant (P := fun s => Coherent s ∧ (c < s.accepted → Echoed c s))
      ⟨coherent_initial, fun known => absurd known (Nat.not_lt_zero c)⟩
      fun t a u kept sound next =>
        ⟨coherent_step kept.1 next, echoed_step kept.1 kept.2 sound next⟩
  obtain ⟨coherent, echoed⟩ := kept
  refine ⟨fun known => (echoed known).all, fun fd => ⟨coherent.watched fd, ?_⟩, ?_⟩
  · exact fun entry => (coherent.table fd fd entry).2.1
  · intro fd watched
    obtain ⟨-, -, d, here⟩ := coherent.table fd fd (coherent.watched fd watched)
    exact ⟨d, here, coherent.known fd d here, fun fd' same => coherent.apart fd' fd d same here⟩

def reused : List TCPEvent :=
  [.accept 7 ⟨[1, 2, 3, 4, 5], [.ready 9, .ready 9, .closed, .closed]⟩
      [.room 2, .room 9, .room 9] true,
    .ready 7, .ready 7, .ready 7,
    .accept 7 ⟨[6, 7, 8, 9], [.ready 1, .again, .ready 1]⟩ [.room 9] true,
    .ready 7]

theorem echo_reused : ∃ s, Run step (Sound 1) {} reused s ∧
    (s.peers 1).outlet.wire = [6, 7, 8, 9] ∧
    s.origin 1 = (s.peers 1).outlet.wire ++ (s.peers 1).socket.feed.incoming := by
  have done : (exec (guarded step (Sound 1)) {} reused).map (fun s =>
      decide (1 < s.accepted ∧ (s.peers 1).outlet.wire = [6, 7, 8, 9])) = some true := by
    decide +kernel
  obtain ⟨s, run, known⟩ := Option.map_eq_some_iff.mp done
  obtain ⟨known, wire⟩ := of_decide_eq_true known
  have run := Run.of_guarded run
  exact ⟨s, run, wire, (echo_exact run).1 known⟩

end TCPServer

end CRpc
