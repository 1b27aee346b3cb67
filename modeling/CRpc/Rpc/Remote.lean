import CRpc.Rpc.Correlation
import CRpc.Rpc.Invocations

/-! Clients, each with a session and its callers, and the one server they call. -/
namespace CRpc

namespace Exchange

variable {ι : Type} {request : ι → Message} {e e' : Exchange ι} {a : Act ι}

/-- The server has taken a request from the socket, and its responses are on their way. -/
def served (e : Exchange ι) (requests replies : List Message) : Exchange ι :=
  { e with
    requests
    responses := e.responses ++ replies
    answers := e.answers ++ replies }

def Own : Act ι → Prop
  | .answer _ _ => False
  | _ => True

instance : DecidablePred (Own (ι := ι)) := fun a =>
  match a with
  | .answer _ _ => .isFalse not_false
  | .caller _ _ | .late _ _ | .sender _ | .read | .receiver _ => .isTrue trivial

theorem sound_dropped {q : Message} {rest : List Message} (sound : Sound request e)
    (next : e.requests = q :: rest) : Sound request (e.served rest []) := by
  have sub : (pending (e.served rest [])).Sublist (pending e) := by
    simp only [pending, served, next]
    exact List.sublist_cons_self q _
  have same : (e.served rest []) = { e with requests := rest } := by
    simp [served]
  rw [same] at sub ⊢
  exact ⟨sound.owned, sound.routed.sublist sub, sound.carried, sound.truthful, sound.exclusive,
    sound.listed⟩

variable [DecidableEq ι]

/-- No step but the peer's looks at the answers or changes them. -/
theorem Move.relabel (own : Own a) (move : Move request e a e') (answers : List Message) :
    Move request { e with answers } a { e' with answers } := by
  let relabelled : Exchange ι := { e with answers }
  cases move with
  | begin at_ => exact .begin (s := relabelled) at_
  | lock at_ free => exact .lock (s := relabelled) at_ free
  | register at_ => exact .register (s := relabelled) at_
  | send at_ queue => exact .send (s := relabelled) at_ queue
  | pop at_ pop => exact .pop (s := relabelled) at_ pop
  | timeout at_ => exact .timeout (s := relabelled) at_
  | cancel at_ => exact .cancel (s := relabelled) at_
  | lockErase at_ free => exact .lockErase (s := relabelled) at_ free
  | erase at_ => exact .erase (s := relabelled) at_
  | take idle queue => exact .take (s := relabelled) idle queue
  | drop at_ => exact .drop (s := relabelled) at_
  | write at_ room => exact .write (s := relabelled) at_ room
  | read => exact .read (s := relabelled)
  | answer => exact own.elim
  | receive idle next => exact .receive (s := relabelled) idle next
  | lockReceive at_ free => exact .lockReceive (s := relabelled) at_ free
  | find at_ found => exact .find (s := relabelled) at_ found
  | miss at_ erased => exact .miss (s := relabelled) at_ erased
  | push at_ push => exact .push (s := relabelled) at_ push
  | unlock at_ => exact .unlock (s := relabelled) at_

theorem own_answers (own : Own a) (move : Move request e a e') : e'.answers = e.answers := by
  cases move with
  | answer => exact own.elim
  | _ => rfl

theorem own_pending (own : Own a) (move : Move request e a e') :
    ∀ m ∈ pending e', m ∈ pending e ∨ ∃ i, m = request i := by
  intro m mem
  cases move with
  | begin | lock | register | pop | timeout | cancel | lockErase | erase | read | receive
  | lockReceive | find | miss | push | unlock => exact .inl mem
  | answer => exact own.elim
  | @send i c at_ ch queue =>
    rcases queue with rfl | queue
    · exact .inl mem
    · simp only [pending, setCaller, queue] at mem ⊢
      simp only [List.mem_append, List.mem_singleton] at mem ⊢
      rcases mem with mem | mem | mem | rfl
      · exact .inl (.inl mem)
      · exact .inl (.inr (.inl mem))
      · exact .inl (.inr (.inr mem))
      · exact .inr ⟨i, rfl⟩
  | take idle queue => exact .inl (by simpa [pending, idle, queue] using mem)
  | drop at_ =>
    left
    simp only [pending, at_, Option.toList, List.mem_append] at mem ⊢
    tauto
  | write at_ => exact .inl (by simpa [pending, at_] using mem)

theorem sound_served {q m : Message} {rest : List Message}
    (distinct : Function.Injective fun i => (request i).seq) (sound : Sound request e)
    (next : e.requests = q :: rest) (seq : m.seq = q.seq) :
    Sound request (e.served rest [m]) := by
  have pending : e.requests[0]? = some q := by rw [next]; rfl
  have move : Move request e (.answer 0 m) _ := .answer pending seq
  have same : e.requests.eraseIdx 0 = rest := by rw [next]; rfl
  rw [same] at move
  exact sound_step distinct sound move

end Exchange

namespace Remote
open Util Transition Serving Exchange

/-- The sessions, each with its callers, and the server at their other ends. -/
structure Network (κ ι σ : Type) where
  sessions : κ → Exchange ι := fun _ => {}
  server : RpcServer σ
  /-- no exception has left `run` -/
  running : Bool := true

inductive Step (κ ι : Type)
  | session (k : κ) (a : Act ι)
  /-- `handleMsg`, when the socket of this session is ready -/
  | handleMsg (k : κ)

def Step.InTime {κ ι : Type} : Step κ ι → Prop
  | .session _ a => a.InTime
  | .handleMsg _ => True

instance {κ ι : Type} : DecidablePred (Step.InTime (κ := κ) (ι := ι)) := fun a =>
  match a with
  | .session _ a => inferInstanceAs (Decidable a.InTime)
  | .handleMsg _ => .isTrue trivial

variable {κ ι σ : Type} {m_funcs : Funcs σ} (calls : κ → ι → RemoteCall m_funcs)

def replay (world : σ) (history : List (κ × ι)) : σ :=
  history.foldl (fun world c => (calls c.1 c.2).after world) world

def request (k : κ) (i : ι) : Message := (calls k i).message

/-- The call `(k, i)` has its place in the history, and returns what it returns there. -/
def Answers (world : σ) (history : List (κ × ι)) (k : κ) (i : ι) (m : Message) : Prop :=
  ∃ before after result, history = before ++ (k, i) :: after ∧
    (calls k i).result (replay calls world before) = some result ∧ (calls k i).Returns m result

/-- What the calls amount to: each that the server has executed has one place in the history, and
whoever has obtained a response has the result of its own call, at that place. -/
structure Linear (world : σ) (s : Network κ ι σ) (history : List (κ × ι)) : Prop where
  once : history.Nodup
  sent : ∀ k i, (k, i) ∈ history → ((s.sessions k).callers i).Sent
  replayed : s.server.world = replay calls world history
  obtained : ∀ k i m, ((s.sessions k).callers i).obtained = some m →
    Answers calls world history k i m

variable {calls}

theorem request_seq (k : κ) (i : ι) : (request calls k i).seq = (calls k i).seq :=
  (calls k i).seq_eq

theorem replay_snoc (world : σ) (history : List (κ × ι)) (k : κ) (i : ι) :
    replay calls world (history ++ [(k, i)]) = (calls k i).after (replay calls world history) := by
  rw [replay, List.foldl_append]
  rfl

theorem Answers.later {world : σ} {history : List (κ × ι)} {k : κ} {i : ι} {m : Message}
    (answers : Answers calls world history k i m) (rest : List (κ × ι)) :
    Answers calls world (history ++ rest) k i m := by
  obtain ⟨before, after, result, rfl, returned, returns⟩ := answers
  refine ⟨before, after ++ rest, result, ?_, returned, returns⟩
  rw [List.append_assoc, List.cons_append]

section Sessions
variable [DecidableEq κ]

def setSession (s : Network κ ι σ) (k : κ) (e : Exchange ι) : Network κ ι σ :=
  { s with sessions := Function.update s.sessions k e }

/-- `handleMsg`, with the next message of the session. A response is sent to its socket, and what
the other end decodes is on its way. -/
def handleMsg (m_funcs : Funcs σ) (s : Network κ ι σ) (k : κ) : Option (Network κ ι σ) :=
  match s.running, (s.sessions k).requests with
  | true, message :: rest =>
    match message.received with
    | none => some { setSession s k ((s.sessions k).served rest []) with running := false }
    | some receive_message =>
      if receive_message.type = Message.RPC_REQUEST then
        let left := (Serving.handleCLientRequest m_funcs receive_message).run s.server
        let replies := (left.2.sent.drop s.server.sent.length).filterMap Message.received
        some { setSession s k ((s.sessions k).served rest replies) with
          server := left.2
          running := left.1.isSome }
      else some (setSession s k ((s.sessions k).served rest []))
  | _, _ => none

def turns (calls : κ → ι → RemoteCall m_funcs) (k : κ) (history : List (κ × ι)) : List Message :=
  (history.filter fun c => c.1 = k).map fun c => request calls c.1 c.2

theorem turns_own (k : κ) (history : List (κ × ι)) (more : List ι) :
    turns calls k (history ++ more.map fun i => (k, i)) =
      turns calls k history ++ more.map (request calls k) := by
  have all : (more.map fun i => (k, i)).filter (fun c => c.1 = k) = more.map fun i => (k, i) := by
    rw [List.filter_eq_self]
    intro c mem
    obtain ⟨i, -, rfl⟩ := List.mem_map.mp mem
    exact decide_eq_true rfl
  rw [turns, List.filter_append, all, List.map_append, List.map_map, turns]
  rfl

theorem turns_other {k k' : κ} (ne : k' ≠ k) (history : List (κ × ι)) (more : List ι) :
    turns calls k' (history ++ more.map fun i => (k, i)) = turns calls k' history := by
  have none : (more.map fun i => (k, i)).filter (fun c => c.1 = k') = [] := by
    rw [List.filter_eq_nil_iff]
    intro c mem
    obtain ⟨i, -, rfl⟩ := List.mem_map.mp mem
    simp [ne.symm]
  rw [turns, List.filter_append, none, List.append_nil, turns]

theorem mem_turns {k : κ} {i : ι} {history : List (κ × ι)} (mem : (k, i) ∈ history) :
    request calls k i ∈ turns calls k history := by
  apply List.mem_map.mpr
  exact ⟨(k, i), List.mem_filter.mpr ⟨mem, decide_eq_true rfl⟩, rfl⟩

variable (calls) in
structure Faithful (world : σ) (s : Network κ ι σ) (history : List (κ × ι)) : Prop where
  sound : ∀ k, Sound (request calls k) (s.sessions k)
  genuine : ∀ k, ∀ m ∈ pending (s.sessions k), ∃ i, m = request calls k i
  recorded : ∀ k, Routed (request calls k) (s.sessions k).callers (pending (s.sessions k))
    (turns calls k history)
  once : history.Nodup
  replayed : s.server.world = replay calls world history
  answers : ∀ k, ∀ m ∈ (s.sessions k).answers, ∃ i, m.seq = (calls k i).seq ∧
    Answers calls world history k i m

theorem faithful_initial (world : σ) :
    Faithful calls world { server := { world } } [] where
  sound _ := sound_initial
  genuine := nofun
  recorded _ := ⟨List.nodup_nil, nofun⟩
  once := List.nodup_nil
  replayed := rfl
  answers := nofun

/-- Every session is as it should be if the one that has moved is, and the history has grown by its
calls only. -/
theorem Faithful.update {world : σ} {s s' : Network κ ι σ} {history history' : List (κ × ι)} {k : κ}
    {e : Exchange ι} (more : List ι) (faithful : Faithful calls world s history)
    (sessions : s'.sessions = Function.update s.sessions k e)
    (grown : history' = history ++ more.map fun i => (k, i))
    (sound : Sound (request calls k) e) (genuine : ∀ m ∈ pending e, ∃ i, m = request calls k i)
    (recorded : Routed (request calls k) e.callers (pending e)
      (turns calls k history ++ more.map (request calls k)))
    (once : history'.Nodup) (replayed : s'.server.world = replay calls world history')
    (answers : ∀ m ∈ e.answers, m ∈ (s.sessions k).answers ∨ ∃ i, m.seq = (calls k i).seq ∧
      Answers calls world history' k i m) :
    Faithful calls world s' history' := by
  have others : ∀ k', k' ≠ k → s'.sessions k' = s.sessions k' := by
    intro k' ne
    rw [sessions, Function.update_of_ne ne]
  have own : s'.sessions k = e := by rw [sessions, Function.update_self]
  have old : ∀ k', ∀ m ∈ (s.sessions k').answers, ∃ i, m.seq = (calls k' i).seq ∧
      Answers calls world history' k' i m := by
    intro k' m mem
    obtain ⟨i, seq, place⟩ := faithful.answers k' m mem
    exact ⟨i, seq, grown ▸ place.later _⟩
  constructor
  · intro k'
    by_cases eq : k' = k
    · rw [eq, own]
      exact sound
    · rw [others k' eq]
      exact faithful.sound k'
  · intro k'
    by_cases eq : k' = k
    · rw [eq, own]
      exact genuine
    · rw [others k' eq]
      exact faithful.genuine k'
  · intro k'
    by_cases eq : k' = k
    · rw [eq, own, grown, turns_own]
      exact recorded
    · rw [others k' eq, grown, turns_other eq]
      exact faithful.recorded k'
  · exact once
  · exact replayed
  · intro k'
    by_cases eq : k' = k
    · subst eq
      rw [own]
      exact fun m mem => (answers m mem).elim (old k' m) id
    · rw [others k' eq]
      exact old k'

/-- A request that is still pending has no place in the history yet. -/
theorem Faithful.fresh {world : σ} {s : Network κ ι σ} {history : List (κ × ι)} {k : κ} {i : ι}
    (faithful : Faithful calls world s history)
    (mem : request calls k i ∈ pending (s.sessions k)) : (k, i) ∉ history := by
  intro old
  have nodup := (faithful.recorded k).nodup
  rw [List.map_append] at nodup
  exact (List.nodup_append.mp nodup).2.2 _ (List.mem_map_of_mem (mem_turns old)) _
    (List.mem_map_of_mem mem) rfl

theorem Faithful.linear {world : σ} {s : Network κ ι σ} {history : List (κ × ι)}
    (distinct : ∀ k, Function.Injective fun i => (request calls k i).seq)
    (faithful : Faithful calls world s history) : Linear calls world s history where
  once := faithful.once
  sent := by
    intro k i mem
    obtain ⟨j, seq, sent⟩ := (faithful.recorded k).source _
      (List.mem_append_left _ (mem_turns mem))
    rwa [distinct k seq] at sent
  replayed := faithful.replayed
  obtained := by
    intro k i m h
    obtain ⟨seq, answered⟩ := (faithful.sound k).truthful i m h
    obtain ⟨j, same, place⟩ := faithful.answers k m answered
    rw [← request_seq] at same
    rwa [distinct k (same.symm.trans seq)] at place

variable [DecidableEq ι]

theorem faithful_session {world : σ} {s : Network κ ι σ} {history : List (κ × ι)} {k : κ}
    {a : Act ι} {e : Exchange ι} (distinct : Function.Injective fun i => (request calls k i).seq)
    (faithful : Faithful calls world s history) (own : Own a)
    (move : Move (request calls k) (s.sessions k) a e) :
    Faithful calls world (setSession s k e) history := by
  apply faithful.update [] rfl (List.append_nil _).symm
  · exact sound_step distinct (faithful.sound k) move
  · intro m mem
    exact (own_pending own move m mem).elim (faithful.genuine k m) id
  · have relabelled := move.relabel own (turns calls k history)
    rw [List.map_nil, List.append_nil]
    exact routed_step distinct (s := { s.sessions k with answers := turns calls k history })
      (faithful.recorded k) relabelled
  · exact faithful.once
  · exact faithful.replayed
  · intro m mem
    rw [own_answers own move] at mem
    exact .inl mem

/-- The first request has been handled; a call that has been answered has the result of the history
before it. -/
theorem Faithful.handled {world : σ} {s s' : Network κ ι σ} {history : List (κ × ι)} {k : κ}
    {i : ι} {rest replies : List Message}
    (distinct : Function.Injective fun i => (request calls k i).seq)
    (faithful : Faithful calls world s history)
    (next : (s.sessions k).requests = request calls k i :: rest)
    (sessions : s'.sessions = Function.update s.sessions k ((s.sessions k).served rest replies))
    (after : s'.server.world = (calls k i).after s.server.world)
    (outcome : replies = [] ∨ ∃ m result, replies = [m] ∧ m.seq = (calls k i).seq ∧
      (calls k i).result s.server.world = some result ∧ (calls k i).Returns m result) :
    Faithful calls world s' (history ++ [(k, i)]) := by
  have here : request calls k i ∈ pending (s.sessions k) := by
    simp [pending, next]
  have smaller : pending (s.sessions k) = request calls k i ::
      pending ((s.sessions k).served rest replies) := by
    simp only [pending, next, served, List.cons_append]
  apply faithful.update [i] sessions rfl
  · rcases outcome with rfl | ⟨m, result, rfl, seq, -⟩
    · exact sound_dropped (faithful.sound k) next
    · exact sound_served distinct (faithful.sound k) next (seq.trans (request_seq k i).symm)
  · intro m mem
    apply faithful.genuine k m
    rw [smaller]
    exact List.mem_cons_of_mem _ mem
  · have recorded := faithful.recorded k
    have first : (s.sessions k).requests[0]? = some (request calls k i) := by
      rw [next]
      rfl
    have moved := Routed.answer (m := request calls k i) recorded first rfl
    rw [next] at moved
    exact moved
  · apply List.nodup_append.mpr
    refine ⟨faithful.once, List.nodup_singleton _, ?_⟩
    rintro c old _ mem rfl
    rw [List.mem_singleton.mp mem] at old
    exact faithful.fresh here old
  · rw [after, faithful.replayed]
    exact (replay_snoc world history k i).symm
  · intro m mem
    change m ∈ (s.sessions k).answers ++ replies at mem
    rcases List.mem_append.mp mem with old | new
    · exact .inl old
    · rcases outcome with rfl | ⟨m', result, rfl, seq, returned, returns⟩
      · cases new
      · cases List.mem_singleton.mp new
        refine .inr ⟨i, seq, history, [], result, rfl, ?_, returns⟩
        rw [← faithful.replayed]
        exact returned

theorem faithful_handleMsg {world : σ} {s s' : Network κ ι σ} {history : List (κ × ι)} {k : κ}
    (distinct : Function.Injective fun i => (request calls k i).seq)
    (faithful : Faithful calls world s history) (next : handleMsg m_funcs s k = some s') :
    ∃ i, Faithful calls world s' (history ++ [(k, i)]) := by
  unfold handleMsg at next
  split at next
  · rename_i message rest _ requests
    have here : message ∈ pending (s.sessions k) := by simp [pending, requests]
    obtain ⟨i, rfl⟩ := faithful.genuine k message here
    obtain ⟨d, received, type, -⟩ := (calls k i).arrives
    obtain ⟨o, server, sent, run, after, appended, outcome⟩ :=
      (calls k i).handled received s.server
    have found : (request calls k i).received = some d := received
    have new : (s.server.sent ++ sent).drop s.server.sent.length = sent := List.drop_left
    simp only [found, type, if_true, run, appended, new] at next
    cases next
    refine ⟨i, faithful.handled distinct requests rfl after ?_⟩
    rcases outcome with ⟨-, rfl⟩ | ⟨-, result, reply, m, rfl, returned, arrives, -, seq, returns⟩
    · exact .inl rfl
    · refine .inr ⟨m, result, ?_, seq, returned, returns⟩
      simp [arrives]
  · cases next

def InTime (_ : Network κ ι σ) (a : Step κ ι) : Prop := a.InTime

instance (s : Network κ ι σ) : DecidablePred (InTime s) :=
  inferInstanceAs (DecidablePred Step.InTime)

def step (m_funcs : Funcs σ) (request : κ → ι → Message) (s : Network κ ι σ) :
    Step κ ι → Option (Network κ ι σ)
  | .session k a =>
    if Own a then (Exchange.step (request k) (s.sessions k) a).map (setSession s k) else none
  | .handleMsg k => handleMsg m_funcs s k

theorem faithful_step {world : σ} {s s' : Network κ ι σ} {history : List (κ × ι)} {a : Step κ ι}
    (distinct : ∀ k, Function.Injective fun i => (request calls k i).seq)
    (faithful : Faithful calls world s history) (inTime : a.InTime)
    (next : step m_funcs (request calls) s a = some s') :
    ∃ more, Faithful calls world s' (history ++ more) := by
  cases a with
  | session k a =>
    obtain ⟨own, moved⟩ := Option.ite_none_right_eq_some.mp next
    obtain ⟨e, move, rfl⟩ := Option.map_eq_some_iff.mp moved
    refine ⟨[], ?_⟩
    rw [List.append_nil]
    exact faithful_session (distinct k) faithful own (move_of_step inTime move)
  | handleMsg k =>
    obtain ⟨i, faithful'⟩ := faithful_handleMsg (distinct k) faithful next
    exact ⟨[(k, i)], faithful'⟩

theorem faithful_run {world : σ} {s s' : Network κ ι σ} {history : List (κ × ι)}
    {as : List (Step κ ι)} (distinct : ∀ k, Function.Injective fun i => (request calls k i).seq)
    (faithful : Faithful calls world s history)
    (run : Run (step m_funcs (request calls)) InTime s as s') :
    ∃ more, Faithful calls world s' (history ++ more) := by
  apply run.invariant (P := fun s => ∃ more, Faithful calls world s (history ++ more))
  · exact ⟨[], by rw [List.append_nil]; exact faithful⟩
  · rintro t a u ⟨more, faithful⟩ inTime next
    obtain ⟨more', faithful'⟩ := faithful_step distinct faithful inTime next
    exact ⟨more ++ more', by rw [← List.append_assoc]; exact faithful'⟩

/-- Remote calls are calls. Whatever clients, sessions and server do in whatever order, no timer
calling back after its call has returned, the calls executed so far happen one after another, each
once, and every caller with a response has its own call's result at its place among them; later
calls come behind the earlier ones. -/
theorem remote_calls_linear {world : σ} {s t : Network κ ι σ} {as bs : List (Step κ ι)}
    (distinct : ∀ k, Function.Injective fun i => (request calls k i).seq)
    (first : Run (step m_funcs (request calls)) InTime { server := { world } } as s)
    (second : Run (step m_funcs (request calls)) InTime s bs t) :
    ∃ history more, Linear calls world s history ∧ Linear calls world t (history ++ more) := by
  obtain ⟨history, faithful⟩ := faithful_run distinct (faithful_initial world) first
  obtain ⟨more, faithful'⟩ := faithful_run distinct faithful second
  rw [List.nil_append] at faithful faithful'
  exact ⟨history, more, faithful.linear distinct, faithful'.linear distinct⟩

end Sessions

/-- `int next()`, which counts its calls. -/
def counts : Funcs Int32 :=
  registerFunc ⟨[110], by decide⟩
    (.of [] (.scalar .int32) fun _ world => (some (world + 1), world + 1)) fun _ => none

/-- The message of `next()`. -/
def nextMessage : Message :=
  (Message.encoded Message.RPC_REQUEST 7 (CRpc.call [] ⟨[110], by decide⟩ ())).getD
    (.new 0 0 0 0 0)

def nextCall (_ : Bool) (_ : Unit) : RemoteCall counts where
  ts := []
  ret := .scalar .int32
  f_name := ⟨[110], by decide⟩
  args := ()
  func _ world := (some (world + 1), world + 1)
  seq := 7
  message := nextMessage
  registered := rfl
  plain := trivial
  encoded := rfl

/-- The call of one client, up to the request's way to the server, and from the response's way back
to the caller. -/
def asks (k : Bool) : List (Step Bool Unit) :=
  [.session k (.caller () .begin), .session k (.caller () .lock),
    .session k (.caller () .register), .session k (.caller () .send), .session k (.sender .take),
    .session k .read, .session k (.sender .write)]

def obtains (k : Bool) : List (Step Bool Unit) :=
  [.session k (.receiver .receive), .session k (.receiver .lock), .session k (.receiver .find),
    .session k (.receiver .push), .session k (.receiver .unlock), .session k (.caller () .pop)]

/-- Two clients call; the second to ask is served first, and has its response before the server
turns to the other. -/
theorem next_calls_linear :
    ∃ s t history more,
      exec (step counts (request nextCall)) { server := { world := 0 } }
        (asks true ++ asks false ++ [.handleMsg false] ++ obtains false) = some s ∧
      exec (step counts (request nextCall)) s ([.handleMsg true] ++ obtains true) = some t ∧
      t.server.world = 2 ∧ Linear nextCall 0 s history ∧ Linear nextCall 0 t (history ++ more) := by
  have ends : (exec (guarded (step counts (request nextCall)) InTime) { server := { world := 0 } }
      (asks true ++ asks false ++ [.handleMsg false] ++ obtains false)).any (fun s =>
        (exec (guarded (step counts (request nextCall)) InTime) s
          ([.handleMsg true] ++ obtains true)).any fun t => t.server.world = 2) = true := by
    decide +kernel
  obtain ⟨s, first, rest⟩ := (Option.any_eq_true _ _).mp ends
  obtain ⟨t, second, two⟩ := (Option.any_eq_true _ _).mp rest
  have distinct (k : Bool) : Function.Injective fun i => (request nextCall k i).seq :=
    fun _ _ _ => rfl
  have before := Run.of_guarded first
  have after := Run.of_guarded second
  obtain ⟨history, more, linear, linear'⟩ := remote_calls_linear distinct before after
  exact ⟨s, t, history, more, before.ends, after.ends, of_decide_eq_true two, linear, linear'⟩

end Remote

end CRpc
