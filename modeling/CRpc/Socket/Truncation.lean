import CRpc.Socket.Socket
import CRpc.Util.Laws

/-! `receive(Message&)` on a stream that ends: where the cuts are that it reports. -/
namespace CRpc
open Streams Util Endian

namespace Socket
variable {room : Room} {size : ℕ} {c : Bool} {rest : List UInt8}

theorem receiveLoop_full {incoming got : List UInt8} {arrivals : List Arrival}
    (full : size ≤ got.length) : receiveLoop size c incoming got arrivals =
      .ok (some got, ⟨⟨incoming, arrivals⟩, c⟩) := by
  cases arrivals with
  | nil => exact if_pos full
  | cons a arrivals => exact if_pos full

/-- While the stream is open the loop takes what a reader of the whole message is handed. -/
theorem receiveLoop_live {want : List UInt8 → ℕ} {pre : List UInt8} (last : List Arrival)
    (wants : ∀ cur : List UInt8, cur.length < size → want (pre ++ cur) = size - cur.length)
    {live : List Arrival} : ∀ (incoming cur : List UInt8), (∀ a ∈ live, a.Live) →
    cur.length ≤ size →
    (∃ more rest live', incoming = more ++ rest ∧ (cur ++ more).length = size ∧
      (∀ a ∈ live', a.Live) ∧
      handed want (pre ++ cur) incoming live = handed want (pre ++ (cur ++ more)) rest live' ∧
      receiveLoop size c incoming cur (live ++ last) =
        .ok (some (cur ++ more), ⟨⟨rest, live' ++ last⟩, c⟩)) ∨
    (∃ more rest, incoming = more ++ rest ∧ (cur ++ more).length < size ∧
      handed want (pre ++ cur) incoming live = pre ++ (cur ++ more) ∧
      receiveLoop size c incoming cur (live ++ last) =
        receiveLoop size c rest (cur ++ more) last) := by
  induction live with
  | nil =>
    intro incoming cur quiet le
    by_cases full : size ≤ cur.length
    · refine .inl ⟨[], incoming, [], rfl, ?_⟩
      rw [List.append_nil]
      exact ⟨le_antisymm le full, quiet, rfl, receiveLoop_full full⟩
    · refine .inr ⟨[], incoming, rfl, ?_⟩
      rw [List.append_nil]
      exact ⟨Nat.lt_of_not_le full, rfl, rfl⟩
  | cons a live ih =>
    intro incoming cur quiet le
    by_cases full : size ≤ cur.length
    · refine .inl ⟨[], incoming, a :: live, rfl, ?_⟩
      rw [List.append_nil]
      exact ⟨le_antisymm le full, quiet, rfl, receiveLoop_full full⟩
    · have short : cur.length < size := Nat.lt_of_not_le full
      have later : ∀ a ∈ live, a.Live := fun a mem => quiet a (List.mem_cons_of_mem _ mem)
      have open_ : a.Live := quiet a List.mem_cons_self
      rw [List.cons_append, handed, wants cur short, receiveLoop, if_neg full]
      cases incoming with
      | nil =>
        rw [outcome_empty open_]
        exact ih _ _ later le
      | cons b incoming =>
        rcases outcome_open open_ (Nat.sub_pos_of_lt short) (List.cons_ne_nil b incoming) with
          ⟨-, again⟩ | ⟨d, ds, rest', piece, split, few⟩
        · rw [again]
          exact ih _ _ later le
        · have tail : (d :: ds ++ rest').drop (d :: ds).length = rest' := List.drop_left
          rw [piece, split]
          simp only [tail]
          have le' : (cur ++ d :: ds).length ≤ size := by
            rw [List.length_append, List.length_cons]
            omega
          rw [List.append_assoc pre]
          rcases ih rest' _ later le' with
            ⟨more, rest, live', parts, length, quiet', same, run⟩ | ⟨more, rest, parts, rem⟩
          · refine .inl ⟨d :: ds ++ more, rest, live', ?_, ?_, quiet', ?_, ?_⟩
            · rw [parts, List.append_assoc]
            · rwa [List.append_assoc] at length
            · rwa [List.append_assoc cur] at same
            · rwa [List.append_assoc cur] at run
          · rw [List.append_assoc cur] at rem
            refine .inr ⟨d :: ds ++ more, rest, ?_, rem⟩
            rw [parts, List.append_assoc]

/-- A call that meets the end gives what was got before, or nothing at all. -/
theorem receiveLoop_ends (size : ℕ) (cur : List UInt8) {last : List Arrival}
    (ends : ∀ a ∈ last, a.Ends rest) (some : last ≠ []) :
    ∃ x last' c', receiveLoop size c rest cur last = .ok (x, ⟨⟨rest, last'⟩, c'⟩) ∧
      (x.getD [] = [] ∨ x.getD [] = cur) ∧ last.length ≤ last'.length + 1 ∧
      ∀ a ∈ last', a.Ends rest := by
  by_cases full : size ≤ cur.length
  · exact ⟨_, _, _, receiveLoop_full full, .inr rfl, Nat.le_succ _, ends⟩
  · cases last with
    | nil => exact absurd rfl some
    | cons a last =>
      have later : ∀ a ∈ last, a.Ends rest := fun a mem => ends a (List.mem_cons_of_mem _ mem)
      have ended : a.Ends rest := ends a List.mem_cons_self
      rw [receiveLoop, if_neg full]
      cases a with
      | again | ready => exact ended.elim
      | failed => exact ⟨_, _, _, rfl, .inl rfl, le_rfl, later⟩
      | closed =>
        cases ended
        rw [Arrival.outcome, List.take_nil]
        exact ⟨_, _, _, rfl, .inr rfl, le_rfl, later⟩

def receiveFields (room : Room) : List ℕ → Serializer → Net Serializer
  | [], s => return s
  | f :: fields, s => do
    let s ← receiveSerializer room f s
    receiveFields room fields s

theorem receiveMessage_eq (s : Serializer) :
    receiveMessage room s =
      receiveFields room [1, 1, 1, 1, 8, 8] s >>= receiveContent room := by
  simp only [receiveMessage, receiveFields, bind_assoc, pure_bind]

theorem receiveSerializer_ok {s : Serializer} {incoming : List UInt8} {arrivals : List Arrival}
    {x : Option (List UInt8)} {k : Socket} (fits : size ≤ room.bytes)
    (run : receiveLoop size c incoming [] arrivals = .ok (x, k)) :
    receiveSerializer room size s ⟨⟨incoming, arrivals⟩, c⟩ = .ok (s.append (x.getD []), k) := by
  rw [receiveSerializer, receiveString_fits fits]
  change (receiveLoop size c incoming [] arrivals >>= fun r => _) = _
  rw [run]
  rfl

theorem receiveFields_cons {f : ℕ} {fields : List ℕ} {s s' : Serializer} {k k' : Socket}
    (run : receiveSerializer room f s k = .ok (s', k')) :
    receiveFields room (f :: fields) s k = receiveFields room fields s' k' := by
  change (receiveSerializer room f s k >>= fun r => receiveFields room fields r.1 r.2) = _
  rw [run]
  rfl

theorem receiveFields_ends {fields : List ℕ} (s : Serializer) (fits : ∀ f ∈ fields, f ≤ 8) :
    ∀ {c : Bool} {last : List Arrival}, (∀ a ∈ last, a.Ends rest) → fields.length ≤ last.length →
      ∃ k', receiveFields room fields s ⟨⟨rest, last⟩, c⟩ = .ok (s, k') := by
  induction fields with
  | nil => exact fun _ _ => ⟨_, rfl⟩
  | cons f fields ih =>
    intro c last ends enough
    obtain ⟨small, others⟩ := List.forall_mem_cons.mp fits
    have some : last ≠ [] := by
      rintro rfl
      cases enough
    obtain ⟨x, last', c', run, nothing, less, ends'⟩ :=
      receiveLoop_ends (c := c) f [] ends some
    have nothing : x.getD [] = [] := nothing.elim id id
    rw [receiveFields_cons (receiveSerializer_ok (small.trans room.fields_le) run), nothing,
      Buffer.append_nil]
    apply ih others ends'
    rw [List.length_cons] at enough
    omega

/-- How many more bytes of fields of these sizes a reader of `n` bytes asks for next. -/
def demand : List ℕ → ℕ → ℕ
  | [], _ => 0
  | f :: fields, n => if n < f then f - n else demand fields (n - f)

/-- The fields are read whole, or the calls hand over less and the reads stop at the end. -/
theorem receiveFields_live (room : Room) {want : List UInt8 → ℕ} (last : List Arrival) {fields : List ℕ}
    (sizes : ∀ f ∈ fields, 0 < f ∧ f ≤ 8) : ∀ {pre : List UInt8} (incoming : List UInt8)
    {live : List Arrival} {s : Serializer},
    (∀ x : List UInt8, x.length < fields.sum → want (pre ++ x) = demand fields x.length) →
    (∀ a ∈ live, a.Live) →
    (∃ bs rest live', incoming = bs ++ rest ∧ bs.length = fields.sum ∧ (∀ a ∈ live', a.Live) ∧
      handed want pre incoming live = handed want (pre ++ bs) rest live' ∧
      receiveFields room fields s ⟨⟨incoming, live ++ last⟩, c⟩ =
        .ok (s.append bs, ⟨⟨rest, live' ++ last⟩, c⟩)) ∨
    (∃ bs rest, incoming = bs ++ rest ∧ bs.length < fields.sum ∧
      handed want pre incoming live = pre ++ bs ∧
      ((∀ a ∈ last, a.Ends rest) → fields.length ≤ last.length → ∃ part k',
        receiveFields room fields s ⟨⟨incoming, live ++ last⟩, c⟩ = .ok (s.append part, k') ∧
        part.length ≤ bs.length ∧ (part = [] → bs.length < fields.headD 0))) := by
  induction fields with
  | nil =>
    intro pre incoming live s _ quiet
    refine .inl ⟨[], incoming, live, rfl, rfl, quiet, by rw [List.append_nil], ?_⟩
    rw [Buffer.append_nil]
    rfl
  | cons f fields ih =>
    intro pre incoming live s wants quiet
    rw [List.sum_cons] at wants ⊢
    obtain ⟨⟨positive, small⟩, sizes'⟩ := List.forall_mem_cons.mp sizes
    have fits : f ≤ room.bytes := small.trans room.fields_le
    have first : ∀ cur : List UInt8, cur.length < f → want (pre ++ cur) = f - cur.length := by
      intro cur lt
      rw [wants cur (by omega), demand, if_pos lt]
    rcases receiveLoop_live (c := c) last first incoming [] quiet
        (Nat.zero_le f) with
      ⟨bs, rest, live', parts, length, quiet', same, run⟩ | ⟨bs, rest, parts, lt, same, run⟩
    · rw [List.append_nil, List.nil_append] at same
      rw [List.nil_append] at length run
      rw [receiveFields_cons (receiveSerializer_ok fits run), same]
      have others : ∀ x : List UInt8, x.length < fields.sum →
          want (pre ++ bs ++ x) = demand fields x.length := by
        intro x lt
        have beyond : ¬ (bs ++ x).length < f := by
          rw [List.length_append]
          omega
        rw [List.append_assoc, wants _ (by rw [List.length_append]; omega), demand,
          if_neg beyond, List.length_append, length, Nat.add_sub_cancel_left]
      rcases ih sizes' rest (s := s.append bs) others quiet' with
        ⟨bs', rest', live'', parts', length', quiet'', same', run'⟩ |
        ⟨bs', rest', parts', lt', same', run'⟩
      · refine .inl ⟨bs ++ bs', rest', live'', ?_, ?_, quiet'', ?_, ?_⟩
        · rw [parts, parts', List.append_assoc]
        · rw [List.length_append, length, length']
        · rw [same', List.append_assoc]
        · rw [Buffer.append_append] at run'
          exact run'
      · refine .inr ⟨bs ++ bs', rest', ?_, ?_, ?_, ?_⟩
        · rw [parts, parts', List.append_assoc]
        · rw [List.length_append]
          omega
        · rw [same', List.append_assoc]
        · intro ends enough
          obtain ⟨part, k', done, le, -⟩ := run' ends (Nat.le_of_succ_le enough)
          rw [Buffer.append_append] at done
          refine ⟨bs ++ part, k', done, ?_, ?_⟩
          · rw [List.length_append, List.length_append]
            omega
          · intro none
            rw [(List.append_eq_nil_iff.mp none).1] at length
            exact absurd length (Nat.ne_of_lt positive)
    · rw [List.append_nil, List.nil_append] at same
      rw [List.nil_append] at lt run
      refine .inr ⟨bs, rest, parts, by omega, same, ?_⟩
      intro ends enough
      have some : last ≠ [] := by
        rintro rfl
        cases enough
      obtain ⟨x, last', c', stop, got, less, ends'⟩ :=
        receiveLoop_ends (c := c) f bs ends some
      rw [receiveFields_cons (receiveSerializer_ok fits (run.trans stop))]
      rw [List.length_cons] at enough
      obtain ⟨k', done⟩ := receiveFields_ends (c := c') (s.append (x.getD []))
        (fun f mem => (sizes' f mem).2) ends' (by omega)
      refine ⟨x.getD [], k', done, ?_, fun _ => lt⟩
      rcases got with none | all
      · rw [none]
        exact Nat.zero_le _
      · rw [all]

/-- The length field of a message that begins with these bytes, as it is read back. -/
def announced (bs : List UInt8) : ℕ := (ntohll (.ofNat (ofLittle ((bs.drop 12).take 8)))).toNat

theorem announced_append {bs : List UInt8} (header : 20 ≤ bs.length) (more : List UInt8) :
    announced (bs ++ more) = announced bs := by
  rw [announced, List.drop_append_of_le_length (by omega),
    List.take_append_of_le_length (by rw [List.length_drop]; omega), announced]

theorem reads_words {xs ys zs : List UInt8} (four : xs.length = 4) (eight : ys.length = 8)
    (eight' : zs.length = 8) :
    Buffer.Reads contentLenth (xs ++ (ys ++ zs)) (ntohll (.ofNat (ofLittle zs))) := by
  apply Buffer.Reads.bind
  · exact Buffer.reads_word (f := fun value => ntohl (.ofNat (ofLittle value))) four rfl
  · apply Buffer.Reads.bind
    · exact Buffer.reads_word (f := fun value => ntohll (.ofNat (ofLittle value))) eight rfl
    · exact Buffer.reads_word (f := fun value => ntohll (.ofNat (ofLittle value))) eight' rfl

theorem contentLenth_whole {bs : List UInt8} (header : bs.length = 20) :
    (contentLenth ⟨bs, 0, Nat.zero_le _⟩).map (fun r => (r.1.toNat, r.2.m_data)) =
      some (announced bs, bs) := by
  have words : bs = bs.take 4 ++ ((bs.drop 4).take 8 ++ (bs.drop 12).take 8) := by
    have last : (bs.drop 12).take 8 = (bs.drop 4).drop 8 := by
      rw [List.drop_drop, List.take_of_length_le (by rw [List.length_drop]; omega)]
    rw [last, List.take_append_drop, List.take_append_drop]
  have four : (bs.take 4).length = 4 := by
    rw [List.length_take]
    omega
  have eight : ((bs.drop 4).take 8).length = 8 := by
    rw [List.length_take, List.length_drop]
    omega
  have eight' : ((bs.drop 12).take 8).length = 8 := by
    rw [List.length_take, List.length_drop]
    omega
  have read := reads_words four eight eight'
  rw [← words] at read
  rw [read ⟨bs, 0, Nat.zero_le _⟩ [] (by rw [List.append_nil]; rfl)]
  rfl

theorem contentLenth_short {bs : List UInt8} (short : bs.length < 20) :
    contentLenth ⟨bs, 0, Nat.zero_le _⟩ = none := by
  have moves : ∀ v, Moves contentLenth (4 + (8 + 8)) v := by
    intro v
    apply Moves.bind (moves_scalar .uint32)
    intro _
    apply Moves.bind (moves_scalar .uint64)
    intro _
    exact moves_scalar .uint64 v
  cases read : contentLenth ⟨bs, 0, Nat.zero_le _⟩ with
  | none => rfl
  | some r =>
    obtain ⟨data, ge⟩ := moves r.1 _ r.2 read
    have le := r.2.position_le
    rw [data] at le
    change 0 + 20 ≤ r.2.m_position at ge
    change r.2.m_position ≤ bs.length at le
    omega

section Content
variable {s : Serializer}

theorem receiveContent_empty (none : s.m_data = []) (k : Socket) :
    receiveContent room s k = .ok (⟨s.m_data, 0, Nat.zero_le _⟩, k) := by
  have size : Serializer.size ⟨s.m_data, 0, Nat.zero_le _⟩ = 0 := congrArg List.length none
  rw [receiveContent, serially, reset_eq]
  simp only [pure_bind, if_pos size]
  rfl

theorem receiveContent_short (some : s.m_data ≠ []) (short : s.m_data.length < 20) (k : Socket) :
    receiveContent room s k = .error .thrown := by
  have size : Serializer.size ⟨s.m_data, 0, Nat.zero_le _⟩ ≠ 0 := fun none =>
    some (List.eq_nil_of_length_eq_zero none)
  rw [receiveContent, serially, reset_eq]
  simp only [pure_bind, if_neg size]
  rw [serially, contentLenth_short short]
  rfl

/-- With its header in `s`, a message is received up to its last byte. -/
theorem receiveContent_eq (room : Room) (header : s.m_data.length = 20) : ∃ b : Serializer,
    b.m_data = s.m_data ∧ receiveContent room s = do
      let s ← receiveSerializer room (announced s.m_data) b
      return ⟨s.m_data, 0, Nat.zero_le _⟩ := by
  have size : Serializer.size ⟨s.m_data, 0, Nat.zero_le _⟩ ≠ 0 := by
    change s.m_data.length ≠ 0
    omega
  obtain ⟨⟨len, b⟩, read, same⟩ := Option.map_eq_some_iff.mp (contentLenth_whole header)
  obtain ⟨length, data⟩ := Prod.mk.inj same
  refine ⟨b, data, ?_⟩
  rw [receiveContent, serially, reset_eq]
  simp only [pure_bind, if_neg size]
  rw [serially, read]
  simp only [pure_bind, length, serially, reset_eq]

theorem receiveContent_whole (header : s.m_data.length = 20)
    (fits : announced s.m_data ≤ room.bytes) {c : Bool} {incoming : List UInt8}
    {arrivals : List Arrival} {x : Option (List UInt8)} {k : Socket}
    (run : receiveLoop (announced s.m_data) c incoming [] arrivals = .ok (x, k)) :
    receiveContent room s ⟨⟨incoming, arrivals⟩, c⟩ =
      .ok (⟨s.m_data ++ x.getD [], 0, Nat.zero_le _⟩, k) := by
  obtain ⟨b, data, eq⟩ := receiveContent_eq room header
  rw [eq]
  change (receiveSerializer room (announced s.m_data) b ⟨⟨incoming, arrivals⟩, c⟩ >>=
    fun r => _) = _
  rw [receiveSerializer_ok fits run, ← data]
  rfl

theorem receiveContent_overruns (header : s.m_data.length = 20)
    (long : room.bytes < announced s.m_data) (k : Socket) :
    receiveContent room s k = .error .undefined := by
  obtain ⟨b, -, eq⟩ := receiveContent_eq room header
  rw [eq]
  change (receiveSerializer room (announced s.m_data) b k >>= fun r => _) = _
  rw [receiveSerializer_overruns long]
  rfl

end Content

/-- How many bytes a reader of a message asks for next, from those it has. -/
def wants (got : List UInt8) : ℕ :=
  if got.length < 20 then demand [1, 1, 1, 1, 8, 8] got.length
  else 20 + announced got - got.length

/-- A stream that is cut: `live` are the calls that find it open. Once a whole message is delivered
no more of it is asked for; otherwise what is left of `incoming` is lost, and a message makes no
more than seven calls that find the end. -/
structure Cut where
  incoming : List UInt8
  m_is_connected : Bool
  live : List Arrival
  last : List Arrival
  quiet : ∀ a ∈ live, a.Live
  ended : wants (handed wants [] incoming live) = 0 ∨ (7 ≤ last.length ∧
    ∀ a ∈ last, a.Ends (incoming.drop (handed wants [] incoming live).length))

namespace Cut

def socket (k : Cut) : Socket := ⟨⟨k.incoming, k.live ++ k.last⟩, k.m_is_connected⟩

def delivered (k : Cut) : List UInt8 := handed wants [] k.incoming k.live

end Cut

/-- `receive(Message&)` returns, and a positive value only for one complete message. -/
def Reported (room : Room) (k : Socket) : Prop :=
  ∃ s k', receiveMessage room .empty k = .ok (s, k') ∧
    (0 < s.size → s.size = 20 + announced s.m_data)

theorem wants_header {got : List UInt8} (short : got.length < 20) :
    wants got = demand [1, 1, 1, 1, 8, 8] got.length := if_pos short

theorem wants_content {bs : List UInt8} (header : bs.length = 20) (cur : List UInt8) :
    wants (bs ++ cur) = announced bs - cur.length := by
  have long : ¬ (bs ++ cur).length < 20 := by
    rw [List.length_append]
    omega
  rw [wants, if_neg long, announced_append header.ge, List.length_append]
  omega

theorem wants_pos {got : List UInt8} (short : got.length < 20) : wants got ≠ 0 := by
  rw [wants_header short]
  generalize got.length = n at short
  revert n
  decide

theorem receiveMessage_of_fields {k k' : Socket} {s s' : Serializer}
    (run : receiveFields room [1, 1, 1, 1, 8, 8] s k = .ok (s', k')) :
    receiveMessage room s k = receiveContent room s' k' := by
  rw [receiveMessage_eq]
  change (receiveFields room [1, 1, 1, 1, 8, 8] s k >>= fun r => receiveContent room r.1 r.2) = _
  rw [run]
  rfl

theorem reported_of_ok {k k' : Socket} {s : Serializer}
    (run : receiveMessage room .empty k = .ok (s, k')) :
    Reported room k ↔ (0 < s.size → s.size = 20 + announced s.m_data) := by
  constructor
  · rintro ⟨s', k'', run', exact_⟩
    cases run.symm.trans run'
    exact exact_
  · exact fun exact_ => ⟨s, k', run, exact_⟩

theorem not_reported_of_error {k : Socket} {e : Stop}
    (run : receiveMessage room .empty k = .error e) : ¬ Reported room k := by
  rintro ⟨s, k', run', -⟩
  cases run.symm.trans run'

/-- After a whole header the content is delivered whole, or its part counts as a message. -/
theorem reported_of_header {k : Socket} {bs rest : List UInt8} {c : Bool}
    {live last : List Arrival} (header : bs.length = 20) (fits : announced bs ≤ room.bytes)
    (quiet : ∀ a ∈ live, a.Live)
    (run : receiveFields room [1, 1, 1, 1, 8, 8] .empty k =
      .ok (Buffer.empty.append bs, ⟨⟨rest, live ++ last⟩, c⟩))
    (ended : wants (handed wants bs rest live) = 0 ∨ (last ≠ [] ∧
      ∀ more rest', rest = more ++ rest' → handed wants bs rest live = bs ++ more →
        ∀ a ∈ last, a.Ends rest')) :
    Reported room k ↔ wants (handed wants bs rest live) = 0 := by
  have data : (Buffer.empty.append bs).m_data = bs := rfl
  have room' : announced (Buffer.empty.append bs).m_data ≤ room.bytes := by rwa [data]
  have content (x : List UInt8) : 20 + announced (bs ++ x) = 20 + announced bs := by
    rw [announced_append header.ge]
  have first : ∀ cur : List UInt8, cur.length < announced bs →
      wants (bs ++ cur) = announced bs - cur.length := fun cur _ => wants_content header cur
  have ok {x : Option (List UInt8)} {k' : Socket}
      (loop : receiveLoop (announced bs) c rest [] (live ++ last) = .ok (x, k')) :
      Reported room k ↔ (x.getD []).length = announced bs := by
    rw [reported_of_ok
      ((receiveMessage_of_fields run).trans (receiveContent_whole header room' loop))]
    simp only [data, Serializer.size, Buffer.getSize, content, List.length_append, header]
    omega
  rcases receiveLoop_live (c := c) last first rest [] quiet
      (Nat.zero_le _) with
    ⟨more, rest', live', parts, length, -, same, loop⟩ | ⟨more, rest', parts, lt, same, loop⟩
  · rw [List.append_nil, List.nil_append] at same
    rw [List.nil_append] at length loop
    have full : wants (bs ++ more) = 0 := by rw [wants_content header, length, Nat.sub_self]
    rw [ok loop, same, handed_full full]
    exact iff_of_true length full
  · rw [List.append_nil, List.nil_append] at same
    rw [List.nil_append] at lt loop
    have some : wants (bs ++ more) ≠ 0 := by
      rw [wants_content header]
      omega
    rw [same] at ended ⊢
    obtain ⟨left, ends⟩ := ended.resolve_left some
    obtain ⟨x, last', c', stop, got, -⟩ := receiveLoop_ends (c := c)
      (announced bs) more (ends more rest' parts rfl) left
    rw [ok (loop.trans stop)]
    refine iff_of_false ?_ some
    rcases got with none | all
    · rw [none]
      exact Nat.ne_of_lt (Nat.zero_lt_of_lt lt)
    · rw [all]
      exact Nat.ne_of_lt lt

/-- A cut is reported exactly when nothing was delivered before it or a whole message was, with no
more content than there is room for. -/
theorem reported_iff (room : Room) (k : Cut) :
    Reported room k.socket ↔ k.delivered = [] ∨
      (20 + announced k.delivered ≤ k.delivered.length ∧ announced k.delivered ≤ room.bytes) := by
  have first : ∀ x : List UInt8, x.length < [1, 1, 1, 1, 8, 8].sum →
      wants ([] ++ x) = demand [1, 1, 1, 1, 8, 8] x.length := fun _ lt => wants_header lt
  have ended := k.ended
  change wants k.delivered = 0 ∨ (_ ∧ ∀ a ∈ k.last, a.Ends (k.incoming.drop k.delivered.length))
    at ended
  rcases receiveFields_live room (c := k.m_is_connected) k.last (by decide) k.incoming
      (s := .empty) first k.quiet with
    ⟨bs, rest, live', parts, header, quiet, same, run⟩ | ⟨bs, rest, parts, short, same, run⟩
  · change bs.length = 20 at header
    obtain ⟨more, rest', parts', all⟩ := handed_append wants live' bs rest
    have long : 20 ≤ (bs ++ more).length := by
      rw [List.length_append]
      omega
    have whole : wants (bs ++ more) = 0 ↔ 20 + announced (bs ++ more) ≤ (bs ++ more).length := by
      rw [wants, if_neg (Nat.not_lt.mpr long), Nat.sub_eq_zero_iff_le]
    have some : bs ++ more ≠ [] := by
      intro none
      rw [none] at long
      cases long
    change k.delivered = handed wants bs rest live' at same
    rw [same, all] at ended ⊢
    rw [or_iff_right some, ← whole, announced_append header.ge]
    by_cases fits : announced bs ≤ room.bytes
    swap
    · have long : room.bytes < announced (Buffer.empty.append bs).m_data := by
        change room.bytes < announced bs
        exact Nat.lt_of_not_le fits
      have overrun := (receiveMessage_of_fields run).trans (receiveContent_overruns header long _)
      exact iff_of_false (not_reported_of_error (k := k.socket) overrun) fun and => fits and.2
    rw [and_iff_left fits, ← all]
    apply reported_of_header (k := k.socket) header fits quiet run
    rw [all]
    refine ended.imp_right fun left => ⟨?_, ?_⟩
    · intro none
      rw [none] at left
      cases left.1
    · intro more' rest'' parts'' all'
      obtain rfl := List.append_cancel_left all'
      rw [parts, parts'', ← List.append_assoc, List.drop_left] at left
      exact left.2
  · change k.delivered = bs at same
    change bs.length < 20 at short
    rw [same] at ended ⊢
    have ends : 7 ≤ k.last.length ∧ ∀ a ∈ k.last, a.Ends rest := by
      rw [parts, List.drop_left] at ended
      exact ended.resolve_left (wants_pos short)
    obtain ⟨part, k', fields, le, first⟩ := run ends.2 (Nat.le_of_succ_le ends.1)
    have not_whole : ¬ 20 + announced bs ≤ bs.length := by omega
    rw [or_iff_left fun and => not_whole and.1]
    by_cases none : part = []
    · have nothing : bs = [] := List.eq_nil_of_length_eq_zero (Nat.lt_one_iff.mp (first none))
      subst none
      have returned := (receiveMessage_of_fields fields).trans (receiveContent_empty rfl k')
      apply iff_of_true _ nothing
      exact (reported_of_ok (k := k.socket) returned).mpr fun pos => absurd pos (by decide)
    · have some : bs ≠ [] := by
        rintro rfl
        exact none (List.eq_nil_of_length_eq_zero (Nat.le_zero.mp le))
      have thrown := (receiveMessage_of_fields fields).trans
        (receiveContent_short (s := Buffer.empty.append part) none (le.trans_lt short) k')
      exact iff_of_false (not_reported_of_error (k := k.socket) thrown) some

/-- A header that announces two bytes, and the first of them. -/
def tornContent : Cut where
  incoming := [0x66, 1, 12, 0, 0, 0, 0, 0, 0, 0, 0, 9, 0, 0, 0, 0, 0, 0, 0, 2, 7]
  m_is_connected := true
  live := [.ready 0, .ready 0, .ready 0, .again, .ready 0, .ready 7, .ready 7, .ready 0]
  last := .replicate 7 .closed
  quiet := by decide
  ended := .inr (by decide)

def tornHeader : Cut where
  incoming := [0x66]
  m_is_connected := true
  live := [.ready 0]
  last := .replicate 7 .failed
  quiet := by decide
  ended := .inr (by decide)

def spare : Room := ⟨1000 * 1000, by decide, by decide⟩

/-- A positive value is returned for 21 bytes of 22; and one byte makes the header's reads throw. -/
theorem torn_not_reported : ¬ Reported spare tornContent.socket ∧
    receiveMessage spare .empty tornHeader.socket = .error .thrown := by
  refine ⟨?_, rfl⟩
  rintro ⟨s, k', run, complete⟩
  cases run
  exact absurd (complete (by decide)) (by decide)

end Socket

end CRpc
