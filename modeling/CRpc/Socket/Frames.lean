import CRpc.Lib.Formats
import CRpc.Socket.Truncation

/-! `receive(Message&)` on any stream of bytes: what it takes for messages. -/
namespace CRpc.Socket
open Streams Util Endian Formats

variable {room : Room}

/-- Twenty bytes, the last eight of which announce how many more belong to the message. -/
def frames : Format UInt8 where
  size bs := if 20 ≤ bs.length then some (20 + announced bs) else none
  grows {bs n} more h := by
    obtain ⟨header, ⟨⟩⟩ := Option.ite_none_right_eq_some.mp h
    rw [announced_append header, if_pos (by rw [List.length_append]; omega)]
  cuts {bs n} h fits := by
    obtain ⟨header, ⟨⟩⟩ := Option.ite_none_right_eq_some.mp h
    have long : 20 ≤ (bs.take (20 + announced bs)).length := by
      rw [List.length_take]
      omega
    have front := announced_append long (bs.drop (20 + announced bs))
    rw [List.take_append_drop] at front
    rw [if_pos long, ← front]
  pos {bs n} h := by
    obtain ⟨-, ⟨⟩⟩ := Option.ite_none_right_eq_some.mp h
    omega

theorem receiveLoop_starves {size : ℕ} {c : Bool} {arrivals : List Arrival} :
    ∀ {incoming got : List UInt8}, (∀ a ∈ arrivals, a ≠ .closed ∧ a ≠ .failed) →
    got.length + incoming.length < size →
    receiveLoop size c incoming got arrivals = .error .waiting := by
  induction arrivals with
  | nil =>
    intro incoming got _ short
    rw [receiveLoop, if_neg (by omega)]
  | cons a arrivals ih =>
    intro incoming got isOpen short
    have later : ∀ a ∈ arrivals, a ≠ .closed ∧ a ≠ .failed := fun a mem =>
      isOpen a (List.mem_cons_of_mem _ mem)
    rw [receiveLoop, if_neg (by omega)]
    cases incoming with
    | nil =>
      rw [outcome_empty (isOpen a List.mem_cons_self)]
      exact ih later short
    | cons b incoming =>
      rcases outcome_open (isOpen a List.mem_cons_self) (by omega : 0 < size - got.length)
        (List.cons_ne_nil b incoming) with ⟨-, again⟩ | ⟨d, ds, rest, piece, split, -⟩
      · rw [again]
        exact ih later short
      · rw [piece, split]
        simp only [List.drop_left]
        apply ih later
        rw [split, List.length_append] at short
        rw [List.length_append]
        omega

theorem starves_receiveSerializer {size : ℕ} (fits : size ≤ room.bytes) (s : Serializer) :
    Starves Socket.feed (receiveSerializer room size s) size := by
  intro k isOpen little
  rw [receiveSerializer, receiveString_fits fits]
  change (receiveLoop size k.m_is_connected k.feed.incoming [] k.feed.arrivals >>= fun r => _) = _
  rw [receiveLoop_starves isOpen (by simpa using little)]
  rfl

theorem obtains_receiveFields (room : Room) (fields : List ℕ) (fits : ∀ f ∈ fields, f ≤ 8) :
    ∀ (s : Serializer) {bs : List UInt8}, bs.length = fields.sum →
      Obtains Socket.feed (receiveFields room fields s) bs (s.append bs) := by
  induction fields with
  | nil =>
    intro s bs length
    obtain rfl := List.eq_nil_of_length_eq_zero length
    rw [Buffer.append_nil]
    exact Obtains.pure s
  | cons f fields ih =>
    intro s bs length
    obtain ⟨small, others⟩ := List.forall_mem_cons.mp fits
    rw [List.sum_cons] at length
    have first : (bs.take f).length = f := by
      rw [List.length_take]
      omega
    have rest : (bs.drop f).length = fields.sum := by
      rw [List.length_drop]
      omega
    have short : (bs.take f).length ≤ room.bytes := first.le.trans (small.trans room.fields_le)
    have take := obtains_receiveSerializer s short
    rw [first] at take
    have all := take.bind (f := receiveFields room fields) (ih others _ rest)
    rwa [Buffer.append_append, List.take_append_drop] at all

theorem starves_receiveFields (room : Room) (fields : List ℕ) (fits : ∀ f ∈ fields, f ≤ 8) :
    ∀ s : Serializer, Starves Socket.feed (receiveFields room fields s) fields.sum := by
  induction fields with
  | nil => exact fun s => .zero _
  | cons f fields ih =>
    intro s
    obtain ⟨small, others⟩ := List.forall_mem_cons.mp fits
    have short : f ≤ room.bytes := small.trans room.fields_le
    apply (starves_receiveSerializer short s).bind
    intro bs length
    exact ⟨s.append bs, length ▸ obtains_receiveSerializer s (length ▸ short), ih others _⟩

section Content
variable {s : Serializer}

theorem obtains_content (header : s.m_data.length = 20) {content : List UInt8}
    (fits : content.length ≤ room.bytes) (length : content.length = announced s.m_data) :
    Obtains Socket.feed (receiveContent room s) content
      ⟨s.m_data ++ content, 0, Nat.zero_le _⟩ := by
  obtain ⟨b, data, eq⟩ := receiveContent_eq room header
  rw [eq, ← length]
  apply (obtains_receiveSerializer b fits).finish
  rw [← data]
  exact Obtains.pure _

theorem starves_content (header : s.m_data.length = 20) (fits : announced s.m_data ≤ room.bytes) :
    Starves Socket.feed (receiveContent room s) (announced s.m_data) := by
  obtain ⟨b, -, eq⟩ := receiveContent_eq room header
  rw [eq, ← Nat.add_zero (announced s.m_data)]
  apply (starves_receiveSerializer fits b).bind
  intro bs length
  exact ⟨b.append bs, length ▸ obtains_receiveSerializer b (length ▸ fits), .zero _⟩

end Content

theorem append_empty_data (bs : List UInt8) : (Buffer.empty.append bs).m_data = bs := rfl

/-- A frame with room for its content is received as it is, whatever its bytes are. -/
theorem obtains_frame {frame : List UInt8} (whole : frames.Whole frame)
    (fits : frame.length ≤ 20 + room.bytes) :
    Obtains Socket.feed (receiveMessage room .empty) frame ⟨frame, 0, Nat.zero_le _⟩ := by
  obtain ⟨header, size⟩ := Option.ite_none_right_eq_some.mp whole
  have length : 20 + announced frame = frame.length := Option.some.inj size
  have front : (frame.take 20).length = 20 := by
    rw [List.length_take]
    omega
  have same : announced (frame.take 20) = announced frame := by
    have := announced_append front.ge (frame.drop 20)
    rwa [List.take_append_drop, eq_comm] at this
  have fields := obtains_receiveFields room [1, 1, 1, 1, 8, 8] (by decide) .empty front
  have short : (frame.drop 20).length ≤ room.bytes := by
    rw [List.length_drop]
    omega
  have content : Obtains Socket.feed (receiveContent room (Buffer.empty.append (frame.take 20)))
      (frame.drop 20) ⟨frame.take 20 ++ frame.drop 20, 0, Nat.zero_le _⟩ :=
    obtains_content front short (by rw [append_empty_data, same, List.length_drop]; omega)
  have all := fields.bind content
  rw [← receiveMessage_eq] at all
  simpa only [List.take_append_drop] using all

/-- A whole header at the front of these bytes announces no more than there is room for. -/
def Fits (room : Room) (rest : List UInt8) : Prop := 20 ≤ rest.length → announced rest ≤ room.bytes

theorem starves_unfinished {rest : List UInt8} (unfinished : frames.Unfinished rest)
    (fits : Fits room rest) {s : Socket} (isOpen : s.feed.Open) (stream : s.feed.incoming = rest) :
    receiveMessage room .empty s = .error .waiting := by
  rw [receiveMessage_eq]
  have fields := starves_receiveFields room [1, 1, 1, 1, 8, 8] (by decide) .empty
  by_cases header : 20 ≤ rest.length
  · have short := unfinished (20 + announced rest) (if_pos header)
    have front : (rest.take 20).length = 20 := by
      rw [List.length_take]
      omega
    have same : announced (rest.take 20) = announced rest := by
      have := announced_append front.ge (rest.drop 20)
      rwa [List.take_append_drop, eq_comm] at this
    have take := obtains_receiveFields room [1, 1, 1, 1, 8, 8] (by decide) .empty front
    change (receiveFields room [1, 1, 1, 1, 8, 8] .empty s >>= fun r =>
      receiveContent room r.1 r.2) = _
    rcases take s (rest.drop 20) isOpen (by rw [List.take_append_drop, stream]) with
      ⟨s', eq, isOpen', stream', -⟩ | ⟨eq, -⟩
    · rw [eq]
      have short : announced (Buffer.empty.append (rest.take 20)).m_data ≤ room.bytes := by
        rw [append_empty_data, same]
        exact fits header
      apply starves_content front short s' isOpen'
      rw [append_empty_data, same, stream', List.length_drop]
      omega
    · rw [eq]
      rfl
  · change (receiveFields room [1, 1, 1, 1, 8, 8] .empty s >>= fun r =>
      receiveContent room r.1 r.2) = _
    rw [fields s isOpen (by rw [stream]; change rest.length < 20; omega)]
    rfl

/-- `receive(Message&)` again and again, each into a fresh message: the bytes of each. -/
def receiveFrames (room : Room) : ℕ → Net (List (List UInt8))
  | 0 => return []
  | n + 1 => do
    let s ← receiveMessage room .empty
    let fs ← receiveFrames room n
    return s.m_data :: fs

theorem obtains_receiveFrames {fs : List (List UInt8)}
    (whole : ∀ f ∈ fs, frames.Whole f ∧ f.length ≤ 20 + room.bytes) :
    Obtains Socket.feed (receiveFrames room fs.length) fs.flatten fs := by
  induction fs with
  | nil => exact Obtains.pure []
  | cons f fs ih =>
    obtain ⟨⟨first, fits⟩, later⟩ := List.forall_mem_cons.mp whole
    rw [List.flatten_cons]
    exact (obtains_frame first fits).bind ((ih later).finish (Obtains.pure (f :: fs)))

theorem receiveFrames_more {fs : List (List UInt8)} {rest : List UInt8}
    (unfinished : frames.Unfinished rest) (fits : Fits room rest) (more : ℕ) : ∀ {s : Socket},
    (∀ f ∈ fs, frames.Whole f ∧ f.length ≤ 20 + room.bytes) →
    s.feed.Open → s.feed.incoming = fs.flatten ++ rest →
    receiveFrames room (fs.length + more + 1) s = .error .waiting := by
  induction fs with
  | nil =>
    intro s _ isOpen stream
    change (receiveMessage room .empty s >>= fun r => _) = _
    rw [starves_unfinished unfinished fits isOpen stream]
    rfl
  | cons f fs ih =>
    intro s whole isOpen stream
    obtain ⟨⟨first, short⟩, later⟩ := List.forall_mem_cons.mp whole
    rw [List.flatten_cons, List.append_assoc] at stream
    rw [List.length_cons, Nat.add_right_comm fs.length 1 more]
    change (receiveMessage room .empty s >>= fun r => _) = _
    rcases obtains_frame first short s _ isOpen stream with
      ⟨s', eq, isOpen', stream', -⟩ | ⟨eq, -⟩
    · rw [eq]
      change (receiveFrames room (fs.length + more + 1) s' >>= fun r => _) = _
      rw [ih later isOpen' stream']
      rfl
    · rw [eq]
      rfl

/-- Any stream of bytes falls into frames in one way, and these are what is received, wherever the
stream is cut: as many as are asked for, unless fewer pieces than bytes have come, and none that is
not all there; each of them with no more content than there is room for. -/
theorem frames_received (incoming : List UInt8) :
    ∃ fs rest, frames.Cut incoming fs rest ∧
      (∀ fs' rest', frames.Cut incoming fs' rest' → fs' = fs ∧ rest' = rest) ∧
      ∀ (room : Room) (s : Socket) (n : ℕ), s.feed.Open → s.feed.incoming = incoming →
        (∀ f ∈ fs.take n, f.length ≤ 20 + room.bytes) → (fs.length < n → Fits room rest) →
        (n ≤ fs.length ∧ ∃ s', receiveFrames room n s = .ok (fs.take n, s')) ∨
        (receiveFrames room n s = .error .waiting ∧
          (fs.length < n ∨ s.feed.supply < (fs.take n).flatten.length)) := by
  obtain ⟨fs, rest, cut⟩ := frames.exists_cut incoming
  refine ⟨fs, rest, cut, fun fs' rest' cut' => cut'.unique cut, ?_⟩
  intro room s n isOpen stream fits last
  rw [cut.stream] at stream
  by_cases few : n ≤ fs.length
  · have length : (fs.take n).length = n := by
      rw [List.length_take]
      omega
    have whole : ∀ f ∈ fs.take n, frames.Whole f ∧ f.length ≤ 20 + room.bytes := fun f mem =>
      ⟨cut.whole f (List.mem_of_mem_take mem), fits f mem⟩
    have obtains := obtains_receiveFrames whole
    rw [length] at obtains
    rw [← List.take_append_drop n fs, List.flatten_append, List.append_assoc] at stream
    rcases obtains s _ isOpen stream with ⟨s', eq, -⟩ | ⟨eq, short⟩
    · exact .inl ⟨few, s', eq⟩
    · exact .inr ⟨eq, .inr short⟩
  · obtain ⟨more, rfl⟩ : ∃ more, n = fs.length + more + 1 := ⟨n - fs.length - 1, by omega⟩
    rw [List.take_of_length_le (by omega)] at fits
    have whole : ∀ f ∈ fs, frames.Whole f ∧ f.length ≤ 20 + room.bytes := fun f mem =>
      ⟨cut.whole f mem, fits f mem⟩
    have small : Fits room rest := last (by omega)
    exact .inr ⟨receiveFrames_more cut.unfinished small more whole isOpen stream, .inl (by omega)⟩

/-- An empty message comes in pieces, and a byte behind it that is none. -/
theorem empty_message_received : ∃ s', receiveFrames spare 1
    ⟨⟨List.replicate 20 0 ++ [7], List.replicate 20 (.ready 1)⟩, true⟩ =
      .ok ([List.replicate 20 0], s') := by
  obtain ⟨fs, rest, -, only, receives⟩ := frames_received (List.replicate 20 0 ++ [7])
  have whole : frames.size (List.replicate 20 0) = some (List.replicate 20 (0 : UInt8)).length := by
    decide
  have cut : frames.Cut (List.replicate 20 0 ++ [7]) [List.replicate 20 0] [7] := by
    refine ⟨rfl, fun f mem => ?_, fun n size => by cases size⟩
    exact List.mem_singleton.mp mem ▸ whole
  obtain ⟨rfl, rfl⟩ := only _ _ cut
  have isOpen := Feed.open_replicate (List.replicate 20 (0 : UInt8) ++ [7]) 20 1
  have fits : ∀ f ∈ [List.replicate 20 (0 : UInt8)].take 1, f.length ≤ 20 + spare.bytes := by decide
  have last : 1 < 1 → Fits spare [7] := fun lt => absurd lt (by decide)
  rcases receives spare ⟨⟨_, List.replicate 20 (.ready 1)⟩, true⟩ 1 isOpen rfl fits last with
    ⟨-, s', eq⟩ | ⟨-, few | short⟩
  · exact ⟨s', eq⟩
  · exact absurd few (by decide)
  · exact absurd short (by decide)

end CRpc.Socket
