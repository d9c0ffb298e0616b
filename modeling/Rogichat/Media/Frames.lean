import Rogichat.Ledger.Intent
import Rogichat.Lib.Bytes
import Rogichat.Lib.Trace

/-!
# Frames of the decoder protocol

`frame` and `readFrame` of `media-decoder-protocol.ts`. The reader is an incremental
machine: a chunk arrives, the rounds of its handler move bytes from it into the header
until nothing of it is left or the header is complete, and only then the next event is
taken. What arrives after the frame stays unread in the socket, in order.

The values are those `JSON.stringify` can write, whatever the engine represents them
by: the reader relies on nothing but that a value is read back from its own text.

* **`readFrame_frame`** — the frame of a value is read back from any cut of it.
* **`resolved_frame`** — what a reader has consumed is the frame of the value it returned.
* **`header_bounded`** — no reader buffers more than 1028 bytes.
-/

namespace Rogichat.Decoder

open Lib Ledger

universe u

/-- `JSON.stringify` and `JSON.parse`, on the values that have a text. -/
structure JsonCodec (V : Type u) where
  stringify : V → String
  parse : String → Option V
  parse_stringify : ∀ v, parse (stringify v) = some v
  /-- No JSON text opens with a byte order mark. -/
  stringify_head : ∀ v, (stringify v).toList.head? ≠ some '\uFEFF'

inductive ProtocolError
  | decoderProtocol
  deriving DecidableEq, Repr

/-- A promise that `readFrame` returned, and what it left of the stream. -/
inductive Reading (V : Type u)
  /-- Not settled: the header so far, and what is left of the chunk in hand. -/
  | reading (header pending : Bytes)
  | resolved (value : V) (unread : Bytes)
  | rejected
  deriving DecidableEq

/-- What the socket and the signal tell the reader. -/
inductive Event
  | data (chunk : Bytes)
  /-- One round of the loop over the chunk in hand. -/
  | round
  /-- `end`, `close`, `error` or `abort`. -/
  | fail

variable {V : Type u} (J : JsonCodec V)

/-- The bytes of a value's text. -/
def JsonCodec.encode (v : V) : Bytes := (J.stringify v).toUTF8.data.toList

/-- `frame`. -/
def frame (v : V) : Except ProtocolError Bytes := do
  let data := J.encode v
  ensure (data.length ≤ 1024) .decoderProtocol
  return Bytes.bytesBE 4 data.length ++ data

/-- The end of a complete header: its text is that of the value it parses to. -/
def finish (header rest : Bytes) : Reading V :=
  let original := header.drop 4
  match (decodeText ⟨original.toArray⟩).bind J.parse with
  | none => .rejected
  | some value => if original = J.encode value then .resolved value rest else .rejected

/-- How long the header is to become next. -/
def wanted (header : Bytes) : Nat :=
  if header.length < 4 then 4 else 4 + Bytes.readBE (header.take 4)

/-- How many bytes of the chunk go into the header. -/
def taken (header pending : Bytes) : Nat := min (wanted header - header.length) pending.length

/-- The header a round builds; nothing else of the stream is buffered. -/
def grown (header pending : Bytes) : Bytes := header ++ pending.take (taken header pending)

/-- A round of the loop in the `data` handler. -/
def round (header pending : Bytes) : Reading V :=
  let rest := pending.drop (taken header pending)
  let header := grown header pending
  if 4 ≤ header.length then
    let length := Bytes.readBE (header.take 4)
    if length < 2 ∨ 1024 < length then .rejected
    else if header.length = length + 4 then finish J header rest
    else .reading header rest
  else .reading header rest

/-- A chunk arrives; a settled reader leaves it in the paused socket. -/
def Reading.arrive (chunk : Bytes) : Reading V → Reading V
  | .reading header pending => .reading header (pending ++ chunk)
  | .resolved value unread => .resolved value (unread ++ chunk)
  | .rejected => .rejected

/-- An event; `none` where it cannot happen, the handler of a chunk running to its end. -/
def exec (e : Event) (r : Reading V) : Option (Reading V) :=
  match e, r with
  | .data chunk, .reading header [] => some (.reading header chunk)
  | .data chunk, .resolved value unread => some (.resolved value (unread ++ chunk))
  | .data _, .rejected => some .rejected
  | .round, .reading header (b :: pending) => some (round J header (b :: pending))
  | .fail, .reading _ [] => some .rejected
  | .fail, .resolved value unread => some (.resolved value unread)
  | .fail, .rejected => some .rejected
  | _, _ => none

/-- A reader on a socket that was open when it started. -/
def readerSystem : System (Reading V) Event where
  init r := r = .reading [] []
  step e r r' := exec J e r = some r'

/-- The rounds of a handler, until the chunk in hand is used up. -/
def drain : (fuel : Nat) → Reading V → Reading V
  | fuel + 1, .reading header (b :: pending) => drain fuel (round J header (b :: pending))
  | _, r => r

/-- `readFrame` on the chunks of a stream: a chunk of `n` bytes takes at most `n` rounds. -/
def readFrame (chunks : List Bytes) : Reading V :=
  chunks.foldl (fun r chunk => drain J chunk.length (r.arrive chunk)) (.reading [] [])

/-! ## One round -/

/-- An incomplete header: its length is still missing, or is admitted and not reached. -/
def Partial (header : Bytes) : Prop :=
  header.length < 4 ∨ 2 ≤ Bytes.readBE (header.take 4) ∧ Bytes.readBE (header.take 4) ≤ 1024 ∧
    header.length < Bytes.readBE (header.take 4) + 4

/-- A header a round builds has at most the length that was wanted. -/
theorem length_grown_le (header pending : Bytes) :
    (grown header pending).length ≤ max header.length (wanted header) := by
  rw [grown, List.length_append, List.length_take]
  unfold taken
  omega

/-- A complete header. -/
def Complete (header : Bytes) : Prop :=
  2 ≤ Bytes.readBE (header.take 4) ∧ Bytes.readBE (header.take 4) ≤ 1024 ∧
    header.length = Bytes.readBE (header.take 4) + 4

/-- The first bytes of a header that has them do not change as it grows. -/
theorem take_four {header : Bytes} (h : 4 ≤ header.length) (bs : Bytes) :
    (header ++ bs).take 4 = header.take 4 := by
  rw [List.take_append_of_le_length h]

/-- What a round does: it moves bytes of the chunk into the header, which is refused,
complete or still incomplete then. -/
theorem round_cases {header pending : Bytes} (hpart : Partial header) (hne : pending ≠ []) :
    ∃ moved rest, moved ++ rest = pending ∧ moved ≠ [] ∧
      ((round J header pending = .rejected ∧ 4 ≤ (header ++ moved).length ∧
          ¬(2 ≤ Bytes.readBE ((header ++ moved).take 4) ∧
            Bytes.readBE ((header ++ moved).take 4) ≤ 1024)) ∨
        (round J header pending = finish J (header ++ moved) rest ∧ Complete (header ++ moved)) ∨
        (round J header pending = .reading (header ++ moved) rest ∧ Partial (header ++ moved))) := by
  have hpos : 0 < pending.length := List.length_pos_iff.mpr hne
  have hgrows : header.length < wanted header := by
    unfold wanted
    rcases hpart with h | ⟨-, -, h⟩
    · rw [if_pos h]
      exact h
    · split <;> omega
  have hread : round J header pending =
      if 4 ≤ (header ++ pending.take (taken header pending)).length then
        if Bytes.readBE ((header ++ pending.take (taken header pending)).take 4) < 2 ∨
            1024 < Bytes.readBE ((header ++ pending.take (taken header pending)).take 4) then
          .rejected
        else if (header ++ pending.take (taken header pending)).length =
            Bytes.readBE ((header ++ pending.take (taken header pending)).take 4) + 4 then
          finish J (header ++ pending.take (taken header pending))
            (pending.drop (taken header pending))
        else .reading (header ++ pending.take (taken header pending))
          (pending.drop (taken header pending))
      else .reading (header ++ pending.take (taken header pending))
        (pending.drop (taken header pending)) := rfl
  rw [hread]
  have htaken : taken header pending = min (wanted header - header.length) pending.length := rfl
  generalize taken header pending = count at htaken
  refine ⟨pending.take count, pending.drop count, List.take_append_drop _ _, ?_, ?_⟩
  · rw [← List.length_pos_iff, List.length_take]
    omega
  have hlength : (header ++ pending.take count).length = header.length + count := by
    rw [List.length_append, List.length_take]
    omega
  by_cases hfour : 4 ≤ (header ++ pending.take count).length
  · rw [if_pos hfour]
    by_cases hrange : Bytes.readBE ((header ++ pending.take count).take 4) < 2 ∨
        1024 < Bytes.readBE ((header ++ pending.take count).take 4)
    · rw [if_pos hrange]
      refine .inl ⟨rfl, hfour, ?_⟩
      omega
    · rw [if_neg hrange]
      by_cases hfull : (header ++ pending.take count).length =
          Bytes.readBE ((header ++ pending.take count).take 4) + 4
      · rw [if_pos hfull]
        refine .inr (.inl ⟨rfl, ?_, ?_, hfull⟩) <;> omega
      · rw [if_neg hfull]
        refine .inr (.inr ⟨rfl, .inr ⟨by omega, by omega, ?_⟩⟩)
        -- the header never grows past what was wanted
        have hmost : header.length + count ≤ wanted header := by omega
        unfold wanted at hmost
        split at hmost
        · omega
        · rename_i hold
          rw [take_four (by omega)] at hfull hrange ⊢
          omega
  · rw [if_neg hfour]
    exact .inr (.inr ⟨rfl, .inl (by omega)⟩)

/-! ## The frame of a value -/

theorem utf8_toList (s : String) : (⟨s.toUTF8.data.toList.toArray⟩ : ByteArray) = s.toUTF8 := by
  rw [Array.toArray_toList]

/-- A complete header that spells a value's text resolves to the value. -/
theorem finish_encode (v : V) {size : Bytes} (hsize : size.length = 4) (rest : Bytes) :
    finish J (size ++ J.encode v) rest = .resolved v rest := by
  have htext : (decodeText ⟨(J.encode v).toArray⟩).bind J.parse = some v := by
    rw [JsonCodec.encode, utf8_toList, decodeText_toUTF8 (J.stringify_head v), Option.bind_some,
      J.parse_stringify]
  simp only [finish, List.drop_left' hsize, htext, if_true]

/-- What resolves spells the text of the value it resolves to. -/
theorem finish_resolved {header rest unread : Bytes} {v : V}
    (h : finish J header rest = .resolved v unread) :
    header.drop 4 = J.encode v ∧ rest = unread := by
  simp only [finish] at h
  split at h
  · cases h
  · split at h
    · rename_i heq
      cases h
      exact ⟨heq, rfl⟩
    · cases h

theorem finish_settled {header rest h p : Bytes} : finish J header rest ≠ .reading h p := by
  simp only [finish]
  split
  · intro h
    cases h
  · split <;> intro h <;> cases h

theorem frame_ok {v : V} {bytes : Bytes} :
    frame J v = .ok bytes ↔ (J.encode v).length ≤ 1024 ∧
      bytes = Bytes.bytesBE 4 (J.encode v).length ++ J.encode v := by
  simp only [frame, bind_ok, ensure_ok, pure_ok]
  constructor
  · rintro ⟨_, hlength, rfl⟩
    exact ⟨hlength, rfl⟩
  · rintro ⟨hlength, rfl⟩
    exact ⟨(), hlength, rfl⟩

/-- A frame is a complete header, and the only one that spells its value's text. -/
theorem complete_frame {v : V} {bytes : Bytes} (h : frame J v = .ok bytes)
    (hsize : 2 ≤ (J.encode v).length) : Complete bytes := by
  obtain ⟨hlength, rfl⟩ := (frame_ok J).mp h
  have hread : Bytes.readBE ((Bytes.bytesBE 4 (J.encode v).length ++ J.encode v).take 4) =
      (J.encode v).length := by
    rw [List.take_left' (Bytes.length_bytesBE 4 _), Bytes.readBE_bytesBE (by omega)]
  refine ⟨?_, ?_, ?_⟩
  · rw [hread]
    exact hsize
  · rw [hread]
    exact hlength
  · rw [hread, List.length_append, Bytes.length_bytesBE]
    omega

/-- A complete header that spells a value's text is the value's frame. -/
theorem frame_of_complete {header : Bytes} {v : V} (hcomplete : Complete header)
    (htext : header.drop 4 = J.encode v) : frame J v = .ok header := by
  obtain ⟨-, hmost, hlength⟩ := hcomplete
  have hfour : (header.take 4).length = 4 := by
    rw [List.length_take]
    omega
  have hsize : (J.encode v).length = Bytes.readBE (header.take 4) := by
    rw [← htext, List.length_drop]
    omega
  have hnumber := (Bytes.bytesBE_readBE (header.take 4)).2
  rw [hfour, ← hsize] at hnumber
  refine (frame_ok J).mpr ⟨by omega, ?_⟩
  rw [hnumber, ← htext, List.take_append_drop]

/-! ## Reading a frame -/

/-- Two headers at the start of one stream agree on their length. -/
theorem take_four_eq {a b x y : Bytes} (h : a ++ x = b ++ y) (ha : 4 ≤ a.length)
    (hb : 4 ≤ b.length) : a.take 4 = b.take 4 := by
  rw [← take_four ha x, h, take_four hb]

/-- An incomplete header at the start of a stream is shorter than the complete one. -/
theorem Partial.shorter {header full x y : Bytes} (hpart : Partial header)
    (hcomplete : Complete full) (h : header ++ x = full ++ y) : header.length < full.length := by
  by_contra hlong
  obtain ⟨htwo, hmost, hlength⟩ := hcomplete
  have hfour := take_four_eq h (by omega) (by omega)
  rcases hpart with hshort | ⟨-, -, hshort⟩
  · omega
  · rw [hfour] at hshort
    omega

/-- Two complete headers at the start of one stream are one. -/
theorem Complete.eq {header full x y : Bytes} (hheader : Complete header)
    (hfull : Complete full) (h : header ++ x = full ++ y) : header = full ∧ x = y := by
  obtain ⟨htwo, hmost, hlength⟩ := hheader
  obtain ⟨htwo', hmost', hlength'⟩ := hfull
  have hfour := take_four_eq h (by omega) (by omega)
  rw [hfour] at hlength
  exact List.append_inj h (by omega)

/-- Nothing of the chunk in hand is left, so that the next event can be taken. -/
def Reading.Idle (r : Reading V) : Prop := ∀ header b pending, r ≠ .reading header (b :: pending)

theorem idle_reading (header : Bytes) : (Reading.reading header [] : Reading V).Idle := by
  intro _ _ _ h
  cases h

theorem idle_settled {r : Reading V} (h : ∀ header pending, r ≠ .reading header pending) : r.Idle :=
  fun header b pending => h header (b :: pending)

theorem idle_resolved (value : V) (unread : Bytes) : (Reading.resolved value unread).Idle := by
  intro _ _ _ h
  cases h

theorem idle_rejected : (Reading.rejected : Reading V).Idle := by
  intro _ _ _ h
  cases h

/-- A handler ends where the reader is settled, or nothing of the chunk is left. -/
theorem drain_idle {fuel : Nat} {r : Reading V} (h : r.Idle) : drain J fuel r = r := by
  cases fuel with
  | zero => rfl
  | succ fuel =>
    cases r with
    | reading header pending =>
      cases pending with
      | nil => rfl
      | cons b pending => exact absurd rfl (h header b pending)
    | resolved value unread => rfl
    | rejected => rfl

/-- The rounds over a chunk, at the start of a stream that opens with a complete header:
the header is incomplete until all of it is there, and is then the one of the stream. -/
theorem drain_stream {full rest : Bytes} (hfull : Complete full) {fuel : Nat}
    {header pending later : Bytes} (hpart : Partial header) (hfuel : pending.length ≤ fuel)
    (hstream : header ++ (pending ++ later) = full ++ rest) :
    drain J fuel (.reading header pending) =
        if (header ++ pending).length < full.length then .reading (header ++ pending) []
        else finish J full ((header ++ pending).drop full.length) := by
  induction fuel generalizing header pending with
  | zero =>
    obtain rfl := List.eq_nil_of_length_eq_zero (Nat.le_zero.mp hfuel)
    have hshort := hpart.shorter hfull hstream
    rw [List.append_nil, if_pos hshort]
    rfl
  | succ fuel ih =>
    cases pending with
    | nil =>
      have hshort := hpart.shorter hfull hstream
      rw [List.append_nil, if_pos hshort]
      rfl
    | cons b pending =>
      obtain ⟨moved, left, hsplit, hmoved, hround⟩ :=
        round_cases J hpart (List.cons_ne_nil b pending)
      have hjoin : header ++ (b :: pending) = (header ++ moved) ++ left := by
        rw [← hsplit, List.append_assoc]
      have hat : (header ++ moved) ++ (left ++ later) = full ++ rest := by
        rw [← hstream, ← List.append_assoc, ← hjoin, List.append_assoc]
      have hless : left.length < (b :: pending).length := by
        rw [← hsplit, List.length_append]
        have := List.length_pos_iff.mpr hmoved
        omega
      rw [drain]
      rcases hround with ⟨-, hfour, hrange⟩ | ⟨hround, hcomplete⟩ | ⟨hround, hpart'⟩
      · -- the length is that of the complete header, which is admitted
        rw [take_four_eq hat hfour (by have := hfull.2.2; omega)] at hrange
        exact absurd ⟨hfull.1, hfull.2.1⟩ hrange
      · obtain ⟨heq, -⟩ := hcomplete.eq hfull hat
        rw [hround, hjoin, heq, if_neg (by rw [List.length_append]; omega), List.drop_left' rfl]
        exact drain_idle J (idle_settled fun _ _ => finish_settled J)
      · rw [hround, ih hpart' (by omega) hat, hjoin]

/-- What a reader has made of the start of a stream that opens with a value's frame. -/
theorem readFrame_prefix {v : V} {bytes rest : Bytes} (hframe : frame J v = .ok bytes)
    (hsize : 2 ≤ (J.encode v).length) {chunks : List Bytes} {later : Bytes}
    (hstream : chunks.flatten ++ later = bytes ++ rest) :
    readFrame J chunks =
      if chunks.flatten.length < bytes.length then .reading chunks.flatten []
      else .resolved v (chunks.flatten.drop bytes.length) := by
  have hfull := complete_frame J hframe hsize
  have hfinish : ∀ unread, finish J bytes unread = .resolved v unread := by
    obtain ⟨-, rfl⟩ := (frame_ok J).mp hframe
    exact finish_encode J v (Bytes.length_bytesBE 4 _)
  induction chunks using List.reverseRecOn generalizing later with
  | nil =>
    have hpos : 0 < bytes.length := by
      have := hfull.2.2
      omega
    rw [List.flatten_nil, List.length_nil, if_pos hpos]
    rfl
  | append_singleton chunks chunk ih =>
    have hflat : (chunks ++ [chunk]).flatten = chunks.flatten ++ chunk := by
      rw [List.flatten_append, List.flatten_singleton]
    rw [hflat, List.append_assoc] at hstream
    have hbefore := ih hstream
    have hread : readFrame J (chunks ++ [chunk]) =
        drain J chunk.length ((readFrame J chunks).arrive chunk) := by
      simp only [readFrame, List.foldl_append, List.foldl_cons, List.foldl_nil]
    rw [hread, hbefore, hflat]
    by_cases hshort : chunks.flatten.length < bytes.length
    · have hpart : Partial chunks.flatten := by
        obtain ⟨htwo, hmost, hlength⟩ := hfull
        by_cases hfour : chunks.flatten.length < 4
        · exact .inl hfour
        · have heq := take_four_eq hstream (by omega) (by omega)
          refine .inr ⟨heq ▸ htwo, heq ▸ hmost, ?_⟩
          rw [heq]
          omega
      rw [if_pos hshort, Reading.arrive, List.nil_append,
        drain_stream J hfull hpart (Nat.le_refl _) hstream]
      simp only [hfinish]
    · have hmore : ¬(chunks.flatten ++ chunk).length < bytes.length := by
        rw [List.length_append]
        omega
      rw [if_neg hshort, if_neg hmore, List.drop_append_of_le_length (by omega)]
      exact drain_idle J (idle_resolved v _)

/-! ## Every run of a reader -/

/-- The bytes an event brings. -/
def Event.bytes : Event → Bytes
  | .data chunk => chunk
  | _ => []

/-- The stream a run has delivered. -/
def delivered (es : List Event) : Bytes := es.flatMap Event.bytes

/-- What a reader has done with the stream so far. -/
def Reading.Sound (stream : Bytes) : Reading V → Prop
  | .reading header pending => header ++ pending = stream ∧ Partial header
  | .resolved value unread => ∃ bytes, frame J value = .ok bytes ∧ bytes ++ unread = stream
  | .rejected => True

theorem exec_sound {e : Event} {r r' : Reading V} {stream : Bytes} (hr : r.Sound J stream)
    (h : exec J e r = some r') : r'.Sound J (stream ++ e.bytes) := by
  cases e with
  | data chunk =>
    cases r with
    | reading header pending =>
      cases pending with
      | nil =>
        cases h
        obtain ⟨rfl, hpart⟩ := hr
        rw [List.append_nil]
        exact ⟨rfl, hpart⟩
      | cons b pending => cases h
    | resolved value unread =>
      cases h
      obtain ⟨bytes, hframe, rfl⟩ := hr
      exact ⟨bytes, hframe, (List.append_assoc _ _ _).symm⟩
    | rejected =>
      cases h
      trivial
  | round =>
    show r'.Sound J (stream ++ [])
    rw [List.append_nil]
    cases r with
    | reading header pending =>
      cases pending with
      | nil => cases h
      | cons b pending =>
        obtain rfl := Option.some.inj h
        obtain ⟨rfl, hpart⟩ := hr
        obtain ⟨moved, rest, hsplit, -, hround⟩ :=
          round_cases J hpart (List.cons_ne_nil b pending)
        have hjoin : (header ++ moved) ++ rest = header ++ (b :: pending) := by
          rw [← hsplit, List.append_assoc]
        -- the round rejects, completes a frame, or reads a further part of one
        rcases hround with ⟨hround, -⟩ | ⟨hround, hcomplete⟩ | ⟨hround, hpart'⟩
        · rw [hround]
          trivial
        · rw [hround]
          cases hfinish : finish J (header ++ moved) rest with
          | reading header' pending' => exact absurd hfinish (finish_settled J)
          | resolved value unread =>
            obtain ⟨htext, rfl⟩ := finish_resolved J hfinish
            exact ⟨_, frame_of_complete J hcomplete htext, hjoin⟩
          | rejected => trivial
        · rw [hround]
          exact ⟨hjoin, hpart'⟩
    | resolved value unread => cases h
    | rejected => cases h
  | fail =>
    show r'.Sound J (stream ++ [])
    rw [List.append_nil]
    cases r with
    | reading header pending =>
      cases pending with
      | nil =>
        cases h
        trivial
      | cons b pending => cases h
    | resolved value unread =>
      cases h
      exact hr
    | rejected =>
      cases h
      trivial

theorem run_sound {r r' : Reading V} {es : List Event} {stream : Bytes} (hr : r.Sound J stream)
    (h : (readerSystem J).Run r es r') : r'.Sound J (stream ++ delivered es) := by
  induction h generalizing stream with
  | nil r =>
    show r.Sound J (stream ++ [])
    rw [List.append_nil]
    exact hr
  | @cons r s t e es hstep _ ih =>
    have hrest := ih (exec_sound J hr hstep)
    rw [List.append_assoc] at hrest
    exact hrest

/-- A reader at its start. -/
theorem start_sound : (Reading.reading [] [] : Reading V).Sound J [] :=
  ⟨rfl, .inl (by decide)⟩

/-- What a run has consumed when it resolves is the frame of its value. -/
theorem resolved_frame {es : List Event} {v : V} {unread : Bytes}
    (h : (readerSystem J).Run (.reading [] []) es (.resolved v unread)) :
    ∃ bytes, frame J v = .ok bytes ∧ bytes ++ unread = delivered es :=
  run_sound J (start_sound J) h

/-- No round of a run builds a header of more than 1028 bytes. -/
theorem header_bounded {es : List Event} {header pending : Bytes}
    (h : (readerSystem J).Run (.reading [] []) es (.reading header pending)) :
    header.length ≤ 1028 ∧ (grown header pending).length ≤ 1028 := by
  have hpart : Partial header := (run_sound J (start_sound J) h).2
  have hgrown := length_grown_le header pending
  have hheader : header.length < 1028 ∧ wanted header ≤ 1028 := by
    unfold wanted
    rcases hpart with hshort | ⟨-, hmost, hshort⟩
    · rw [if_pos hshort]
      omega
    · split <;> omega
  omega

/-! ## The reader on a list of chunks -/

/-- A handler ends after at most as many rounds as its chunk has bytes. -/
theorem drain_run {fuel : Nat} {header pending : Bytes} (hpart : Partial header)
    (hfuel : pending.length ≤ fuel) :
    ∃ n, (readerSystem J).Run (.reading header pending) (List.replicate n .round)
        (drain J fuel (.reading header pending)) ∧ (drain J fuel (.reading header pending)).Idle := by
  induction fuel generalizing header pending with
  | zero =>
    obtain rfl := List.eq_nil_of_length_eq_zero (Nat.le_zero.mp hfuel)
    exact ⟨0, .nil _, idle_reading header⟩
  | succ fuel ih =>
    cases pending with
    | nil => exact ⟨0, .nil _, idle_reading header⟩
    | cons b pending =>
      have hstep : (readerSystem J).step .round (.reading header (b :: pending))
          (round J header (b :: pending)) := rfl
      have hsettled : ∀ r : Reading V, round J header (b :: pending) = r →
          r.Idle → ∃ n, (readerSystem J).Run (.reading header (b :: pending))
            (List.replicate n .round) (drain J fuel r) ∧ (drain J fuel r).Idle := by
        rintro r rfl hr
        rw [drain_idle J hr]
        exact ⟨1, .single hstep, hr⟩
      rw [drain]
      obtain ⟨moved, rest, hsplit, hmoved, hround⟩ :=
        round_cases J hpart (List.cons_ne_nil b pending)
      rcases hround with ⟨hround, -⟩ | ⟨hround, -⟩ | ⟨hround, hpart'⟩
      · rw [hround]
        exact hsettled _ hround idle_rejected
      · rw [hround]
        exact hsettled _ hround (idle_settled fun _ _ => finish_settled J)
      · have hless : rest.length ≤ fuel := by
          have hlength := congrArg List.length hsplit
          have hpos := List.length_pos_iff.mpr hmoved
          rw [List.length_append] at hlength
          omega
        obtain ⟨n, hrun, hidle⟩ := ih hpart' hless
        rw [hround] at hstep ⊢
        exact ⟨n + 1, .cons hstep hrun, hidle⟩

/-- What the reader makes of a list of chunks is what some run makes of them. -/
theorem readFrame_run (chunks : List Bytes) :
    (readFrame J chunks).Idle ∧ ∃ es, (readerSystem J).Run (.reading [] []) es (readFrame J chunks) ∧
      delivered es = chunks.flatten := by
  induction chunks using List.reverseRecOn with
  | nil => exact ⟨idle_reading [], [], .nil _, rfl⟩
  | append_singleton chunks chunk ih =>
    obtain ⟨hidle, es, hrun, hbytes⟩ := ih
    have hflat : (chunks ++ [chunk]).flatten = chunks.flatten ++ chunk := by
      rw [List.flatten_append, List.flatten_singleton]
    have hread : readFrame J (chunks ++ [chunk]) =
        drain J chunk.length ((readFrame J chunks).arrive chunk) := by
      simp only [readFrame, List.foldl_append, List.foldl_cons, List.foldl_nil]
    have hdelivered : ∀ n, delivered (es ++ .data chunk :: List.replicate n .round) =
        chunks.flatten ++ chunk := by
      intro n
      have hrounds : (List.replicate n Event.round).flatMap Event.bytes = [] := by
        rw [List.flatMap_eq_nil_iff]
        intro e he
        rw [List.eq_of_mem_replicate he]
        rfl
      rw [← hbytes, delivered, delivered, List.flatMap_append, List.flatMap_cons, hrounds,
        List.append_nil]
      rfl
    have hsound := run_sound J (start_sound J) hrun
    rw [hread, hflat]
    cases hr : readFrame J chunks with
    | reading header pending =>
      rw [hr] at hrun hidle hsound
      cases pending with
      | cons b pending => exact absurd rfl (hidle header b pending)
      | nil =>
        -- the rounds end, since each takes bytes off what is pending
        obtain ⟨n, hrounds, hdone⟩ := drain_run J
          hsound.2 (Nat.le_refl _)
        have harrive : (readerSystem J).step (.data chunk) (.reading header [])
            (.reading header chunk) := rfl
        exact ⟨hdone, _, hrun.append (.cons harrive hrounds), hdelivered n⟩
    | resolved value unread =>
      rw [hr] at hrun
      have harrive : (readerSystem J).step (.data chunk) (.resolved value unread)
          (.resolved value (unread ++ chunk)) := rfl
      rw [Reading.arrive, drain_idle J (idle_resolved value _)]
      exact ⟨idle_resolved value _, _, hrun.append (.single harrive), hdelivered 0⟩
    | rejected =>
      rw [hr] at hrun
      have harrive : (readerSystem J).step (.data chunk) .rejected .rejected := rfl
      rw [Reading.arrive, drain_idle J idle_rejected]
      exact ⟨idle_rejected, _, hrun.append (.single harrive), hdelivered 0⟩

/-- **Frames over any chunking.** The frame of a value whose text takes 2 to 1024 bytes,
cut into chunks in any way and followed by anything, is read back as the value, and what
follows stays unread in its order. On every stream a reader that has resolved has
consumed exactly the frame of its value, and one that has not is rejected when the
stream ends. No round of any run builds a header of more than 1028 bytes. -/
theorem readFrame_frame :
    (∀ v : V, 2 ≤ (J.encode v).length → (J.encode v).length ≤ 1024 →
      ∃ bytes, frame J v = .ok bytes ∧ ∀ (chunks : List Bytes) (rest : Bytes),
        (∀ chunk ∈ chunks, chunk ≠ []) → chunks.flatten = bytes ++ rest →
        readFrame J chunks = .resolved v rest) ∧
    (∀ chunks : List Bytes,
      (∀ v unread, readFrame J chunks = .resolved v unread →
        ∃ bytes, frame J v = .ok bytes ∧ bytes ++ unread = chunks.flatten) ∧
      ((∀ v unread, readFrame J chunks ≠ .resolved v unread) →
        exec J .fail (readFrame J chunks) = some .rejected)) ∧
    ∀ (es : List Event) (header pending : Bytes),
      (readerSystem J).Run (.reading [] []) es (.reading header pending) →
      header.length ≤ 1028 ∧ (grown header pending).length ≤ 1028 := by
  refine ⟨?_, ?_, fun es header pending h => header_bounded J h⟩
  · intro v hleast hmost
    refine ⟨_, (frame_ok J).mpr ⟨hmost, rfl⟩, ?_⟩
    intro chunks rest _ hstream
    have hframe := (frame_ok J (v := v)).mpr ⟨hmost, rfl⟩
    have hread := readFrame_prefix J hframe hleast (by rw [List.append_nil, hstream])
    rw [hread, hstream, if_neg (by rw [List.length_append]; omega), List.drop_left' rfl]
  · intro chunks
    obtain ⟨hidle, es, hrun, hbytes⟩ := readFrame_run J chunks
    rw [← hbytes]
    constructor
    · intro v unread hread
      rw [hread] at hrun
      exact resolved_frame J hrun
    · intro hnot
      cases hr : readFrame J chunks with
      | reading header pending =>
        cases pending with
        | nil => rfl
        | cons b pending => exact absurd hr (hidle header b pending)
      | resolved value unread => exact absurd hr (hnot value unread)
      | rejected => rfl

/-! ## The values of the library's JSON texts -/

/-- The values with integral numbers and without repeated keys, and their texts. -/
def jsonCodec : JsonCodec {v : Json // v.Distinct} where
  stringify v := v.1.stringify
  parse text := (Json.parse text).bind fun v =>
    if h : v.Distinct then some ⟨v, h⟩ else none
  parse_stringify := by
    rintro ⟨v, hv⟩
    rw [Json.parse_stringify hv, Option.bind_some, dif_pos hv]
  stringify_head v := by
    rw [Json.stringify, String.toList_ofList]
    exact Json.render_head_ne v.1

/-- A version number, its size and its text cut apart, with the next payload behind it. -/
theorem readFrame_version :
    readFrame jsonCodec [[0, 0], [0, 13, 123, 34], Bytes.ascii "version\":", [49, 125, 7], [8, 9]] =
      .resolved ⟨.obj [("version", .num 1)], by decide⟩ [7, 8, 9] := by
  have hvalue : jsonCodec.encode ⟨.obj [("version", .num 1)], by decide⟩ =
      Bytes.ascii "\x7b\"version\":1\x7d" := by decide
  obtain ⟨hframes, -⟩ := readFrame_frame jsonCodec
  obtain ⟨bytes, hframe, hread⟩ := hframes ⟨.obj [("version", .num 1)], by decide⟩
    (by rw [hvalue]; decide) (by rw [hvalue]; decide)
  refine hread _ [7, 8, 9] (by decide) ?_
  obtain ⟨-, rfl⟩ := (frame_ok jsonCodec).mp hframe
  rw [hvalue]
  decide

end Rogichat.Decoder
