import AntRelay.Codec.AllDelimiters

namespace AntRelay.Codec
open AntRelay.Base
open AntRelay.Base.Delimited

namespace AllDelimiterCodec

variable {IoError : Type}

theorem makeDecoded_exclusive {codec : AllDelimiterCodec} (h : codec.inclusive = false) :
    codec.makeDecoded = id := by
  funext b
  simp [makeDecoded, h]

theorem yieldsEof_exclusive (ac : AhoCorasickCrate) (IoError : Type) {s : Framed}
    (hne : s.codec.delimiter ≠ []) (hexclusive : s.codec.inclusive = false) (h : s.Searched)
    (hrest : ¬ s.codec.delimiter <:+: s.src) :
    ∃ last, Yields (decodeEof ac : Framed → Outcome (Error IoError) _) s [] last := by
  obtain ⟨searchFrom, _, hdecode⟩ := decode_of_not_occurs ac IoError hne h hrest
  refine ⟨⟨{ s.codec with searchFrom := searchFrom }, s.src⟩, .stop ?_⟩
  rw [decodeEof, if_pos (by simp [hexclusive]), hdecode]

theorem framedRead_exclusive (ac : AhoCorasickCrate) (IoError : Type) {delimiter : Bytes}
    (hne : delimiter ≠ []) (chunks : List Bytes) :
    ∃ pieces rest log last, Cut delimiter chunks.flatten pieces rest ∧
      (decoder ac IoError).framedRead (.fresh delimiter false) chunks = .ok (log, last) ∧
      log.map Prod.fst = pieces := by
  have hnot : ¬ delimiter <:+: [] := by
    rw [List.infix_nil]
    exact hne
  have hend (rest : Bytes) (searchFrom : Nat) :=
    yieldsEof_exclusive ac IoError (s := ⟨{ new delimiter false with searchFrom := searchFrom },
      rest⟩) hne rfl
  obtain ⟨pieces, rest, last, hcut, hreads⟩ :=
    reads_pieces ac IoError (s := .fresh delimiter false) hne (Searched.zero _ _) rfl hnot
      (fun _ => []) hend chunks
  rw [makeDecoded_exclusive rfl, List.map_id, List.append_nil] at hreads
  obtain ⟨log, hlog, hitems⟩ := hreads.framedRead
  exact ⟨pieces, rest, log, last, hcut, hlog, hitems⟩

/-- A reader of an exclusive codec is given what lies before each delimiter of
the stream.  The codec never searches from past the end of its buffer, and the
loop in `decode` always leaves with a result. -/
theorem exclusive_decoding (ac : AhoCorasickCrate) (IoError : Type) {delimiter : Bytes}
    (hne : delimiter ≠ []) :
    (∀ chunks : List Bytes, ∃ log last,
      (decoder ac IoError).framedRead (.fresh delimiter false) chunks = .ok (log, last) ∧
      log.map Prod.fst = exclusivePieces delimiter chunks.flatten) ∧
    ∀ s, (decoder ac IoError).Reachable (.fresh delimiter false) s →
      s.codec.searchFrom ≤ s.src.length ∧
      ∃ result, (decodeLoop ac IoError).rounds ((decodeLoop ac IoError).measure s + 1) s =
        some (.ok result) := by
  constructor
  · intro chunks
    obtain ⟨pieces, rest, log, last, hcut, hlog, hitems⟩ :=
      framedRead_exclusive ac IoError hne chunks
    exact ⟨log, last, hlog, hitems.trans hcut.exclusivePieces_eq.symm⟩
  · intro s hs
    obtain ⟨hsearched, hdelimiter⟩ := searched_of_reachable hne hs
    obtain ⟨result, s', hdecode, _⟩ :=
      decode_searched ac IoError (hdelimiter.symm ▸ hne) hsearched
    refine ⟨hsearched.le, (result, s'), ?_⟩
    rw [Loop.rounds_eq_run _ (Nat.lt_add_one _)]
    exact congrArg some hdecode

theorem exclusive_decoding_overlap : ∃ log last,
    (decoder .reference Unit).framedRead (.fresh [0, 0] false) [[0], [0, 0, 1, 0], [0, 2]] =
      .ok (log, last) ∧ log.map Prod.fst = [[], [0, 1]] :=
  (exclusive_decoding .reference Unit (by decide)).1 [[0], [0, 0, 1, 0], [0, 2]]

def encodeAll (codec : AllDelimiterCodec) : Bytes → List Bytes → Outcome (Error IoError) Bytes
  | dst, [] => pure dst
  | dst, item :: items => do
      let dst ← codec.encode item dst
      encodeAll codec dst items

theorem encodeAll_exclusive {codec : AllDelimiterCodec} (h : codec.inclusive = false)
    (items : List Bytes) (dst : Bytes) : encodeAll codec dst items =
      (.ok (dst ++ (items.map (· ++ codec.delimiter)).flatten) :
        Outcome (Error IoError) Bytes) := by
  induction items generalizing dst with
  | nil => simp [encodeAll]
  | cons item items ih =>
      have hencode : codec.encode item dst =
          (.ok (dst ++ item ++ codec.delimiter) : Outcome (Error IoError) Bytes) := by
        simp [encode, h]
      rw [encodeAll, hencode, Outcome.ok_bind, ih, List.map_cons, List.flatten_cons]
      simp

/-- Messages are read back exactly when the delimiter does not occur in any of
them with all but the last byte of it appended. -/
theorem exclusive_round_trip_iff (ac : AhoCorasickCrate) (IoError : Type) {delimiter : Bytes}
    (hne : delimiter ≠ []) (messages : List Bytes) :
    ∃ stream, encodeAll (new delimiter false) [] messages =
        (.ok stream : Outcome (Error IoError) Bytes) ∧
      ∀ chunks : List Bytes, chunks.flatten = stream →
        ((∃ log last, (decoder ac IoError).framedRead (.fresh delimiter false) chunks =
            .ok (log, last) ∧ log.map Prod.fst = messages) ↔
          ∀ message ∈ messages, ¬ delimiter <:+: message ++ delimiter.dropLast) := by
  refine ⟨_, encodeAll_exclusive rfl messages [], ?_⟩
  intro chunks hchunks
  rw [List.nil_append] at hchunks
  obtain ⟨pieces, rest, log, last, hcut, hlog, hitems⟩ :=
    framedRead_exclusive ac IoError hne chunks
  rw [hlog]
  constructor
  · rintro ⟨log', last', hsame, hmessages⟩
    cases hsame
    rw [hitems] at hmessages
    exact hmessages ▸ hcut.first
  · intro hfirst
    refine ⟨log, last, rfl, ?_⟩
    have hwhole : Cut delimiter chunks.flatten messages [] := by
      rw [hchunks]
      exact .of_first hne hfirst
    rw [hitems, ← hcut.exclusivePieces_eq, hwhole.exclusivePieces_eq]

theorem exclusive_round_trip_bytes :
    encodeAll (new [0, 1] false) [] [[1, 0], []] =
      (.ok [1, 0, 0, 1, 0, 1] : Outcome (Error Unit) Bytes) ∧
    ∃ log last, (decoder .reference Unit).framedRead (.fresh [0, 1] false)
      [[1, 0, 0], [1, 0, 1]] = .ok (log, last) ∧ log.map Prod.fst = [[1, 0], []] := by
  obtain ⟨stream, hstream, hread⟩ :=
    exclusive_round_trip_iff .reference Unit (show ([0, 1] : Bytes) ≠ [] by decide) [[1, 0], []]
  have hbytes : encodeAll (new [0, 1] false) [] [[1, 0], []] =
      (.ok [1, 0, 0, 1, 0, 1] : Outcome (Error Unit) Bytes) := rfl
  cases hbytes.symm.trans hstream
  exact ⟨hbytes, (hread [[1, 0, 0], [1, 0, 1]] rfl).mpr (by decide)⟩

/-- The last byte of the message and the first of its delimiter are a delimiter too. -/
theorem exclusive_round_trip_overlap :
    (∀ message ∈ [([0] : Bytes)], ¬ [0, 0] <:+: message) ∧
    encodeAll (new [0, 0] false) [] [[0]] = (.ok [0, 0, 0] : Outcome (Error Unit) Bytes) ∧
    (∃ log last, (decoder .reference Unit).framedRead (.fresh [0, 0] false) [[0, 0, 0]] =
      .ok (log, last) ∧ log.map Prod.fst = [[]]) ∧
    ¬ ∃ log last, (decoder .reference Unit).framedRead (.fresh [0, 0] false) [[0, 0, 0]] =
      .ok (log, last) ∧ log.map Prod.fst = [[0]] := by
  have hread : (decoder .reference Unit).framedRead (.fresh [0, 0] false) [[0, 0, 0]] =
      .ok ([([], ⟨new [0, 0] false, [0]⟩)], ⟨new [0, 0] false, [0]⟩) := rfl
  refine ⟨by decide, rfl, ⟨_, _, hread, rfl⟩, ?_⟩
  rintro ⟨log, last, hlog, hitems⟩
  cases hread.symm.trans hlog
  simp at hitems

end AllDelimiterCodec

end AntRelay.Codec
