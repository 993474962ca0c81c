import AntRelay.Codec.AllDelimiters

namespace AntRelay.Codec
open AntRelay.Base
open AntRelay.Base.Delimited

namespace AllDelimiterCodec

variable {IoError : Type}

theorem makeDecoded_inclusive {codec : AllDelimiterCodec} (h : codec.inclusive = true) :
    codec.makeDecoded = (codec.delimiter ++ ·) := by
  funext b
  simp [makeDecoded, h]

theorem decodeEof_terminated (ac : AhoCorasickCrate) {s : Framed}
    (hinclusive : s.codec.inclusive = true) (hdone : s.codec.inclusiveTerminated = true)
    (hsrc : s.src = []) : decodeEof ac s = (.ok (none, s) : Outcome (Error IoError) _) := by
  simp [decodeEof, hinclusive, hdone, hsrc]

theorem yieldsEof_rest (ac : AhoCorasickCrate) (IoError : Type) {s : Framed}
    (hne : s.codec.delimiter ≠ []) (hinclusive : s.codec.inclusive = true) (h : s.Searched)
    (hrest : ¬ s.codec.delimiter <:+: s.src) (hsrc : s.src ≠ []) :
    ∃ last, Yields (decodeEof ac : Framed → Outcome (Error IoError) _) s
      [s.codec.delimiter ++ s.src] last := by
  obtain ⟨searchFrom, _, hdecode⟩ := decode_of_not_occurs ac IoError hne h hrest
  let last : Framed := ⟨{ s.codec with inclusiveTerminated := true, searchFrom := 0 }, []⟩
  have hgive : decodeEof ac s =
      (.ok (some (s.codec.delimiter ++ s.src), last) : Outcome (Error IoError) _) := by
    rw [decodeEof, if_neg (by simp [hinclusive]), if_neg (by simp [hsrc]), hdecode]
    simp [makeDecoded, hinclusive, last]
  exact ⟨last, .item hgive (.stop (decodeEof_terminated ac hinclusive rfl rfl))⟩

theorem yieldsEof_seen (ac : AhoCorasickCrate) (IoError : Type) {s : Framed}
    (hne : s.codec.delimiter ≠ []) (hinclusive : s.codec.inclusive = true)
    (hseen : s.codec.inclusiveSeenHeader = true) (hopen : s.codec.inclusiveTerminated = false)
    (h : s.Searched) (hrest : ¬ s.codec.delimiter <:+: s.src) :
    ∃ last, Yields (decodeEof ac : Framed → Outcome (Error IoError) _) s
      [s.codec.delimiter ++ s.src] last := by
  by_cases hsrc : s.src = []
  · let last : Framed := ⟨{ s.codec with inclusiveTerminated := true }, s.src⟩
    have hgive : decodeEof ac s =
        (.ok (some (s.codec.delimiter ++ s.src), last) : Outcome (Error IoError) _) := by
      simp [decodeEof, hinclusive, hsrc, hseen, hopen, makeDecoded, last]
    exact ⟨last, .item hgive (.stop (decodeEof_terminated ac hinclusive rfl hsrc))⟩
  · exact yieldsEof_rest ac IoError hne hinclusive h hrest hsrc

theorem reads_seen (ac : AhoCorasickCrate) (IoError : Type) {s : Framed}
    (hne : s.codec.delimiter ≠ []) (hinclusive : s.codec.inclusive = true)
    (hseen : s.codec.inclusiveSeenHeader = true) (hopen : s.codec.inclusiveTerminated = false)
    (h : s.Searched) (hrest : ¬ s.codec.delimiter <:+: s.src) (chunks : List Bytes) :
    ∃ pieces rest last, Cut s.codec.delimiter (s.src ++ chunks.flatten) pieces rest ∧
      (decoder ac IoError).Reads s chunks
        ((pieces ++ [rest]).map (s.codec.delimiter ++ ·)) last := by
  have hheader : s.codec.awaitsHeader = false := by simp [awaitsHeader, hseen]
  have hend (rest : Bytes) (searchFrom : Nat) :=
    yieldsEof_seen ac IoError (s := ⟨{ s.codec with searchFrom := searchFrom }, rest⟩)
      hne hinclusive hseen hopen
  obtain ⟨pieces, rest, last, hcut, hreads⟩ :=
    reads_pieces ac IoError hne h hheader hrest (fun rest => [s.codec.delimiter ++ rest])
      hend chunks
  rw [makeDecoded_inclusive hinclusive] at hreads
  refine ⟨pieces, rest, last, hcut, ?_⟩
  rw [List.map_append]
  exact hreads

/-- What is given of a stream: without a delimiter, all of it behind one. -/
inductive Given (delimiter stream : Bytes) : List Bytes → Prop where
  | delimited {piece rest : Bytes} {pieces : List Bytes} :
      Cut delimiter stream (piece :: pieces) rest →
      Given delimiter stream ((pieces ++ [rest]).map (delimiter ++ ·))
  | empty : stream = [] → Given delimiter stream []
  | undelimited : stream ≠ [] → ¬ delimiter <:+: stream →
      Given delimiter stream [delimiter ++ stream]

theorem reads_awaiting (ac : AhoCorasickCrate) (IoError : Type) {s : Framed}
    (hne : s.codec.delimiter ≠ []) (hinclusive : s.codec.inclusive = true)
    (hseen : s.codec.inclusiveSeenHeader = false) (hopen : s.codec.inclusiveTerminated = false)
    (h : s.Searched) (hrest : ¬ s.codec.delimiter <:+: s.src) (chunks : List Bytes) :
    ∃ items last, Given s.codec.delimiter (s.src ++ chunks.flatten) items ∧
      (decoder ac IoError).Reads s chunks items last := by
  induction chunks generalizing s with
  | nil =>
      rw [List.flatten_nil, List.append_nil]
      by_cases hsrc : s.src = []
      · have hend : decodeEof ac s = (.ok (none, s) : Outcome (Error IoError) _) := by
          simp [decodeEof, hinclusive, hsrc, hseen]
        exact ⟨[], s, .empty hsrc, .ends (.stop hend)⟩
      · obtain ⟨last, hyields⟩ := yieldsEof_rest ac IoError hne hinclusive h hrest hsrc
        exact ⟨_, last, .undelimited hsrc hrest, .ends hyields⟩
  | cons chunk chunks ih =>
      let grown : Framed := ⟨s.codec, s.src ++ chunk⟩
      have hgrown : grown.Searched := Searched.append h chunk
      rw [List.flatten_cons, ← List.append_assoc]
      cases decode_finds ac IoError (s := grown) hne hgrown with
      | @header piece behind hsrc hfirst _ hdecode =>
          obtain ⟨pieces, rest, searchFrom, hcut, hsearched, hyields⟩ :=
            yields_header ac IoError (s := grown) hne hsrc hfirst hdecode
          let left : Framed :=
            ⟨{ s.codec with searchFrom := searchFrom, inclusiveSeenHeader := true }, rest⟩
          obtain ⟨more, rest', last, hmore, hreads⟩ :=
            reads_seen ac IoError (s := left) hne hinclusive rfl hopen hsearched
              hcut.not_occurs_rest chunks
          rw [makeDecoded_inclusive (show grown.codec.inclusive = true from hinclusive)] at hyields
          have hall := Decoder.Reads.chunk (d := decoder ac IoError) (s := s) hyields hreads
          rw [← List.map_append, ← List.append_assoc] at hall
          exact ⟨_, last, .delimited (hcut.append hmore), hall⟩
      | piece _ _ hheader _ => simp [grown, awaitsHeader, hinclusive, hseen] at hheader
      | @nothing searchFrom hnot hsearched hdecode =>
          let left : Framed := ⟨{ s.codec with searchFrom := searchFrom }, s.src ++ chunk⟩
          obtain ⟨items, last, hgiven, hreads⟩ :=
            ih (s := left) hne hinclusive hseen hopen hsearched hnot
          exact ⟨items, last, hgiven, .chunk (.stop hdecode) hreads⟩

/-- A reader of an inclusive codec is given each message with its delimiter and
nothing that is not in the stream, unless a stream that is not empty has no
delimiter. -/
theorem inclusive_decoding_iff (ac : AhoCorasickCrate) (IoError : Type) {delimiter : Bytes}
    (hne : delimiter ≠ []) (chunks : List Bytes) :
    (∃ log last,
      (decoder ac IoError).framedRead (.fresh delimiter true) chunks = .ok (log, last) ∧
      log.map Prod.fst = inclusivePieces delimiter chunks.flatten ∧
      ∀ entry ∈ log, entry.1 <:+: chunks.flatten) ↔
        chunks.flatten = [] ∨ delimiter <:+: chunks.flatten := by
  have hnot : ¬ delimiter <:+: [] := by
    rw [List.infix_nil]
    exact hne
  obtain ⟨items, last, hgiven, hreads⟩ := reads_awaiting ac IoError (s := .fresh delimiter true)
    hne rfl rfl rfl (Searched.zero _ _) hnot chunks
  obtain ⟨log, hlog, hitems⟩ := hreads.framedRead
  change Given delimiter chunks.flatten items at hgiven
  rw [hlog]
  have hpieces (heq : items = inclusivePieces delimiter chunks.flatten) :
      ∃ log' last', Outcome.ok (log, last) = (.ok (log', last') : Outcome (Error IoError) _) ∧
        log'.map Prod.fst = inclusivePieces delimiter chunks.flatten ∧
        ∀ entry ∈ log', entry.1 <:+: chunks.flatten := by
    refine ⟨log, last, rfl, hitems.trans heq, ?_⟩
    intro entry hentry
    have hmem : entry.1 ∈ inclusivePieces delimiter chunks.flatten := by
      rw [← heq, ← hitems]
      exact List.mem_map_of_mem hentry
    exact inclusivePieces_isInfix hmem
  cases hgiven with
  | delimited hcut =>
      exact iff_of_true (hpieces hcut.inclusivePieces_eq.symm) (.inr hcut.occurs)
  | empty hstream =>
      refine iff_of_true (hpieces ?_) (.inl hstream)
      rw [hstream, inclusivePieces_of_not_occurs hnot]
  | undelimited hstream hundelimited =>
      refine iff_of_false ?_ (by simp [hstream, hundelimited])
      rintro ⟨log', last', hsame, hequal, _⟩
      cases hsame
      rw [hitems, inclusivePieces_of_not_occurs hundelimited] at hequal
      cases hequal

theorem inclusive_decoding_bytes : ∃ log last,
    (decoder .reference Unit).framedRead (.fresh [0, 1] true) [[7, 0], [1, 2, 0, 0, 1]] =
      .ok (log, last) ∧ log.map Prod.fst = [[0, 1, 2, 0], [0, 1]] := by
  obtain ⟨log, last, hlog, hitems, _⟩ :=
    (inclusive_decoding_iff .reference Unit (show ([0, 1] : Bytes) ≠ [] by decide)
      [[7, 0], [1, 2, 0, 0, 1]]).mpr (by decide)
  exact ⟨log, last, hlog, hitems⟩

/-- One byte that is not the delimiter is given, behind the delimiter. -/
theorem inclusive_decoding_undelimited :
    (∃ log last, (decoder .reference Unit).framedRead (.fresh [0] true) [[1]] = .ok (log, last) ∧
      log.map Prod.fst = [[0, 1]]) ∧
    inclusivePieces [0] ([[1]] : List Bytes).flatten = [] ∧
    ¬ ∃ log last, (decoder .reference Unit).framedRead (.fresh [0] true) [[1]] =
      .ok (log, last) ∧ log.map Prod.fst = inclusivePieces [0] ([[1]] : List Bytes).flatten := by
  have hread : ∃ last, (decoder .reference Unit).framedRead (.fresh [0] true) [[1]] =
      .ok ([([0, 1], last)], last) := ⟨_, rfl⟩
  obtain ⟨final, hread⟩ := hread
  refine ⟨⟨_, _, hread, rfl⟩, by decide, ?_⟩
  rintro ⟨log, last, hlog, hitems⟩
  cases hread.symm.trans hlog
  rw [show inclusivePieces [0] ([[1]] : List Bytes).flatten = [] by decide] at hitems
  cases hitems

end AllDelimiterCodec

end AntRelay.Codec
