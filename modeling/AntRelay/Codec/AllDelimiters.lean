import AntRelay.Base.Framing
import AntRelay.Base.Loop
import AntRelay.Base.Search
import AntRelay.Codec.BytesMut

namespace AntRelay.Codec
open AntRelay.Base
open AntRelay.Base.Delimited

/-! `AllDelimiterCodec` over the third-party `aho_corasick` crate. The codec
looks for the longest prefix of its delimiter and remembers where to go on. -/

/-- The `aho_corasick` crate, for automata built with `MatchKind::LeftmostLongest`. -/
structure AhoCorasickCrate where
  find : List Bytes → Bytes → Option Match
  find_some : ∀ {patterns haystack mat}, [] ∉ patterns → find patterns haystack = some mat →
    LeftmostLongest patterns haystack mat
  find_none : ∀ {patterns haystack}, [] ∉ patterns → find patterns haystack = none →
    ∀ pattern ∈ patterns, ¬ pattern <:+: haystack

def AhoCorasickCrate.reference : AhoCorasickCrate where
  find := leftmostLongest
  find_some := fun _ => leftmostLongest_some
  find_none := fun _ => leftmostLongest_none

/-- Its automaton is built from the prefixes of the delimiter. -/
structure AllDelimiterCodec where
  inclusive : Bool
  delimiter : Bytes
  inclusiveSeenHeader : Bool
  inclusiveTerminated : Bool
  searchFrom : Nat
  deriving DecidableEq

namespace AllDelimiterCodec

def new (delimiter : Bytes) (inclusive : Bool) : AllDelimiterCodec where
  inclusive := inclusive
  delimiter := delimiter
  inclusiveSeenHeader := false
  inclusiveTerminated := false
  searchFrom := 0

inductive Error (IoError : Type) where
  | inclusiveMismatch
  | io (err : IoError)
  deriving DecidableEq

variable {IoError : Type}

def makeDecoded (codec : AllDelimiterCodec) (b : Bytes) : Bytes :=
  if !codec.inclusive then b else codec.delimiter ++ b

/-- `encode(item, dst)`, as the `dst` it leaves. -/
def encode (codec : AllDelimiterCodec) (item dst : Bytes) : Outcome (Error IoError) Bytes :=
  if codec.inclusive && !codec.delimiter.isPrefixOf item then .error .inclusiveMismatch
  else
    let dst := dst ++ item
    pure (if !codec.inclusive then dst ++ codec.delimiter else dst)

def awaitsHeader (codec : AllDelimiterCodec) : Bool :=
  codec.inclusive && !codec.inclusiveSeenHeader

structure Framed where
  codec : AllDelimiterCodec
  src : Bytes
  deriving DecidableEq

variable (ac : AhoCorasickCrate)

def decodeRound (s : Framed) :
    Outcome (Error IoError) (Round Framed (Option Bytes × Framed)) := do
  let unread ← sliceFrom s.src s.codec.searchFrom
  match ac.find (prefixes s.codec.delimiter) unread with
  | some mat =>
      if mat.stop - mat.start = s.codec.delimiter.length then do
        let (result, src) ← splitTo s.src (s.codec.searchFrom + mat.stop)
        let codec := { s.codec with searchFrom := 0 }
        let result := truncate result (result.length - codec.delimiter.length)
        if codec.awaitsHeader then
          pure (.again ⟨{ codec with inclusiveSeenHeader := true }, src⟩)
        else
          pure (.leave (some (codec.makeDecoded result), ⟨codec, src⟩))
      else if s.codec.searchFrom + mat.stop = s.src.length then
        let codec := { s.codec with searchFrom := s.codec.searchFrom + mat.start }
        pure (.leave (none, ⟨codec, s.src⟩))
      else
        let codec := { s.codec with searchFrom := s.codec.searchFrom + mat.start + 1 }
        pure (.again ⟨codec, s.src⟩)
  | none => pure (.leave (none, ⟨{ s.codec with searchFrom := s.src.length }, s.src⟩))

inductive Turn (s : Framed) : Round Framed (Option Bytes × Framed) → Prop where
  | header {mat : Match} :
      LeftmostLongest (prefixes s.codec.delimiter) (s.src.drop s.codec.searchFrom) mat →
      mat.stop - mat.start = s.codec.delimiter.length → s.codec.awaitsHeader = true →
      Turn s (.again ⟨{ s.codec with searchFrom := 0, inclusiveSeenHeader := true },
        s.src.drop (s.codec.searchFrom + mat.stop)⟩)
  | item {mat : Match} :
      LeftmostLongest (prefixes s.codec.delimiter) (s.src.drop s.codec.searchFrom) mat →
      mat.stop - mat.start = s.codec.delimiter.length → s.codec.awaitsHeader = false →
      Turn s (.leave (some (s.codec.makeDecoded (s.src.take (s.codec.searchFrom + mat.start))),
        ⟨{ s.codec with searchFrom := 0 }, s.src.drop (s.codec.searchFrom + mat.stop)⟩))
  | partAtEnd {mat : Match} :
      LeftmostLongest (prefixes s.codec.delimiter) (s.src.drop s.codec.searchFrom) mat →
      mat.stop - mat.start ≠ s.codec.delimiter.length →
      s.codec.searchFrom + mat.stop = s.src.length →
      Turn s (.leave (none,
        ⟨{ s.codec with searchFrom := s.codec.searchFrom + mat.start }, s.src⟩))
  | partInside {mat : Match} :
      LeftmostLongest (prefixes s.codec.delimiter) (s.src.drop s.codec.searchFrom) mat →
      mat.stop - mat.start ≠ s.codec.delimiter.length →
      s.codec.searchFrom + mat.stop ≠ s.src.length →
      Turn s (.again ⟨{ s.codec with searchFrom := s.codec.searchFrom + mat.start + 1 }, s.src⟩)
  | notFound :
      (∀ front ∈ prefixes s.codec.delimiter,
        ¬ front <:+: s.src.drop s.codec.searchFrom) →
      Turn s (.leave (none, ⟨{ s.codec with searchFrom := s.src.length }, s.src⟩))

theorem nil_not_mem_prefixes (delimiter : Bytes) : [] ∉ prefixes delimiter := by
  intro hmem
  exact (mem_prefixes.mp hmem).1 rfl

variable {ac}

theorem decodeRound_turn (ac : AhoCorasickCrate) (IoError : Type) {s : Framed}
    (h : s.codec.searchFrom ≤ s.src.length) :
    ∃ round, (decodeRound ac s : Outcome (Error IoError) _) = .ok round ∧ Turn s round := by
  have hnil := nil_not_mem_prefixes s.codec.delimiter
  unfold decodeRound
  rw [sliceFrom_of_le h, Outcome.ok_bind]
  split
  · rename_i mat hfind
    have hmat := ac.find_some hnil hfind
    obtain ⟨hlt, hle, _⟩ := hmat.bounds
    rw [List.length_drop] at hle
    split
    · rename_i hfull
      have hresult : truncate (s.src.take (s.codec.searchFrom + mat.stop))
          ((s.src.take (s.codec.searchFrom + mat.stop)).length - s.codec.delimiter.length) =
          s.src.take (s.codec.searchFrom + mat.start) := by
        rw [truncate, List.take_take, List.length_take]
        congr 1
        omega
      rw [splitTo_of_le (by omega), Outcome.ok_bind]
      dsimp only
      rw [hresult]
      split
      · rename_i hheader
        exact ⟨_, rfl, .header hmat hfull hheader⟩
      · rename_i hheader
        exact ⟨_, rfl, .item hmat hfull (Bool.eq_false_of_not_eq_true hheader)⟩
    · rename_i hpart
      split
      · rename_i hend
        exact ⟨_, rfl, .partAtEnd hmat hpart hend⟩
      · rename_i hend
        exact ⟨_, rfl, .partInside hmat hpart hend⟩
  · rename_i hfind
    exact ⟨_, rfl, .notFound (ac.find_none hnil hfind)⟩

theorem searchFrom_le_of_ok {s : Framed} {round : Round Framed (Option Bytes × Framed)}
    (h : (decodeRound ac s : Outcome (Error IoError) _) = .ok round) :
    s.codec.searchFrom ≤ s.src.length := by
  rw [decodeRound, Outcome.bind_eq_ok] at h
  obtain ⟨unread, hunread, _⟩ := h
  rw [sliceFrom] at hunread
  split at hunread
  · assumption
  · cases hunread

theorem turn_of_ok {s : Framed} {round : Round Framed (Option Bytes × Framed)}
    (h : (decodeRound ac s : Outcome (Error IoError) _) = .ok round) : Turn s round := by
  obtain ⟨round', h', hturn⟩ := decodeRound_turn ac IoError (searchFrom_le_of_ok h)
  rw [h] at h'
  cases h'
  exact hturn

variable (ac)

/-- The loop in `decode`: a header is cut off once, and every other round moves
the search forward. -/
def decodeLoop (IoError : Type) : Loop Framed (Error IoError) (Option Bytes × Framed) where
  body := decodeRound ac
  measure := fun s =>
    (if s.codec.awaitsHeader then s.src.length + 1 else 0) +
      (s.src.length + 1 - s.codec.searchFrom)
  again_lt := by
    intro s s' h
    have hle := searchFrom_le_of_ok h
    cases turn_of_ok h with
    | header hmat _ hheader =>
        obtain ⟨hlt, _, _⟩ := hmat.bounds
        rw [if_pos hheader, if_neg (by simp [awaitsHeader]), List.length_drop]
        omega
    | partInside hmat _ _ =>
        obtain ⟨hlt, hstop, _⟩ := hmat.bounds
        rw [List.length_drop] at hstop
        change (if s.codec.awaitsHeader then _ else _) + _ <
          (if s.codec.awaitsHeader then _ else _) + _
        dsimp only
        omega

/-- `decode(src)`, as the item and what it leaves. -/
def decode (s : Framed) : Outcome (Error IoError) (Option Bytes × Framed) :=
  (decodeLoop ac IoError).run s

def decodeEof (s : Framed) : Outcome (Error IoError) (Option Bytes × Framed) :=
  if !s.codec.inclusive then decode ac s
  else if s.src.isEmpty then
    if s.codec.inclusiveSeenHeader && !s.codec.inclusiveTerminated then
      let codec := { s.codec with inclusiveTerminated := true }
      pure (some (codec.makeDecoded []), ⟨codec, s.src⟩)
    else pure (none, s)
  else do
    let (result, s) ← decode ac s
    match result with
    | some item => pure (some item, s)
    | none =>
        let codec := { s.codec with inclusiveTerminated := true, searchFrom := 0 }
        pure (some (codec.makeDecoded s.src), ⟨codec, []⟩)

/-- What is in the buffer, and the message that the end of the stream would
still terminate. -/
def remaining (s : Framed) : Nat :=
  s.src.length + if s.codec.inclusiveSeenHeader && !s.codec.inclusiveTerminated then 1 else 0

variable {ac}

theorem decode_of_again {s s' : Framed}
    (h : decodeRound ac s = (.ok (.again s') : Outcome (Error IoError) _)) :
    decode ac s = (decode ac s' : Outcome (Error IoError) _) :=
  Loop.run_of_again (l := decodeLoop ac IoError) h

theorem decode_of_leave {s : Framed} {result : Option Bytes × Framed}
    (h : decodeRound ac s = (.ok (.leave result) : Outcome (Error IoError) _)) :
    decode ac s = (.ok result : Outcome (Error IoError) _) :=
  Loop.run_of_leave (l := decodeLoop ac IoError) h

theorem remaining_of_terminated {s : Framed} (h : s.codec.inclusiveTerminated = true) :
    remaining s = s.src.length := by
  simp [remaining, h]

theorem decode_remaining_lt {s s' : Framed} {item : Bytes}
    (h : (decode ac s : Outcome (Error IoError) _) = .ok (some item, s')) :
    remaining s' < remaining s := by
  induction s using (decodeLoop ac IoError).induction with
  | round s ih =>
      rcases Loop.run_eq_ok h with ⟨next, hbody, hnext⟩ | hbody
      · apply (ih next hbody hnext).trans_le
        have hle := searchFrom_le_of_ok hbody
        cases turn_of_ok hbody with
        | header hmat _ _ =>
            obtain ⟨hlt, hstop, _⟩ := hmat.bounds
            rw [List.length_drop] at hstop
            simp only [remaining, List.length_drop]
            split <;> split <;> omega
        | partInside _ _ _ => exact le_rfl
      · cases turn_of_ok hbody with
        | item hmat _ _ =>
            obtain ⟨hlt, hstop, _⟩ := hmat.bounds
            rw [List.length_drop] at hstop
            simp only [remaining, List.length_drop]
            omega

theorem decodeEof_remaining_lt {s s' : Framed} {item : Bytes}
    (h : (decodeEof ac s : Outcome (Error IoError) _) = .ok (some item, s')) :
    remaining s' < remaining s := by
  unfold decodeEof at h
  split at h
  · exact decode_remaining_lt h
  · split at h
    · split at h
      · rename_i hflags
        cases h
        rw [remaining_of_terminated rfl, remaining, if_pos hflags]
        exact Nat.lt_add_one _
      · cases h
    · rename_i hsrc
      rw [Outcome.bind_eq_ok] at h
      obtain ⟨⟨result, next⟩, hdecode, h⟩ := h
      cases result with
      | some item =>
          cases h
          exact decode_remaining_lt hdecode
      | none =>
          cases h
          have hpos := List.length_pos_iff.mpr (mt List.isEmpty_iff.mpr hsrc)
          rw [remaining_of_terminated rfl, remaining, List.length_nil]
          omega

def decoder (ac : AhoCorasickCrate) (IoError : Type) : Decoder Framed (Error IoError) Bytes where
  append := fun s chunk => ⟨s.codec, s.src ++ chunk⟩
  decode := decode ac
  decodeEof := decodeEof ac
  measure := remaining
  decode_lt := decode_remaining_lt
  decodeEof_lt := decodeEof_remaining_lt

def Framed.fresh (delimiter : Bytes) (inclusive : Bool) : Framed :=
  ⟨new delimiter inclusive, []⟩

/-- The bytes that the search will not look at again are done with. -/
def Framed.Searched (s : Framed) : Prop :=
  Delimited.Searched s.codec.delimiter s.src s.codec.searchFrom

inductive Finds (ac : AhoCorasickCrate) (IoError : Type) (s : Framed) : Prop where
  | header {piece behind : Bytes} :
      s.src = piece ++ (s.codec.delimiter ++ behind) → First s.codec.delimiter piece →
      s.codec.awaitsHeader = true →
      decode ac s = (decode ac
        ⟨{ s.codec with searchFrom := 0, inclusiveSeenHeader := true }, behind⟩ :
          Outcome (Error IoError) _) → Finds ac IoError s
  | piece {piece behind : Bytes} :
      s.src = piece ++ (s.codec.delimiter ++ behind) → First s.codec.delimiter piece →
      s.codec.awaitsHeader = false →
      decode ac s = (.ok (some (s.codec.makeDecoded piece),
        ⟨{ s.codec with searchFrom := 0 }, behind⟩) : Outcome (Error IoError) _) →
      Finds ac IoError s
  | nothing {searchFrom : Nat} :
      ¬ s.codec.delimiter <:+: s.src →
      Delimited.Searched s.codec.delimiter s.src searchFrom →
      decode ac s = (.ok (none, ⟨{ s.codec with searchFrom := searchFrom }, s.src⟩) :
        Outcome (Error IoError) _) → Finds ac IoError s

theorem decode_finds (ac : AhoCorasickCrate) (IoError : Type) {s : Framed}
    (hne : s.codec.delimiter ≠ []) (h : s.Searched) : Finds ac IoError s := by
  induction s using (decodeLoop ac IoError).induction with
  | round s ih =>
      obtain ⟨round, hbody, hturn⟩ := decodeRound_turn ac IoError h.le
      cases hturn with
      | header hmat hfull hheader =>
          obtain ⟨hsrc, hfirst⟩ := h.found_full hmat hne hfull
          exact .header hsrc hfirst hheader (decode_of_again hbody)
      | item hmat hfull hheader =>
          obtain ⟨hsrc, hfirst⟩ := h.found_full hmat hne hfull
          exact .piece hsrc hfirst hheader (decode_of_leave hbody)
      | partAtEnd hmat hpart hend =>
          obtain ⟨hsearched, hnot⟩ := h.found_part_at_end hmat hpart hend
          exact .nothing hnot hsearched (decode_of_leave hbody)
      | partInside hmat hpart hend =>
          have hsearched := h.found_part_inside hmat hpart hend
          have hrun := decode_of_again hbody
          cases ih _ hbody hne hsearched with
          | header hsrc hfirst hheader hdecode =>
              exact .header hsrc hfirst hheader (hrun.trans hdecode)
          | piece hsrc hfirst hheader hdecode =>
              exact .piece hsrc hfirst hheader (hrun.trans hdecode)
          | nothing hnot hsearched' hdecode =>
              exact .nothing hnot hsearched' (hrun.trans hdecode)
      | notFound hnone =>
          obtain ⟨hsearched, hnot⟩ := h.not_found hne hnone
          exact .nothing hnot hsearched (decode_of_leave hbody)

theorem decode_of_not_occurs (ac : AhoCorasickCrate) (IoError : Type) {s : Framed}
    (hne : s.codec.delimiter ≠ []) (h : s.Searched) (hnot : ¬ s.codec.delimiter <:+: s.src) :
    ∃ searchFrom, Delimited.Searched s.codec.delimiter s.src searchFrom ∧
      decode ac s = (.ok (none, ⟨{ s.codec with searchFrom := searchFrom }, s.src⟩) :
        Outcome (Error IoError) _) := by
  have hpiece (piece behind : Bytes) : s.src ≠ piece ++ (s.codec.delimiter ++ behind) := by
    intro hsrc
    apply hnot
    rw [hsrc]
    exact List.infix_append' _ _ _
  cases decode_finds ac IoError hne h with
  | header hsrc _ _ _ => exact absurd hsrc (hpiece _ _)
  | piece hsrc _ _ _ => exact absurd hsrc (hpiece _ _)
  | nothing _ hsearched hdecode => exact ⟨_, hsearched, hdecode⟩

theorem decode_searched (ac : AhoCorasickCrate) (IoError : Type) {s : Framed}
    (hne : s.codec.delimiter ≠ []) (h : s.Searched) :
    ∃ result s', decode ac s = (.ok (result, s') : Outcome (Error IoError) _) ∧ s'.Searched ∧
      s'.codec.delimiter = s.codec.delimiter := by
  cases decode_finds ac IoError hne h with
  | @header piece behind _ _ _ hdecode =>
      let next : Framed :=
        ⟨{ s.codec with searchFrom := 0, inclusiveSeenHeader := true }, behind⟩
      have hstart : next.Searched := Searched.zero _ _
      rw [hdecode]
      cases decode_finds ac IoError (s := next) hne hstart with
      | header _ _ hheader _ => simp [next, awaitsHeader] at hheader
      | piece _ _ _ hnext => exact ⟨_, _, hnext, Searched.zero _ _, rfl⟩
      | nothing _ hsearched hnext => exact ⟨_, _, hnext, hsearched, rfl⟩
  | piece _ _ _ hdecode => exact ⟨_, _, hdecode, Searched.zero _ _, rfl⟩
  | nothing _ hsearched hdecode => exact ⟨_, _, hdecode, hsearched, rfl⟩

theorem decodeEof_searched (ac : AhoCorasickCrate) (IoError : Type) {s : Framed}
    (hne : s.codec.delimiter ≠ []) (h : s.Searched) :
    ∃ result s', decodeEof ac s = (.ok (result, s') : Outcome (Error IoError) _) ∧ s'.Searched ∧
      s'.codec.delimiter = s.codec.delimiter := by
  obtain ⟨result, s', hdecode, hsearched, hdelimiter⟩ := decode_searched ac IoError hne h
  unfold decodeEof
  split
  · exact ⟨result, s', hdecode, hsearched, hdelimiter⟩
  · split
    · split
      · exact ⟨_, _, rfl, h, rfl⟩
      · exact ⟨_, _, rfl, h, rfl⟩
    · rw [hdecode, Outcome.ok_bind]
      cases result with
      | some item => exact ⟨_, _, rfl, hsearched, hdelimiter⟩
      | none => exact ⟨_, _, rfl, Searched.zero _ _, hdelimiter⟩

/-- The search never misses anything, whatever arrives and whichever call is made. -/
theorem searched_of_reachable {IoError : Type} {delimiter : Bytes} {inclusive : Bool}
    (hne : delimiter ≠ []) {s : Framed}
    (h : (decoder ac IoError).Reachable (.fresh delimiter inclusive) s) :
    s.Searched ∧ s.codec.delimiter = delimiter := by
  induction h with
  | start => exact ⟨Searched.zero _ _, rfl⟩
  | append _ chunk ih => exact ⟨Searched.append ih.1 chunk, ih.2⟩
  | decode _ hcall ih =>
      obtain ⟨result, s', hdecode, hsearched, hdelimiter⟩ :=
        decode_searched ac IoError (ih.2 ▸ hne) ih.1
      cases hcall.symm.trans hdecode
      exact ⟨hsearched, hdelimiter.trans ih.2⟩
  | decodeEof _ hcall ih =>
      obtain ⟨result, s', hdecode, hsearched, hdelimiter⟩ :=
        decodeEof_searched ac IoError (ih.2 ▸ hne) ih.1
      cases hcall.symm.trans hdecode
      exact ⟨hsearched, hdelimiter.trans ih.2⟩

theorem yields_pieces (ac : AhoCorasickCrate) (IoError : Type) {s : Framed}
    (hne : s.codec.delimiter ≠ []) (h : s.Searched) (hheader : s.codec.awaitsHeader = false) :
    ∃ pieces rest searchFrom, Cut s.codec.delimiter s.src pieces rest ∧
      Delimited.Searched s.codec.delimiter rest searchFrom ∧
      Yields (decode ac : Framed → Outcome (Error IoError) _) s
        (pieces.map s.codec.makeDecoded) ⟨{ s.codec with searchFrom := searchFrom }, rest⟩ := by
  induction hlength : s.src.length using Nat.strong_induction_on generalizing s with
  | _ n ih =>
      cases decode_finds ac IoError hne h with
      | header _ _ hawaits _ => simp [hheader] at hawaits
      | @piece piece behind hsrc hfirst _ hdecode =>
          let next : Framed := ⟨{ s.codec with searchFrom := 0 }, behind⟩
          have hstart : next.Searched := Searched.zero _ _
          have hpos := List.length_pos_iff.mpr hne
          rw [hsrc, List.length_append, List.length_append] at hlength
          obtain ⟨pieces, rest, searchFrom, hcut, hsearched, hyields⟩ :=
            ih behind.length (by omega) (s := next) hne hstart hheader rfl
          refine ⟨piece :: pieces, rest, searchFrom, ?_, hsearched, .item hdecode hyields⟩
          rw [hsrc]
          exact .piece hfirst hcut
      | nothing hnot hsearched hdecode =>
          exact ⟨[], s.src, _, .tail hnot, hsearched, .stop hdecode⟩

theorem yields_header (ac : AhoCorasickCrate) (IoError : Type) {s : Framed}
    (hne : s.codec.delimiter ≠ []) {piece behind : Bytes}
    (hsrc : s.src = piece ++ (s.codec.delimiter ++ behind)) (hfirst : First s.codec.delimiter piece)
    (hdecode : decode ac s = (decode ac
      ⟨{ s.codec with searchFrom := 0, inclusiveSeenHeader := true }, behind⟩ :
        Outcome (Error IoError) _)) :
    ∃ pieces rest searchFrom, Cut s.codec.delimiter s.src (piece :: pieces) rest ∧
      Delimited.Searched s.codec.delimiter rest searchFrom ∧
      Yields (decode ac : Framed → Outcome (Error IoError) _) s (pieces.map s.codec.makeDecoded)
        ⟨{ s.codec with searchFrom := searchFrom, inclusiveSeenHeader := true }, rest⟩ := by
  let next : Framed := ⟨{ s.codec with searchFrom := 0, inclusiveSeenHeader := true }, behind⟩
  have hstart : next.Searched := Searched.zero _ _
  have hheader : next.codec.awaitsHeader = false := by simp [next, awaitsHeader]
  obtain ⟨pieces, rest, searchFrom, hcut, hsearched, hyields⟩ :=
    yields_pieces ac IoError (s := next) hne hstart hheader
  refine ⟨pieces, rest, searchFrom, ?_, hsearched, hyields.of_call_eq hdecode⟩
  rw [hsrc]
  exact .piece hfirst hcut

/-- However the stream is cut into chunks, it is read piece by piece.  What is
given at its end depends on the mode. -/
theorem reads_pieces (ac : AhoCorasickCrate) (IoError : Type) {s : Framed}
    (hne : s.codec.delimiter ≠ []) (h : s.Searched) (hheader : s.codec.awaitsHeader = false)
    (hrest : ¬ s.codec.delimiter <:+: s.src) (ending : Bytes → List Bytes)
    (hend : ∀ (rest : Bytes) (searchFrom : Nat),
      Delimited.Searched s.codec.delimiter rest searchFrom → ¬ s.codec.delimiter <:+: rest →
      ∃ last, Yields (decodeEof ac : Framed → Outcome (Error IoError) _)
        ⟨{ s.codec with searchFrom := searchFrom }, rest⟩ (ending rest) last)
    (chunks : List Bytes) :
    ∃ pieces rest last, Cut s.codec.delimiter (s.src ++ chunks.flatten) pieces rest ∧
      (decoder ac IoError).Reads s chunks
        (pieces.map s.codec.makeDecoded ++ ending rest) last := by
  induction chunks generalizing s with
  | nil =>
      obtain ⟨last, hyields⟩ := hend _ _ h hrest
      rw [List.flatten_nil, List.append_nil]
      exact ⟨[], s.src, last, .tail hrest, .ends hyields⟩
  | cons chunk chunks ih =>
      let grown : Framed := ⟨s.codec, s.src ++ chunk⟩
      have hgrown : grown.Searched := Searched.append h chunk
      obtain ⟨pieces, rest, searchFrom, hcut, hsearched, hyields⟩ :=
        yields_pieces ac IoError (s := grown) hne hgrown hheader
      let left : Framed := ⟨{ s.codec with searchFrom := searchFrom }, rest⟩
      obtain ⟨more, rest', last, hmore, hreads⟩ :=
        ih (s := left) hne hsearched hheader hcut.not_occurs_rest hend
      rw [List.flatten_cons, ← List.append_assoc]
      refine ⟨pieces ++ more, rest', last, hcut.append hmore, ?_⟩
      rw [List.map_append, List.append_assoc]
      exact .chunk hyields hreads

end AllDelimiterCodec

end AntRelay.Codec
