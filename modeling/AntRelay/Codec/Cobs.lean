import AntRelay.Base.CobsStream
import AntRelay.Base.Framing
import AntRelay.Codec.BytesMut

namespace AntRelay.Codec
open AntRelay.Base
open AntRelay.Base.Cobs

/-! `CobsCodec` over the third-party `cobs` crate. The crate is a parameter; its
fields say what the codec relies on. -/

/-- The `cobs` crate.  An encode call gets a source and a destination slice and
returns how many bytes it counts and what the slice holds then. -/
structure CobsCrate where
  maxEncodingLength : Nat → Nat
  encode : Bytes → Bytes → Nat × Bytes
  decodeInPlaceReport : Bytes → Option DecodeReport × Bytes
  -- An empty source encodes to nothing, any other to a standard form, and the rest of
  -- the slice is left alone. Behind full groups alone one more byte is counted than
  -- the slice has.
  encode_form : ∀ source dest : Bytes, dest.length = maxEncodingLength source.length →
    ∃ form : Bytes, (if source = [] then form = [] else Stuffs source form) ∧
      form.length ≤ dest.length ∧
      encode source dest = (form.length + (if FullGroups source then 1 else 0),
        form ++ dest.drop form.length)
  decode_inPlace : ∀ buf, decodeInPlaceReport buf = Cobs.decodeInPlaceReport buf

/-- The reference encoder on a slice: what is past the slice is counted and left out. -/
def stuffInto (source dest : Bytes) : Nat × Bytes :=
  ((stuff source).length, (stuff source ++ dest.drop (stuff source).length).take dest.length)

theorem stuffInto_form (source dest : Bytes)
    (hdest : dest.length = Cobs.maxEncodingLength source.length) :
    ∃ form : Bytes, (if source = [] then form = [] else Stuffs source form) ∧
      form.length ≤ dest.length ∧
      stuffInto source dest = (form.length + (if FullGroups source then 1 else 0),
        form ++ dest.drop form.length) := by
  unfold stuffInto
  by_cases hfull : FullGroups source
  · obtain ⟨form, hform, hstuffs, hlen⟩ := stuff_fullGroups hfull
    rw [← hdest] at hlen
    refine ⟨form, by rwa [if_neg hfull.1], hlen.le, ?_⟩
    rw [hform, if_pos hfull, List.append_assoc, ← hlen, List.take_left, List.length_append,
      hlen, List.drop_length, List.append_nil]
    rfl
  · have hle := stuff_length_le hfull
    rw [← hdest] at hle
    refine ⟨stuff source, ?_, hle, ?_⟩
    · split
      · rename_i hsource
        rw [hsource, stuff]
      · rename_i hsource
        exact stuffs_stuff hsource
    · rw [if_neg hfull, Nat.add_zero, List.take_of_length_le]
      rw [List.length_append, List.length_drop]
      omega

def CobsCrate.reference : CobsCrate where
  maxEncodingLength := Cobs.maxEncodingLength
  encode := stuffInto
  decodeInPlaceReport := Cobs.decodeInPlaceReport
  encode_form := stuffInto_form
  decode_inPlace := fun _ => rfl

inductive Error (IoError : Type) where
  | cobsProtocol
  | io (err : IoError)
  deriving DecidableEq

variable {IoError : Type}

abbrev Item (IoError : Type) := Except (Error IoError) Bytes

namespace CobsCodec

variable (cobs : CobsCrate)

/-- `encode(item, dst)`, as the `dst` it leaves. -/
def encode (item dst : Bytes) : Outcome (Error IoError) Bytes := do
  let oldLen := dst.length
  let dst := resize dst (oldLen + cobs.maxEncodingLength item.length)
  let (kept, room) ← splitAt dst oldLen
  let (count, room) := cobs.encode item room
  pure (resize (kept ++ room) (oldLen + count + 1))

/-- `decode(src)`, as the item and the `src` it leaves. -/
def decode (src : Bytes) : Outcome IoError (Option (Item IoError) × Bytes) :=
  if src.isEmpty || !src.contains 0 then pure (none, src)
  else
    match cobs.decodeInPlaceReport src with
    | (none, src) =>
        match src.findIdx? (· == 0) with
        | some pos => do
            let src ← advance src (pos + 1)
            pure (some (.error .cobsProtocol), src)
        | none => pure (some (.error .cobsProtocol), src)
    | (some report, src) => do
        let unread ← sliceFrom src report.srcUsed
        let nextZero := if unread.head? = some 0 then 1 else 0
        let (result, src) ← splitTo src (report.srcUsed + nextZero)
        pure (some (.ok (truncate result report.dstUsed)), src)

def decodeEof (buf : Bytes) : Outcome IoError (Option (Item IoError) × Bytes) :=
  let buf := if !buf.isEmpty && buf.getLast? != some 0 then resize buf (buf.length + 1) else buf
  decode cobs buf

end CobsCodec

/-- What a frame on its own stands for. -/
def frameItem (frame : Bytes) : Item IoError :=
  match unstuff frame with
  | some data => .ok data
  | none => .error .cobsProtocol

def afterZero (buf : Bytes) : Bytes :=
  (buf.dropWhile (· != 0)).tail

theorem afterZero_append {front : Bytes} (h : (0 : UInt8) ∉ front) (back : Bytes) :
    afterZero (front ++ 0 :: back) = back := by
  unfold afterZero
  rw [List.dropWhile_append_of_pos (by
    intro byte hbyte
    rw [bne_iff_ne]
    rintro rfl
    exact h hbyte)]
  rfl

theorem findIdx?_zero_append {front : Bytes} (h : (0 : UInt8) ∉ front) (back : Bytes) :
    (front ++ 0 :: back).findIdx? (· == 0) = some front.length := by
  rw [List.findIdx?_append, List.findIdx?_eq_none_iff.mpr]
  · simp [List.findIdx?_cons]
  · intro byte hbyte
    rw [beq_eq_false_iff_ne]
    rintro rfl
    exact h hbyte

theorem findIdx_zero_append {front : Bytes} (h : (0 : UInt8) ∉ front) (back : Bytes) :
    (front ++ 0 :: back).findIdx (· == 0) = front.length :=
  (List.findIdx?_eq_some_iff_findIdx_eq.mp (findIdx?_zero_append h back)).2

namespace CobsCodec

variable {cobs : CobsCrate}

theorem decode_of_zero_not_mem {src : Bytes} (h : (0 : UInt8) ∉ src) :
    decode cobs src = (.ok (none, src) : Outcome IoError _) := by
  rw [decode, if_pos]
  · rfl
  · simp [h]

section Frame

variable {frame : Bytes}

theorem decodeInPlaceReport_frame (cobs : CobsCrate) (hz : (0 : UInt8) ∉ frame)
    {written : Bytes} {fails : Bool} (hover : Overwrites frame written fails)
    (hlen : written.length ≤ frame.length) (behind : Bytes) :
    cobs.decodeInPlaceReport (frame ++ 0 :: behind) =
      (if fails then none else some ⟨written.length, frame.length⟩,
        overlay written frame ++ 0 :: behind) := by
  rw [cobs.decode_inPlace]
  exact hover.decodeInPlaceReport_eq hlen (findIdx_zero_append hz behind)

theorem decode_wellFormed (IoError : Type) (cobs : CobsCrate) {data : Bytes}
    (hz : (0 : UInt8) ∉ frame) (h : unstuff frame = some data) (behind : Bytes) :
    decode cobs (frame ++ 0 :: behind) =
      (.ok (some (.ok data), behind) : Outcome IoError _) := by
  obtain ⟨hlen, hover⟩ := overwrites_wellFormed hz h
  have hread := overlay_length hlen
  have hout : truncate (overlay data frame ++ [0]) data.length = data := by
    rw [truncate, overlay, List.append_assoc, List.take_left]
  rw [decode, if_neg (by simp), decodeInPlaceReport_frame cobs hz hover hlen]
  simp only [Bool.false_eq_true, ↓reduceIte, ← hread]
  rw [sliceFrom_of_le (by simp), Outcome.ok_bind, List.drop_left, List.head?_cons, if_pos rfl,
    splitTo_of_le (by simp), Outcome.ok_bind, List.take_length_add_append,
    List.drop_length_add_append]
  simp only [List.take_succ_cons, List.take_zero, List.drop_succ_cons, List.drop_zero, hout]
  rfl

theorem decode_malformed (IoError : Type) (cobs : CobsCrate) {written : Bytes}
    (hz : (0 : UInt8) ∉ frame) (hover : Overwrites frame written true)
    (hlen : written.length ≤ frame.length) (behind : Bytes) :
    decode cobs (frame ++ 0 :: behind) = (.ok (some (.error .cobsProtocol),
      afterZero (overlay written frame ++ 0 :: behind)) : Outcome IoError _) := by
  rw [decode, if_neg (by simp), decodeInPlaceReport_frame cobs hz hover hlen]
  obtain ⟨before, after, hcat, hzero⟩ :=
    List.eq_append_cons_of_mem (show (0 : UInt8) ∈ overlay written frame ++ 0 :: behind by simp)
  simp only [↓reduceIte, hcat, findIdx?_zero_append hzero, afterZero_append hzero]
  rw [advance_of_le (by simp)]
  simp

end Frame

def Terminated (buf : Bytes) : Prop :=
  ∀ byte, buf.getLast? = some byte → byte = 0

instance (buf : Bytes) : Decidable (Terminated buf) :=
  match h : buf.getLast? with
  | none => .isTrue (by simp [Terminated, h])
  | some byte => decidable_of_iff (byte = 0) (by simp [Terminated, h])

theorem zero_mem_of_terminated {buf : Bytes} (h : Terminated buf) (hne : buf ≠ []) :
    (0 : UInt8) ∈ buf := by
  have hlast := h _ (List.getLast?_eq_some_getLast hne)
  rw [← hlast]
  exact List.getLast_mem hne

/-- A frame costs only itself when it is well formed, or when it fails before a
zero has been written. -/
def Survives (frame : Bytes) : Prop :=
  unstuff frame = none → FailsCleanly frame

/-- What a call leaves of its own frame in front of the bytes behind it. -/
structure Residue (frame residue : Bytes) : Prop where
  length_le : residue.length ≤ frame.length
  terminated : Terminated residue
  nil_iff : residue = [] ↔ Survives frame

/-- The first frame of a buffer gives its own item, whatever is behind it. -/
theorem decode_frame (IoError : Type) (cobs : CobsCrate) {frame : Bytes}
    (hz : (0 : UInt8) ∉ frame) : ∃ residue, Residue frame residue ∧ ∀ behind,
      decode cobs (frame ++ 0 :: behind) =
        (.ok (some (frameItem frame), residue ++ behind) : Outcome IoError _) := by
  cases h : unstuff frame with
  | some data =>
      refine ⟨[], ⟨Nat.zero_le _, by simp [Terminated], by simp [Survives, h]⟩, ?_⟩
      intro behind
      rw [decode_wellFormed IoError cobs hz h, frameItem, h, List.nil_append]
  | none =>
      obtain ⟨written, hlen, hclean, hover⟩ := overwrites_malformed hz h
      by_cases hzero : (0 : UInt8) ∈ written
      · -- the zero is taken for the terminator
        obtain ⟨before, after, rfl, hbefore⟩ := List.eq_append_cons_of_mem hzero
        refine ⟨after ++ frame.drop (before ++ 0 :: after).length ++ [0], ⟨?_, ?_, ?_⟩, ?_⟩
        · simp only [List.length_append, List.length_cons, List.length_drop,
            List.length_nil] at hlen ⊢
          omega
        · simp [Terminated]
        · refine iff_of_false (by simp) ?_
          intro hsurvives
          exact hclean.mpr (hsurvives h) hzero
        · intro behind
          rw [decode_malformed IoError cobs hz hover hlen, frameItem, h, overlay,
            List.append_assoc, List.append_assoc, List.cons_append, afterZero_append hbefore]
          simp
      · refine ⟨[], ⟨Nat.zero_le _, by simp [Terminated], ?_⟩, ?_⟩
        · exact iff_of_true rfl fun _ => hclean.mp hzero
        · intro behind
          have hover' : (0 : UInt8) ∉ overlay written frame := by
            rw [overlay, List.mem_append, not_or]
            exact ⟨hzero, fun hmem => hz (List.mem_of_mem_drop hmem)⟩
          rw [decode_malformed IoError cobs hz hover hlen, frameItem, h, afterZero_append hover',
            List.nil_append]

theorem decode_of_zero_mem (IoError : Type) (cobs : CobsCrate) {src : Bytes}
    (h : (0 : UInt8) ∈ src) : ∃ item left,
      decode cobs src = (.ok (some item, left) : Outcome IoError _) := by
  obtain ⟨frame, behind, rfl, hz⟩ := List.eq_append_cons_of_mem h
  obtain ⟨residue, _, hdecode⟩ := decode_frame IoError cobs hz
  exact ⟨_, _, hdecode behind⟩

theorem decode_eq_some {src left : Bytes} {item : Item IoError}
    (h : decode cobs src = .ok (some item, left)) :
    (0 : UInt8) ∈ src ∧ left.length < src.length ∧ (Terminated src → Terminated left) := by
  by_cases hmem : (0 : UInt8) ∈ src
  · obtain ⟨frame, behind, rfl, hz⟩ := List.eq_append_cons_of_mem hmem
    obtain ⟨residue, hresidue, hdecode⟩ := decode_frame IoError cobs hz
    rw [hdecode] at h
    cases h
    refine ⟨hmem, ?_, ?_⟩
    · have hle := hresidue.length_le
      rw [List.length_append, List.length_append, List.length_cons]
      omega
    · intro hterm byte hbyte
      by_cases hend : behind = []
      · rw [hend, List.append_nil] at hbyte
        exact hresidue.terminated byte hbyte
      · refine hterm byte ?_
        rw [List.getLast?_append_of_ne_nil _ hend] at hbyte
        rw [List.getLast?_append_of_ne_nil _ (List.cons_ne_nil _ _), List.getLast?_cons, hbyte]
        rfl
  · rw [decode_of_zero_not_mem hmem] at h
    cases h

/-- Twice the length, and one more while the end of the stream would still add a
terminator. -/
def remaining (buf : Bytes) : Nat :=
  2 * buf.length + if Terminated buf then 0 else 1

theorem decode_remaining_lt {src left : Bytes} {item : Item IoError}
    (h : decode cobs src = .ok (some item, left)) : remaining left < remaining src := by
  obtain ⟨_, hlt, _⟩ := decode_eq_some h
  unfold remaining
  split <;> split <;> omega

theorem decodeEof_eq (buf : Bytes) : decodeEof cobs buf =
    (decode cobs (if Terminated buf then buf else buf ++ [0]) : Outcome IoError _) := by
  unfold decodeEof
  have hgrow : resize buf (buf.length + 1) = buf ++ [0] := resize_add buf 1
  cases hlast : buf.getLast? with
  | none =>
      rw [List.getLast?_eq_none_iff] at hlast
      simp [hlast, Terminated]
  | some byte =>
      have hne : buf ≠ [] := by
        rintro rfl
        simp at hlast
      by_cases hbyte : byte = 0
      · simp [Terminated, hlast, hbyte]
      · simp [Terminated, hlast, hbyte, hne, hgrow]

theorem decodeEof_remaining_lt {src left : Bytes} {item : Item IoError}
    (h : decodeEof cobs src = .ok (some item, left)) : remaining left < remaining src := by
  rw [decodeEof_eq] at h
  split at h
  · exact decode_remaining_lt h
  · rename_i hterm
    obtain ⟨_, hlt, hleft⟩ := decode_eq_some h
    have hgrown : Terminated (src ++ [0]) := by simp [Terminated]
    rw [List.length_append, List.length_singleton] at hlt
    rw [remaining, remaining, if_pos (hleft hgrown), if_neg hterm]
    omega

def decoder (cobs : CobsCrate) (IoError : Type) : Decoder Bytes IoError (Item IoError) where
  append := fun buf chunk => buf ++ chunk
  decode := decode cobs
  decodeEof := decodeEof cobs
  measure := remaining
  decode_lt := decode_remaining_lt
  decodeEof_lt := decodeEof_remaining_lt

end CobsCodec

end AntRelay.Codec
