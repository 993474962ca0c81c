import AntRelay.Base.Cobs

namespace AntRelay.Base.Cobs

structure DecodeReport where
  dstUsed : Nat
  srcUsed : Nat
  deriving DecidableEq, Repr

def copyDown : Nat → Bytes → Nat → Nat → Bytes
  | 0, buf, _, _ => buf
  | count + 1, buf, src, dst =>
      copyDown count (buf.set dst (buf.getD src 0)) (src + 1) (dst + 1)

/-- The group loop, up to `last`.  A group that runs past it fails, and what was
written before stays. -/
def inPlaceLoop (last : Nat) : Nat → Bytes → Nat → Nat → Option DecodeReport × Bytes
  | 0, buf, src, dst => (some ⟨dst, src⟩, buf)
  | fuel + 1, buf, src, dst =>
      if src < last then
        let code := buf.getD src 0
        if src + code.toNat > last ∧ code ≠ 1 then (none, buf)
        else
          let count := code.toNat - 1
          let buf := copyDown count buf (src + 1) dst
          let src := src + 1 + count
          let dst := dst + count
          if code ≠ 0xff ∧ src < last then inPlaceLoop last fuel (buf.set dst 0) src (dst + 1)
          else inPlaceLoop last fuel buf src dst
      else (some ⟨dst, src⟩, buf)

/-- The first zero ends the frame.  Every group takes at least a byte, so the
frame's length bounds them. -/
def decodeInPlaceReport (buf : Bytes) : Option DecodeReport × Bytes :=
  let last := buf.findIdx (· == 0)
  inPlaceLoop last last buf 0 0

def overlay (out buf : Bytes) : Bytes :=
  out ++ buf.drop out.length

section Overlay

variable {buf out : Bytes}

theorem overlay_getD {src : Nat} (h : out.length ≤ src) :
    (overlay out buf).getD src 0 = buf.getD src 0 := by
  rw [List.getD_eq_getElem?_getD, List.getD_eq_getElem?_getD, overlay,
    List.getElem?_append_right h, List.getElem?_drop]
  congr 2
  omega

theorem overlay_length (h : out.length ≤ buf.length) : (overlay out buf).length = buf.length := by
  rw [overlay, List.length_append, List.length_drop]
  omega

theorem overlay_set (h : out.length < buf.length) (byte : UInt8) :
    (overlay out buf).set out.length byte = overlay (out ++ [byte]) buf := by
  rw [overlay, overlay, List.set_append_right _ _ (Nat.le_refl _), Nat.sub_self,
    List.drop_eq_getElem_cons h, List.set_cons_zero, List.length_append, List.length_singleton,
    List.append_assoc]
  rfl

/-- Copying down from ahead of the written part reads original bytes. -/
theorem copyDown_eq {count src : Nat} (hsrc : out.length < src)
    (hlen : src + count ≤ buf.length) :
    copyDown count (overlay out buf) src out.length =
      overlay (out ++ (buf.drop src).take count) buf := by
  induction count generalizing out src with
  | zero => simp [copyDown]
  | succ count ih =>
      have hlt : src < buf.length := by omega
      have hbyte : (overlay out buf).getD src 0 = buf[src] := by
        rw [overlay_getD (by omega), List.getD_eq_getElem?_getD, List.getElem?_eq_getElem hlt,
          Option.getD_some]
      have hnext : (out ++ [buf[src]]).length = out.length + 1 := by simp
      have htake : out ++ (buf.drop src).take (count + 1) =
          (out ++ [buf[src]]) ++ (buf.drop (src + 1)).take count := by
        rw [List.drop_eq_getElem_cons hlt, List.take_succ_cons, List.append_assoc]
        rfl
      rw [copyDown, hbyte, overlay_set (by omega), ← hnext,
        ih (by rw [hnext]; omega) (by omega), htake]

end Overlay

def separator (code : UInt8) (rest : Bytes) : Bytes :=
  if code ≠ 0xff ∧ rest ≠ [] then [0] else []

/-- The loop over `frame`, wherever in a buffer it stands, writes `written` behind
what has been written before, and then is at its end or fails. -/
def Overwrites (frame written : Bytes) (fails : Bool) : Prop :=
  ∀ {fuel src : Nat} {buf out rest : Bytes}, frame.length ≤ fuel → out.length ≤ src →
    src ≤ buf.length → buf.drop src = frame ++ rest →
    inPlaceLoop (src + frame.length) fuel (overlay out buf) src out.length =
      (if fails then none else some ⟨(out ++ written).length, src + frame.length⟩,
        overlay (out ++ written) buf)

namespace Overwrites

theorem nil : Overwrites [] [] false := by
  intro fuel src buf out rest _ _ _ _
  cases fuel <;> simp [inPlaceLoop]

theorem head {code : UInt8} {tail rest buf out : Bytes} {src : Nat} (hout : out.length ≤ src)
    (hdrop : buf.drop src = code :: tail ++ rest) : (overlay out buf).getD src 0 = code := by
  rw [overlay_getD hout, List.getD_eq_getElem?_getD, ← List.head?_drop, hdrop]
  rfl

theorem overrun {code : UInt8} {tail : Bytes} (h : tail.length + 1 < code.toNat) :
    Overwrites (code :: tail) [] true := by
  intro fuel src buf out rest hfuel hout _ hdrop
  cases fuel with
  | zero => simp at hfuel
  | succ fuel =>
      have hcode : code ≠ 1 := by
        rintro rfl
        simp at h
      rw [List.length_cons] at *
      rw [inPlaceLoop, if_pos (by omega)]
      simp only [head hout hdrop]
      rw [if_pos ⟨by omega, hcode⟩]
      simp

theorem group {code : UInt8} {data rest written : Bytes} {fails : Bool} (hcode : code ≠ 0)
    (hdata : data.length = code.toNat - 1) (hrest : Overwrites rest written fails) :
    Overwrites (code :: (data ++ rest)) (data ++ separator code rest ++ written) fails := by
  intro fuel src buf out behind hfuel hout hsrc hdrop
  have hpos := toNat_pos hcode
  cases fuel with
  | zero => simp at hfuel
  | succ fuel =>
      have hlen := congrArg List.length hdrop
      have hbytes : buf.drop (src + 1) = data ++ (rest ++ behind) := by
        rw [← List.drop_drop, hdrop, List.cons_append, List.drop_succ_cons, List.drop_zero,
          List.append_assoc]
      have hafter : buf.drop (src + 1 + (code.toNat - 1)) = rest ++ behind := by
        rw [← List.drop_drop, hbytes, ← hdata, List.drop_left]
      simp only [List.length_cons, List.length_append, List.length_drop] at hfuel hlen
      have hcopied : copyDown (code.toNat - 1) (overlay out buf) (src + 1) out.length =
          overlay (out ++ data) buf := by
        rw [copyDown_eq (by omega) (by omega), hbytes, ← hdata, List.take_left]
      have hlast : src + (code :: (data ++ rest)).length =
          src + 1 + (code.toNat - 1) + rest.length := by
        rw [List.length_cons, List.length_append]
        omega
      have hwritten : out.length + (code.toNat - 1) = (out ++ data).length := by
        rw [List.length_append, hdata]
      rw [hlast, inPlaceLoop, if_pos (by omega)]
      simp only [head hout hdrop]
      rw [if_neg (by omega), hcopied, hwritten]
      by_cases howed : code ≠ 0xff ∧ rest ≠ []
      · have hmore := List.length_pos_iff.mpr howed.2
        have hnext : (out ++ data).length + 1 = (out ++ data ++ [0]).length := by
          simp only [List.length_append, List.length_singleton]
        rw [if_pos ⟨howed.1, by omega⟩, overlay_set (by omega), hnext,
          hrest (by omega) (by rw [← hnext]; omega) (by omega) hafter, separator, if_pos howed]
        simp only [List.append_assoc]
      · have hend : ¬ (code ≠ 0xff ∧
            src + 1 + (code.toNat - 1) < src + 1 + (code.toNat - 1) + rest.length) := by
          rintro ⟨hfull, hlt⟩
          exact howed ⟨hfull, List.ne_nil_of_length_pos (by omega)⟩
        rw [if_neg hend, hrest (by omega) (by omega) (by omega) hafter, separator, if_neg howed]
        simp only [List.append_assoc, List.nil_append]

/-- The frame at the start of a buffer. -/
theorem decodeInPlaceReport_eq {frame written rest : Bytes} {fails : Bool}
    (h : Overwrites frame written fails) (hlen : written.length ≤ frame.length)
    (hlast : (frame ++ rest).findIdx (· == 0) = frame.length) :
    decodeInPlaceReport (frame ++ rest) =
      (if fails then none else some ⟨written.length, frame.length⟩,
        overlay written frame ++ rest) := by
  have hloop := @h frame.length 0 (frame ++ rest) [] rest (Nat.le_refl _) (by simp) (by simp) rfl
  rw [decodeInPlaceReport]
  simp only [hlast]
  simpa [overlay, List.drop_append_of_le_length hlen] using hloop

end Overwrites

end AntRelay.Base.Cobs
