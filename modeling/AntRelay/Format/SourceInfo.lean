import AntRelay.Format.Header

namespace AntRelay.Format

open AntRelay.Base

structure Info where
  header : Header
  checksum : UInt8
  deriving DecidableEq, Repr

inductive SourceInfo where
  | empty
  | info (inner : Info)
  deriving DecidableEq, Repr

namespace SourceInfo

def size : Nat := 9

def emptyBytes : Bytes := List.replicate size 0

def invalid : SourceInfo → Bool
  | .empty => false
  | .info inner => inner.header.ty.invalid

def pack (source : SourceInfo) : PackingResult Bytes :=
  let b := List.replicate size 0
  match source with
  | .info inner => do
      let header ← sliceTo b (size - 1)
      let header ← packToSlice inner.header header
      pure (header ++ [inner.checksum])
  | .empty => pure emptyBytes

/-- The all-zero array is tried first; anything else is a header and a byte. -/
def unpack (src : Bytes) : PackingResult SourceInfo :=
  if src = emptyBytes then .ok .empty
  else do
    let (header, crc) ← splitAt src (size - 1)
    let header ← unpackFromSlice header
    match crc with
    | crc :: _ => .ok (.info ⟨header, crc⟩)
    | [] => .panicked

instance : PackedStruct SourceInfo where
  size := size
  pack := pack
  unpack := unpack

instance : PackedStructInfo SourceInfo where
  packedBits := size * 8

def bytes : SourceInfo → Bytes
  | .empty => emptyBytes
  | .info inner => wire inner.header ++ [inner.checksum]

theorem wire_header_length (header : Header) : (wire header).length = 8 :=
  wire_length_struct header

theorem bytes_length (source : SourceInfo) : source.bytes.length = size := by
  cases source with
  | empty => rfl
  | info inner => simp [bytes, wire_header_length, size]

theorem pack_eq (source : SourceInfo) : source.pack = .ok source.bytes := by
  cases source with
  | empty => rfl
  | info inner =>
      have hslice : (sliceTo (List.replicate size (0 : UInt8)) (size - 1) :
          PackingResult Bytes) = .ok (List.replicate 8 0) := rfl
      have hpack : packToSlice inner.header (List.replicate 8 0) = .ok (wire inner.header) :=
        Packable.packToSlice_wire _ _ (by simp [wire_header_length])
      simp only [pack, hslice, hpack, Outcome.ok_bind]
      rfl

/-- A source with a header is never mistaken for an absent one. -/
theorem bytes_info_ne_empty (inner : Info) : bytes (.info inner) ≠ emptyBytes := by
  obtain ⟨rest, hrest⟩ := inner.header.bytes_eq_cons
  intro h
  have hhead : (0xeb : UInt8) = 0 := by
    have hcons : (0xeb : UInt8) :: (rest ++ [inner.checksum]) = emptyBytes := by
      rw [← List.cons_append, ← hrest]
      exact h
    exact (List.cons.inj hcons).1
  exact absurd hhead (by decide)

theorem unpack_bytes (source : SourceInfo) : unpack source.bytes = .ok source := by
  cases source with
  | empty => rfl
  | info inner =>
      have hlen := wire_header_length inner.header
      rw [unpack, if_neg (bytes_info_ne_empty inner)]
      rw [splitAt_of_le (by rw [bytes_length]; decide)]
      simp only [bytes, size, Nat.add_one_sub_one, Outcome.ok_bind, List.take_left' hlen,
        List.drop_left' hlen, Packable.unpackFromSlice_wire]

theorem unpack_eq_of_ne_empty {src : Bytes} (hlen : src.length = size) (hne : src ≠ emptyBytes) :
    ∃ crc, src = src.take 8 ++ [crc] ∧
      unpack src = (unpackFromSlice (src.take 8) >>= fun header => .ok (.info ⟨header, crc⟩)) := by
  have hdrop : (src.drop 8).length = 1 := by rw [List.length_drop, hlen]; rfl
  obtain ⟨crc, hcrc⟩ := List.length_eq_one_iff.mp hdrop
  refine ⟨crc, ?_, ?_⟩
  · rw [← hcrc, List.take_append_drop]
  · rw [unpack, if_neg hne, splitAt_of_le (by rw [hlen]; decide)]
    simp only [size, Nat.add_one_sub_one, Outcome.ok_bind, hcrc]

theorem bytes_of_unpack {src : Bytes} {source : SourceInfo} (hlen : src.length = size)
    (h : unpack src = .ok source) : source.bytes = src := by
  by_cases hempty : src = emptyBytes
  · rw [unpack, if_pos hempty] at h
    cases h
    exact hempty.symm
  · obtain ⟨crc, hsrc, hunpack⟩ := unpack_eq_of_ne_empty hlen hempty
    rw [hunpack, Outcome.bind_eq_ok] at h
    obtain ⟨header, hheader, hsource⟩ := h
    cases hsource
    rw [bytes, CanonicalWire.wire_of_unpackFromSlice hheader]
    exact hsrc.symm

theorem unpack_ne_panicked (src : Bytes) (hlen : src.length = size) :
    unpack src ≠ .panicked := by
  by_cases hempty : src = emptyBytes
  · rw [unpack, if_pos hempty]
    simp
  · obtain ⟨crc, _, hunpack⟩ := unpack_eq_of_ne_empty hlen hempty
    rw [hunpack]
    exact Outcome.bind_ne_panicked (Packable.unpackFromSlice_ne_panicked _) (by simp)

instance : ExactStruct SourceInfo where
  bytes := bytes
  bytes_length := bytes_length
  pack_eq := pack_eq
  unpack_bytes := unpack_bytes
  unpack_ne_panicked := unpack_ne_panicked

instance : CanonicalStruct SourceInfo where
  bytes_of_unpack := bytes_of_unpack

end SourceInfo

end AntRelay.Format
