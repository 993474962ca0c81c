import AntRelay.Base.Outcome
import AntRelay.Base.BitCodec

namespace AntRelay.Format

open AntRelay.Base

inductive PackingError where
  | invalidValue
  | bufferTooSmall
  | bufferSizeMismatch (expected actual : Nat)
  | instanceRequiredForSize
  deriving DecidableEq, Repr

abbrev PackingResult := Outcome PackingError

class PackedStruct (α : Type) where
  size : Nat
  pack : α → PackingResult Bytes
  unpack : Bytes → PackingResult α

/-- A type packed into a slice.  `packToSlice` returns the new content of the
output slice it is given. -/
class PackedStructSlice (α : Type) where
  packToSlice : α → Bytes → PackingResult Bytes
  unpackFromSlice : Bytes → PackingResult α
  packedBytesSize : Option α → PackingResult Nat

class PackedStructInfo (α : Type) where
  packedBits : Nat

export PackedStructSlice (packToSlice unpackFromSlice packedBytesSize)

/-- Size the value, then pack it into a zeroed buffer of that size. -/
def packToVec [PackedStructSlice α] (value : α) : PackingResult Bytes := do
  let size ← packedBytesSize (some value)
  packToSlice value (List.replicate size 0)

instance [PackedStruct α] : PackedStructSlice α where
  packToSlice := fun value output => do
    if output.length ≠ PackedStruct.size α then
      .error (.bufferSizeMismatch (PackedStruct.size α) output.length)
    else
      let packed ← PackedStruct.pack value
      copyFromSlice output packed
  unpackFromSlice := fun src =>
    if src.length ≠ PackedStruct.size α then
      .error (.bufferSizeMismatch (PackedStruct.size α) src.length)
    else
      PackedStruct.unpack src
  packedBytesSize := fun _ => .ok (PackedStruct.size α)

/-- Packing succeeds at exactly the size it announces, unpacking inverts it,
and unpacking never panics. -/
class Packable (α : Type) [PackedStructSlice α] where
  wire : α → Bytes
  packedBytesSize_some : ∀ value : α, packedBytesSize (some value) = .ok (wire value).length
  packToSlice_wire : ∀ (value : α) (output : Bytes), output.length = (wire value).length →
    packToSlice value output = .ok (wire value)
  unpackFromSlice_wire : ∀ value : α, unpackFromSlice (wire value) = .ok value
  unpackFromSlice_ne_panicked : ∀ src, (unpackFromSlice src : PackingResult α) ≠ .panicked

/-- Nothing but wire forms is accepted. -/
class CanonicalWire (α : Type) [PackedStructSlice α] [Packable α] : Prop where
  wire_of_unpackFromSlice : ∀ {src : Bytes} {value : α},
    unpackFromSlice src = .ok value → Packable.wire value = src

export Packable (wire)

@[simp] theorem packToVec_eq [PackedStructSlice α] [Packable α] (value : α) :
    packToVec value = .ok (wire value) := by
  unfold packToVec
  rw [Packable.packedBytesSize_some, Outcome.ok_bind]
  exact Packable.packToSlice_wire value _ (by simp)

class ExactStruct (α : Type) [PackedStruct α] where
  bytes : α → Bytes
  bytes_length : ∀ value, (bytes value).length = PackedStruct.size α
  pack_eq : ∀ value, PackedStruct.pack value = .ok (bytes value)
  unpack_bytes : ∀ value, PackedStruct.unpack (bytes value) = .ok value
  unpack_ne_panicked : ∀ src, src.length = PackedStruct.size α →
    (PackedStruct.unpack src : PackingResult α) ≠ .panicked

class CanonicalStruct (α : Type) [PackedStruct α] [ExactStruct α] : Prop where
  bytes_of_unpack : ∀ {src : Bytes} {value : α}, src.length = PackedStruct.size α →
    PackedStruct.unpack src = .ok value → ExactStruct.bytes value = src

section Blanket

variable [PackedStruct α] [ExactStruct α]

instance : Packable α where
  wire := ExactStruct.bytes
  packedBytesSize_some := by
    intro value
    rw [ExactStruct.bytes_length]
    rfl
  packToSlice_wire := by
    intro value output h
    have hsize : output.length = PackedStruct.size α := by rw [h, ExactStruct.bytes_length]
    simp only [packToSlice, hsize, ne_eq, not_true_eq_false, ↓reduceIte, ExactStruct.pack_eq,
      Outcome.ok_bind]
    exact copyFromSlice_of_length_eq h
  unpackFromSlice_wire := by
    intro value
    simp only [unpackFromSlice, ExactStruct.bytes_length, ne_eq, not_true_eq_false, ↓reduceIte]
    exact ExactStruct.unpack_bytes value
  unpackFromSlice_ne_panicked := by
    intro src
    simp only [unpackFromSlice]
    split
    · simp
    · rename_i hlen
      exact ExactStruct.unpack_ne_panicked src (not_not.mp hlen)

instance [CanonicalStruct α] : CanonicalWire α where
  wire_of_unpackFromSlice := by
    intro src value h
    simp only [unpackFromSlice] at h
    split at h
    · contradiction
    · rename_i hlen
      exact CanonicalStruct.bytes_of_unpack (not_not.mp hlen) h

theorem wire_length_struct (value : α) : (wire value).length = PackedStruct.size α :=
  ExactStruct.bytes_length value

omit [ExactStruct α] in
theorem length_of_unpackFromSlice_struct {src : Bytes} {value : α}
    (h : unpackFromSlice src = .ok value) : src.length = PackedStruct.size α := by
  simp only [unpackFromSlice] at h
  split at h
  · contradiction
  · rename_i hlen
    exact not_not.mp hlen

end Blanket

/-- A derived struct: its fields in order, in `sizeBytes` bytes.  Bits left
over at the end are written as zero and not read. -/
structure Layout (α : Type) where
  sizeBytes : Nat
  fields : BitCodec α
  fits : fields.width ≤ 8 * sizeBytes

namespace Layout

variable (layout : Layout α)

def padded (value : α) : List Bool :=
  layout.fields.encode value ++
    List.replicate (8 * layout.sizeBytes - layout.fields.width) false

def bytes (value : α) : Bytes :=
  bitsToBytes (layout.padded value)

def unpackBits (src : Bytes) : PackingResult α :=
  match layout.fields.decode ((bytesToBits src).take layout.fields.width) with
  | some value => .ok value
  | none => .error .invalidValue

theorem padded_length (value : α) : (layout.padded value).length = 8 * layout.sizeBytes := by
  have hfits := layout.fits
  rw [padded, List.length_append, layout.fields.encode_length, List.length_replicate]
  omega

theorem bytes_length (value : α) : (layout.bytes value).length = layout.sizeBytes :=
  bitsToBytes_length (layout.padded_length value)

theorem bytesToBits_bytes (value : α) : bytesToBits (layout.bytes value) = layout.padded value :=
  bytesToBits_bitsToBytes (layout.padded_length value)

theorem unpackBits_bytes (value : α) : layout.unpackBits (layout.bytes value) = .ok value := by
  unfold unpackBits
  rw [bytesToBits_bytes, padded, List.take_left' (layout.fields.encode_length value),
    layout.fields.decode_encode]

theorem unpackBits_ne_panicked (src : Bytes) : layout.unpackBits src ≠ .panicked := by
  unfold unpackBits
  split <;> simp

/-- Packing gives back the bytes a value was unpacked from exactly when the
spare bits were zero. -/
theorem bytes_eq_iff {src : Bytes} {value : α} (h : layout.unpackBits src = .ok value) :
    layout.bytes value = src ↔ (bytesToBits src).drop layout.fields.width =
      List.replicate (8 * layout.sizeBytes - layout.fields.width) false := by
  have hencode : layout.fields.encode value = (bytesToBits src).take layout.fields.width := by
    unfold unpackBits at h
    split at h
    · rename_i decoded hdecode
      cases h
      exact layout.fields.encode_decode hdecode
    · contradiction
  have hpadded : layout.padded value = bytesToBits src ↔
      (bytesToBits src).drop layout.fields.width =
        List.replicate (8 * layout.sizeBytes - layout.fields.width) false := by
    rw [padded, hencode]
    nth_rewrite 2 [← List.take_append_drop layout.fields.width (bytesToBits src)]
    rw [List.append_cancel_left_eq, eq_comm]
  rw [← hpadded, ← bytesToBits_bytes]
  constructor
  · intro hbytes
    rw [hbytes]
  · intro hbits
    rw [← bitsToBytes_bytesToBits (layout.bytes value), hbits, bitsToBytes_bytesToBits]

theorem bytes_of_unpackBits (hfull : layout.fields.width = 8 * layout.sizeBytes)
    {src : Bytes} {value : α} (hlen : src.length = layout.sizeBytes)
    (h : layout.unpackBits src = .ok value) : layout.bytes value = src := by
  rw [layout.bytes_eq_iff h, hfull, Nat.sub_self, List.replicate_zero]
  apply List.drop_eq_nil_of_le
  rw [bytesToBits_length, hlen]

end Layout

@[reducible] def PackedStruct.ofLayout (layout : Layout α) : PackedStruct α where
  size := layout.sizeBytes
  pack := fun value => .ok (layout.bytes value)
  unpack := layout.unpackBits

@[reducible] def ExactStruct.ofLayout (layout : Layout α) :
    @ExactStruct α (PackedStruct.ofLayout layout) :=
  letI := PackedStruct.ofLayout layout
  { bytes := layout.bytes
    bytes_length := layout.bytes_length
    pack_eq := fun _ => rfl
    unpack_bytes := layout.unpackBits_bytes
    unpack_ne_panicked := fun src _ => layout.unpackBits_ne_panicked src }

namespace Field

def nested (α : Type) [PackedStruct α] [ExactStruct α] [CanonicalStruct α] : BitCodec α where
  width := 8 * PackedStruct.size α
  encode := fun value => bytesToBits (ExactStruct.bytes value)
  decode := fun bits =>
    if bits.length = 8 * PackedStruct.size α then
      match PackedStruct.unpack (bitsToBytes bits) with
      | .ok value => some value
      | _ => none
    else none
  encode_length := by
    intro value
    rw [bytesToBits_length, ExactStruct.bytes_length]
  decode_encode := by
    intro value
    rw [if_pos (by rw [bytesToBits_length, ExactStruct.bytes_length]), bitsToBytes_bytesToBits,
      ExactStruct.unpack_bytes]
  encode_decode := by
    intro bits value h
    split at h
    · rename_i hlen
      split at h
      · rename_i inner hunpack
        cases h
        rw [CanonicalStruct.bytes_of_unpack (bitsToBytes_length hlen) hunpack,
          bytesToBits_bitsToBytes hlen]
      · contradiction
    · contradiction

def u8 : BitCodec UInt8 :=
  (BitCodec.word 8).imap ⟨UInt8.ofBitVec, UInt8.toBitVec, fun _ => rfl, fun _ => rfl⟩

def u16 : BitCodec UInt16 :=
  (BitCodec.littleEndian 2).imap
    ⟨fun x => UInt16.ofNat x.val, fun x => ⟨x.toNat, x.toNat_lt⟩,
      fun x => Fin.ext (Nat.mod_eq_of_lt x.isLt), fun x => by simp⟩

def u32 : BitCodec UInt32 :=
  (BitCodec.littleEndian 4).imap
    ⟨fun x => UInt32.ofNat x.val, fun x => ⟨x.toNat, x.toNat_lt⟩,
      fun x => Fin.ext (Nat.mod_eq_of_lt x.isLt), fun x => by simp⟩

def u64 : BitCodec UInt64 :=
  (BitCodec.littleEndian 8).imap
    ⟨fun x => UInt64.ofNat x.val, fun x => ⟨x.toNat, x.toNat_lt⟩,
      fun x => Fin.ext (Nat.mod_eq_of_lt x.isLt), fun x => by simp⟩

end Field

end AntRelay.Format
