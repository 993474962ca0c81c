import AntRelay.Format.PackedStruct
import AntRelay.Format.Checksum

namespace AntRelay.Format

open AntRelay.Base

/-! The value is immutable once wrapped, so the two caches of the source only
save recomputation and are left out. -/

structure WithCRC (α : Type) (crc : Checksum) where
  val : α
  deriving DecidableEq, Repr

namespace WithCRC

variable {α : Type} {crc : Checksum}

section Slices

variable [PackedStructSlice α]

def payloadBytes (self : WithCRC α crc) : PackingResult Bytes :=
  packToVec self.val

def checksum (self : WithCRC α crc) : PackingResult Bytes := do
  let payload ← self.payloadBytes
  pure (crc.checksumArray payload)

def splitPoint (crc : Checksum) (buf : Bytes) : Nat :=
  buf.length - crc.size

protected def packedBytesSize (optSelf : Option (WithCRC α crc)) : PackingResult Nat :=
  match optSelf with
  | none => .error .instanceRequiredForSize
  | some slf => do
      let count ← packedBytesSize (some slf.val)
      pure (count + crc.size)

/-- The slice is cut by the value's own size and split by the slice's length. -/
protected def packToSlice (self : WithCRC α crc) (output : Bytes) : PackingResult Bytes := do
  let size ← WithCRC.packedBytesSize (some self)
  let splitPoint := splitPoint crc output
  let front ← sliceTo output size
  let (payload, checksum) ← splitAt front splitPoint
  if checksum.length ≠ crc.size then .error .bufferTooSmall
  else
    let payload ← copyFromSlice payload (← self.payloadBytes)
    let checksum ← copyFromSlice checksum (← self.checksum)
    pure (payload ++ checksum ++ output.drop size)

/-- The received checksum is compared with that of the parsed value. -/
protected def unpackFromSlice (src : Bytes) : PackingResult (WithCRC α crc) := do
  let (payload, srcChecksum) ← splitAt src (splitPoint crc src)
  if srcChecksum.length ≠ crc.size then .error .bufferTooSmall
  else
    let payload ← unpackFromSlice payload
    let result : WithCRC α crc := ⟨payload⟩
    let computedChecksum ← result.checksum
    if srcChecksum ≠ computedChecksum then .error .invalidValue else pure result

instance : PackedStructSlice (WithCRC α crc) where
  packToSlice := WithCRC.packToSlice
  unpackFromSlice := WithCRC.unpackFromSlice
  packedBytesSize := WithCRC.packedBytesSize

end Slices

section Laws

variable [PackedStructSlice α] [Packable α]

theorem payloadBytes_eq (self : WithCRC α crc) : self.payloadBytes = .ok (wire self.val) :=
  packToVec_eq self.val

theorem checksum_eq (self : WithCRC α crc) :
    self.checksum = .ok (crc.checksumArray (wire self.val)) := by
  rw [checksum, payloadBytes_eq]
  rfl

theorem packedBytesSize_eq (self : WithCRC α crc) :
    WithCRC.packedBytesSize (some self) = .ok ((wire self.val).length + crc.size) := by
  rw [WithCRC.packedBytesSize, Packable.packedBytesSize_some]
  rfl

theorem packToSlice_eq (self : WithCRC α crc) {output : Bytes}
    (h : output.length = (wire self.val).length + crc.size) :
    WithCRC.packToSlice self output =
      .ok (wire self.val ++ crc.checksumArray (wire self.val)) := by
  have hsplit : splitPoint crc output = (wire self.val).length := by
    rw [splitPoint, h]
    omega
  have hpayload : (output.take (wire self.val).length).length = (wire self.val).length := by
    rw [List.length_take]
    omega
  have hchecksum : (output.drop (wire self.val).length).length = crc.size := by
    rw [List.length_drop]
    omega
  have hall : output.take ((wire self.val).length + crc.size) = output :=
    List.take_of_length_le (Nat.le_of_eq h)
  have hnone : output.drop ((wire self.val).length + crc.size) = [] :=
    List.drop_eq_nil_of_le (Nat.le_of_eq h)
  rw [WithCRC.packToSlice, packedBytesSize_eq]
  simp only [Outcome.ok_bind, sliceTo_of_le (Nat.le_of_eq h.symm), hall, hsplit]
  rw [splitAt_of_le (by omega)]
  simp only [Outcome.ok_bind, hchecksum, ne_eq, not_true_eq_false, ↓reduceIte, payloadBytes_eq,
    checksum_eq]
  rw [copyFromSlice_of_length_eq hpayload,
    copyFromSlice_of_length_eq (by rw [hchecksum, Checksum.checksumArray_length])]
  simp [hnone]

theorem unpackFromSlice_eq_ok {src : Bytes} {message : WithCRC α crc} :
    unpackFromSlice src = .ok message ↔
      crc.size ≤ src.length ∧
        unpackFromSlice (src.take (splitPoint crc src)) = .ok message.val ∧
        src.drop (splitPoint crc src) = crc.checksumArray (wire message.val) := by
  have hle : splitPoint crc src ≤ src.length := Nat.sub_le _ _
  change WithCRC.unpackFromSlice src = _ ↔ _
  rw [WithCRC.unpackFromSlice]
  simp only [splitAt_of_le hle, Outcome.ok_bind]
  by_cases hsize : crc.size ≤ src.length
  · have hlen : (src.drop (splitPoint crc src)).length = crc.size := by
      rw [List.length_drop, splitPoint]
      omega
    simp only [hlen, ne_eq, not_true_eq_false, ↓reduceIte, hsize, true_and, checksum_eq,
      Outcome.bind_eq_ok, Outcome.ok.injEq, exists_eq_left']
    constructor
    · rintro ⟨value, hvalue, hcheck⟩
      split at hcheck
      · contradiction
      · rename_i heq
        cases hcheck
        exact ⟨hvalue, not_not.mp heq⟩
    · rintro ⟨hvalue, hcheck⟩
      exact ⟨message.val, hvalue, by rw [if_neg (not_not.mpr hcheck)]; rfl⟩
  · have hlen : (src.drop (splitPoint crc src)).length ≠ crc.size := by
      rw [List.length_drop, splitPoint]
      omega
    rw [if_pos hlen]
    simp [hsize]

instance : Packable (WithCRC α crc) where
  wire := fun message => wire message.val ++ crc.checksumArray (wire message.val)
  packedBytesSize_some := by
    intro message
    change WithCRC.packedBytesSize (some message) = _
    rw [packedBytesSize_eq, List.length_append, Checksum.checksumArray_length]
  packToSlice_wire := by
    intro message output h
    rw [List.length_append, Checksum.checksumArray_length] at h
    exact packToSlice_eq message h
  unpackFromSlice_wire := by
    intro message
    rw [unpackFromSlice_eq_ok]
    have hsplit : splitPoint crc (wire message.val ++ crc.checksumArray (wire message.val)) =
        (wire message.val).length := by simp [splitPoint]
    rw [hsplit, List.take_left' rfl, List.drop_left' rfl]
    exact ⟨by simp, Packable.unpackFromSlice_wire _, rfl⟩
  unpackFromSlice_ne_panicked := by
    intro src
    have hle : splitPoint crc src ≤ src.length := Nat.sub_le _ _
    change WithCRC.unpackFromSlice src ≠ _
    rw [WithCRC.unpackFromSlice]
    simp only [splitAt_of_le hle, Outcome.ok_bind]
    split
    · simp
    · refine Outcome.bind_ne_panicked (Packable.unpackFromSlice_ne_panicked _) ?_
      intro value _
      rw [checksum_eq, Outcome.ok_bind]
      split <;> simp

theorem wire_eq (message : WithCRC α crc) :
    wire message = wire message.val ++ crc.checksumArray (wire message.val) := rfl

instance [CanonicalWire α] : CanonicalWire (WithCRC α crc) where
  wire_of_unpackFromSlice := by
    intro src message h
    obtain ⟨_, hvalue, hcheck⟩ := unpackFromSlice_eq_ok.mp h
    rw [wire_eq, ← hcheck, CanonicalWire.wire_of_unpackFromSlice hvalue, List.take_append_drop]

end Laws

end WithCRC

end AntRelay.Format
