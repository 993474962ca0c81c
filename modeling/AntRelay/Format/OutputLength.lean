import AntRelay.Format.Payloads

namespace AntRelay.Format

open AntRelay.Base

/-- What `pack_to_slice` owes for any output: the packed value if the length is
right, and an error otherwise. -/
def PacksSafely [PackedStructSlice α] (value : α) (output : Bytes) : Prop :=
  ∃ size vec, packedBytesSize (some value) = .ok size ∧ packToVec value = .ok vec ∧
    if output.length = size then packToSlice value output = .ok vec
    else ∃ err, packToSlice value output = .error err

section Packable

variable [PackedStructSlice α] [Packable α]

theorem packsSafely_iff_error {value : α} {output : Bytes}
    (h : output.length ≠ (wire value).length) :
    PacksSafely value output ↔ ∃ err, packToSlice value output = .error err := by
  constructor
  · rintro ⟨size, vec, hsize, _, hpack⟩
    rw [Packable.packedBytesSize_some] at hsize
    cases hsize
    rwa [if_neg h] at hpack
  · intro herror
    exact ⟨_, _, Packable.packedBytesSize_some value, packToVec_eq value, by rwa [if_neg h]⟩

theorem packsSafely_of_length_eq {value : α} {output : Bytes}
    (h : output.length = (wire value).length) : PacksSafely value output :=
  ⟨_, _, Packable.packedBytesSize_some value, packToVec_eq value, by
    rw [if_pos h]
    exact Packable.packToSlice_wire value output h⟩

theorem not_packsSafely_of_panicked {value : α} {output : Bytes}
    (hlength : output.length ≠ (wire value).length)
    (hpanic : packToSlice value output = .panicked) : ¬ PacksSafely value output := by
  rw [packsSafely_iff_error hlength, hpanic]
  rintro ⟨err, herr⟩
  cases herr

end Packable

namespace WithCRC

variable [PackedStructSlice α] [Packable α] {crc : Checksum} (self : WithCRC α crc)
  {output : Bytes}

theorem wire_length (self : WithCRC α crc) :
    (wire self).length = (wire self.val).length + crc.size := by
  rw [wire_eq, List.length_append, Checksum.checksumArray_length]

theorem packToSlice_short (h : output.length < (wire self).length) :
    packToSlice self output = .panicked := by
  rw [wire_length] at h
  have hslice : (sliceTo output ((wire self.val).length + crc.size) : PackingResult Bytes) =
      .panicked := if_neg (by omega)
  change WithCRC.packToSlice self output = _
  rw [WithCRC.packToSlice, packedBytesSize_eq]
  simp only [Outcome.ok_bind, hslice, Outcome.panicked_bind]

theorem packToSlice_long (h : (wire self).length + crc.size < output.length) :
    packToSlice self output = .panicked := by
  rw [wire_length] at h
  have hfront : (output.take ((wire self.val).length + crc.size)).length =
      (wire self.val).length + crc.size := by
    rw [List.length_take]
    omega
  have hsplit : (splitAt (output.take ((wire self.val).length + crc.size))
      (splitPoint crc output) : PackingResult _) = .panicked := by
    apply if_neg
    rw [hfront, splitPoint]
    omega
  change WithCRC.packToSlice self output = _
  rw [WithCRC.packToSlice, packedBytesSize_eq]
  simp only [Outcome.ok_bind, sliceTo_of_le (show (wire self.val).length + crc.size ≤
    output.length by omega), hsplit, Outcome.panicked_bind]

/-- The split leaves too little for the checksum. -/
theorem packToSlice_between (hshort : (wire self).length < output.length)
    (hlong : output.length ≤ (wire self).length + crc.size) :
    packToSlice self output = .error .bufferTooSmall := by
  rw [wire_length] at hshort hlong
  have hfront : (output.take ((wire self.val).length + crc.size)).length =
      (wire self.val).length + crc.size := by
    rw [List.length_take]
    omega
  have hle : splitPoint crc output ≤
      (output.take ((wire self.val).length + crc.size)).length := by
    rw [hfront, splitPoint]
    omega
  have hrest : ((output.take ((wire self.val).length + crc.size)).drop
      (splitPoint crc output)).length ≠ crc.size := by
    rw [List.length_drop, hfront, splitPoint]
    omega
  change WithCRC.packToSlice self output = _
  rw [WithCRC.packToSlice, packedBytesSize_eq]
  simp only [Outcome.ok_bind, sliceTo_of_le (show (wire self.val).length + crc.size ≤
    output.length by omega), splitAt_of_le hle, hrest, ne_eq, not_false_eq_true, ↓reduceIte]

theorem packsSafely_iff : PacksSafely self output ↔
    (wire self).length ≤ output.length ∧ output.length ≤ (wire self).length + crc.size := by
  rcases Nat.lt_trichotomy output.length (wire self).length with hlt | heq | hgt
  · constructor
    · intro hsafe
      exact absurd hsafe
        (not_packsSafely_of_panicked (Nat.ne_of_lt hlt) (packToSlice_short self hlt))
    · rintro ⟨hle, _⟩
      omega
  · constructor
    · intro _
      omega
    · intro _
      exact packsSafely_of_length_eq heq
  · have hne := Nat.ne_of_gt hgt
    by_cases hlong : (wire self).length + crc.size < output.length
    · constructor
      · intro hsafe
        exact absurd hsafe (not_packsSafely_of_panicked hne (packToSlice_long self hlong))
      · rintro ⟨_, hle⟩
        omega
    · constructor
      · intro _
        omega
      · intro _
        rw [packsSafely_iff_error hne]
        exact ⟨_, packToSlice_between self hgt (Nat.le_of_not_lt hlong)⟩

end WithCRC

namespace HeaderPacket

variable {Header Payload : Type} [PackedStructInfo Header] [PackedStructSlice Header]
  [Packable Header] [FixedSize Header] [PackedStructSlice Payload] [Packable Payload]
  (packet : HeaderPacket Header Payload) {output : Bytes}

theorem wire_length (packet : HeaderPacket Header Payload) :
    (wire packet).length = headerBytes Header + (wire packet.payload).length := by
  rw [wire_eq, List.length_append, wire_header_length]

omit [Packable Payload] in
theorem packToSlice_eq (h : headerBytes Header ≤ output.length) :
    packToSlice packet output = (packToSlice packet.payload (output.drop (headerBytes Header)) >>=
      fun payloadBytes => .ok (wire packet.header ++ payloadBytes)) := by
  have hheader : packToSlice packet.header (output.take (headerBytes Header)) =
      .ok (wire packet.header) :=
    Packable.packToSlice_wire _ _ (by
      rw [List.length_take, wire_header_length]
      omega)
  change HeaderPacket.packToSlice packet output = _
  rw [HeaderPacket.packToSlice]
  simp only [if_neg (Nat.not_lt.mpr h), splitAt_of_le h, Outcome.ok_bind, hheader]
  rfl

theorem packsSafely_iff : PacksSafely packet output ↔
    output.length < headerBytes Header ∨
      PacksSafely packet.payload (output.drop (headerBytes Header)) := by
  by_cases hroom : headerBytes Header ≤ output.length
  · have hlength : output.length = (wire packet).length ↔
        (output.drop (headerBytes Header)).length = (wire packet.payload).length := by
      rw [wire_length, List.length_drop]
      omega
    by_cases heq : output.length = (wire packet).length
    · constructor
      · intro _
        exact .inr (packsSafely_of_length_eq (hlength.mp heq))
      · intro _
        exact packsSafely_of_length_eq heq
    · rw [packsSafely_iff_error heq, packsSafely_iff_error (mt hlength.mpr heq),
        packToSlice_eq packet hroom]
      cases packToSlice packet.payload (output.drop (headerBytes Header)) with
      | ok payloadBytes => simp [hroom]
      | error err => simp
      | panicked => simp [hroom]
  · have hshort : output.length < headerBytes Header := Nat.lt_of_not_le hroom
    have hne : output.length ≠ (wire packet).length := by
      rw [wire_length]
      omega
    constructor
    · intro _
      exact .inl hshort
    · intro _
      rw [packsSafely_iff_error hne]
      refine ⟨.bufferTooSmall, ?_⟩
      change HeaderPacket.packToSlice packet output = _
      rw [HeaderPacket.packToSlice, if_pos hshort]

end HeaderPacket

variable {crc : Checksum}

theorem message_wire_length (m : Message crc) :
    (wire m).length = 17 + m.val.payload.bytes.length + crc.size := by
  rw [WithCRC.wire_length, HeaderPacket.wire_length]
  rfl

theorem antPacket_wire_length (p : AntPacket crc) : (wire p).length = 69 + crc.size := by
  rw [WithCRC.wire_length, HeaderPacket.wire_length, wire_length_struct]
  rfl

/-- Packing is safe exactly for slices that are not shorter than the packed
size, and longer by one checksum at most; a relay packet is also safe to pack
into less than its 20 bytes of header. -/
theorem packs_safely_iff (crc : Checksum) (output : Bytes) :
    (∀ m : Message crc, PacksSafely m output ↔
      17 + m.val.payload.bytes.length + crc.size ≤ output.length ∧
        output.length ≤ 17 + m.val.payload.bytes.length + crc.size + crc.size) ∧
    (∀ p : AntPacket crc, PacksSafely p output ↔
      69 + crc.size ≤ output.length ∧ output.length ≤ 69 + crc.size + crc.size) ∧
    (∀ r : CSRelay crc, PacksSafely r output ↔ output.length < 20 ∨
      (89 + crc.size ≤ output.length ∧ output.length ≤ 89 + crc.size + crc.size)) := by
  refine ⟨?_, ?_, ?_⟩
  · intro m
    rw [WithCRC.packsSafely_iff, message_wire_length]
  · intro p
    rw [WithCRC.packsSafely_iff, antPacket_wire_length]
  · intro r
    rw [HeaderPacket.packsSafely_iff, WithCRC.packsSafely_iff, antPacket_wire_length,
      List.length_drop, show HeaderPacket.headerBytes Cs.Payload = 20 from rfl]
    omega

def pingCommand : Message (StandardCRC crc8Smbus) :=
  command _ ⟨⟨0⟩, 0⟩ .centralStation .csPing

/-- One byte less than the packed size panics, and so do two more. -/
theorem packToSlice_panics :
    packedBytesSize (some pingCommand) = .ok 18 ∧
      packToSlice pingCommand (List.replicate 17 0) = .panicked ∧
      packToSlice pingCommand (List.replicate 20 0) = .panicked ∧
      ¬ PacksSafely pingCommand (List.replicate 17 0) := by
  have hsize : (wire pingCommand).length = 18 := message_wire_length pingCommand
  have hpanic : packToSlice pingCommand (List.replicate 17 0) = .panicked :=
    WithCRC.packToSlice_short pingCommand (by simp [hsize])
  have hlong : (wire pingCommand).length + (StandardCRC crc8Smbus).size < 20 := by
    rw [hsize]
    decide
  refine ⟨Packable.packedBytesSize_some pingCommand, hpanic, ?_, ?_⟩
  · exact WithCRC.packToSlice_long pingCommand (by rwa [List.length_replicate])
  · exact not_packsSafely_of_panicked (by simp [hsize]) hpanic

end AntRelay.Format
