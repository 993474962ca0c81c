import AntRelay.Format.PackedStruct

namespace AntRelay.Format

open AntRelay.Base

structure HeaderPacket (Header Payload : Type) where
  header : Header
  payload : Payload
  deriving DecidableEq, Repr

class FixedSize (α : Type) [PackedStructInfo α] [PackedStructSlice α] [Packable α] : Prop where
  wire_length : ∀ value : α, (wire value).length = PackedStructInfo.packedBits α / 8

namespace HeaderPacket

variable {Header Payload : Type}

def headerBytes (Header : Type) [PackedStructInfo Header] : Nat :=
  PackedStructInfo.packedBits Header / 8

instance [PackedStructInfo Header] [PackedStructInfo Payload] :
    PackedStructInfo (HeaderPacket Header Payload) where
  packedBits := PackedStructInfo.packedBits Header + PackedStructInfo.packedBits Payload

section Slices

variable [PackedStructInfo Header] [PackedStructSlice Header] [PackedStructSlice Payload]

protected def packToSlice (self : HeaderPacket Header Payload) (output : Bytes) :
    PackingResult Bytes :=
  let headerLen := headerBytes Header
  if headerLen > output.length then .error .bufferTooSmall
  else do
    let (headerBytes, payloadBytes) ← splitAt output headerLen
    let headerBytes ← packToSlice self.header headerBytes
    let payloadBytes ← packToSlice self.payload payloadBytes
    pure (headerBytes ++ payloadBytes)

protected def unpackFromSlice (src : Bytes) : PackingResult (HeaderPacket Header Payload) :=
  let headerLen := headerBytes Header
  if headerLen > src.length then .error .bufferTooSmall
  else do
    let (headerBytes, payloadBytes) ← splitAt src headerLen
    let header ← unpackFromSlice headerBytes
    let payload ← unpackFromSlice payloadBytes
    pure { header := header, payload := payload }

protected def packedBytesSize (optSelf : Option (HeaderPacket Header Payload)) :
    PackingResult Nat := do
  let payloadSize ← packedBytesSize (optSelf.map HeaderPacket.payload)
  pure (headerBytes Header + payloadSize)

instance : PackedStructSlice (HeaderPacket Header Payload) where
  packToSlice := HeaderPacket.packToSlice
  unpackFromSlice := HeaderPacket.unpackFromSlice
  packedBytesSize := HeaderPacket.packedBytesSize

/-- Pack the payload and read it back as another payload type. -/
def payloadInto (T : Type) [PackedStructSlice T] (self : HeaderPacket Header Payload) :
    PackingResult (HeaderPacket Header T) := do
  let packedPayload ← packToVec self.payload
  let newPayload ← unpackFromSlice packedPayload
  pure { header := self.header, payload := newPayload }

theorem unpackFromSlice_eq {src : Bytes} (h : headerBytes Header ≤ src.length) :
    (unpackFromSlice src : PackingResult (HeaderPacket Header Payload)) =
      (unpackFromSlice (src.take (headerBytes Header)) >>= fun header =>
        unpackFromSlice (src.drop (headerBytes Header)) >>= fun payload =>
          .ok { header := header, payload := payload }) := by
  change HeaderPacket.unpackFromSlice src = _
  rw [HeaderPacket.unpackFromSlice]
  simp only [if_neg (Nat.not_lt.mpr h), splitAt_of_le h, Outcome.ok_bind]
  rfl

theorem unpackFromSlice_eq_ok {src : Bytes} {packet : HeaderPacket Header Payload} :
    unpackFromSlice src = .ok packet ↔
      headerBytes Header ≤ src.length ∧
        unpackFromSlice (src.take (headerBytes Header)) = .ok packet.header ∧
        unpackFromSlice (src.drop (headerBytes Header)) = .ok packet.payload := by
  by_cases h : headerBytes Header ≤ src.length
  · rw [unpackFromSlice_eq h]
    constructor
    · intro hok
      obtain ⟨header, hheader, hrest⟩ := Outcome.bind_eq_ok.mp hok
      obtain ⟨payload, hpayload, hpacket⟩ := Outcome.bind_eq_ok.mp hrest
      cases hpacket
      exact ⟨h, hheader, hpayload⟩
    · rintro ⟨_, hheader, hpayload⟩
      rw [hheader, Outcome.ok_bind, hpayload, Outcome.ok_bind]
  · constructor
    · intro hok
      change HeaderPacket.unpackFromSlice src = _ at hok
      simp [HeaderPacket.unpackFromSlice, Nat.lt_of_not_le h] at hok
    · rintro ⟨hle, _⟩
      exact absurd hle h

end Slices

section Laws

variable [PackedStructInfo Header] [PackedStructSlice Header] [Packable Header]
  [FixedSize Header] [PackedStructSlice Payload] [Packable Payload]

theorem wire_header_length (header : Header) : (wire header).length = headerBytes Header :=
  FixedSize.wire_length header

instance : Packable (HeaderPacket Header Payload) where
  wire := fun packet => wire packet.header ++ wire packet.payload
  packedBytesSize_some := by
    intro packet
    change HeaderPacket.packedBytesSize (some packet) = _
    simp [HeaderPacket.packedBytesSize, Packable.packedBytesSize_some, wire_header_length]
  packToSlice_wire := by
    intro packet output h
    rw [List.length_append, wire_header_length] at h
    have hle : headerBytes Header ≤ output.length := by omega
    have hheader : packToSlice packet.header (output.take (headerBytes Header)) =
        .ok (wire packet.header) :=
      Packable.packToSlice_wire _ _ (by rw [List.length_take, wire_header_length]; omega)
    have hpayload : packToSlice packet.payload (output.drop (headerBytes Header)) =
        .ok (wire packet.payload) :=
      Packable.packToSlice_wire _ _ (by rw [List.length_drop]; omega)
    change HeaderPacket.packToSlice packet output = _
    rw [HeaderPacket.packToSlice]
    simp only [if_neg (Nat.not_lt.mpr hle), splitAt_of_le hle, Outcome.ok_bind, hheader, hpayload]
    rfl
  unpackFromSlice_wire := by
    intro packet
    have hlen := wire_header_length packet.header
    rw [unpackFromSlice_eq_ok, List.take_left' hlen, List.drop_left' hlen]
    refine ⟨?_, Packable.unpackFromSlice_wire _, Packable.unpackFromSlice_wire _⟩
    rw [List.length_append, hlen]
    omega
  unpackFromSlice_ne_panicked := by
    intro src
    by_cases h : headerBytes Header ≤ src.length
    · rw [unpackFromSlice_eq h]
      refine Outcome.bind_ne_panicked (Packable.unpackFromSlice_ne_panicked _) ?_
      intro header _
      exact Outcome.bind_ne_panicked (Packable.unpackFromSlice_ne_panicked _) (by simp)
    · change HeaderPacket.unpackFromSlice src ≠ _
      simp [HeaderPacket.unpackFromSlice, Nat.lt_of_not_le h]

@[simp] theorem wire_eq (packet : HeaderPacket Header Payload) :
    wire packet = wire packet.header ++ wire packet.payload := rfl

instance [CanonicalWire Header] [CanonicalWire Payload] :
    CanonicalWire (HeaderPacket Header Payload) where
  wire_of_unpackFromSlice := by
    intro src packet h
    obtain ⟨_, hheader, hpayload⟩ := unpackFromSlice_eq_ok.mp h
    rw [wire_eq, CanonicalWire.wire_of_unpackFromSlice hheader,
      CanonicalWire.wire_of_unpackFromSlice hpayload, List.take_append_drop]

end Laws

end HeaderPacket

end AntRelay.Format
