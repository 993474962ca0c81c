import AntRelay.Runtime.Commander

namespace AntRelay.Runtime
open AntRelay.Base AntRelay.Format

variable {crc : Checksum}

/-- The seven bits of the central station's payload that belong to no field. -/
def spareBits (b : Bytes) : List Bool :=
  (bytesToBits (b.take 20)).drop 153

/-- The bytes come back from the central station's telemetry exactly when the
spare bits are zero. -/
theorem cs_wire_iff {src : Bytes} {cs : Cs.Payload} (h : unpackFromSlice src = .ok cs) :
    wire cs = src ↔ (bytesToBits src).drop 153 = List.replicate 7 false := by
  have hlen : src.length = 20 := length_of_unpackFromSlice_struct h
  have hunpack : Cs.Payload.layout.unpackBits src = .ok cs := by
    have hsize : ¬ src.length ≠ PackedStruct.size Cs.Payload := not_not.mpr hlen
    have hstruct : (unpackFromSlice src : PackingResult Cs.Payload) =
        PackedStruct.unpack src := if_neg hsize
    exact hstruct.symm.trans h
  exact Cs.Payload.layout.bytes_eq_iff hunpack

theorem relay_wire_iff {b : Bytes} {r : CSRelay crc} (h : unpackFromSlice b = .ok r) :
    wire r = b ↔ spareBits b = List.replicate 7 false := by
  obtain ⟨hlen, hcs, hant⟩ := HeaderPacket.unpackFromSlice_eq_ok.mp h
  have hheader : HeaderPacket.headerBytes Cs.Payload = 20 := rfl
  rw [hheader] at hlen hcs hant
  have hpayload : wire r.payload = b.drop 20 := CanonicalWire.wire_of_unpackFromSlice hant
  have hsplit : wire r = b ↔ wire r.header = b.take 20 := by
    rw [HeaderPacket.wire_eq, hpayload]
    constructor
    · intro hwhole
      exact List.append_cancel_right (hwhole.trans (List.take_append_drop 20 b).symm)
    · intro hfront
      rw [hfront, List.take_append_drop]
  rw [hsplit, spareBits]
  exact cs_wire_iff hcs

theorem payloadInto_relay (header : HeaderWithSource) (r : CSRelay crc) :
    ∃ packet : HeaderPacket HeaderWithSource BytesWrap,
      HeaderPacket.payloadInto BytesWrap ⟨header, r⟩ = .ok packet ∧ packet.header = header ∧
        unpackFromSlice packet.payload.bytes = .ok r := by
  refine ⟨⟨header, ⟨wire r⟩⟩, ?_, rfl, Packable.unpackFromSlice_wire r⟩
  rw [HeaderPacket.payloadInto, packToVec_eq]
  rfl

theorem antDecode_relay {msg : Message crc} {r : CSRelay crc}
    (hevent : msg.val.header.header.ty.event = .csRelay)
    (hack : msg.val.header.header.ty.disposition = .ack)
    (h : unpackFromSlice msg.val.payload.bytes = .ok r) :
    AntDecode.handle msg = some r.payload := by
  unfold AntDecode.handle
  simp only [hevent, hack, and_self, if_true, h]

/-- Every relay packet comes back from its bytes, also through a message and
`AntDecode`; received bytes come back from the packet exactly when the spare bits
are zero. -/
theorem telemetry_preserved_iff (crc : Checksum) :
    (∀ r : CSRelay crc, (packToVec r >>= unpackFromSlice) = .ok r) ∧
    (∀ (header : HeaderWithSource) (r : CSRelay crc), header.header.ty.event = .csRelay →
      header.header.ty.disposition = .ack → ∃ packet : HeaderPacket HeaderWithSource BytesWrap,
        HeaderPacket.payloadInto BytesWrap ⟨header, r⟩ = .ok packet ∧ packet.header = header ∧
          unpackFromSlice packet.payload.bytes = .ok r ∧
          AntDecode.handle (⟨packet⟩ : Message crc) = some r.payload) ∧
    (∀ (b : Bytes) (r : CSRelay crc), unpackFromSlice b = .ok r →
      (packToVec r = .ok b ↔ spareBits b = List.replicate 7 false)) := by
  refine ⟨?_, ?_, ?_⟩
  · intro r
    rw [packToVec_eq, Outcome.ok_bind]
    exact Packable.unpackFromSlice_wire r
  · intro header r hevent hack
    obtain ⟨packet, hinto, rfl, hunpack⟩ := payloadInto_relay header r
    exact ⟨packet, hinto, rfl, hunpack, antDecode_relay hevent hack hunpack⟩
  · intro b r h
    rw [packToVec_eq, Outcome.ok.injEq]
    exact relay_wire_iff h

def antPong : AntPacket (StandardCRC crc8Smbus) :=
  ⟨⟨⟨Header.command ⟨⟨0⟩, 0⟩ .frontend .antPing, .empty⟩,
    ⟨0, 0, 0, 0, ⟨0, 0, 0⟩, ⟨0, 0, 0⟩, 0, 0, 0, 0, 0, 0⟩⟩⟩

def spareBitSet : Bytes :=
  List.replicate 19 0 ++ [1] ++ wire antPong

theorem spareBit_lost : ∃ r : CSRelay (StandardCRC crc8Smbus),
    unpackFromSlice spareBitSet = .ok r ∧ packToVec r ≠ .ok spareBitSet := by
  have hheader : HeaderPacket.headerBytes Cs.Payload = 20 := rfl
  have htake : spareBitSet.take 20 = List.replicate 19 0 ++ [1] :=
    List.take_left' rfl
  have hdrop : spareBitSet.drop 20 = wire antPong := List.drop_left' rfl
  have hcs : unpackFromSlice (spareBitSet.take 20) =
      .ok (⟨0, 0, 0, 0, ⟨0, 0, 0⟩, false, 0⟩ : Cs.Payload) := by
    rw [htake]
    decide
  have hunpack : unpackFromSlice spareBitSet = .ok (⟨⟨0, 0, 0, 0, ⟨0, 0, 0⟩, false, 0⟩, antPong⟩ :
      CSRelay (StandardCRC crc8Smbus)) := by
    rw [HeaderPacket.unpackFromSlice_eq_ok, hheader, hcs, hdrop]
    refine ⟨?_, rfl, Packable.unpackFromSlice_wire antPong⟩
    rw [spareBitSet, List.length_append]
    exact Nat.le_add_right _ _
  refine ⟨_, hunpack, ?_⟩
  rw [packToVec_eq, ne_eq, Outcome.ok.injEq, relay_wire_iff hunpack, spareBits, htake]
  decide

end AntRelay.Runtime
