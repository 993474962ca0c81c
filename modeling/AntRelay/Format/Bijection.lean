import AntRelay.Format.Payloads

namespace AntRelay.Format

open AntRelay.Base

variable {P : Type} [PackedStructSlice P] {crc : Checksum}

/-- The bytes before the checksum parse field by field. -/
def FieldsParse (P : Type) [PackedStructSlice P] (body : Bytes) : Prop :=
  (∃ header : Header, unpackFromSlice (body.take 8) = .ok header) ∧
    (∃ source : SourceInfo, unpackFromSlice ((body.drop 8).take 9) = .ok source) ∧
    (∃ payload : P, unpackFromSlice (body.drop 17) = .ok payload)

/-- `b` is a parsable body followed by the checksum of exactly that body. -/
def WellFormedMessage (P : Type) [PackedStructSlice P] (crc : Checksum) (b : Bytes) : Prop :=
  ∃ body sum, b = body ++ sum ∧ sum.length = crc.size ∧ FieldsParse P body ∧
    sum = crc.checksumArray body

structure Bijective (P : Type) [PackedStructSlice P] (crc : Checksum) : Prop where
  unpack_pack : ∀ m : MessageOf P crc, (packToVec m >>= unpackFromSlice) = .ok m
  unpack_ne_panicked : ∀ b, (unpackFromSlice b : PackingResult (MessageOf P crc)) ≠ .panicked
  unpack_iff : ∀ b, (∃ m : MessageOf P crc, unpackFromSlice b = .ok m) ↔
    WellFormedMessage P crc b
  pack_unpack : ∀ b (m : MessageOf P crc), unpackFromSlice b = .ok m → packToVec m = .ok b

theorem headerBytes_header : HeaderPacket.headerBytes Header = 8 := rfl

theorem headerBytes_headerWithSource : HeaderPacket.headerBytes HeaderWithSource = 17 := rfl

/-- Parsing a body is parsing its three fields where the format puts them. -/
theorem fieldsParse_iff {body : Bytes} :
    FieldsParse P body ↔
      ∃ packet : HeaderPacket HeaderWithSource P, unpackFromSlice body = .ok packet := by
  constructor
  · rintro ⟨⟨header, hheader⟩, ⟨source, hsource⟩, ⟨payload, hpayload⟩⟩
    have hlen : ((body.drop 8).take 9).length = 9 := length_of_unpackFromSlice_struct hsource
    rw [List.length_take, List.length_drop] at hlen
    refine ⟨⟨⟨header, source⟩, payload⟩, ?_⟩
    rw [HeaderPacket.unpackFromSlice_eq_ok, HeaderPacket.unpackFromSlice_eq_ok,
      headerBytes_headerWithSource, headerBytes_header]
    have htake : (body.take 17).take 8 = body.take 8 := by rw [List.take_take]; rfl
    have hdrop : (body.take 17).drop 8 = (body.drop 8).take 9 := by rw [List.drop_take]
    rw [htake, hdrop]
    exact ⟨by omega, ⟨by rw [List.length_take]; omega, hheader, hsource⟩, hpayload⟩
  · rintro ⟨packet, hpacket⟩
    obtain ⟨_, houter, hpayload⟩ := HeaderPacket.unpackFromSlice_eq_ok.mp hpacket
    obtain ⟨_, hheader, hsource⟩ := HeaderPacket.unpackFromSlice_eq_ok.mp houter
    rw [headerBytes_headerWithSource, headerBytes_header] at hheader hsource
    rw [headerBytes_headerWithSource] at hpayload
    refine ⟨⟨packet.header.header, ?_⟩, ⟨packet.header.payload, ?_⟩, ⟨packet.payload, hpayload⟩⟩
    · rwa [List.take_take, show min 8 17 = 8 by decide] at hheader
    · rwa [List.drop_take] at hsource

section Canonical

variable [Packable P] [CanonicalWire P]

theorem unpackFromSlice_iff_wellFormed (b : Bytes) :
    (∃ m : MessageOf P crc, unpackFromSlice b = .ok m) ↔ WellFormedMessage P crc b := by
  constructor
  · rintro ⟨m, hm⟩
    obtain ⟨hsize, hbody, hsum⟩ := WithCRC.unpackFromSlice_eq_ok.mp hm
    refine ⟨b.take (WithCRC.splitPoint crc b), b.drop (WithCRC.splitPoint crc b),
      (List.take_append_drop _ b).symm, ?_, fieldsParse_iff.mpr ⟨m.val, hbody⟩, ?_⟩
    · rw [hsum, Checksum.checksumArray_length]
    · rw [hsum, CanonicalWire.wire_of_unpackFromSlice hbody]
  · rintro ⟨body, sum, rfl, hlen, hfields, hsum⟩
    obtain ⟨packet, hpacket⟩ := fieldsParse_iff.mp hfields
    have hsplit : WithCRC.splitPoint crc (body ++ sum) = body.length := by
      rw [WithCRC.splitPoint, List.length_append, hlen]
      omega
    refine ⟨⟨packet⟩, WithCRC.unpackFromSlice_eq_ok.mpr ?_⟩
    rw [hsplit, List.take_left' rfl, List.drop_left' rfl]
    refine ⟨by rw [List.length_append]; omega, hpacket, ?_⟩
    rw [hsum, CanonicalWire.wire_of_unpackFromSlice hpacket]

theorem bijective_of_canonical : Bijective P crc where
  unpack_pack := by
    intro m
    rw [packToVec_eq, Outcome.ok_bind]
    exact Packable.unpackFromSlice_wire m
  unpack_ne_panicked := Packable.unpackFromSlice_ne_panicked
  unpack_iff := unpackFromSlice_iff_wellFormed
  pack_unpack := by
    intro b m h
    rw [packToVec_eq, CanonicalWire.wire_of_unpackFromSlice h]

end Canonical

/-- Messages and ant packets, under every checksum the macro can make; and an
absent source never looks like a present one. -/
theorem message_format_bijective (crc : Checksum) :
    Bijective BytesWrap crc ∧ Bijective Ant.Payload crc ∧
      ∀ inner : Info, packToVec SourceInfo.empty ≠ packToVec (SourceInfo.info inner) := by
  refine ⟨bijective_of_canonical, bijective_of_canonical, ?_⟩
  intro inner h
  rw [packToVec_eq, packToVec_eq] at h
  exact SourceInfo.bytes_info_ne_empty inner (Outcome.ok.inj h).symm

end AntRelay.Format
