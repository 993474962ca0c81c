import AntRelay.Base.Bincode
import AntRelay.Format.Payloads

namespace AntRelay.Format

open AntRelay.Base AntRelay.Base.Bincode

def MagicValue.codec (expected : UInt8) : Codec (MagicValue expected) where
  write := fun _ => Codec.u8.write expected
  read := do
    let val ← Codec.u8.read
    if val ≠ expected then
      throw (.custom s!"magic value mismatch (expected: {expected}, got: {val})")
    else pure ⟨⟩
  Fits := fun _ => True
  read_write := by
    intro value _ rest
    rw [Codec.u8.run_bind trivial, if_neg (not_not.mpr rfl)]
    rfl

def MissionEpoch.codec : Codec MissionEpoch :=
  Codec.u32.imap MissionEpoch.mk MissionEpoch.val fun ⟨_⟩ => rfl

def Destination.codec : Codec Destination :=
  .unitEnum Destination.table.variants Destination.table.mem_variants (by decide)

def Disposition.codec : Codec Disposition :=
  .unitEnum Disposition.table.variants Disposition.table.mem_variants (by decide)

def Event.codec : Codec Event :=
  .unitEnum Event.table.variants Event.table.mem_variants (by decide)

def MessageType.codec : Codec MessageType :=
  (Disposition.codec.prod (Codec.bool.prod Event.codec)).imap
    (fun t => ⟨t.1, t.2.1, t.2.2⟩) (fun m => (m.disposition, m.invalid, m.event))
    fun ⟨_, _, _⟩ => rfl

def Header.codec : Codec Header :=
  ((MagicValue.codec 0xeb).prod (Destination.codec.prod (MissionEpoch.codec.prod
    (Codec.u8.prod MessageType.codec)))).imap
    (fun t => ⟨t.1, t.2.1, t.2.2.1, t.2.2.2.1, t.2.2.2.2⟩)
    (fun h => (h.magic, h.destination, h.timestamp, h.seq, h.ty)) fun _ => rfl

theorem Header.codec_fits (header : Header) : Header.codec.Fits header :=
  ⟨trivial, trivial, trivial, trivial, trivial, trivial, trivial⟩

def Info.codec : Codec Info :=
  (Header.codec.prod Codec.u8).imap
    (fun t => ⟨t.1, t.2⟩) (fun i => (i.header, i.checksum)) fun _ => rfl

theorem Info.codec_fits (inner : Info) : Info.codec.Fits inner :=
  ⟨inner.header.codec_fits, trivial⟩

def SourceInfo.codec : Codec SourceInfo where
  write := fun source =>
    match source with
    | .empty => writeVariant 0
    | .info inner => writeVariant 1 ++ Info.codec.write inner
  read := do
    match ← readVariant with
    | 0 => pure .empty
    | 1 => SourceInfo.info <$> Info.codec.read
    | index => throw (invalidVariant index 2)
  Fits := fun _ => True
  read_write := by
    intro source _ rest
    cases source with
    | empty => rw [run_readVariant_bind (by decide)]; rfl
    | info inner =>
        exact Info.codec.run_variant SourceInfo.info (by decide) rfl inner.codec_fits rest

def HeaderPacket.codec {Header Payload : Type} (header : Codec Header) (payload : Codec Payload) :
    Codec (HeaderPacket Header Payload) :=
  (header.prod payload).imap
    (fun t => ⟨t.1, t.2⟩) (fun p => (p.header, p.payload)) fun _ => rfl

/-- Only the value is written; what is read is wrapped anew, so its checksum is
computed again. -/
def WithCRC.codec {α : Type} {crc : Checksum} (codec : Codec α) : Codec (WithCRC α crc) where
  write := fun self => codec.write self.val
  read := do
    let val ← codec.read
    pure ⟨val⟩
  Fits := fun self => codec.Fits self.val
  read_write := by
    intro self h rest
    rw [codec.run_bind h]
    rfl

def BytesWrap.codec : Codec BytesWrap where
  write := fun self => writeBytes self.bytes
  read := do
    let v ← (Codec.seq Codec.u8).read
    pure ⟨v⟩
  Fits := fun self => self.bytes.length < 2 ^ 64
  read_write := by
    intro self h rest
    have hfits : (Codec.seq Codec.u8).Fits self.bytes := ⟨h, fun _ _ => trivial⟩
    rw [← Codec.seq_u8_write, Codec.run_bind _ hfits]
    rfl

def Message.codec {crc : Checksum} : Codec (Message crc) :=
  WithCRC.codec
    (HeaderPacket.codec (HeaderPacket.codec Header.codec SourceInfo.codec) BytesWrap.codec)

theorem Message.codec_fits {crc : Checksum} {msg : Message crc}
    (h : msg.val.payload.bytes.length < 2 ^ 64) : Message.codec.Fits msg :=
  ⟨⟨msg.val.header.header.codec_fits, trivial⟩, h⟩

end AntRelay.Format
