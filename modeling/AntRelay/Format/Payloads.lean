import AntRelay.Format.SourceInfo
import AntRelay.Format.HeaderPacket
import AntRelay.Format.WithCrc

namespace AntRelay.Format

open AntRelay.Base

structure Vec3 where
  x : UInt32
  y : UInt32
  z : UInt32
  deriving DecidableEq, Repr

def Vec3.layout : Layout Vec3 where
  sizeBytes := 12
  fields := (Field.u32.prod (Field.u32.prod Field.u32)).imap
    ⟨fun t => ⟨t.1, t.2.1, t.2.2⟩, fun v => (v.x, v.y, v.z), fun _ => rfl, fun _ => rfl⟩
  fits := by decide

instance : PackedStruct Vec3 := .ofLayout Vec3.layout
instance : ExactStruct Vec3 := .ofLayout Vec3.layout
instance : CanonicalStruct Vec3 := ⟨Vec3.layout.bytes_of_unpackBits rfl⟩

structure Cs.Payload where
  temperature : UInt16
  power5v : UInt8
  powerVcc : UInt8
  framUsed : UInt8
  accel : Vec3
  heatEnabled : Bool
  r0 : UInt16
  deriving DecidableEq, Repr

/-- The one-bit flag leaves seven of the 160 bits unused. -/
def Cs.Payload.layout : Layout Cs.Payload where
  sizeBytes := 20
  fields := (Field.u16.prod (Field.u8.prod (Field.u8.prod (Field.u8.prod
    ((Field.nested Vec3).prod (BitCodec.bool.prod Field.u16)))))).imap
    ⟨fun t => ⟨t.1, t.2.1, t.2.2.1, t.2.2.2.1, t.2.2.2.2.1, t.2.2.2.2.2.1, t.2.2.2.2.2.2⟩,
      fun p => (p.temperature, p.power5v, p.powerVcc, p.framUsed, p.accel, p.heatEnabled, p.r0),
      fun _ => rfl, fun _ => rfl⟩
  fits := by decide

instance : PackedStruct Cs.Payload := .ofLayout Cs.Payload.layout
instance : ExactStruct Cs.Payload := .ofLayout Cs.Payload.layout

instance : PackedStructInfo Cs.Payload where
  packedBits := 160

instance : FixedSize Cs.Payload where
  wire_length := Cs.Payload.layout.bytes_length

structure Ant.Payload where
  pcbTemp : UInt16
  batteryTemp : UInt16
  batteryVoltage : UInt8
  framUsage : UInt16
  gyro : Vec3
  accelerometer : Vec3
  calipileObject : UInt32
  calipileAmbient : UInt32
  orientation : UInt16
  steer : UInt8
  r0 : UInt64
  r1 : UInt16
  deriving DecidableEq, Repr

def Ant.Payload.layout : Layout Ant.Payload where
  sizeBytes := 52
  fields := (Field.u16.prod (Field.u16.prod (Field.u8.prod (Field.u16.prod
    ((Field.nested Vec3).prod ((Field.nested Vec3).prod (Field.u32.prod (Field.u32.prod
      (Field.u16.prod (Field.u8.prod (Field.u64.prod Field.u16))))))))))).imap
    ⟨fun t => ⟨t.1, t.2.1, t.2.2.1, t.2.2.2.1, t.2.2.2.2.1, t.2.2.2.2.2.1, t.2.2.2.2.2.2.1,
        t.2.2.2.2.2.2.2.1, t.2.2.2.2.2.2.2.2.1, t.2.2.2.2.2.2.2.2.2.1,
        t.2.2.2.2.2.2.2.2.2.2.1, t.2.2.2.2.2.2.2.2.2.2.2⟩,
      fun p => (p.pcbTemp, p.batteryTemp, p.batteryVoltage, p.framUsage, p.gyro, p.accelerometer,
        p.calipileObject, p.calipileAmbient, p.orientation, p.steer, p.r0, p.r1),
      fun _ => rfl, fun _ => rfl⟩
  fits := by decide

instance : PackedStruct Ant.Payload := .ofLayout Ant.Payload.layout
instance : ExactStruct Ant.Payload := .ofLayout Ant.Payload.layout
instance : CanonicalStruct Ant.Payload := ⟨Ant.Payload.layout.bytes_of_unpackBits rfl⟩

structure BytesWrap where
  bytes : Bytes
  deriving DecidableEq, Repr

namespace BytesWrap

instance : PackedStructSlice BytesWrap where
  packToSlice := fun self output => copyFromSlice output self.bytes
  unpackFromSlice := fun src => .ok ⟨src⟩
  packedBytesSize := fun optSelf =>
    match optSelf with
    | none => .error .instanceRequiredForSize
    | some slf => .ok slf.bytes.length

instance : Packable BytesWrap where
  wire := BytesWrap.bytes
  packedBytesSize_some := fun _ => rfl
  packToSlice_wire := fun _ _ h => copyFromSlice_of_length_eq h
  unpackFromSlice_wire := fun _ => rfl
  unpackFromSlice_ne_panicked := by intro src; simp [unpackFromSlice]

instance : CanonicalWire BytesWrap where
  wire_of_unpackFromSlice := by
    intro src value h
    cases h
    rfl

end BytesWrap

instance : FixedSize Header where
  wire_length := wire_length_struct

instance : FixedSize SourceInfo where
  wire_length := wire_length_struct

abbrev HeaderWithSource := HeaderPacket Header SourceInfo

instance : FixedSize HeaderWithSource where
  wire_length := by
    intro packet
    rw [HeaderPacket.wire_eq, List.length_append, FixedSize.wire_length, FixedSize.wire_length]
    rfl

abbrev MessageOf (Payload : Type) (crc : Checksum) :=
  WithCRC (HeaderPacket HeaderWithSource Payload) crc

abbrev Message (crc : Checksum) := MessageOf BytesWrap crc

abbrev AntPacket (crc : Checksum) := MessageOf Ant.Payload crc

abbrev CSRelay (crc : Checksum) := HeaderPacket Cs.Payload (AntPacket crc)

/-- A command of the frontend: no source, no payload. -/
def command (crc : Checksum) (env : Params) (dest : Destination) (event : Event) : Message crc :=
  ⟨{ header := { header := Header.command env dest event, payload := .empty },
     payload := ⟨[]⟩ }⟩

def downlink (crc : Checksum) (env : Params) (b : Bytes) : Message crc :=
  ⟨{ header := { header := Header.downlink env .fePing, payload := .empty },
     payload := ⟨b⟩ }⟩

end AntRelay.Format
