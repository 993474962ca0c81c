import AntRelay.Format.PackedStruct

namespace AntRelay.Format

open AntRelay.Base

/-! Eight bytes: magic, destination, timestamp, sequence number and message
type. The enumerations are those of a build with debug assertions, which only
adds `debugCsPing`. -/

structure MissionEpoch where
  val : UInt32
  deriving DecidableEq, Repr

/-- A clock reading in milliseconds: the remainder keeps the reading's sign and
the cast wraps. -/
def MissionEpoch.ofMillis (reading : Int) : MissionEpoch :=
  ⟨UInt32.ofInt (reading.tmod 4294967295)⟩

def MissionEpoch.layout : Layout MissionEpoch where
  sizeBytes := 4
  fields := Field.u32.imap ⟨MissionEpoch.mk, MissionEpoch.val, fun _ => rfl, fun _ => rfl⟩
  fits := by decide

instance : PackedStruct MissionEpoch := .ofLayout MissionEpoch.layout
instance : ExactStruct MissionEpoch := .ofLayout MissionEpoch.layout
instance : CanonicalStruct MissionEpoch := ⟨MissionEpoch.layout.bytes_of_unpackBits rfl⟩

structure MagicValue (expected : UInt8) where
  deriving DecidableEq, Repr

namespace MagicValue

variable {expected : UInt8}

instance : PackedStruct (MagicValue expected) where
  size := 1
  pack := fun _ => .ok [expected]
  unpack := fun src =>
    if src.take 1 = [expected] then .ok ⟨⟩ else .error .invalidValue

instance : ExactStruct (MagicValue expected) where
  bytes := fun _ => [expected]
  bytes_length := fun _ => rfl
  pack_eq := fun _ => rfl
  unpack_bytes := by intro value; simp [PackedStruct.unpack]
  unpack_ne_panicked := by
    intro src _
    simp only [PackedStruct.unpack]
    split <;> simp

instance : CanonicalStruct (MagicValue expected) where
  bytes_of_unpack := by
    intro src value hlen h
    simp only [PackedStruct.unpack] at h
    split at h
    · rename_i htake
      have hlen : src.length ≤ 1 := Nat.le_of_eq hlen
      rw [List.take_of_length_le hlen] at htake
      exact htake.symm
    · contradiction

end MagicValue

abbrev Magic := MagicValue 0xeb

inductive Destination where
  | frontend
  | centralStation
  | ant
  | ground
  deriving DecidableEq, Repr

def Destination.toPrimitive : Destination → UInt8
  | .frontend => 0x90
  | .centralStation => 0x91
  | .ant => 0x92
  | .ground => 0xde

def Destination.table : PrimitiveEnum Destination where
  variants := [.frontend, .centralStation, .ant, .ground]
  toPrimitive := Destination.toPrimitive
  mem_variants := by intro value; cases value <;> decide
  nodup := by decide

inductive Disposition where
  | command
  | ack
  deriving DecidableEq, Repr

def Disposition.toPrimitive : Disposition → UInt8
  | .command => 0x0
  | .ack => 0x1

def Disposition.table : PrimitiveEnum Disposition where
  variants := [.command, .ack]
  toPrimitive := Disposition.toPrimitive
  mem_variants := by intro value; cases value <;> decide
  nodup := by decide

inductive Event where
  | antPing
  | antStart
  | antCalibrate
  | antOta
  | antStop
  | antPowerOff
  | antHeaterOn
  | antHeaterOff
  | antMoveForward
  | antMoveBackward
  | csGarageOpen
  | csRoverStop
  | csRoverMove
  | csPing
  | csDfuViaBle
  | csDfuSerial
  | csAntDfuInit
  | csAntDfuPacket
  | csRelay
  | csBleConnect
  | csBleDisconnect
  | feGarageOpen
  | feRoverStop
  | feRoverMove
  | fePowerSupplied
  | fePing
  | feRestart
  | feCsPowerCycled
  | debugCsPing
  deriving DecidableEq, Repr

def Event.toPrimitive : Event → UInt8
  | .antPing => 0x01
  | .antStart => 0x02
  | .antCalibrate => 0x03
  | .antOta => 0x04
  | .antStop => 0x05
  | .antPowerOff => 0x06
  | .antHeaterOn => 0x07
  | .antHeaterOff => 0x08
  | .antMoveForward => 0x09
  | .antMoveBackward => 0x0a
  | .csGarageOpen => 0x11
  | .csRoverStop => 0x12
  | .csRoverMove => 0x13
  | .csPing => 0x14
  | .csDfuViaBle => 0x15
  | .csDfuSerial => 0x16
  | .csAntDfuInit => 0x17
  | .csAntDfuPacket => 0x18
  | .csRelay => 0x19
  | .csBleConnect => 0x1a
  | .csBleDisconnect => 0x1b
  | .feGarageOpen => 0x21
  | .feRoverStop => 0x22
  | .feRoverMove => 0x23
  | .fePowerSupplied => 0x24
  | .fePing => 0x25
  | .feRestart => 0x26
  | .feCsPowerCycled => 0x27
  | .debugCsPing => 0x2f

def Event.table : PrimitiveEnum Event where
  variants := [.antPing, .antStart, .antCalibrate, .antOta, .antStop, .antPowerOff, .antHeaterOn,
    .antHeaterOff, .antMoveForward, .antMoveBackward, .csGarageOpen, .csRoverStop, .csRoverMove,
    .csPing, .csDfuViaBle, .csDfuSerial, .csAntDfuInit, .csAntDfuPacket, .csRelay, .csBleConnect,
    .csBleDisconnect, .feGarageOpen, .feRoverStop, .feRoverMove, .fePowerSupplied, .fePing,
    .feRestart, .feCsPowerCycled, .debugCsPing]
  toPrimitive := Event.toPrimitive
  mem_variants := by intro value; cases value <;> decide
  nodup := by decide

structure MessageType where
  disposition : Disposition
  invalid : Bool
  event : Event
  deriving DecidableEq, Repr

def MessageType.layout : Layout MessageType where
  sizeBytes := 1
  fields :=
    ((BitCodec.enum Disposition.table 1 (by decide)
        (by intro value; cases value <;> decide)).prod
      (BitCodec.bool.prod (BitCodec.enum Event.table 6 (by decide)
        (by intro value; cases value <;> decide)))).imap
      ⟨fun t => ⟨t.1, t.2.1, t.2.2⟩, fun m => (m.disposition, m.invalid, m.event),
        fun _ => rfl, fun _ => rfl⟩
  fits := by decide

instance : PackedStruct MessageType := .ofLayout MessageType.layout
instance : ExactStruct MessageType := .ofLayout MessageType.layout
instance : CanonicalStruct MessageType := ⟨MessageType.layout.bytes_of_unpackBits rfl⟩

structure Header where
  magic : Magic
  destination : Destination
  timestamp : MissionEpoch
  seq : UInt8
  ty : MessageType
  deriving DecidableEq, Repr

def Header.layout : Layout Header where
  sizeBytes := 8
  fields :=
    ((Field.nested Magic).prod ((BitCodec.enum Destination.table 8 (by decide)
        (by intro value; cases value <;> decide)).prod
      ((Field.nested MissionEpoch).prod (Field.u8.prod (Field.nested MessageType))))).imap
      ⟨fun t => ⟨t.1, t.2.1, t.2.2.1, t.2.2.2.1, t.2.2.2.2⟩,
        fun h => (h.magic, h.destination, h.timestamp, h.seq, h.ty), fun _ => rfl, fun _ => rfl⟩
  fits := by decide

instance : PackedStruct Header := .ofLayout Header.layout
instance : ExactStruct Header := .ofLayout Header.layout
instance : CanonicalStruct Header := ⟨Header.layout.bytes_of_unpackBits rfl⟩

instance : PackedStructInfo Header where
  packedBits := 64

theorem Header.bytes_eq_cons (header : Header) :
    ∃ rest, ExactStruct.bytes header = 0xeb :: rest := by
  obtain ⟨rest, hrest⟩ : ∃ rest, Header.layout.padded header = bytesToBits [0xeb] ++ rest :=
    ⟨_, List.append_assoc (bytesToBits [0xeb]) _ _⟩
  refine ⟨bitsToBytes rest, ?_⟩
  change bitsToBytes (Header.layout.padded header) = _
  rw [hrest, bytesToBits_cons, bytesToBits_nil, List.append_nil,
    bitsToBytes_append_of_length (msbFirst_length _), ofMsbFirst_msbFirst]

structure Params where
  time : MissionEpoch
  seq : UInt8
  deriving DecidableEq, Repr

structure UniqueId where
  timestamp : MissionEpoch
  seq : UInt8
  deriving DecidableEq, Repr

namespace Header

def uniqueId (header : Header) : UniqueId :=
  ⟨header.timestamp, header.seq⟩

def command (env : Params) (dest : Destination) (event : Event) : Header where
  magic := ⟨⟩
  destination := dest
  timestamp := env.time
  seq := env.seq
  ty := { disposition := .command, invalid := false, event := event }

def downlink (env : Params) (event : Event) : Header where
  magic := ⟨⟩
  destination := .ground
  timestamp := env.time
  seq := env.seq
  ty := { disposition := .command, invalid := false, event := event }

/-- The event asked for is not kept: every log header says `fePing`. -/
def log (env : Params) (kind : Event) : Header :=
  { downlink env kind with ty := { disposition := .ack, invalid := false, event := .fePing } }

end Header

end AntRelay.Format
