import AntRelay.Base.Cobs
import AntRelay.Format.OutputLength
import AntRelay.Runtime.Replies

namespace AntRelay.Runtime
open AntRelay.Base AntRelay.Format

variable {crc : Checksum}

def Serial.handleUpMessage (msg : Message crc) : Option Bytes :=
  match packToVec msg with
  | .ok packed => some packed
  | .error _ => none
  | .panicked => none

theorem Serial.handleUpMessage_eq (msg : Message crc) :
    Serial.handleUpMessage msg = some (wire msg) := by
  rw [Serial.handleUpMessage, packToVec_eq]

namespace Station

/-- The ack of a message: its header with the disposition changed, the header as
it came as the source, and no payload. -/
def ack (message : Message crc) : PackingResult (Message crc) := do
  let header := message.val.header.header
  let checksum ← message.checksum
  match checksum with
  | [] => .panicked
  | sum :: _ =>
      pure ⟨{ header :=
                { header := { header with ty := { header.ty with disposition := .ack } }
                  payload := .info { header := header, checksum := sum } }
              payload := ⟨[]⟩ }⟩

/-- `read_uplink`, on one packet: the bytes it sends back.  What it cannot read
ends it. -/
def readUplink (crc : Checksum) (autoack : Bool) (packet : Bytes) :
    PackingResult (Option Bytes) := do
  let message : Message crc ← unpackFromSlice packet
  if !autoack then pure none
  else do
    let ackMsg ← ack message
    let bytes ← packToVec ackMsg
    pure (some bytes)

variable {smbus : Bytes → UInt8}

def ackOf (message : Message (StandardCRC smbus)) : Message (StandardCRC smbus) :=
  let header := message.val.header.header
  ⟨{ header :=
       { header := { header with ty := { header.ty with disposition := .ack } }
         payload := .info { header := header, checksum := smbus (wire message.val) } }
     payload := ⟨[]⟩ }⟩

theorem ack_eq (message : Message (StandardCRC smbus)) : ack message = .ok (ackOf message) := by
  rw [ack, WithCRC.checksum_eq]
  rfl

theorem readUplink_wire (message : Message (StandardCRC smbus)) (autoack : Bool) :
    readUplink (StandardCRC smbus) autoack (wire message) =
      .ok (if autoack then some (wire (ackOf message)) else none) := by
  rw [readUplink, Packable.unpackFromSlice_wire, Outcome.ok_bind]
  cases autoack with
  | false => rfl
  | true =>
      simp only [Bool.not_true, Bool.false_eq_true, ↓reduceIte, ack_eq, Outcome.ok_bind,
        packToVec_eq, Outcome.pure_eq_ok]

@[simp] theorem sourceId_ackOf (message : Message (StandardCRC smbus)) :
    sourceId (ackOf message).val.header.payload = some (requestId message) := rfl

@[simp] theorem issuesAck_ackOf (message : Message (StandardCRC smbus)) :
    Serial.issuesAck (ackOf message) = true := rfl

theorem ackOf_not_fullGroups (message : Message (StandardCRC smbus)) :
    ¬ Cobs.FullGroups (wire (ackOf message)) := by
  intro hfull
  have hlen := hfull.length_ge
  rw [message_wire_length] at hlen
  change 254 ≤ 17 + 0 + 1 at hlen
  omega

theorem antDecode_ackOf (message : Message (StandardCRC smbus)) :
    AntDecode.handle (ackOf message) = none := by
  unfold AntDecode.handle
  dsimp only
  split
  · rfl
  · rfl

end Station

end AntRelay.Runtime
