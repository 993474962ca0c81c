import AntRelay.Base.Bits
import AntRelay.Base.Crc

namespace AntRelay.Format

open AntRelay.Base

/-! What `impl_checksum!` makes of an algorithm: a one-byte checksum is its own
array, a wider one is written in the byte order the macro was given, big endian
where it names none. The algorithm itself is the CRC library's. -/

inductive Checksum where
  | u8 (algo : Bytes → UInt8)
  | wide (bytes : Nat) (algo : Bytes → BitVec (8 * bytes)) (endian : ByteOrder)

namespace Checksum

def size : Checksum → Nat
  | .u8 _ => 1
  | .wide bytes _ _ => bytes

def checksumArray : Checksum → Bytes → Bytes
  | .u8 algo, vals => [algo vals]
  | .wide bytes algo endian, vals => endian.write bytes (algo vals).toNat

@[simp] theorem checksumArray_length (crc : Checksum) (vals : Bytes) :
    (crc.checksumArray vals).length = crc.size := by
  cases crc <;> simp [checksumArray, size]

end Checksum

/-- The algorithm the standard checksum asks the CRC library for: polynomial
`0x07`, initial value zero, no reflection, no final exclusive or. -/
def IsCrc8Smbus (smbus : Bytes → UInt8) : Prop :=
  ∀ vals, smbus vals = ⟨Crc.remainder 0x07#8 0#8 (bytesToBits vals)⟩

def crc8Smbus (vals : Bytes) : UInt8 :=
  ⟨Crc.remainder 0x07#8 0#8 (bytesToBits vals)⟩

/-- The catalogue's check value. -/
example : crc8Smbus [0x31, 0x32, 0x33, 0x34, 0x35, 0x36, 0x37, 0x38, 0x39] = 0xf4 := by
  decide +kernel

def StandardCRC (smbus : Bytes → UInt8) : Checksum :=
  .u8 smbus

end AntRelay.Format
