import AntRelay.Base.Bits
import Mathlib.Logic.Equiv.Basic
import Mathlib.Data.List.Nodup

namespace AntRelay.Base

/-- A fixed-width canonical codec: every value has one encoding, and only
encodings are accepted. -/
structure BitCodec (α : Type) where
  width : Nat
  encode : α → List Bool
  decode : List Bool → Option α
  encode_length : ∀ value, (encode value).length = width
  decode_encode : ∀ value, decode (encode value) = some value
  encode_decode : ∀ {bits value}, decode bits = some value → encode value = bits

structure PrimitiveEnum (α : Type) [DecidableEq α] where
  variants : List α
  toPrimitive : α → UInt8
  mem_variants : ∀ value, value ∈ variants
  nodup : (variants.map toPrimitive).Nodup

namespace PrimitiveEnum

variable {α : Type} [DecidableEq α]

def fromPrimitive (table : PrimitiveEnum α) (byte : UInt8) : Option α :=
  table.variants.find? fun value => table.toPrimitive value == byte

@[simp] theorem fromPrimitive_toPrimitive (table : PrimitiveEnum α) (value : α) :
    table.fromPrimitive (table.toPrimitive value) = some value := by
  unfold fromPrimitive
  cases hfind : table.variants.find? fun other =>
      table.toPrimitive other == table.toPrimitive value with
  | none =>
      have hnone := List.find?_eq_none.mp hfind value (table.mem_variants value)
      simp at hnone
  | some other =>
      have heq := List.find?_some hfind
      rw [List.inj_on_of_nodup_map table.nodup (table.mem_variants other)
        (table.mem_variants value) (beq_iff_eq.mp heq)]

theorem toPrimitive_of_fromPrimitive {table : PrimitiveEnum α} {byte : UInt8} {value : α}
    (h : table.fromPrimitive byte = some value) : table.toPrimitive value = byte := by
  unfold fromPrimitive at h
  have hfound := List.find?_some h
  exact beq_iff_eq.mp hfound

end PrimitiveEnum

namespace BitCodec

variable {α β : Type}

def bool : BitCodec Bool where
  width := 1
  encode := fun bit => [bit]
  decode := fun bits => match bits with
    | [bit] => some bit
    | _ => none
  encode_length := by intro value; rfl
  decode_encode := by intro value; rfl
  encode_decode := by
    intro bits value h
    split at h
    · cases h; rfl
    · contradiction

/-- A word of any width, most significant bit first. -/
def word (w : Nat) : BitCodec (BitVec w) where
  width := w
  encode := msbFirst
  decode := fun bits => if h : bits.length = w then some (ofMsbFirst bits h) else none
  encode_length := msbFirst_length
  decode_encode := by intro value; simp
  encode_decode := by
    intro bits value h
    split at h
    · rename_i hlen
      cases h
      exact msbFirst_ofMsbFirst bits hlen
    · contradiction

def littleEndian (count : Nat) : BitCodec (Fin (256 ^ count)) where
  width := 8 * count
  encode := fun value => bytesToBits (natToLE count value.val)
  decode := fun bits =>
    if h : bits.length = 8 * count then
      some ⟨natOfLE (bitsToBytes bits), by
        have hlt := natOfLE_lt (bitsToBytes bits)
        rwa [bitsToBytes_length h] at hlt⟩
    else none
  encode_length := by intro value; simp
  decode_encode := by
    intro value
    simp [natOfLE_natToLE value.isLt]
  encode_decode := by
    intro bits value h
    split at h
    · rename_i hlen
      cases h
      have hbytes := natToLE_natOfLE (bitsToBytes bits)
      rw [bitsToBytes_length hlen] at hbytes
      rw [hbytes, bytesToBits_bitsToBytes hlen]
    · contradiction

def imap (codec : BitCodec α) (equiv : α ≃ β) : BitCodec β where
  width := codec.width
  encode := fun value => codec.encode (equiv.symm value)
  decode := fun bits => (codec.decode bits).map equiv
  encode_length := fun value => codec.encode_length (equiv.symm value)
  decode_encode := by intro value; simp [codec.decode_encode]
  encode_decode := by
    intro bits value h
    obtain ⟨inner, hinner, heq⟩ := Option.map_eq_some_iff.mp h
    subst heq
    rw [Equiv.symm_apply_apply]
    exact codec.encode_decode hinner

def prod (left : BitCodec α) (right : BitCodec β) : BitCodec (α × β) where
  width := left.width + right.width
  encode := fun value => left.encode value.1 ++ right.encode value.2
  decode := fun bits =>
    match left.decode (bits.take left.width), right.decode (bits.drop left.width) with
    | some first, some second => some (first, second)
    | _, _ => none
  encode_length := by
    intro value
    rw [List.length_append, left.encode_length, right.encode_length]
  decode_encode := by
    intro value
    have hlen := left.encode_length value.1
    rw [List.take_left' hlen, List.drop_left' hlen, left.decode_encode, right.decode_encode]
  encode_decode := by
    intro bits value h
    split at h
    · rename_i first second hfirst hsecond
      cases h
      rw [left.encode_decode hfirst, right.encode_decode hsecond, List.take_append_drop]
    · contradiction

/-- An enumeration stored in the `w` low bits of its discriminant. -/
def enum [DecidableEq α] (table : PrimitiveEnum α) (w : Nat) (hw : w ≤ 8)
    (fits : ∀ value, (table.toPrimitive value).toNat < 2 ^ w) : BitCodec α where
  width := w
  encode := fun value => msbFirst ((table.toPrimitive value).toBitVec.setWidth w)
  decode := fun bits =>
    ((word w).decode bits).bind fun x => table.fromPrimitive ⟨x.setWidth 8⟩
  encode_length := by intro value; simp
  decode_encode := by
    intro value
    rw [show msbFirst _ = (word w).encode _ from rfl, (word w).decode_encode, Option.bind_some]
    have hsmall : ((table.toPrimitive value).toBitVec.setWidth w).setWidth 8 =
        (table.toPrimitive value).toBitVec := by
      apply BitVec.eq_of_toNat_eq
      have hlt := fits value
      have hbyte := (table.toPrimitive value).toNat_lt
      simp only [BitVec.toNat_setWidth, UInt8.toNat_toBitVec]
      rw [Nat.mod_eq_of_lt hlt, Nat.mod_eq_of_lt hbyte]
    rw [hsmall]
    exact table.fromPrimitive_toPrimitive value
  encode_decode := by
    intro bits value h
    obtain ⟨x, hx, hvalue⟩ := Option.bind_eq_some_iff.mp h
    rw [PrimitiveEnum.toPrimitive_of_fromPrimitive hvalue]
    have hback : (x.setWidth 8).setWidth w = x := by
      apply BitVec.eq_of_toNat_eq
      have hlt := x.isLt
      have hpow : 2 ^ w ≤ 2 ^ 8 := Nat.pow_le_pow_right (by decide) hw
      simp only [BitVec.toNat_setWidth]
      rw [Nat.mod_eq_of_lt (Nat.lt_of_lt_of_le hlt hpow), Nat.mod_eq_of_lt hlt]
    change msbFirst ((x.setWidth 8).setWidth w) = bits
    rw [hback]
    exact (word w).encode_decode hx

end BitCodec

end AntRelay.Base
