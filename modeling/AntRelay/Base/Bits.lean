import Mathlib.Data.List.Basic
import Mathlib.Data.List.OfFn
import Mathlib.Data.List.GetD
import Mathlib.Algebra.Group.Nat.Defs
import Mathlib.Tactic.Common

namespace AntRelay.Base

abbrev Bytes := List UInt8

def msbFirst (x : BitVec w) : List Bool :=
  List.ofFn fun i : Fin w => x.getMsbD i.val

@[simp] theorem msbFirst_length (x : BitVec w) : (msbFirst x).length = w := by
  simp [msbFirst]

theorem msbFirst_getElem (x : BitVec w) (i : Nat) (hi : i < (msbFirst x).length) :
    (msbFirst x)[i] = x.getMsbD i := by
  simp [msbFirst]

def ofMsbFirst (bits : List Bool) (h : bits.length = w) : BitVec w :=
  (BitVec.ofBoolListBE bits).cast h

@[simp] theorem ofMsbFirst_msbFirst (x : BitVec w) :
    ofMsbFirst (msbFirst x) (msbFirst_length x) = x := by
  apply BitVec.eq_of_getMsbD_eq
  intro i hi
  have hlen : i < (msbFirst x).length := by simpa using hi
  simp only [ofMsbFirst, BitVec.getMsbD_cast, BitVec.getMsbD_ofBoolListBE]
  rw [List.getD_eq_getElem _ _ hlen, msbFirst_getElem]

@[simp] theorem msbFirst_ofMsbFirst (bits : List Bool) (h : bits.length = w) :
    msbFirst (ofMsbFirst bits h) = bits := by
  apply List.ext_getElem
  · simp [h]
  · intro i hi hbits
    rw [msbFirst_getElem]
    simp only [ofMsbFirst, BitVec.getMsbD_cast, BitVec.getMsbD_ofBoolListBE]
    exact List.getD_eq_getElem _ _ hbits

theorem msbFirst_injective : Function.Injective (msbFirst (w := w)) := by
  intro x y h
  rw [← ofMsbFirst_msbFirst x, ← ofMsbFirst_msbFirst y]
  congr 1

def bytesToBits (bytes : Bytes) : List Bool :=
  bytes.flatMap fun byte => msbFirst byte.toBitVec

@[simp] theorem bytesToBits_nil : bytesToBits [] = [] := rfl

@[simp] theorem bytesToBits_cons (byte : UInt8) (bytes : Bytes) :
    bytesToBits (byte :: bytes) = msbFirst byte.toBitVec ++ bytesToBits bytes := rfl

@[simp] theorem bytesToBits_append (left right : Bytes) :
    bytesToBits (left ++ right) = bytesToBits left ++ bytesToBits right := by
  simp [bytesToBits]

@[simp] theorem bytesToBits_length (bytes : Bytes) :
    (bytesToBits bytes).length = 8 * bytes.length := by
  induction bytes with
  | nil => rfl
  | cons byte bytes ih =>
      simp only [bytesToBits_cons, List.length_append, msbFirst_length, ih, List.length_cons]
      omega

/-- Pack bits eight to a byte; an incomplete last byte is dropped. -/
def bitsToBytes : List Bool → Bytes
  | b0 :: b1 :: b2 :: b3 :: b4 :: b5 :: b6 :: b7 :: rest =>
      ⟨ofMsbFirst [b0, b1, b2, b3, b4, b5, b6, b7] rfl⟩ :: bitsToBytes rest
  | _ => []

theorem bitsToBytes_append_of_length {bits : List Bool} (h : bits.length = 8)
    (rest : List Bool) :
    bitsToBytes (bits ++ rest) = ⟨ofMsbFirst bits h⟩ :: bitsToBytes rest := by
  match bits, h with
  | [b0, b1, b2, b3, b4, b5, b6, b7], _ => rfl

@[simp] theorem bitsToBytes_bytesToBits (bytes : Bytes) :
    bitsToBytes (bytesToBits bytes) = bytes := by
  induction bytes with
  | nil => rfl
  | cons byte bytes ih =>
      rw [bytesToBits_cons, bitsToBytes_append_of_length (msbFirst_length _), ih,
        ofMsbFirst_msbFirst]

theorem bytesToBits_bitsToBytes {count : Nat} {bits : List Bool}
    (h : bits.length = 8 * count) : bytesToBits (bitsToBytes bits) = bits := by
  induction count generalizing bits with
  | zero =>
      rw [List.length_eq_zero_iff.mp (by omega : bits.length = 0)]
      rfl
  | succ count ih =>
      have hhead : (bits.take 8).length = 8 := by rw [List.length_take]; omega
      have htail : (bits.drop 8).length = 8 * count := by rw [List.length_drop]; omega
      rw [← List.take_append_drop 8 bits, bitsToBytes_append_of_length hhead,
        bytesToBits_cons, ih htail]
      simp

theorem bitsToBytes_length {count : Nat} {bits : List Bool} (h : bits.length = 8 * count) :
    (bitsToBytes bits).length = count := by
  have hbits := congrArg List.length (bytesToBits_bitsToBytes h)
  rw [bytesToBits_length] at hbits
  omega

def natToLE : Nat → Nat → Bytes
  | 0, _ => []
  | count + 1, value => UInt8.ofNat value :: natToLE count (value / 256)

def natOfLE : Bytes → Nat
  | [] => 0
  | byte :: bytes => byte.toNat + 256 * natOfLE bytes

@[simp] theorem natToLE_length (count value : Nat) : (natToLE count value).length = count := by
  induction count generalizing value with
  | zero => rfl
  | succ count ih => simp [natToLE, ih]

theorem natOfLE_natToLE {count value : Nat} (h : value < 256 ^ count) :
    natOfLE (natToLE count value) = value := by
  induction count generalizing value with
  | zero =>
      have hzero : value = 0 := by simpa using h
      simp [natToLE, natOfLE, hzero]
  | succ count ih =>
      have hdiv : value / 256 < 256 ^ count := by
        rw [Nat.div_lt_iff_lt_mul (by decide)]
        simpa [Nat.pow_succ] using h
      simp only [natToLE, natOfLE, UInt8.toNat_ofNat', ih hdiv]
      omega

theorem natOfLE_lt (bytes : Bytes) : natOfLE bytes < 256 ^ bytes.length := by
  induction bytes with
  | nil => simp [natOfLE]
  | cons byte bytes ih =>
      have hbyte := byte.toNat_lt
      simp only [natOfLE, List.length_cons, Nat.pow_succ]
      omega

theorem natToLE_natOfLE (bytes : Bytes) : natToLE bytes.length (natOfLE bytes) = bytes := by
  induction bytes with
  | nil => rfl
  | cons byte bytes ih =>
      have hbyte := byte.toNat_lt
      have hdiv : (byte.toNat + 256 * natOfLE bytes) / 256 = natOfLE bytes := by omega
      simp only [natOfLE, List.length_cons, natToLE, hdiv, ih]
      congr 1
      rw [← UInt8.toNat_inj, UInt8.toNat_ofNat']
      omega

inductive ByteOrder where
  | little
  | big
  deriving DecidableEq, Repr

def ByteOrder.write (order : ByteOrder) (count : Nat) (value : Nat) : Bytes :=
  match order with
  | .little => natToLE count value
  | .big => (natToLE count value).reverse

@[simp] theorem ByteOrder.write_length (order : ByteOrder) (count value : Nat) :
    (order.write count value).length = count := by
  cases order <;> simp [ByteOrder.write]

def xorBytes (left right : Bytes) : Bytes :=
  List.zipWith (· ^^^ ·) left right

@[simp] theorem xorBytes_length {left right : Bytes} (h : left.length = right.length) :
    (xorBytes left right).length = left.length := by
  simp [xorBytes, h]

end AntRelay.Base
