import AntRelay.Base.Bits
import AntRelay.Base.SortedMap

namespace AntRelay.Base.Bincode

inductive ErrorKind where
  | unexpectedEof
  | invalidUtf8Encoding
  | invalidBoolEncoding (byte : UInt8)
  | custom (message : String)
  deriving DecidableEq, Repr

abbrev Reader (α : Type) := StateT Bytes (Except ErrorKind) α

def readExact (count : Nat) : Reader Bytes := fun input =>
  if count ≤ input.length then .ok (input.take count, input.drop count)
  else .error .unexpectedEof

@[simp] theorem run_readExact_append (bytes rest : Bytes) :
    (readExact bytes.length).run (bytes ++ rest) = .ok (bytes, rest) := by
  change readExact bytes.length (bytes ++ rest) = _
  unfold readExact
  rw [if_pos (by simp), List.take_left, List.drop_left]

def readLE (count : Nat) : Reader Nat := do
  let bytes ← readExact count
  pure (natOfLE bytes)

theorem run_readLE_append {count value : Nat} (h : value < 256 ^ count) (rest : Bytes) :
    (readLE count).run (natToLE count value ++ rest) = .ok (value, rest) := by
  have hread := run_readExact_append (natToLE count value) rest
  rw [natToLE_length] at hread
  simp only [readLE, StateT.run_bind, hread]
  change Except.ok (natOfLE (natToLE count value), rest) = _
  rw [natOfLE_natToLE h]

/-- A length is written in eight bytes. -/
def writeLength (length : Nat) : Bytes := natToLE 8 length

def readLength : Reader Nat := readLE 8

@[simp] theorem writeLength_length (length : Nat) : (writeLength length).length = 8 :=
  natToLE_length 8 length

def writeBytes (bytes : Bytes) : Bytes := writeLength bytes.length ++ bytes

theorem run_readLength_bind {β : Type} {length : Nat} (h : length < 2 ^ 64)
    (next : Nat → Reader β) (rest : Bytes) :
    (readLength >>= next).run (writeLength length ++ rest) = (next length).run rest := by
  rw [StateT.run_bind, readLength, writeLength, run_readLE_append (by simpa using h)]
  rfl

def writeVariant (index : Nat) : Bytes := natToLE 4 index

def readVariant : Reader Nat := readLE 4

@[simp] theorem writeVariant_length (index : Nat) : (writeVariant index).length = 4 :=
  natToLE_length 4 index

theorem run_readVariant_bind {β : Type} {index : Nat} (h : index < 2 ^ 32)
    (next : Nat → Reader β) (rest : Bytes) :
    (readVariant >>= next).run (writeVariant index ++ rest) = (next index).run rest := by
  rw [StateT.run_bind, readVariant, writeVariant, run_readLE_append (by simpa using h)]
  rfl

def invalidVariant (index count : Nat) : ErrorKind :=
  .custom s!"invalid value: integer `{index}`, expected variant index 0 <= i < {count}"

/-- A writer and a reader.  `Fits` holds of the values whose lengths the prefixes
can say. -/
structure Codec (α : Type) where
  write : α → Bytes
  read : Reader α
  Fits : α → Prop
  read_write : ∀ {value}, Fits value → ∀ rest, read.run (write value ++ rest) = .ok (value, rest)

def serialize {α : Type} (codec : Codec α) (value : α) : Bytes := codec.write value

/-- Bytes after the value are not looked at. -/
def deserialize {α : Type} (codec : Codec α) (bytes : Bytes) : Except ErrorKind α := do
  let (value, _) ← codec.read.run bytes
  pure value

namespace Codec

variable {α β κ ν : Type}

theorem deserialize_serialize (codec : Codec α) {value : α} (h : codec.Fits value) :
    deserialize codec (serialize codec value) = .ok value := by
  have hread := codec.read_write h []
  rw [List.append_nil] at hread
  rw [deserialize, serialize, hread]
  rfl

theorem run_bind (codec : Codec α) {value : α} (h : codec.Fits value) (next : α → Reader β)
    (rest : Bytes) :
    (codec.read >>= next).run (codec.write value ++ rest) = (next value).run rest := by
  rw [StateT.run_bind, codec.read_write h]
  rfl

theorem run_map (codec : Codec α) {value : α} (h : codec.Fits value) (f : α → β)
    (rest : Bytes) :
    (f <$> codec.read).run (codec.write value ++ rest) = .ok (f value, rest) := by
  rw [StateT.run_map, codec.read_write h]
  rfl

theorem run_variant (codec : Codec α) (f : α → β) {index : Nat} (hindex : index < 2 ^ 32)
    {next : Nat → Reader β} (hnext : next index = f <$> codec.read) {value : α}
    (h : codec.Fits value) (rest : Bytes) :
    (readVariant >>= next).run (writeVariant index ++ codec.write value ++ rest) =
      .ok (f value, rest) := by
  rw [List.append_assoc, run_readVariant_bind hindex, hnext]
  exact codec.run_map h f rest

def unsigned (count : Nat) (toNat : α → Nat) (ofNat : Nat → α)
    (lt : ∀ value, toNat value < 256 ^ count) (ofNat_toNat : ∀ value, ofNat (toNat value) = value) :
    Codec α where
  write := fun value => natToLE count (toNat value)
  read := ofNat <$> readLE count
  Fits := fun _ => True
  read_write := by
    intro value _ rest
    rw [StateT.run_map, run_readLE_append (lt value)]
    change Except.ok (ofNat (toNat value), rest) = _
    rw [ofNat_toNat]

def u8 : Codec UInt8 :=
  unsigned 1 UInt8.toNat UInt8.ofNat UInt8.toNat_lt fun _ => UInt8.ofNat_toNat

def u32 : Codec UInt32 :=
  unsigned 4 UInt32.toNat UInt32.ofNat UInt32.toNat_lt fun _ => UInt32.ofNat_toNat

def u64 : Codec UInt64 :=
  unsigned 8 UInt64.toNat UInt64.ofNat UInt64.toNat_lt fun _ => UInt64.ofNat_toNat

theorem u8_write (byte : UInt8) : u8.write byte = [byte] := by
  change [UInt8.ofNat byte.toNat] = _
  rw [UInt8.ofNat_toNat]

def bool : Codec Bool where
  write := fun value => u8.write (if value then 1 else 0)
  read := do
    match ← u8.read with
    | 0 => pure false
    | 1 => pure true
    | byte => throw (.invalidBoolEncoding byte)
  Fits := fun _ => True
  read_write := by
    intro value _ rest
    rw [u8.run_bind trivial]
    cases value <;> rfl

def imap (codec : Codec α) (build : α → β) (fields : β → α)
    (build_fields : ∀ value, build (fields value) = value) : Codec β where
  write := fun value => codec.write (fields value)
  read := build <$> codec.read
  Fits := fun value => codec.Fits (fields value)
  read_write := by
    intro value h rest
    rw [codec.run_map h, build_fields]

def i64 : Codec Int64 :=
  u64.imap UInt64.toInt64 Int64.toUInt64 Int64.toInt64_toUInt64

def prod (left : Codec α) (right : Codec β) : Codec (α × β) where
  write := fun value => left.write value.1 ++ right.write value.2
  read := do
    let first ← left.read
    let second ← right.read
    pure (first, second)
  Fits := fun value => left.Fits value.1 ∧ right.Fits value.2
  read_write := by
    intro value h rest
    rw [List.append_assoc, left.run_bind h.1, right.run_bind h.2]
    rfl

def unitEnum [DecidableEq α] (variants : List α) (mem_variants : ∀ value, value ∈ variants)
    (length_le : variants.length ≤ 2 ^ 32) : Codec α where
  write := fun value => writeVariant (variants.idxOf value)
  read := do
    let index ← readVariant
    match variants[index]? with
    | some value => pure value
    | none => throw (invalidVariant index variants.length)
  Fits := fun _ => True
  read_write := by
    intro value _ rest
    have hindex := List.idxOf_lt_length_iff.mpr (mem_variants value)
    rw [run_readVariant_bind (by omega), List.getElem?_idxOf (mem_variants value)]
    rfl

/-- The bytes of a string are checked to be text. -/
def string : Codec String where
  write := fun value => writeLength value.utf8ByteSize ++ value.toByteArray.data.toList
  read := do
    let length ← readLength
    let bytes ← readExact length
    match String.fromUTF8? ⟨bytes.toArray⟩ with
    | some value => pure value
    | none => throw .invalidUtf8Encoding
  Fits := fun value => value.utf8ByteSize < 2 ^ 64
  read_write := by
    intro value h rest
    have hlength : value.utf8ByteSize = value.toByteArray.data.toList.length := rfl
    have htext : String.fromUTF8? ⟨value.toByteArray.data.toList.toArray⟩ = some value := by
      rw [Array.toArray_toList, String.fromUTF8?, dif_pos value.isValidUTF8]
      rfl
    rw [List.append_assoc, run_readLength_bind h, hlength, StateT.run_bind,
      run_readExact_append]
    change StateT.run (match String.fromUTF8? _ with | some value => _ | none => _) rest = _
    rw [htext]
    rfl

def readMany (codec : Codec α) : Nat → Reader (List α)
  | 0 => pure []
  | count + 1 => do
      let value ← codec.read
      let values ← readMany codec count
      pure (value :: values)

theorem run_readMany (codec : Codec α) {values : List α} (h : ∀ value ∈ values, codec.Fits value)
    (rest : Bytes) :
    (readMany codec values.length).run (values.flatMap codec.write ++ rest) =
      .ok (values, rest) := by
  induction values with
  | nil => rfl
  | cons value values ih =>
      have hvalue : codec.Fits value := h value List.mem_cons_self
      have hvalues := ih fun other hother => h other (List.mem_cons_of_mem value hother)
      rw [List.length_cons, readMany, List.flatMap_cons, List.append_assoc, codec.run_bind hvalue,
        StateT.run_bind, hvalues]
      rfl

def seq (codec : Codec α) : Codec (List α) where
  write := fun values => writeLength values.length ++ values.flatMap codec.write
  read := do
    let length ← readLength
    readMany codec length
  Fits := fun values => values.length < 2 ^ 64 ∧ ∀ value ∈ values, codec.Fits value
  read_write := by
    intro values h rest
    rw [List.append_assoc, run_readLength_bind h.1, run_readMany codec h.2]

theorem seq_u8_write (bytes : Bytes) : (seq u8).write bytes = writeBytes bytes := by
  have hflat : bytes.flatMap u8.write = bytes := by
    rw [show u8.write = fun byte => [byte] from funext u8_write, List.flatMap_singleton']
  change _ ++ bytes.flatMap u8.write = _
  rw [hflat]
  rfl

section Map

variable [LinearOrder κ]

def readEntries (key : Codec κ) (value : Codec ν) : Nat → SortedMap κ ν → Reader (SortedMap κ ν)
  | 0, map => pure map
  | count + 1, map => do
      let k ← key.read
      let v ← value.read
      readEntries key value count (map.insert k v)

theorem run_readEntries (key : Codec κ) (value : Codec ν) {entries : List (κ × ν)}
    {start map : SortedMap κ ν} (hmap : map.entries = start.entries ++ entries)
    (h : ∀ entry ∈ entries, (key.prod value).Fits entry) (rest : Bytes) :
    (readEntries key value entries.length start).run
        (entries.flatMap (key.prod value).write ++ rest) = .ok (map, rest) := by
  induction entries generalizing start with
  | nil =>
      have heq : map = start := by
        ext1
        rw [hmap, List.append_nil]
      rw [heq]
      rfl
  | cons entry entries ih =>
      obtain ⟨k, v⟩ := entry
      have hentry : key.Fits k ∧ value.Fits v := h (k, v) List.mem_cons_self
      have hbelow : ∀ before ∈ start.entries, before.1 < k := by
        intro before hbefore
        have hsorted := map.sorted
        rw [hmap, List.pairwise_append] at hsorted
        exact hsorted.2.2 before hbefore (k, v) List.mem_cons_self
      have hinsert : map.entries = (start.insert k v).entries ++ entries := by
        rw [SortedMap.entries_insert_of_forall_lt hbelow, hmap, List.append_assoc]
        rfl
      have hrest := ih hinsert fun other hother => h other (List.mem_cons_of_mem _ hother)
      rw [List.length_cons, readEntries, List.flatMap_cons]
      change StateT.run _ (((key.write k ++ value.write v) ++ _) ++ rest) = _
      rw [List.append_assoc, List.append_assoc, key.run_bind hentry.1, value.run_bind hentry.2]
      exact hrest

def map (key : Codec κ) (value : Codec ν) : Codec (SortedMap κ ν) where
  write := fun m => writeLength m.entries.length ++ m.entries.flatMap (key.prod value).write
  read := do
    let length ← readLength
    readEntries key value length .empty
  Fits := fun m => m.entries.length < 2 ^ 64 ∧ ∀ entry ∈ m.entries, (key.prod value).Fits entry
  read_write := by
    intro m h rest
    have hempty : m.entries = (SortedMap.empty : SortedMap κ ν).entries ++ m.entries := rfl
    rw [List.append_assoc, run_readLength_bind h.1, run_readEntries key value hempty h.2]

end Map

end Codec

end AntRelay.Base.Bincode
