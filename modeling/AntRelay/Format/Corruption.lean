import AntRelay.Format.Bijection

namespace AntRelay.Format

open AntRelay.Base

/-- All set bits lie within eight consecutive ones. -/
def IsBurst (e : Bytes) : Prop :=
  ∃ start, ∀ i (h : i < (bytesToBits e).length),
    (bytesToBits e)[i] = true → start ≤ i ∧ i < start + 8

def IsOdd (e : Bytes) : Prop :=
  (bytesToBits e).count true % 2 = 1

def NonZero (e : Bytes) : Prop :=
  ∃ byte ∈ e, byte ≠ 0

/-- Flipping the bits of a detectable pattern in any packed message gets it
refused. -/
def CatchesCorruption (P : Type) [PackedStructSlice P] (smbus : Bytes → UInt8) : Prop :=
  ∀ (m : MessageOf P (StandardCRC smbus)) (b e : Bytes), packToVec m = .ok b →
    e.length = b.length → NonZero e → IsBurst e ∨ IsOdd e →
    ∃ err, (unpackFromSlice (xorBytes b e) : PackingResult (MessageOf P (StandardCRC smbus))) =
      .error err

theorem bytesToBits_xorBytes {left right : Bytes} (h : left.length = right.length) :
    bytesToBits (xorBytes left right) =
      List.zipWith (· ^^ ·) (bytesToBits left) (bytesToBits right) := by
  induction left generalizing right with
  | nil =>
      cases right with
      | nil => rfl
      | cons byte rest => simp at h
  | cons byte rest ih =>
      cases right with
      | nil => simp at h
      | cons byte' rest' =>
          have hrest := ih (show rest.length = rest'.length by simpa using h)
          simp only [xorBytes, List.zipWith_cons_cons, bytesToBits_cons] at hrest ⊢
          rw [hrest, UInt8.toBitVec_xor, Crc.msbFirst_xor]
          exact (List.zipWith_append (by simp)).symm

theorem remainder_xorBytes {left right : Bytes} (h : left.length = right.length)
    (hleft : Crc.remainder 0x07#8 0#8 (bytesToBits left) = 0#8) :
    Crc.remainder 0x07#8 0#8 (bytesToBits (xorBytes left right)) =
      Crc.remainder 0x07#8 0#8 (bytesToBits right) := by
  have hbits : (bytesToBits left).length = (bytesToBits right).length := by simp [h]
  have hlinear : Crc.remainder 0x07#8 _ _ = _ := Crc.remainder_xor 0#8 0#8 hbits
  rw [bytesToBits_xorBytes h]
  simpa [hleft] using hlinear

theorem remainder_ne_zero {e : Bytes} (hnonzero : NonZero e) (hkind : IsBurst e ∨ IsOdd e) :
    Crc.remainder 0x07#8 0#8 (bytesToBits e) ≠ 0#8 := by
  intro hzero
  rcases hkind with ⟨start, hburst⟩ | hodd
  · have hclear := Crc.burst_all_false (by decide) hburst hzero
    obtain ⟨byte, hmem, hbyte⟩ := hnonzero
    apply hbyte
    have hbits : msbFirst byte.toBitVec = msbFirst 0#8 := by
      apply List.ext_getElem
      · simp
      · intro i hi hi'
        rw [hclear _ (List.mem_flatMap.mpr ⟨byte, hmem, List.getElem_mem hi⟩), msbFirst_getElem]
        simp
    exact UInt8.toBitVec_inj.mp (msbFirst_injective hbits)
  · have hpoly : Crc.parity (msbFirst 0x07#8) = true := by decide
    have hparity := Crc.parity_remainder hpoly 0#8 (bytesToBits e)
    rw [hzero, Crc.parity_eq_count (bytesToBits e)] at hparity
    simp [show (bytesToBits e).count true % 2 = 1 from hodd, Crc.parity, msbFirst] at hparity

section Canonical

variable {P : Type} [PackedStructSlice P] [Packable P]

/-- A packed message is a codeword. -/
theorem remainder_wire {smbus : Bytes → UInt8} (hcrc : IsCrc8Smbus smbus)
    (m : MessageOf P (StandardCRC smbus)) :
    Crc.remainder 0x07#8 0#8 (bytesToBits (wire m)) = 0#8 := by
  have hsum : (StandardCRC smbus).checksumArray (wire m.val) = [smbus (wire m.val)] := rfl
  rw [WithCRC.wire_eq, hsum, hcrc, bytesToBits_append, bytesToBits_cons, bytesToBits_nil,
    List.append_nil, Crc.remainder_append_remainder]

theorem catchesCorruption_of_canonical [CanonicalWire P] {smbus : Bytes → UInt8}
    (hcrc : IsCrc8Smbus smbus) : CatchesCorruption P smbus := by
  intro m b e hpack hlen hnonzero hkind
  rw [packToVec_eq] at hpack
  cases hpack
  cases hresult : (unpackFromSlice (xorBytes (wire m) e) :
      PackingResult (MessageOf P (StandardCRC smbus))) with
  | error err => exact ⟨err, rfl⟩
  | panicked => exact absurd hresult (Packable.unpackFromSlice_ne_panicked _)
  | ok m' =>
      have hcodeword := remainder_wire hcrc m'
      rw [CanonicalWire.wire_of_unpackFromSlice hresult,
        remainder_xorBytes hlen.symm (remainder_wire hcrc m)] at hcodeword
      exact absurd hcodeword (remainder_ne_zero hnonzero hkind)

end Canonical

theorem corruption_caught {smbus : Bytes → UInt8} (hcrc : IsCrc8Smbus smbus) :
    CatchesCorruption BytesWrap smbus ∧ CatchesCorruption Ant.Payload smbus :=
  ⟨catchesCorruption_of_canonical hcrc, catchesCorruption_of_canonical hcrc⟩

/-- The rover's power-supplied command with four bits flipped, across its
disposition and the source behind it. -/
theorem corruption_caught_powerSupplied : ∃ err,
    (unpackFromSlice (xorBytes
        [0xeb, 0x90, 0, 0, 0, 0, 0, 0x24, 0, 0, 0, 0, 0, 0, 0, 0, 0, 0x9a]
        [0, 0, 0, 0, 0, 0, 0, 0x05, 0xa0, 0, 0, 0, 0, 0, 0, 0, 0, 0]) :
      PackingResult (Message (StandardCRC crc8Smbus))) = .error err :=
  (corruption_caught fun _ => rfl).1
    (command (StandardCRC crc8Smbus) ⟨⟨0⟩, 0⟩ .frontend .fePowerSupplied) _ _
    (by decide +kernel) (by decide) ⟨0x05, by decide, by decide⟩
    (.inl ⟨61, by decide +kernel⟩)

end AntRelay.Format
