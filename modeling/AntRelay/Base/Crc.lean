import AntRelay.Base.Bits
import Mathlib.Data.List.TakeDrop

namespace AntRelay.Base.Crc

/-- The register after one more message bit.  `poly` is the generator without
its leading term. -/
def feed (poly register : BitVec w) (bit : Bool) : BitVec w :=
  if register.msb ^^ bit then register <<< 1 ^^^ poly else register <<< 1

def remainder (poly : BitVec w) (register : BitVec w) (bits : List Bool) : BitVec w :=
  bits.foldl (feed poly) register

variable {w : Nat} {poly : BitVec w}

@[simp] theorem remainder_nil (register : BitVec w) : remainder poly register [] = register := rfl

@[simp] theorem remainder_cons (register : BitVec w) (bit : Bool) (bits : List Bool) :
    remainder poly register (bit :: bits) = remainder poly (feed poly register bit) bits := rfl

theorem remainder_append (register : BitVec w) (left right : List Bool) :
    remainder poly register (left ++ right) =
      remainder poly (remainder poly register left) right := by
  simp [remainder, List.foldl_append]

def multiple (poly : BitVec w) (top : Bool) : BitVec w :=
  if top then poly else 0#w

theorem feed_eq_xor (register : BitVec w) (bit : Bool) :
    feed poly register bit = register <<< 1 ^^^ multiple poly (register.msb ^^ bit) := by
  unfold feed multiple
  split <;> simp

theorem multiple_xor (a b : Bool) :
    multiple poly (a ^^ b) = multiple poly a ^^^ multiple poly b := by
  cases a <;> cases b <;> simp [multiple]

theorem feed_xor (left right : BitVec w) (a b : Bool) :
    feed poly (left ^^^ right) (a ^^ b) = feed poly left a ^^^ feed poly right b := by
  have htop : ((left ^^^ right).msb ^^ (a ^^ b)) = ((left.msb ^^ a) ^^ (right.msb ^^ b)) := by
    simp only [BitVec.msb_xor, Bool.xor_assoc, Bool.xor_left_comm]
  rw [feed_eq_xor, feed_eq_xor, feed_eq_xor, htop, multiple_xor, BitVec.shiftLeft_xor_distrib]
  ac_rfl

theorem remainder_xor (left right : BitVec w) {first second : List Bool}
    (h : first.length = second.length) :
    remainder poly (left ^^^ right) (List.zipWith (· ^^ ·) first second) =
      remainder poly left first ^^^ remainder poly right second := by
  induction first generalizing left right second with
  | nil =>
      cases second with
      | nil => rfl
      | cons bit rest => simp at h
  | cons bit rest ih =>
      cases second with
      | nil => simp at h
      | cons bit' rest' =>
          simp only [List.zipWith_cons_cons, remainder_cons, feed_xor]
          exact ih _ _ (by simpa using h)

theorem remainder_take_self (register : BitVec w) (count : Nat) (h : count ≤ w) :
    remainder poly register ((msbFirst register).take count) = register <<< count := by
  induction count with
  | zero => simp
  | succ count ih =>
      have hlen : count < (msbFirst register).length := by rw [msbFirst_length]; exact h
      rw [List.take_succ_eq_append_getElem hlen, remainder_append, ih (by omega)]
      have hbit : (register <<< count).msb = (msbFirst register)[count] := by
        rw [msbFirst_getElem, BitVec.msb_eq_getMsbD_zero, BitVec.getMsbD_shiftLeft]
        simp
      simp only [remainder_cons, remainder_nil, feed, hbit, Bool.xor_self, Bool.false_eq_true,
        ↓reduceIte]
      rw [← BitVec.shiftLeft_add]

/-- A message followed by its remainder leaves the register at zero. -/
theorem remainder_append_remainder (register : BitVec w) (bits : List Bool) :
    remainder poly register (bits ++ msbFirst (remainder poly register bits)) = 0#w := by
  rw [remainder_append]
  have htake : remainder poly _ _ = _ :=
    remainder_take_self (remainder poly register bits) w (Nat.le_refl w)
  rw [List.take_of_length_le (Nat.le_of_eq (msbFirst_length _))] at htake
  rw [htake, BitVec.shiftLeft_eq_zero (Nat.le_refl w)]

theorem feed_zero_false : feed poly 0#w false = 0#w := by
  simp [feed]

theorem remainder_zero_of_all_false {bits : List Bool} (h : ∀ bit ∈ bits, bit = false) :
    remainder poly 0#w bits = 0#w := by
  induction bits with
  | nil => rfl
  | cons bit rest ih =>
      rw [h bit (by simp), remainder_cons, feed_zero_false]
      exact ih fun other hother => h other (by simp [hother])

theorem feed_getLsbD_zero (hpoly : poly.getLsbD 0 = true) (register : BitVec w) (bit : Bool) :
    (feed poly register bit).getLsbD 0 = (register.msb ^^ bit) := by
  unfold feed
  split
  · rename_i h
    simp [hpoly, h]
  · rename_i h
    simp [h]

theorem eq_zero_of_remainder_false (hpoly : poly.getLsbD 0 = true) {register : BitVec w}
    {bits : List Bool} (hbits : ∀ bit ∈ bits, bit = false)
    (hzero : remainder poly register bits = 0#w) : register = 0#w := by
  induction bits generalizing register with
  | nil => exact hzero
  | cons bit rest ih =>
      have hbit : bit = false := hbits bit (by simp)
      have hfeed : feed poly register false = 0#w := by
        rw [remainder_cons, hbit] at hzero
        exact ih (fun other hother => hbits other (by simp [hother])) hzero
      have hmsb : register.msb = false := by
        have hlow := feed_getLsbD_zero hpoly register false
        rw [hfeed] at hlow
        simpa using hlow.symm
      have hshift : register <<< 1 = 0#w := by
        rw [← hfeed]
        simp [feed, hmsb]
      apply BitVec.eq_of_getMsbD_eq
      intro i hi
      cases i with
      | zero => simpa [BitVec.msb_eq_getMsbD_zero] using hmsb
      | succ i =>
          have hget := congrArg (fun x => BitVec.getMsbD x i) hshift
          simpa [BitVec.getMsbD_shiftLeft, show i < w by omega] using hget

theorem getMsbD_of_remainder_eq_zero (hpoly : poly.getLsbD 0 = true) {register : BitVec w}
    {bits : List Bool} (hlen : bits.length ≤ w) (hzero : remainder poly register bits = 0#w)
    (i : Nat) : register.getMsbD i = bits.getD i false := by
  induction bits generalizing register i with
  | nil =>
      rw [remainder_nil] at hzero
      simp [hzero]
  | cons bit rest ih =>
      have hrest : rest.length < w := by rwa [List.length_cons] at hlen
      rw [remainder_cons] at hzero
      have hfeed := ih (by omega) hzero
      have hlow : (feed poly register bit).getLsbD 0 = false := by
        have hlast := hfeed (w - 1)
        rw [BitVec.getMsbD_eq_getLsbD] at hlast
        rw [List.getD_eq_default _ _ (by omega)] at hlast
        simpa [show w - 1 < w by omega, show w - 1 - (w - 1) = 0 by omega] using hlast
      rw [feed_getLsbD_zero hpoly] at hlow
      have hshift : feed poly register bit = register <<< 1 := by simp [feed, hlow]
      cases i with
      | zero =>
          have hmsb : register.msb = bit := by simpa using hlow
          rw [← BitVec.msb_eq_getMsbD_zero, hmsb]
          rfl
      | succ i =>
          have hi := hfeed i
          rw [hshift, BitVec.getMsbD_shiftLeft] at hi
          rw [List.getD_cons_succ, ← hi]

/-- No nonzero burst of at most `w` bits is divisible by the generator. -/
theorem burst_all_false (hpoly : poly.getLsbD 0 = true) {bits : List Bool} {start : Nat}
    (hburst : ∀ i (h : i < bits.length), bits[i] = true → start ≤ i ∧ i < start + w)
    (hzero : remainder poly 0#w bits = 0#w) : ∀ bit ∈ bits, bit = false := by
  -- Only the window can be set; the bits before it keep the register at zero.
  have hbefore : ∀ bit ∈ bits.take start, bit = false := by
    intro bit hbit
    obtain ⟨i, hi, rfl⟩ := List.getElem_of_mem hbit
    rw [List.length_take] at hi
    rw [List.getElem_take]
    by_contra htrue
    have := hburst i (by omega) (by simpa using htrue)
    omega
  have hafter : ∀ bit ∈ (bits.drop start).drop w, bit = false := by
    intro bit hbit
    obtain ⟨i, hi, rfl⟩ := List.getElem_of_mem hbit
    rw [List.drop_drop, List.length_drop] at hi
    simp only [List.getElem_drop]
    by_contra htrue
    have := hburst (start + (w + i)) (by omega) (by simpa using htrue)
    omega
  -- The bits after it cannot bring a nonzero register back to zero.
  have hwindow : remainder poly 0#w ((bits.drop start).take w) = 0#w := by
    rw [← List.take_append_drop start bits, remainder_append,
      remainder_zero_of_all_false hbefore, ← List.take_append_drop w (bits.drop start),
      remainder_append] at hzero
    exact eq_zero_of_remainder_false hpoly hafter hzero
  have hmiddle : ∀ bit ∈ (bits.drop start).take w, bit = false := by
    intro bit hbit
    obtain ⟨i, hi, rfl⟩ := List.getElem_of_mem hbit
    have hget := getMsbD_of_remainder_eq_zero hpoly (List.length_take_le _ _) hwindow i
    rw [List.getD_eq_getElem _ _ hi] at hget
    rw [← hget]
    simp
  intro bit hbit
  rw [← List.take_append_drop start bits, ← List.take_append_drop w (bits.drop start)] at hbit
  rcases List.mem_append.mp hbit with hbit | hbit
  · exact hbefore bit hbit
  · rcases List.mem_append.mp hbit with hbit | hbit
    · exact hmiddle bit hbit
    · exact hafter bit hbit

def parity (bits : List Bool) : Bool :=
  bits.foldr (· ^^ ·) false

theorem parity_append (left right : List Bool) :
    parity (left ++ right) = (parity left ^^ parity right) := by
  induction left with
  | nil => simp [parity]
  | cons bit rest ih =>
      simp only [parity, List.cons_append, List.foldr_cons] at ih ⊢
      rw [ih, Bool.xor_assoc]

theorem parity_zipWith_xor {left right : List Bool} (h : left.length = right.length) :
    parity (List.zipWith (· ^^ ·) left right) = (parity left ^^ parity right) := by
  induction left generalizing right with
  | nil =>
      cases right with
      | nil => rfl
      | cons bit rest => simp at h
  | cons bit rest ih =>
      cases right with
      | nil => simp at h
      | cons bit' rest' =>
          have hrest := ih (show rest.length = rest'.length by simpa using h)
          simp only [parity, List.zipWith_cons_cons, List.foldr_cons] at hrest ⊢
          rw [hrest]
          simp only [Bool.xor_assoc, Bool.xor_left_comm]

theorem parity_eq_count (bits : List Bool) : parity bits = decide (bits.count true % 2 = 1) := by
  induction bits with
  | nil => rfl
  | cons bit rest ih =>
      rw [parity, List.foldr_cons, ← parity, ih]
      cases bit with
      | false => simp
      | true =>
          rw [List.count_cons_self]
          by_cases h : rest.count true % 2 = 1
          · simp [h, show ¬ (rest.count true + 1) % 2 = 1 by omega]
          · simp [h, show (rest.count true + 1) % 2 = 1 by omega]

theorem msbFirst_xor (left right : BitVec w) :
    msbFirst (left ^^^ right) = List.zipWith (· ^^ ·) (msbFirst left) (msbFirst right) := by
  apply List.ext_getElem
  · simp
  · intro i hi hi'
    simp [msbFirst_getElem]

theorem msbFirst_eq_cons (register : BitVec (w + 1)) :
    msbFirst register = register.msb :: (msbFirst register).tail := by
  apply List.ext_getElem
  · simp
  · intro i hi hi'
    cases i with
    | zero => simp [msbFirst_getElem, BitVec.msb_eq_getMsbD_zero]
    | succ i => simp

theorem msbFirst_shiftLeft_one (register : BitVec (w + 1)) :
    msbFirst (register <<< 1) = (msbFirst register).tail ++ [false] := by
  apply List.ext_getElem
  · simp
  · intro i hi hi'
    rw [msbFirst_getElem, BitVec.getMsbD_shiftLeft]
    by_cases hlt : i < w
    · rw [List.getElem_append_left (by simpa using hlt)]
      simp [msbFirst_getElem]
    · rw [List.getElem_append_right (by simpa using hlt)]
      simp [BitVec.getMsbD_of_ge register (i + 1) (by omega)]

theorem parity_shiftLeft_one (register : BitVec (w + 1)) :
    parity (msbFirst (register <<< 1)) = (parity (msbFirst register) ^^ register.msb) := by
  conv => rhs; rw [msbFirst_eq_cons]
  rw [msbFirst_shiftLeft_one, parity_append]
  simp only [parity, List.foldr_cons, List.foldr_nil]
  cases register.msb <;> simp

/-- Under a generator of even weight the register keeps the message's parity. -/
theorem parity_remainder {poly : BitVec (w + 1)} (hpoly : parity (msbFirst poly) = true)
    (register : BitVec (w + 1)) (bits : List Bool) :
    parity (msbFirst (remainder poly register bits)) =
      (parity (msbFirst register) ^^ parity bits) := by
  induction bits generalizing register with
  | nil => simp [parity]
  | cons bit rest ih =>
      have hmultiple : ∀ top, parity (msbFirst (multiple poly top)) = top := by
        intro top
        cases top with
        | true => exact hpoly
        | false => simp [multiple, parity_eq_count, msbFirst, List.count_replicate]
      rw [remainder_cons, ih, feed_eq_xor, msbFirst_xor,
        parity_zipWith_xor (by simp), parity_shiftLeft_one, hmultiple]
      simp only [parity, List.foldr_cons]
      cases register.msb <;> cases bit <;> simp

end AntRelay.Base.Crc
