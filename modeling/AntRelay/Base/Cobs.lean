import AntRelay.Base.Bits
import Mathlib.Data.List.TakeDrop
import Mathlib.Data.List.Basic

namespace AntRelay.Base.Cobs

/-- `Stuffs source form`: `form` is a standard encoding of `source`.  A full
group ends without a zero of its own, so a source that ends with one may close
there or with an empty group. -/
inductive Stuffs : Bytes → Bytes → Prop where
  | last {block : Bytes} (h : block.length < 254) (hz : (0 : UInt8) ∉ block) :
      Stuffs block (UInt8.ofNat (block.length + 1) :: block)
  | fullLast {block : Bytes} (h : block.length = 254) (hz : (0 : UInt8) ∉ block) :
      Stuffs block (0xff :: block)
  | zero {block rest form : Bytes} (h : block.length < 254) (hz : (0 : UInt8) ∉ block) :
      Stuffs rest form →
      Stuffs (block ++ 0 :: rest) (UInt8.ofNat (block.length + 1) :: (block ++ form))
  | full {block rest form : Bytes} (h : block.length = 254) (hz : (0 : UInt8) ∉ block) :
      Stuffs rest form → Stuffs (block ++ rest) (0xff :: (block ++ form))

/-- Read groups from inside one: `owed` bytes are left of it, and `pending`
says whether a zero stands between it and the next. -/
def unstuffFrom : Nat → Bool → Bytes → Option Bytes
  | 0, _, [] => some []
  | _ + 1, _, [] => none
  | 0, pending, code :: rest =>
      if code = 0 then none
      else (unstuffFrom (code.toNat - 1) (code != 0xff) rest).map fun data =>
        if pending then 0 :: data else data
  | owed + 1, pending, byte :: rest =>
      (unstuffFrom owed pending rest).map (byte :: ·)

/-- What a frame without its terminator decodes to.  It is well formed when
reading a code and skipping to the next ends exactly at its end. -/
def unstuff (frame : Bytes) : Option Bytes :=
  unstuffFrom 0 false frame

@[simp] theorem unstuff_nil : unstuff [] = some [] := rfl

theorem unstuffFrom_append {owed : Nat} {pending : Bool} {data : Bytes}
    (h : data.length = owed) (rest : Bytes) :
    unstuffFrom owed pending (data ++ rest) =
      (unstuffFrom 0 pending rest).map (data ++ ·) := by
  induction data generalizing owed with
  | nil =>
      cases h
      cases hrest : unstuffFrom 0 pending rest <;> simp [hrest]
  | cons byte data ih =>
      cases h
      simp only [List.cons_append, List.length_cons, unstuffFrom, ih rfl]
      cases unstuffFrom 0 pending rest <;> rfl

theorem unstuffFrom_of_length_lt {owed : Nat} {pending : Bool} {rest : Bytes}
    (h : rest.length < owed) : unstuffFrom owed pending rest = none := by
  induction rest generalizing owed with
  | nil =>
      cases owed with
      | zero => simp at h
      | succ owed => rfl
  | cons byte rest ih =>
      cases owed with
      | zero => simp at h
      | succ owed =>
          rw [unstuffFrom, ih (by simpa using h)]
          rfl

theorem unstuffFrom_pending {pending : Bool} {frame : Bytes} (hne : frame ≠ []) :
    unstuffFrom 0 pending frame =
      (unstuff frame).map ((if pending then [0] else []) ++ ·) := by
  cases frame with
  | nil => contradiction
  | cons code rest =>
      rw [unstuff, unstuffFrom, unstuffFrom]
      by_cases hcode : code = 0
      · simp [hcode]
      · rw [if_neg hcode, if_neg hcode, Option.map_map]
        congr 1
        funext data
        cases pending <;> rfl

theorem unstuff_group {code : UInt8} (hcode : code ≠ 0) {data : Bytes}
    (h : data.length = code.toNat - 1) (rest : Bytes) :
    unstuff (code :: (data ++ rest)) =
      (unstuffFrom 0 (code != 0xff) rest).map (data ++ ·) := by
  rw [unstuff, unstuffFrom, if_neg hcode, unstuffFrom_append h]
  cases unstuffFrom 0 (code != 0xff) rest <;> rfl

theorem toNat_pos {code : UInt8} (h : code ≠ 0) : 0 < code.toNat := by
  rw [Nat.pos_iff_ne_zero, ne_eq, ← UInt8.toNat_zero, UInt8.toNat_inj]
  exact h

theorem toNat_ofNat_length {block : Bytes} (h : block.length ≤ 254) :
    (UInt8.ofNat (block.length + 1)).toNat = block.length + 1 := by
  rw [UInt8.toNat_ofNat']
  omega

theorem ofNat_length_ne_zero {block : Bytes} (h : block.length ≤ 254) :
    UInt8.ofNat (block.length + 1) ≠ 0 := by
  intro hzero
  have hnat := congrArg UInt8.toNat hzero
  rw [toNat_ofNat_length h] at hnat
  simp at hnat

theorem ofNat_length_ne_full {block : Bytes} (h : block.length < 254) :
    UInt8.ofNat (block.length + 1) ≠ 0xff := by
  intro hfull
  have hnat := congrArg UInt8.toNat hfull
  rw [toNat_ofNat_length (by omega)] at hnat
  simp at hnat
  omega

namespace Stuffs

theorem form_ne_nil {source form : Bytes} (h : Stuffs source form) : form ≠ [] := by
  cases h <;> simp

theorem zero_not_mem {source form : Bytes} (h : Stuffs source form) : (0 : UInt8) ∉ form := by
  induction h with
  | last hlen hz =>
      rw [List.mem_cons, not_or]
      exact ⟨(ofNat_length_ne_zero (by omega)).symm, hz⟩
  | fullLast hlen hz => simp [hz]
  | zero hlen hz _ ih =>
      rw [List.mem_cons, List.mem_append, not_or, not_or]
      exact ⟨(ofNat_length_ne_zero (by omega)).symm, hz, ih⟩
  | full hlen hz _ ih => simp [hz, ih]

/-- Decoding inverts encoding. -/
theorem unstuff_form {source form : Bytes} (h : Stuffs source form) :
    unstuff form = some source := by
  induction h with
  | last hlen hz =>
      rename_i block
      have hcode := toNat_ofNat_length (show block.length ≤ 254 by omega)
      have hgroup := unstuff_group (ofNat_length_ne_zero (by omega : block.length ≤ 254))
        (show block.length = (UInt8.ofNat (block.length + 1)).toNat - 1 by omega) []
      rw [List.append_nil] at hgroup
      rw [hgroup]
      simp [unstuffFrom]
  | fullLast hlen hz =>
      rename_i block
      have hgroup := unstuff_group (show (0xff : UInt8) ≠ 0 by decide)
        (show block.length = (0xff : UInt8).toNat - 1 by rw [hlen]; rfl) []
      rw [List.append_nil] at hgroup
      rw [hgroup]
      simp [unstuffFrom]
  | zero hlen hz hrest ih =>
      rename_i block rest form
      rw [unstuff_group (ofNat_length_ne_zero (by omega))
        (by rw [toNat_ofNat_length (by omega)]; omega), unstuffFrom_pending hrest.form_ne_nil, ih,
        bne_iff_ne.mpr (ofNat_length_ne_full hlen)]
      rfl
  | full hlen hz hrest ih =>
      rename_i block rest form
      rw [unstuff_group (by decide) (by rw [hlen]; rfl), unstuffFrom_pending hrest.form_ne_nil,
        ih]
      simp

end Stuffs

def stuffFrom (block : Bytes) : Bytes → Bytes
  | [] => UInt8.ofNat (block.length + 1) :: block
  | byte :: rest =>
      if byte = 0 then UInt8.ofNat (block.length + 1) :: (block ++ stuffFrom [] rest)
      else if block.length = 253 then 0xff :: ((block ++ [byte]) ++ stuffFrom [] rest)
      else stuffFrom (block ++ [byte]) rest

/-- Nothing for an empty source, as the library has it. -/
def stuff : Bytes → Bytes
  | [] => []
  | source => stuffFrom [] source

def maxEncodingLength (length : Nat) : Nat :=
  length + length / 254 + if length % 254 > 0 then 1 else 0

/-- Full groups take up the source to its last byte.  The encoder then counts one
more group, which is empty and has no room. -/
def FullGroups (source : Bytes) : Prop :=
  source ≠ [] ∧ (0 : UInt8) ∉ source ∧ 254 ∣ source.length

instance (source : Bytes) : Decidable (FullGroups source) :=
  inferInstanceAs (Decidable (_ ∧ _ ∧ _))

theorem FullGroups.length_ge {source : Bytes} (h : FullGroups source) : 254 ≤ source.length :=
  Nat.le_of_dvd (List.length_pos_iff.mpr h.1) h.2.2

section Reference

variable {block : Bytes}

theorem stuffs_stuffFrom (h : block.length < 254) (hz : (0 : UInt8) ∉ block)
    (source : Bytes) : Stuffs (block ++ source) (stuffFrom block source) := by
  induction source generalizing block with
  | nil =>
      rw [List.append_nil]
      exact .last h hz
  | cons byte rest ih =>
      have hempty := ih (show ([] : Bytes).length < 254 by decide) (by simp)
      unfold stuffFrom
      by_cases hbyte : byte = 0
      · rw [if_pos hbyte, hbyte]
        exact .zero h hz hempty
      · have hz' : (0 : UInt8) ∉ block ++ [byte] := by
          simp [hz, Ne.symm hbyte]
        have hcat : block ++ byte :: rest = (block ++ [byte]) ++ rest := by simp
        have hlen : (block ++ [byte]).length = block.length + 1 := by simp
        rw [if_neg hbyte, hcat]
        by_cases hfull : block.length = 253
        · rw [if_pos hfull]
          exact .full (by omega) hz' hempty
        · rw [if_neg hfull]
          exact ih (by omega) hz'

theorem stuffFrom_length_le (source : Bytes) (h : block.length < 254) :
    (stuffFrom block source).length ≤
      block.length + source.length + 1 + (block.length + source.length) / 254 := by
  induction source generalizing block with
  | nil => simp [stuffFrom]
  | cons byte rest ih =>
      have hempty := ih (show ([] : Bytes).length < 254 by decide)
      have hlen : (block ++ [byte]).length = block.length + 1 := by simp
      unfold stuffFrom
      split
      · simp only [List.length_cons, List.length_append, List.length_nil] at *
        omega
      · split
        · simp only [List.length_cons, List.length_append, List.length_nil] at *
          omega
        · have hmore := ih (show (block ++ [byte]).length < 254 by omega)
          rw [List.length_cons]
          rw [hlen] at hmore
          omega

theorem stuffFrom_length_of_zero {source : Bytes} (h : block.length < 254)
    (hzero : (0 : UInt8) ∈ source) :
    (stuffFrom block source).length ≤
      block.length + source.length + 1 + (block.length + source.length - 1) / 254 := by
  induction source generalizing block with
  | nil => simp at hzero
  | cons byte rest ih =>
      have hempty := stuffFrom_length_le rest (show ([] : Bytes).length < 254 by decide)
      have hlen : (block ++ [byte]).length = block.length + 1 := by simp
      unfold stuffFrom
      split
      · simp only [List.length_cons, List.length_append, List.length_nil] at *
        omega
      · rename_i hbyte
        have hrest : (0 : UInt8) ∈ rest := by
          rcases List.mem_cons.mp hzero with heq | hmem
          · exact absurd heq.symm hbyte
          · exact hmem
        have hpos := List.length_pos_of_mem hrest
        split
        · have hmore := ih (show ([] : Bytes).length < 254 by decide) hrest
          simp only [List.length_cons, List.length_append, List.length_nil] at *
          omega
        · have hmore := ih (show (block ++ [byte]).length < 254 by omega) hrest
          rw [List.length_cons]
          rw [hlen] at hmore
          omega

/-- Behind full groups alone there is an empty one, without which the rest is an
encoding too. -/
theorem stuffFrom_fullGroups {source : Bytes} (h : block.length < 254)
    (hz : (0 : UInt8) ∉ block ++ source) (hsource : source ≠ [])
    (hfull : 254 ∣ (block ++ source).length) :
    ∃ form, stuffFrom block source = form ++ [1] ∧ Stuffs (block ++ source) form ∧
      form.length = (block ++ source).length + (block ++ source).length / 254 := by
  induction source generalizing block with
  | nil => contradiction
  | cons byte rest ih =>
      have hcat : block ++ byte :: rest = (block ++ [byte]) ++ rest := by simp
      rw [hcat] at hz hfull ⊢
      have hlen : (block ++ [byte]).length = block.length + 1 := by simp
      have hblock : (0 : UInt8) ∉ block ++ [byte] := fun hmem =>
        hz (List.mem_append_left _ hmem)
      have hbyte : byte ≠ 0 := by
        rintro rfl
        exact hblock (by simp)
      rw [List.length_append] at hfull
      rw [stuffFrom, if_neg hbyte]
      by_cases hend : rest = []
      · subst hend
        have hlast : block.length = 253 := by
          simp only [hlen, List.length_nil] at hfull
          omega
        rw [if_pos hlast, List.append_nil]
        refine ⟨0xff :: (block ++ [byte]), rfl, .fullLast (by omega) hblock, ?_⟩
        rw [List.length_cons, hlen, hlast]
      · by_cases hlast : block.length = 253
        · obtain ⟨form, hform, hstuffs, hsize⟩ :=
            ih (show ([] : Bytes).length < 254 by decide)
              (fun hmem => hz (List.mem_append_right _ hmem)) hend
              (by rw [List.nil_append]; omega)
          rw [List.nil_append] at hstuffs hsize
          rw [if_pos hlast, hform]
          refine ⟨0xff :: ((block ++ [byte]) ++ form), by simp, .full (by omega) hblock hstuffs, ?_⟩
          simp only [List.length_cons, List.length_append, List.length_nil] at *
          omega
        · rw [if_neg hlast]
          exact ih (by omega) hz hend (by rw [List.length_append]; exact hfull)

theorem stuffs_stuff {source : Bytes} (h : source ≠ []) : Stuffs source (stuff source) := by
  cases source with
  | nil => contradiction
  | cons byte rest =>
      exact stuffs_stuffFrom (show ([] : Bytes).length < 254 by decide) (by simp) (byte :: rest)

theorem stuff_length_le {source : Bytes} (h : ¬ FullGroups source) :
    (stuff source).length ≤ maxEncodingLength source.length := by
  cases source with
  | nil => simp [stuff]
  | cons byte rest =>
      have hle := stuffFrom_length_le (byte :: rest) (show ([] : Bytes).length < 254 by decide)
      change (stuffFrom [] (byte :: rest)).length ≤ _
      rw [List.length_nil, Nat.zero_add] at hle
      unfold maxEncodingLength
      by_cases hpart : (byte :: rest).length % 254 > 0
      · rw [if_pos hpart]
        omega
      · rw [if_neg hpart]
        have hzero : (0 : UInt8) ∈ byte :: rest := by
          by_contra hz
          exact h ⟨List.cons_ne_nil _ _, hz, by omega⟩
        have hbound := stuffFrom_length_of_zero (show ([] : Bytes).length < 254 by decide) hzero
        have hpos := List.length_pos_of_mem hzero
        rw [List.length_nil, Nat.zero_add] at hbound
        omega

theorem stuff_fullGroups {source : Bytes} (h : FullGroups source) :
    ∃ form, stuff source = form ++ [1] ∧ Stuffs source form ∧
      form.length = maxEncodingLength source.length := by
  obtain ⟨hne, hz, hfull⟩ := h
  obtain ⟨form, hform, hstuffs, hlen⟩ :=
    stuffFrom_fullGroups (show ([] : Bytes).length < 254 by decide) hz hne hfull
  refine ⟨form, ?_, hstuffs, ?_⟩
  · rw [← hform]
    cases source with
    | nil => contradiction
    | cons byte rest => rfl
  · rw [List.nil_append] at hlen
    rw [hlen, maxEncodingLength, if_neg (by omega), Nat.add_zero]

end Reference

end AntRelay.Base.Cobs
