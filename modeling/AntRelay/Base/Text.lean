import AntRelay.Base.Outcome
import Mathlib.Data.String.Basic
import Mathlib.Data.List.Infix

namespace AntRelay.Base

variable {ε : Type}

/-- `&text[..stop]`: panics past the end and inside a character. -/
def sliceTextTo (text : String) (stop : Nat) : Outcome ε String :=
  if h : String.Pos.Raw.IsValid text ⟨stop⟩ then .ok (text.sliceTo (text.pos ⟨stop⟩ h)).copy
  else .panicked

def charIndicesFrom : Nat → List Char → List (Nat × Char)
  | _, [] => []
  | offset, c :: cs => (offset, c) :: charIndicesFrom (offset + c.utf8Size) cs

/-- `text.char_indices()`: each character and the offset of its first byte. -/
def charIndices (text : String) : List (Nat × Char) :=
  charIndicesFrom 0 text.toList

example : charIndices "aéb" = [(0, 'a'), (1, 'é'), (3, 'b')] := by decide

example : (sliceTextTo "aéb" 2 : Outcome Unit String) = .panicked := by decide

theorem sliceTextTo_append (front back : String) :
    (sliceTextTo (front ++ back) front.utf8ByteSize : Outcome ε String) = .ok front := by
  have h : String.Pos.Raw.IsValid (front ++ back) ⟨front.utf8ByteSize⟩ :=
    String.Pos.Raw.isValid_iff_exists_append.mpr ⟨front, back, rfl, rfl⟩
  rw [sliceTextTo, dif_pos h]
  congr 1
  rw [String.copy_sliceTo_eq_iff_exists_splits]
  exact ⟨back, rfl, rfl⟩

theorem sliceTextTo_of_forall_ne {text : String} {stop : Nat}
    (h : ∀ front back : String, text = front ++ back → front.utf8ByteSize ≠ stop) :
    (sliceTextTo text stop : Outcome ε String) = .panicked := by
  rw [sliceTextTo, dif_neg]
  intro hvalid
  obtain ⟨front, back, htext, hstop⟩ := String.Pos.Raw.isValid_iff_exists_append.mp hvalid
  exact h front back htext (congrArg String.Pos.Raw.byteIdx hstop).symm

def utf8Length : List Char → Nat
  | [] => 0
  | c :: cs => c.utf8Size + utf8Length cs

@[simp] theorem utf8Length_singleton (c : Char) : utf8Length [c] = c.utf8Size := rfl

theorem utf8Length_append (front back : List Char) :
    utf8Length (front ++ back) = utf8Length front + utf8Length back := by
  induction front with
  | nil => exact (Nat.zero_add _).symm
  | cons c front ih => rw [List.cons_append, utf8Length, ih, utf8Length, Nat.add_assoc]

theorem utf8Length_le (cs : List Char) : utf8Length cs ≤ 4 * cs.length := by
  induction cs with
  | nil => exact Nat.le_refl 0
  | cons c cs ih =>
      have hc := c.utf8Size_le_four
      rw [utf8Length, List.length_cons]
      omega

theorem utf8ByteSize_ofList (cs : List Char) :
    (String.ofList cs).utf8ByteSize = utf8Length cs := by
  induction cs with
  | nil => rfl
  | cons c cs ih =>
      rw [← List.singleton_append, String.ofList_append, String.utf8ByteSize_append, ih,
        List.singleton_append, utf8Length, ← String.utf8ByteSize_singleton]
      rfl

theorem charIndicesFrom_take (offset count : Nat) (cs : List Char) :
    (charIndicesFrom offset cs).take count = charIndicesFrom offset (cs.take count) := by
  induction cs generalizing offset count with
  | nil => simp [charIndicesFrom]
  | cons c cs ih =>
      cases count with
      | zero => rfl
      | succ count =>
          rw [charIndicesFrom, List.take_succ_cons, ih, List.take_succ_cons, charIndicesFrom]

theorem charIndicesFrom_concat (offset : Nat) (front : List Char) (c : Char) :
    charIndicesFrom offset (front ++ [c]) =
      charIndicesFrom offset front ++ [(offset + utf8Length front, c)] := by
  induction front generalizing offset with
  | nil => rfl
  | cons d front ih =>
      rw [List.cons_append, charIndicesFrom, ih, charIndicesFrom, List.cons_append, utf8Length,
        Nat.add_assoc]

/-- A slice one byte past the start of a character holds that character when it
is one byte long, and otherwise panics. -/
theorem sliceTextTo_within (front back : List Char) (c : Char) :
    (sliceTextTo (String.ofList (front ++ [c] ++ back)) (utf8Length front + 1) :
      Outcome ε String) =
      if c.utf8Size = 1 then .ok (String.ofList (front ++ [c])) else .panicked := by
  split
  · rename_i hc
    have hstop : utf8Length front + 1 = (String.ofList (front ++ [c])).utf8ByteSize := by
      rw [utf8ByteSize_ofList, utf8Length_append, utf8Length_singleton, hc]
    rw [String.ofList_append, hstop, sliceTextTo_append]
  · rename_i hc
    have hpos := c.utf8Size_pos
    apply sliceTextTo_of_forall_ne
    intro cut more htext hstop
    have hcut : cut.toList <+: front ++ [c] ++ back := by
      refine ⟨more.toList, ?_⟩
      rw [← String.toList_append, ← htext, String.toList_ofList]
    have hlength : utf8Length cut.toList = utf8Length front + 1 := by
      rw [← utf8ByteSize_ofList, String.ofList_toList, hstop]
    rcases List.prefix_or_prefix_of_prefix hcut (List.prefix_append (front ++ [c]) back) with
      hshort | ⟨rest, hlong⟩
    · rcases List.prefix_concat_iff.mp hshort with hall | ⟨rest, hfront⟩
      · rw [hall, utf8Length_append, utf8Length_singleton] at hlength
        omega
      · rw [← hfront, utf8Length_append] at hlength
        omega
    · rw [← hlong, utf8Length_append, utf8Length_append, utf8Length_singleton] at hlength
      omega

end AntRelay.Base
