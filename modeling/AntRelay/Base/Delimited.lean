import Mathlib.Data.List.Infix
import Mathlib.Data.List.Basic
import Mathlib.Data.Nat.Init

namespace AntRelay.Base.Delimited

variable {α : Type}

section Reference

variable [DecidableEq α]

/-- Where the delimiter occurs; `skip` elements still belong to the occurrence
before. -/
def occurrencesFrom (delimiter : List α) : Nat → Nat → List α → List Nat
  | _, _, [] => []
  | pos, skip + 1, _ :: rest => occurrencesFrom delimiter (pos + 1) skip rest
  | pos, 0, x :: rest =>
      if delimiter <+: x :: rest then
        pos :: occurrencesFrom delimiter (pos + 1) (delimiter.length - 1) rest
      else occurrencesFrom delimiter (pos + 1) 0 rest

/-- The leftmost occurrences of the delimiter that do not overlap. -/
def occurrences (delimiter list : List α) : List Nat :=
  occurrencesFrom delimiter 0 0 list

/-- What lies before each occurrence and after the one before it. -/
def exclusivePieces (delimiter list : List α) : List (List α) :=
  let positions := occurrences delimiter list
  List.zipWith (fun start stop => list.extract start stop)
    (0 :: positions.map (· + delimiter.length)) positions

/-- What lies from each occurrence to the next, and from the last one to the end. -/
def inclusivePieces (delimiter list : List α) : List (List α) :=
  let positions := occurrences delimiter list
  List.zipWith (fun start stop => list.extract start stop)
    positions (positions.tail ++ [list.length])

end Reference

example : exclusivePieces [0, 0] [0, 0, 0, 1, 0, 0, 2] = [[], [0, 1]] := by decide

example : inclusivePieces [0, 0] [5, 0, 0, 0, 1, 0, 0] = [[0, 0, 0, 1], [0, 0]] := by decide

def First (delimiter piece : List α) : Prop :=
  ¬ delimiter <:+: piece ++ delimiter.dropLast

inductive Cut (delimiter : List α) : List α → List (List α) → List α → Prop where
  | tail {rest : List α} : ¬ delimiter <:+: rest → Cut delimiter rest [] rest
  | piece {piece list rest : List α} {pieces : List (List α)} :
      First delimiter piece → Cut delimiter list pieces rest →
      Cut delimiter (piece ++ (delimiter ++ list)) (piece :: pieces) rest

variable {delimiter : List α}

theorem append_dropLast_isPrefix (delimiter piece list : List α) :
    piece ++ delimiter.dropLast <+: piece ++ (delimiter ++ list) := by
  rw [List.prefix_append_right_inj]
  exact (List.dropLast_prefix delimiter).trans (List.prefix_append _ _)

theorem first_nil (h : delimiter ≠ []) : First delimiter [] := by
  intro hoccurs
  have hlen := hoccurs.length_le
  have hpos := List.length_pos_iff.mpr h
  rw [List.nil_append, List.length_dropLast] at hlen
  omega

theorem first_cons {x : α} {piece : List α} :
    First delimiter (x :: piece) ↔
      ¬ delimiter <+: x :: (piece ++ delimiter.dropLast) ∧ First delimiter piece := by
  rw [First, List.cons_append, List.infix_cons_iff, not_or]
  rfl

theorem First.not_starts {x : α} {piece : List α} (h : First delimiter (x :: piece))
    (list : List α) : ¬ delimiter <+: x :: (piece ++ (delimiter ++ list)) := by
  intro hstarts
  apply (first_cons.mp h).1
  apply List.prefix_of_prefix_length_le hstarts
  · exact append_dropLast_isPrefix delimiter (x :: piece) list
  · rw [List.length_cons, List.length_append, List.length_dropLast]
    omega

theorem first_of_forall (hne : delimiter ≠ []) {piece : List α}
    (h : ∀ i < piece.length, ¬ delimiter <+: (piece ++ delimiter).drop i) :
    First delimiter piece := by
  induction piece with
  | nil => exact first_nil hne
  | cons x piece ih =>
      rw [first_cons]
      refine ⟨?_, ih ?_⟩
      · intro hstarts
        apply h 0 (by simp)
        have hgrow := append_dropLast_isPrefix delimiter (x :: piece) []
        rw [List.append_nil] at hgrow
        exact hstarts.trans hgrow
      · intro i hi
        exact h (i + 1) (by rw [List.length_cons]; omega)

namespace Cut

variable {list more rest rest' : List α} {pieces pieces' : List (List α)}

theorem not_occurs_rest (h : Cut delimiter list pieces rest) : ¬ delimiter <:+: rest := by
  induction h with
  | tail hrest => exact hrest
  | piece _ _ ih => exact ih

theorem first (h : Cut delimiter list pieces rest) : ∀ piece ∈ pieces, First delimiter piece := by
  induction h with
  | tail _ => simp
  | piece hfirst _ ih =>
      rw [List.forall_mem_cons]
      exact ⟨hfirst, ih⟩

theorem occurs {piece : List α} (h : Cut delimiter list (piece :: pieces) rest) :
    delimiter <:+: list := by
  cases h with
  | piece _ _ => exact List.infix_append' _ _ _

theorem append (h : Cut delimiter list pieces rest)
    (hmore : Cut delimiter (rest ++ more) pieces' rest') :
    Cut delimiter (list ++ more) (pieces ++ pieces') rest' := by
  induction h with
  | tail _ => exact hmore
  | piece hfirst _ ih =>
      rw [List.append_assoc, List.append_assoc]
      exact .piece hfirst (ih hmore)

theorem of_first (hne : delimiter ≠ []) (h : ∀ piece ∈ pieces, First delimiter piece) :
    Cut delimiter (pieces.map (· ++ delimiter)).flatten pieces [] := by
  induction pieces with
  | nil =>
      apply tail
      rw [List.map_nil, List.flatten_nil, List.infix_nil]
      exact hne
  | cons piece pieces ih =>
      rw [List.forall_mem_cons] at h
      rw [List.map_cons, List.flatten_cons, List.append_assoc]
      exact .piece h.1 (ih h.2)

end Cut

section Reference

variable [DecidableEq α]

theorem occurrencesFrom_add (offset pos skip : Nat) (list : List α) :
    occurrencesFrom delimiter (offset + pos) skip list =
      (occurrencesFrom delimiter pos skip list).map (offset + ·) := by
  induction list generalizing pos skip with
  | nil => cases skip <;> rfl
  | cons x list ih =>
      cases skip with
      | zero =>
          unfold occurrencesFrom
          split
          · rw [List.map_cons, Nat.add_assoc, ih]
          · rw [Nat.add_assoc, ih]
      | succ skip =>
          unfold occurrencesFrom
          rw [Nat.add_assoc, ih]

theorem occurrencesFrom_of_not_occurs {list : List α} (h : ¬ delimiter <:+: list) (pos : Nat) :
    occurrencesFrom delimiter pos 0 list = [] := by
  induction list generalizing pos with
  | nil => rfl
  | cons x list ih =>
      rw [List.infix_cons_iff, not_or] at h
      rw [occurrencesFrom, if_neg h.1, ih h.2]

theorem occurrencesFrom_skip (front list : List α) (pos : Nat) :
    occurrencesFrom delimiter pos front.length (front ++ list) =
      occurrencesFrom delimiter (pos + front.length) 0 list := by
  induction front generalizing pos with
  | nil => rfl
  | cons x front ih =>
      rw [List.length_cons, List.cons_append, occurrencesFrom, ih, Nat.add_assoc,
        Nat.add_comm 1]

theorem occurrencesFrom_piece {piece : List α} (h : First delimiter piece) (list : List α)
    (pos : Nat) :
    occurrencesFrom delimiter pos 0 (piece ++ (delimiter ++ list)) =
      (pos + piece.length) ::
        occurrencesFrom delimiter (pos + piece.length + delimiter.length) 0 list := by
  induction piece generalizing pos with
  | nil =>
      cases hdelimiter : delimiter with
      | nil => exact absurd (hdelimiter ▸ List.nil_infix) h
      | cons x front =>
          have hstarts : x :: front <+: x :: (front ++ list) := List.prefix_append (x :: front) list
          rw [List.nil_append, List.cons_append, occurrencesFrom, if_pos hstarts,
            List.length_cons, Nat.add_sub_cancel, occurrencesFrom_skip, Nat.add_assoc,
            Nat.add_comm 1]
          rfl
  | cons x piece ih =>
      rw [List.cons_append, occurrencesFrom, if_neg (h.not_starts list),
        ih (first_cons.mp h).2, List.length_cons, Nat.add_assoc, Nat.add_comm 1]

theorem occurrences_piece {piece : List α} (h : First delimiter piece) (list : List α) :
    occurrences delimiter (piece ++ (delimiter ++ list)) =
      piece.length :: (occurrences delimiter list).map
        ((piece ++ delimiter).length + ·) := by
  rw [occurrences, occurrencesFrom_piece h, occurrences, ← occurrencesFrom_add, Nat.zero_add,
    List.length_append, Nat.add_zero]

omit [DecidableEq α] in
theorem extract_append (front list : List α) (start stop : Nat) :
    (front ++ list).extract (front.length + start) (front.length + stop) =
      list.extract start stop := by
  rw [List.extract_eq_take_drop, List.extract_eq_take_drop, List.drop_length_add_append,
    Nat.add_sub_add_left]

theorem exclusivePieces_piece {piece : List α} (h : First delimiter piece) (list : List α) :
    exclusivePieces delimiter (piece ++ (delimiter ++ list)) =
      piece :: exclusivePieces delimiter list := by
  have hcat : piece ++ (delimiter ++ list) = (piece ++ delimiter) ++ list :=
    (List.append_assoc ..).symm
  have hfirst : (piece ++ (delimiter ++ list)).extract 0 piece.length = piece := by
    rw [List.extract_eq_take_drop, List.drop_zero, Nat.sub_zero, List.take_left]
  unfold exclusivePieces
  dsimp only
  rw [occurrences_piece h, List.zipWith_cons_cons, hfirst, List.cons.injEq]
  refine ⟨rfl, ?_⟩
  have hstarts : ((piece.length :: (occurrences delimiter list).map
      ((piece ++ delimiter).length + ·)).map (· + delimiter.length)) =
      (0 :: (occurrences delimiter list).map (· + delimiter.length)).map
        ((piece ++ delimiter).length + ·) := by
    simp [Nat.add_assoc]
  rw [hstarts, hcat, List.zipWith_map]
  simp only [extract_append]

theorem inclusivePieces_piece {piece : List α} (h : First delimiter piece) (list : List α) :
    inclusivePieces delimiter (piece ++ (delimiter ++ list)) =
      (delimiter ++ list.take ((occurrences delimiter list).headD list.length)) ::
        inclusivePieces delimiter list := by
  have hcat : piece ++ (delimiter ++ list) = (piece ++ delimiter) ++ list :=
    (List.append_assoc ..).symm
  have hlength : ((piece ++ delimiter) ++ list).length =
      (piece ++ delimiter).length + list.length := List.length_append
  have hstops : (occurrences delimiter list).map ((piece ++ delimiter).length + ·) ++
      [((piece ++ delimiter) ++ list).length] =
      (occurrences delimiter list ++ [list.length]).map ((piece ++ delimiter).length + ·) := by
    rw [List.map_append, hlength, List.map_singleton]
  have hfirst (stop : Nat) : ((piece ++ delimiter) ++ list).extract piece.length
      ((piece ++ delimiter).length + stop) = delimiter ++ list.take stop := by
    rw [List.extract_eq_take_drop, List.append_assoc, List.drop_left, List.length_append,
      Nat.add_assoc, Nat.add_sub_cancel_left, List.take_length_add_append]
  unfold inclusivePieces
  dsimp only
  rw [occurrences_piece h, hcat, List.tail_cons, hstops]
  cases occurrences delimiter list with
  | nil => simp only [List.nil_append, List.map_cons, List.map_nil, List.zipWith_cons_cons,
      List.zipWith_nil_left, hfirst, List.headD_nil]
  | cons pos positions =>
      rw [List.cons_append, List.map_cons (l := positions ++ _), List.zipWith_cons_cons, hfirst,
        List.zipWith_map]
      simp only [extract_append]
      rfl

theorem Cut.exclusivePieces_eq {list rest : List α} {pieces : List (List α)}
    (h : Cut delimiter list pieces rest) : exclusivePieces delimiter list = pieces := by
  induction h with
  | tail hrest =>
      rw [exclusivePieces, occurrences, occurrencesFrom_of_not_occurs hrest]
      rfl
  | piece hfirst _ ih => rw [exclusivePieces_piece hfirst, ih]

theorem inclusivePieces_of_not_occurs {list : List α} (h : ¬ delimiter <:+: list) :
    inclusivePieces delimiter list = [] := by
  rw [inclusivePieces, occurrences, occurrencesFrom_of_not_occurs h]
  rfl

theorem Cut.inclusivePieces_behind {list rest : List α} {pieces : List (List α)}
    (h : Cut delimiter list pieces rest) :
    (delimiter ++ list.take ((occurrences delimiter list).headD list.length)) ::
      inclusivePieces delimiter list = (pieces ++ [rest]).map (delimiter ++ ·) := by
  induction h with
  | tail hrest =>
      rw [inclusivePieces_of_not_occurs hrest, occurrences, occurrencesFrom_of_not_occurs hrest,
        List.headD_nil, List.take_length]
      rfl
  | piece hfirst _ ih =>
      rw [inclusivePieces_piece hfirst, ih, occurrences_piece hfirst, List.headD_cons,
        List.take_left]
      rfl

/-- The first piece is passed over, all others keep their delimiter. -/
theorem Cut.inclusivePieces_eq {list rest piece : List α} {pieces : List (List α)}
    (h : Cut delimiter list (piece :: pieces) rest) :
    inclusivePieces delimiter list = (pieces ++ [rest]).map (delimiter ++ ·) := by
  cases h with
  | piece hfirst hcut => rw [inclusivePieces_piece hfirst, hcut.inclusivePieces_behind]

theorem inclusivePieces_isInfix {list piece : List α} (h : piece ∈ inclusivePieces delimiter list) :
    piece <:+: list := by
  obtain ⟨start, stop, rfl⟩ : ∃ start stop, list.extract start stop = piece := by
    simp only [inclusivePieces, List.mem_iff_getElem, List.getElem_zipWith] at h
    obtain ⟨_, _, hpiece⟩ := h
    exact ⟨_, _, hpiece⟩
  rw [List.extract_eq_take_drop]
  exact (List.take_prefix ..).isInfix.trans (List.drop_suffix ..).isInfix

end Reference

end AntRelay.Base.Delimited
