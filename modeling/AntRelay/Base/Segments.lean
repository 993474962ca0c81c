import AntRelay.Base.Framing
import Mathlib.Data.List.Basic
import Mathlib.Data.List.Forall2

namespace AntRelay.Base.Segments

def segments : Bytes → List Bytes × Bytes
  | [] => ([], [])
  | byte :: rest =>
      let later := segments rest
      if byte = 0 then ([] :: later.1, later.2)
      else
        match later.1 with
        | [] => ([], byte :: later.2)
        | segment :: more => ((byte :: segment) :: more, later.2)

/-- The segments of a whole stream; a tail that is not empty is one too. -/
def streamSegments (stream : Bytes) : List Bytes :=
  (segments stream).1 ++ if (segments stream).2 = [] then [] else [(segments stream).2]

theorem segments_of_zero_not_mem {tail : Bytes} (h : (0 : UInt8) ∉ tail) :
    segments tail = ([], tail) := by
  induction tail with
  | nil => rfl
  | cons byte tail ih =>
      rw [List.mem_cons, not_or] at h
      rw [segments, ih h.2, if_neg (Ne.symm h.1)]

theorem segments_cons {segment : Bytes} (h : (0 : UInt8) ∉ segment) (behind : Bytes) :
    segments (segment ++ 0 :: behind) =
      (segment :: (segments behind).1, (segments behind).2) := by
  induction segment with
  | nil => rfl
  | cons byte segment ih =>
      rw [List.mem_cons, not_or] at h
      rw [List.cons_append, segments, ih h.2, if_neg (Ne.symm h.1)]

theorem segment_induction {motive : Bytes → Prop}
    (tail : ∀ {tail}, (0 : UInt8) ∉ tail → motive tail)
    (segment : ∀ {segment behind}, (0 : UInt8) ∉ segment → motive behind →
      motive (segment ++ 0 :: behind)) (buf : Bytes) : motive buf := by
  induction hlen : buf.length using Nat.strong_induction_on generalizing buf with
  | _ n ih =>
      by_cases hmem : (0 : UInt8) ∈ buf
      · obtain ⟨first, behind, rfl, hz⟩ := List.eq_append_cons_of_mem hmem
        exact segment hz (ih behind.length
          (by rw [← hlen, List.length_append, List.length_cons]; omega) behind rfl)
      · exact tail hmem

theorem segments_zero_not_mem (buf : Bytes) : (0 : UInt8) ∉ (segments buf).2 := by
  induction buf using segment_induction with
  | tail hz => rwa [segments_of_zero_not_mem hz]
  | segment hz ih => rwa [segments_cons hz]

theorem streamSegments_tail {tail : Bytes} (h : (0 : UInt8) ∉ tail) :
    streamSegments tail = if tail = [] then [] else [tail] := by
  rw [streamSegments, segments_of_zero_not_mem h, List.nil_append]

theorem streamSegments_cons {segment : Bytes} (h : (0 : UInt8) ∉ segment) (behind : Bytes) :
    streamSegments (segment ++ 0 :: behind) = segment :: streamSegments behind := by
  rw [streamSegments, segments_cons h]
  rfl

/-- However a stream is cut, its segments are those of the first part and of what
that leaves open. -/
theorem streamSegments_append (front back : Bytes) :
    streamSegments (front ++ back) =
      (segments front).1 ++ streamSegments ((segments front).2 ++ back) := by
  induction front using segment_induction with
  | tail hz =>
      rw [segments_of_zero_not_mem hz]
      rfl
  | segment hz ih =>
      rw [List.append_assoc, List.cons_append, segments_cons hz, streamSegments_cons hz, ih]
      rfl

theorem streamSegments_flatten {bodies : List Bytes} (h : ∀ body ∈ bodies, (0 : UInt8) ∉ body) :
    streamSegments (bodies.map (· ++ [0])).flatten = bodies := by
  induction bodies with
  | nil => rfl
  | cons body bodies ih =>
      rw [List.forall_mem_cons] at h
      rw [List.map_cons, List.flatten_cons, List.append_assoc, List.singleton_append,
        streamSegments_cons h.1, ih h.2]

section Groups

variable {α β : Type} {f : α → β} {p : α → Prop}

/-- The group of an element starts with the element's own item, and holds nothing
else exactly under a condition on the element. -/
def Group (f : α → β) (p : α → Prop) (a : α) (group : List β) : Prop :=
  ∃ more, group = f a :: more ∧ (more = [] ↔ p a)

theorem length_le_of_groups {as : List α} {groups : List (List β)}
    (h : List.Forall₂ (Group f p) as groups) : as.length ≤ groups.flatten.length := by
  induction h with
  | nil => exact Nat.le_refl _
  | cons hgroup _ ih =>
      obtain ⟨more, rfl, _⟩ := hgroup
      rw [List.flatten_cons, List.cons_append, List.length_cons, List.length_cons,
        List.length_append]
      omega

theorem flatten_eq_map_iff {as : List α} {groups : List (List β)}
    (h : List.Forall₂ (Group f p) as groups) : groups.flatten = as.map f ↔ ∀ a ∈ as, p a := by
  induction h with
  | nil => simp
  | cons hgroup hgroups ih =>
      rename_i a group as groups
      obtain ⟨more, rfl, hmore⟩ := hgroup
      rw [List.flatten_cons, List.cons_append, List.map_cons, List.cons.injEq,
        List.forall_mem_cons, ← ih, ← hmore]
      constructor
      · rintro ⟨-, heq⟩
        have hlen := congrArg List.length heq
        have hle := length_le_of_groups hgroups
        rw [List.length_append, List.length_map] at hlen
        have hnil := List.eq_nil_of_length_eq_zero (show more.length = 0 by omega)
        rw [hnil, List.nil_append] at heq
        exact ⟨hnil, heq⟩
      · rintro ⟨hnil, heq⟩
        rw [hnil, List.nil_append]
        exact ⟨rfl, heq⟩

end Groups

end AntRelay.Base.Segments
