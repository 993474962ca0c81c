import AntRelay.Base.Delimited
import Mathlib.Data.List.Infix

namespace AntRelay.Base.Delimited

structure Match where
  start : Nat
  stop : Nat
  deriving DecidableEq, Repr

variable {α : Type}

/-- What a leftmost-longest searcher promises about a match. -/
structure LeftmostLongest (patterns : List (List α)) (haystack : List α) (mat : Match) :
    Prop where
  found : ∃ pattern ∈ patterns, mat.stop = mat.start + pattern.length ∧
    pattern <+: haystack.drop mat.start
  leftmost : ∀ i < mat.start, ∀ pattern ∈ patterns, ¬ pattern <+: haystack.drop i
  longest : ∀ pattern ∈ patterns, pattern <+: haystack.drop mat.start →
    mat.start + pattern.length ≤ mat.stop

section Reference

variable [DecidableEq α]

def longestPrefix (patterns : List (List α)) (list : List α) : Option Nat :=
  ((patterns.filter fun pattern => pattern <+: list).map List.length).max?

theorem longestPrefix_eq_none {patterns : List (List α)} {list : List α} :
    longestPrefix patterns list = none ↔ ∀ pattern ∈ patterns, ¬ pattern <+: list := by
  rw [longestPrefix, List.max?_eq_none_iff, List.map_eq_nil_iff, List.filter_eq_nil_iff]
  simp only [decide_eq_true_eq]

theorem longestPrefix_eq_some {patterns : List (List α)} {list : List α} {length : Nat}
    (h : longestPrefix patterns list = some length) :
    (∃ pattern ∈ patterns, pattern.length = length ∧ pattern <+: list) ∧
      ∀ pattern ∈ patterns, pattern <+: list → pattern.length ≤ length := by
  rw [longestPrefix, List.max?_eq_some_iff] at h
  simp only [List.mem_map, List.mem_filter, decide_eq_true_eq] at h
  obtain ⟨⟨pattern, ⟨hmem, hstarts⟩, hlength⟩, hmax⟩ := h
  exact ⟨⟨pattern, hmem, hlength, hstarts⟩,
    fun other hother hstart => hmax _ ⟨other, ⟨hother, hstart⟩, rfl⟩⟩

def leftmostLongest (patterns : List (List α)) : List α → Option Match
  | [] => (longestPrefix patterns []).map (⟨0, ·⟩)
  | x :: rest =>
      match longestPrefix patterns (x :: rest) with
      | some length => some ⟨0, length⟩
      | none => (leftmostLongest patterns rest).map fun mat => ⟨mat.start + 1, mat.stop + 1⟩

theorem LeftmostLongest.of_longestPrefix {patterns : List (List α)} {haystack : List α}
    {length : Nat} (h : longestPrefix patterns haystack = some length) :
    LeftmostLongest patterns haystack ⟨0, length⟩ := by
  obtain ⟨⟨pattern, hmem, hlength, hstarts⟩, hmax⟩ := longestPrefix_eq_some h
  refine ⟨⟨pattern, hmem, ?_, hstarts⟩, ?_, ?_⟩
  · rw [Nat.zero_add, hlength]
  · intro i hi
    exact absurd hi (Nat.not_lt_zero i)
  · intro other hother hstart
    rw [Nat.zero_add]
    exact hmax other hother hstart

theorem leftmostLongest_some {patterns : List (List α)} {haystack : List α} {mat : Match}
    (h : leftmostLongest patterns haystack = some mat) :
    LeftmostLongest patterns haystack mat := by
  induction haystack generalizing mat with
  | nil =>
      rw [leftmostLongest, Option.map_eq_some_iff] at h
      obtain ⟨length, hlength, rfl⟩ := h
      exact .of_longestPrefix hlength
  | cons x rest ih =>
      unfold leftmostLongest at h
      split at h
      · rename_i length hlength
        cases h
        exact .of_longestPrefix hlength
      · rename_i hnone
        rw [longestPrefix_eq_none] at hnone
        rw [Option.map_eq_some_iff] at h
        obtain ⟨inner, hinner, rfl⟩ := h
        obtain ⟨⟨pattern, hmem, hstop, hstarts⟩, hleft, hlong⟩ := ih hinner
        refine ⟨⟨pattern, hmem, ?_, hstarts⟩, ?_, ?_⟩
        · change inner.stop + 1 = inner.start + 1 + pattern.length
          omega
        · intro i hi
          cases i with
          | zero => exact hnone
          | succ i => exact hleft i (Nat.lt_of_succ_lt_succ hi)
        · intro other hother hstart
          have hle := hlong other hother hstart
          change inner.start + 1 + other.length ≤ inner.stop + 1
          omega

theorem leftmostLongest_none {patterns : List (List α)} {haystack : List α}
    (h : leftmostLongest patterns haystack = none) :
    ∀ pattern ∈ patterns, ¬ pattern <:+: haystack := by
  induction haystack with
  | nil =>
      rw [leftmostLongest, Option.map_eq_none_iff, longestPrefix_eq_none] at h
      simpa only [List.infix_nil, List.prefix_nil] using h
  | cons x rest ih =>
      unfold leftmostLongest at h
      split at h
      · cases h
      · rename_i hnone
        rw [longestPrefix_eq_none] at hnone
        rw [Option.map_eq_none_iff] at h
        intro pattern hmem hoccurs
        rcases List.infix_cons_iff.mp hoccurs with hstarts | hinner
        · exact hnone pattern hmem hstarts
        · exact ih h pattern hmem hinner

end Reference

def prefixes (delimiter : List α) : List (List α) :=
  (List.range' 1 delimiter.length).map delimiter.take

theorem mem_prefixes {delimiter front : List α} :
    front ∈ prefixes delimiter ↔ front ≠ [] ∧ front <+: delimiter := by
  simp only [prefixes, List.mem_map, List.mem_range'_1]
  constructor
  · rintro ⟨count, hcount, rfl⟩
    refine ⟨?_, List.take_prefix count delimiter⟩
    rw [← List.length_pos_iff, List.length_take]
    omega
  · rintro ⟨hne, hstarts⟩
    have hpos := List.length_pos_iff.mpr hne
    have hle := hstarts.length_le
    exact ⟨front.length, by omega, (List.prefix_iff_eq_take.mp hstarts).symm⟩

/-- No occurrence of the delimiter starts among the first `count` elements,
whatever arrives later. -/
structure Searched (delimiter list : List α) (count : Nat) : Prop where
  le : count ≤ list.length
  dead : ∀ i < count, ∀ more, ¬ delimiter <+: list.drop i ++ more

variable {delimiter list : List α} {count : Nat}

theorem take_prefix_of_append {haystack more : List α} (h : delimiter <+: haystack ++ more)
    {length : Nat} (hlength : length ≤ haystack.length) : delimiter.take length <+: haystack := by
  apply List.prefix_of_prefix_length_le ((List.take_prefix _ _).trans h) (List.prefix_append _ _)
  rw [List.length_take]
  omega

theorem not_prefix_append (hne : delimiter ≠ []) {haystack : List α} (hhaystack : haystack ≠ [])
    (h : ∀ front ∈ prefixes delimiter, ¬ front <+: haystack) (more : List α) :
    ¬ delimiter <+: haystack ++ more := by
  intro hstarts
  have hdelimiter := List.length_pos_iff.mpr hne
  refine h (delimiter.take 1) (mem_prefixes.mpr ⟨?_, List.take_prefix _ _⟩)
    (take_prefix_of_append hstarts (List.length_pos_iff.mpr hhaystack))
  rw [← List.length_pos_iff, List.length_take]
  omega

namespace LeftmostLongest

variable {haystack : List α} {mat : Match}

theorem bounds (h : LeftmostLongest (prefixes delimiter) haystack mat) :
    mat.start < mat.stop ∧ mat.stop ≤ haystack.length ∧
      mat.stop ≤ mat.start + delimiter.length := by
  obtain ⟨front, hmem, hstop, hstarts⟩ := h.found
  obtain ⟨hne, hfront⟩ := mem_prefixes.mp hmem
  have hpos := List.length_pos_iff.mpr hne
  have hdrop := hstarts.length_le
  have hle := hfront.length_le
  rw [List.length_drop] at hdrop
  omega

theorem full (h : LeftmostLongest (prefixes delimiter) haystack mat)
    (hfull : mat.stop - mat.start = delimiter.length) :
    delimiter <+: haystack.drop mat.start := by
  obtain ⟨front, hmem, hstop, hstarts⟩ := h.found
  obtain ⟨_, hfront⟩ := mem_prefixes.mp hmem
  have heq := hfront.eq_of_length (by omega)
  rwa [heq] at hstarts

end LeftmostLongest

namespace Searched

theorem zero (delimiter list : List α) : Searched delimiter list 0 :=
  ⟨Nat.zero_le _, fun _ hi => absurd hi (Nat.not_lt_zero _)⟩

theorem append (h : Searched delimiter list count) (more : List α) :
    Searched delimiter (list ++ more) count := by
  refine ⟨h.le.trans (by simp), ?_⟩
  intro i hi later
  rw [List.drop_append_of_le_length (hi.le.trans h.le), List.append_assoc]
  exact h.dead i hi _

theorem extend (h : Searched delimiter list count) {count' : Nat} (hle : count' ≤ list.length)
    (hdead : ∀ i, count ≤ i → i < count' → ∀ more, ¬ delimiter <+: list.drop i ++ more) :
    Searched delimiter list count' := by
  refine ⟨hle, ?_⟩
  intro i hi
  by_cases hlt : i < count
  · exact h.dead i hlt
  · exact hdead i (Nat.le_of_not_lt hlt) hi

theorem not_occurs (h : Searched delimiter list count)
    (hshort : list.length < count + delimiter.length) : ¬ delimiter <:+: list := by
  rintro ⟨front, back, rfl⟩
  simp only [List.length_append] at hshort
  apply h.dead front.length (by omega) []
  rw [List.append_assoc, List.drop_left, List.append_nil]
  exact List.prefix_append _ _

section Found

variable {mat : Match} (h : Searched delimiter list count)
  (hmat : LeftmostLongest (prefixes delimiter) (list.drop count) mat)

include h hmat

theorem until_match : Searched delimiter list (count + mat.start) := by
  obtain ⟨hlt, hle, _⟩ := hmat.bounds
  rw [List.length_drop] at hle
  obtain ⟨front, hmem, _⟩ := hmat.found
  obtain ⟨hfront, hstarts⟩ := mem_prefixes.mp hmem
  have hne : delimiter ≠ [] := by
    rintro rfl
    exact hfront (List.prefix_nil.mp hstarts)
  apply h.extend (by omega)
  intro i hi hstart
  apply not_prefix_append hne
  · rw [← List.length_pos_iff, List.length_drop]
    omega
  · have hleft := hmat.leftmost (i - count) (by omega)
    rwa [List.drop_drop, Nat.add_sub_cancel' hi] at hleft

theorem found_full (hne : delimiter ≠ []) (hfull : mat.stop - mat.start = delimiter.length) :
    list = list.take (count + mat.start) ++ (delimiter ++ list.drop (count + mat.stop)) ∧
      First delimiter (list.take (count + mat.start)) := by
  obtain ⟨hlt, hle, _⟩ := hmat.bounds
  rw [List.length_drop] at hle
  obtain ⟨behind, hbehind⟩ := hmat.full hfull
  rw [List.drop_drop] at hbehind
  have hstop : list.drop (count + mat.stop) = behind := by
    rw [show count + mat.stop = count + mat.start + delimiter.length by omega,
      ← List.drop_drop, ← hbehind, List.drop_left]
  have hlist : list = list.take (count + mat.start) ++ (delimiter ++ behind) := by
    rw [hbehind, List.take_append_drop]
  refine ⟨hstop ▸ hlist, first_of_forall hne ?_⟩
  intro i hi
  rw [List.length_take] at hi
  have hdead := (h.until_match hmat).dead i (by omega) []
  rw [List.append_nil] at hdead
  have hfront : list.take (count + mat.start) ++ delimiter <+: list :=
    ⟨behind, by rw [List.append_assoc, ← hlist]⟩
  exact fun hstarts => hdead (hstarts.trans (hfront.drop i))

/-- A part of the delimiter that the list ends with may still become one. -/
theorem found_part_at_end (hpart : mat.stop - mat.start ≠ delimiter.length)
    (hend : count + mat.stop = list.length) :
    Searched delimiter list (count + mat.start) ∧ ¬ delimiter <:+: list := by
  have hsearched := h.until_match hmat
  obtain ⟨hlt, _, hle⟩ := hmat.bounds
  refine ⟨hsearched, hsearched.not_occurs ?_⟩
  omega

/-- A part of the delimiter with something else behind it never becomes one. -/
theorem found_part_inside (hpart : mat.stop - mat.start ≠ delimiter.length)
    (hend : count + mat.stop ≠ list.length) :
    Searched delimiter list (count + mat.start + 1) := by
  obtain ⟨hlt, hle, hshort⟩ := hmat.bounds
  rw [List.length_drop] at hle
  apply (h.until_match hmat).extend (by omega)
  intro i hi hi' more hstarts
  have hstart : i = count + mat.start := by omega
  rw [hstart, ← List.drop_drop] at hstarts
  have hroom : mat.stop - mat.start + 1 ≤ ((list.drop count).drop mat.start).length := by
    rw [List.length_drop, List.length_drop]
    omega
  have hmem : delimiter.take (mat.stop - mat.start + 1) ∈ prefixes delimiter := by
    refine mem_prefixes.mpr ⟨?_, List.take_prefix _ _⟩
    rw [← List.length_pos_iff, List.length_take]
    omega
  have hmax := hmat.longest _ hmem (take_prefix_of_append hstarts hroom)
  rw [List.length_take] at hmax
  omega

end Found

theorem not_found (hne : delimiter ≠ []) (h : Searched delimiter list count)
    (hnone : ∀ front ∈ prefixes delimiter, ¬ front <:+: list.drop count) :
    Searched delimiter list list.length ∧ ¬ delimiter <:+: list := by
  have hsearched : Searched delimiter list list.length := by
    apply h.extend le_rfl
    intro i hi hlt
    apply not_prefix_append hne
    · rw [← List.length_pos_iff, List.length_drop]
      omega
    · intro front hmem hstarts
      apply hnone front hmem
      apply hstarts.isInfix.trans
      rw [← Nat.add_sub_cancel' hi, ← List.drop_drop]
      exact (List.drop_suffix _ _).isInfix
  have hpos := List.length_pos_iff.mpr hne
  exact ⟨hsearched, hsearched.not_occurs (by omega)⟩

end Searched

end AntRelay.Base.Delimited
