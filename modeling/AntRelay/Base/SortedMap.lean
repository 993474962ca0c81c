import Mathlib.Order.Lattice
import Mathlib.Data.List.Basic

namespace AntRelay.Base

structure SortedMap (κ ν : Type) [LinearOrder κ] where
  entries : List (κ × ν)
  sorted : entries.Pairwise fun left right => left.1 < right.1

namespace SortedMap

variable {κ ν : Type} [LinearOrder κ]

@[ext] theorem ext {left right : SortedMap κ ν} (h : left.entries = right.entries) :
    left = right := by
  cases left
  cases right
  congr

def empty : SortedMap κ ν := ⟨[], List.Pairwise.nil⟩

def insert (map : SortedMap κ ν) (key : κ) (value : ν) : SortedMap κ ν where
  entries :=
    map.entries.filter (fun entry => decide (entry.1 < key)) ++
      (key, value) :: map.entries.filter (fun entry => decide (key < entry.1))
  sorted := by
    rw [List.pairwise_append, List.pairwise_cons]
    refine ⟨map.sorted.filter _, ⟨?_, map.sorted.filter _⟩, ?_⟩
    · intro entry hentry
      exact of_decide_eq_true (List.mem_filter.mp hentry).2
    · intro before hbefore entry hentry
      have hlt : before.1 < key := of_decide_eq_true (List.mem_filter.mp hbefore).2
      rcases List.mem_cons.mp hentry with rfl | hafter
      · exact hlt
      · exact lt_trans hlt (of_decide_eq_true (List.mem_filter.mp hafter).2)

def get? (map : SortedMap κ ν) (key : κ) : Option ν :=
  (map.entries.find? fun entry => decide (entry.1 = key)).map Prod.snd

theorem entries_insert_of_forall_lt {map : SortedMap κ ν} {key : κ}
    (h : ∀ entry ∈ map.entries, entry.1 < key) (value : ν) :
    (map.insert key value).entries = map.entries ++ [(key, value)] := by
  have hbelow : map.entries.filter (fun entry => decide (entry.1 < key)) = map.entries := by
    rw [List.filter_eq_self]
    intro entry hentry
    exact decide_eq_true (h entry hentry)
  have habove : map.entries.filter (fun entry => decide (key < entry.1)) = [] := by
    rw [List.filter_eq_nil_iff]
    intro entry hentry
    rw [decide_eq_true_eq]
    exact not_lt_of_gt (h entry hentry)
  change _ ++ _ :: _ = _
  rw [hbelow, habove]

theorem mem_insert {map : SortedMap κ ν} {key : κ} {value : ν} {entry : κ × ν}
    (h : entry ∈ (map.insert key value).entries) : entry = (key, value) ∨ entry ∈ map.entries := by
  unfold insert at h
  rw [List.mem_append, List.mem_cons] at h
  rcases h with hbefore | rfl | hafter
  · exact .inr (List.mem_filter.mp hbefore).1
  · exact .inl rfl
  · exact .inr (List.mem_filter.mp hafter).1

theorem mem_of_get? {map : SortedMap κ ν} {key : κ} {value : ν} (h : map.get? key = some value) :
    (key, value) ∈ map.entries := by
  unfold get? at h
  obtain ⟨entry, hfind, hvalue⟩ := Option.map_eq_some_iff.mp h
  have hkey : entry.1 = key := by simpa using List.find?_some hfind
  rw [← hkey, ← hvalue]
  exact List.mem_of_find?_eq_some hfind

@[simp] theorem get?_empty (key : κ) : (empty : SortedMap κ ν).get? key = none := rfl

theorem get?_insert (map : SortedMap κ ν) (key other : κ) (value : ν) :
    (map.insert key value).get? other = if other = key then some value else map.get? other := by
  have hfilter (p : κ → Prop) [DecidablePred p] :
      (map.entries.filter fun entry => decide (p entry.1)).find? (fun entry =>
        decide (entry.1 = other)) =
        if p other then map.entries.find? (fun entry => decide (entry.1 = other)) else none := by
    rw [List.find?_filter]
    split
    · rename_i hp
      congr 1
      ext entry
      by_cases hentry : entry.1 = other
      · simp [hentry, hp]
      · simp [hentry]
    · rename_i hp
      rw [List.find?_eq_none]
      intro entry _
      simp only [decide_eq_true_eq, not_and]
      rintro hentry rfl
      exact hp hentry
  unfold get? insert
  rw [List.find?_append, List.find?_cons, hfilter (· < key), hfilter (key < ·)]
  rcases lt_trichotomy other key with hlt | rfl | hgt
  · simp [hlt, hlt.ne, hlt.ne', hlt.asymm]
  · simp
  · simp [hgt, hgt.ne, hgt.ne', hgt.asymm]

end SortedMap

end AntRelay.Base
