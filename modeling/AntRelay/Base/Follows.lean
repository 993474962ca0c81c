import AntRelay.Base.Machine
import Mathlib.Data.List.Induction

namespace AntRelay.Base

variable {ω α : Type}

/-- If `x` is an item of the one kind, it is what the next item of the other
kind gives that has not been made into one yet. -/
def Follows (made source : ω → Option α) (before : List ω) (x : ω) : Prop :=
  ∀ a, made x = some a → (before.filterMap source)[(before.filterMap made).length]? = some a

namespace Historically

variable {p : List ω → ω → Prop} {seen more : List ω}

theorem of_append (h : Historically p (seen ++ more)) : Historically p seen := by
  intro before x after hsplit
  exact h before x (after ++ more) (by rw [hsplit, List.append_assoc, List.cons_append])

theorem last {x : ω} (h : Historically p (seen ++ [x])) : p seen x :=
  h seen x [] rfl

variable {made source : ω → Option α}

theorem follows_of_none {before : List ω} {x : ω} (h : made x = none) :
    Follows made source before x := by
  intro a hmade
  rw [h] at hmade
  cases hmade

theorem prefix_of_follows (h : Historically (Follows made source) seen) :
    seen.filterMap made <+: seen.filterMap source := by
  induction seen using List.reverseRecOn with
  | nil => exact List.prefix_refl _
  | append_singleton seen x ih =>
      obtain ⟨rest, hrest⟩ := ih h.of_append
      rw [List.filterMap_append, List.filterMap_append]
      cases hmade : made x with
      | none =>
          rw [List.filterMap_cons_none hmade, List.filterMap_nil, List.append_nil, ← hrest,
            List.append_assoc]
          exact List.prefix_append _ _
      | some a =>
          have hnext := h.last a hmade
          rw [← hrest, List.getElem?_append_right (Nat.le_refl _), Nat.sub_self] at hnext
          obtain ⟨tail, rfl⟩ : ∃ tail, rest = a :: tail := by
            cases rest with
            | nil => cases hnext
            | cons b tail =>
                cases hnext
                exact ⟨tail, rfl⟩
          rw [List.filterMap_cons_some hmade, List.filterMap_nil, ← hrest]
          exact ⟨tail ++ [x].filterMap source, by simp⟩

/-- Who makes one item of each that it handles, in order, makes the next one of
the item it handles next. -/
theorem follows_next {handled rest : List ω} {x : ω} {a : α}
    (hmade : seen.filterMap made = handled.filterMap source)
    (hsource : (handled ++ x :: rest).filterMap source = seen.filterMap source)
    (hx : source x = some a) :
    (seen.filterMap source)[(seen.filterMap made).length]? = some a := by
  rw [hmade, ← hsource, List.filterMap_append, List.getElem?_append_right (Nat.le_refl _),
    Nat.sub_self, List.filterMap_cons_some hx]
  rfl

end Historically

theorem exists_prefix_filter {p : ω → Bool} {front items : List ω}
    (h : front <+: items.filter p) : ∃ before, before <+: items ∧ before.filter p = front := by
  induction items generalizing front with
  | nil => exact ⟨[], List.prefix_refl _, (List.prefix_nil.mp h).symm⟩
  | cons x items ih =>
      by_cases hx : p x = true
      · rw [List.filter_cons_of_pos hx] at h
        cases front with
        | nil => exact ⟨[], List.nil_prefix, rfl⟩
        | cons y front =>
            obtain ⟨rfl, hfront⟩ := List.cons_prefix_cons.mp h
            obtain ⟨before, hbefore, rfl⟩ := ih hfront
            exact ⟨y :: before, List.cons_prefix_cons.mpr ⟨rfl, hbefore⟩,
              List.filter_cons_of_pos hx⟩
      · rw [List.filter_cons_of_neg hx] at h
        obtain ⟨before, hbefore, rfl⟩ := ih h
        exact ⟨x :: before, List.cons_prefix_cons.mpr ⟨rfl, hbefore⟩, List.filter_cons_of_neg hx⟩

end AntRelay.Base
