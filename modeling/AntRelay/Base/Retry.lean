import Mathlib.Data.List.Basic

namespace AntRelay.Base

structure Retry (ε ρ : Type) where
  delays : Nat
  result : Option (Except ε ρ)

namespace Retry

variable {ε ρ : Type}

def start (delays : Nat) : Retry ε ρ where
  delays := delays
  result := none

def attempted (self : Retry ε ρ) (outcome : Except ε ρ) : Retry ε ρ :=
  match outcome with
  | .ok r => { self with result := some (.ok r) }
  | .error e =>
      match self.delays with
      | 0 => { self with result := some (.error e) }
      | delays + 1 => { self with delays := delays }

/-- Attempts with these outcomes have been made, each because there was no result
yet, and have left this. -/
inductive After (delays : Nat) : List (Except ε ρ) → Retry ε ρ → Prop where
  | start : After delays [] (start delays)
  | attempt {outcomes : List (Except ε ρ)} {self : Retry ε ρ} (h : After delays outcomes self)
      (hgoes : self.result = none) (outcome : Except ε ρ) :
      After delays (outcomes ++ [outcome]) (self.attempted outcome)

variable {delays : Nat} {outcomes : List (Except ε ρ)} {self : Retry ε ρ}

theorem After.going (h : After delays outcomes self) (hgoes : self.result = none) :
    ∃ errors : List ε, outcomes = errors.map .error ∧ errors.length + self.delays = delays := by
  induction h with
  | start => exact ⟨[], rfl, Nat.zero_add _⟩
  | @attempt outcomes self h hbefore outcome ih =>
      obtain ⟨errors, rfl, hcount⟩ := ih hbefore
      cases outcome with
      | ok r => cases hgoes
      | error e =>
          simp only [attempted] at hgoes ⊢
          split at hgoes
          · cases hgoes
          · rename_i left hleft
            refine ⟨errors ++ [e], by simp, ?_⟩
            simp only [hleft, List.length_append, List.length_singleton] at hcount ⊢
            omega

theorem After.succeeded (h : After delays outcomes self) {r : ρ}
    (hresult : self.result = some (.ok r)) :
    ∃ errors : List ε, outcomes = errors.map .error ++ [.ok r] ∧ errors.length ≤ delays := by
  cases h with
  | start => cases hresult
  | @attempt outcomes self h hbefore outcome =>
      obtain ⟨errors, rfl, hcount⟩ := h.going hbefore
      cases outcome with
      | ok r' =>
          cases hresult
          exact ⟨errors, rfl, by omega⟩
      | error e =>
          simp only [attempted] at hresult
          split at hresult
          · cases hresult
          · rw [hbefore] at hresult
            cases hresult

theorem After.failed (h : After delays outcomes self) {e : ε}
    (hresult : self.result = some (.error e)) :
    ∃ errors : List ε, outcomes = errors.map .error ∧ errors.length = delays + 1 ∧
      errors.getLast? = some e := by
  cases h with
  | start => cases hresult
  | @attempt outcomes self h hbefore outcome =>
      obtain ⟨errors, rfl, hcount⟩ := h.going hbefore
      cases outcome with
      | ok r => cases hresult
      | error e' =>
          simp only [attempted] at hresult
          split at hresult
          · rename_i hnone
            cases hresult
            refine ⟨errors ++ [e], by simp, ?_, by simp⟩
            simp only [List.length_append, List.length_singleton]
            omega
          · rw [hbefore] at hresult
            cases hresult

theorem After.length_le (h : After delays outcomes self) : outcomes.length ≤ delays + 1 := by
  cases hresult : self.result with
  | none =>
      obtain ⟨errors, rfl, hcount⟩ := h.going hresult
      rw [List.length_map]
      omega
  | some result =>
      cases result with
      | ok r =>
          obtain ⟨errors, rfl, hcount⟩ := h.succeeded hresult
          simp only [List.length_append, List.length_map, List.length_singleton]
          omega
      | error e =>
          obtain ⟨errors, rfl, hcount, _⟩ := h.failed hresult
          rw [List.length_map]
          exact Nat.le_of_eq hcount

theorem After.length_lt (h : After delays outcomes self) (hgoes : self.result = none) :
    outcomes.length < delays + 1 := by
  obtain ⟨errors, rfl, hcount⟩ := h.going hgoes
  rw [List.length_map]
  omega

end Retry

end AntRelay.Base
