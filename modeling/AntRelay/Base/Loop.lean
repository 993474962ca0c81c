import AntRelay.Base.Outcome
import Mathlib.Data.Nat.Init
import Mathlib.Data.Option.Basic

namespace AntRelay.Base

inductive Round (σ ρ : Type) where
  | again (s : σ)
  | leave (result : ρ)

structure Loop (σ ε ρ : Type) where
  body : σ → Outcome ε (Round σ ρ)
  measure : σ → Nat
  again_lt : ∀ {s s'}, body s = .ok (.again s') → measure s' < measure s

namespace Loop

variable {σ ε ρ : Type} (l : Loop σ ε ρ)

def rounds : Nat → σ → Option (Outcome ε ρ)
  | 0, _ => none
  | fuel + 1, s =>
      match l.body s with
      | .ok (.again s') => rounds fuel s'
      | .ok (.leave result) => some (.ok result)
      | .error err => some (.error err)
      | .panicked => some .panicked

theorem rounds_isSome {fuel : Nat} {s : σ} (h : l.measure s < fuel) :
    (l.rounds fuel s).isSome := by
  induction fuel generalizing s with
  | zero => omega
  | succ fuel ih =>
      unfold rounds
      split
      · rename_i s' hbody
        have hsmaller := l.again_lt hbody
        apply ih
        omega
      all_goals rfl

/-- The rounds that a loop of this state takes are enough. -/
def run (s : σ) : Outcome ε ρ :=
  (l.rounds (l.measure s + 1) s).get (l.rounds_isSome (Nat.lt_add_one _))

theorem rounds_eq_of_le {fuel fuel' : Nat} {s : σ} (h : l.measure s < fuel)
    (h' : l.measure s < fuel') : l.rounds fuel s = l.rounds fuel' s := by
  induction fuel generalizing fuel' s with
  | zero => omega
  | succ fuel ih =>
      cases fuel' with
      | zero => omega
      | succ fuel' =>
          unfold rounds
          split
          · rename_i s' hbody
            have hsmaller := l.again_lt hbody
            apply ih <;> omega
          all_goals rfl

theorem rounds_eq_run {fuel : Nat} {s : σ} (h : l.measure s < fuel) :
    l.rounds fuel s = some (l.run s) := by
  rw [run, Option.some_get]
  exact l.rounds_eq_of_le h (Nat.lt_add_one _)

variable {l} {s s' : σ}

theorem run_of_again (h : l.body s = .ok (.again s')) : l.run s = l.run s' := by
  have hsmaller := l.again_lt h
  apply Option.some_injective
  rw [← l.rounds_eq_run (Nat.lt_add_one _), ← l.rounds_eq_run hsmaller]
  simp only [rounds, h]

theorem run_of_leave {result : ρ} (h : l.body s = .ok (.leave result)) :
    l.run s = .ok result := by
  apply Option.some_injective
  rw [← l.rounds_eq_run (Nat.lt_add_one _)]
  simp only [rounds, h]

theorem induction {motive : σ → Prop}
    (round : ∀ s, (∀ s', l.body s = .ok (.again s') → motive s') → motive s) (s : σ) :
    motive s := by
  induction hmeasure : l.measure s using Nat.strong_induction_on generalizing s with
  | _ n ih =>
      apply round
      intro s' hbody
      exact ih _ (hmeasure ▸ l.again_lt hbody) s' rfl

theorem run_eq_ok {result : ρ} (h : l.run s = .ok result) :
    (∃ s', l.body s = .ok (.again s') ∧ l.run s' = .ok result) ∨
      l.body s = .ok (.leave result) := by
  have hrounds := l.rounds_eq_run (Nat.lt_add_one (l.measure s))
  rw [h] at hrounds
  unfold rounds at hrounds
  split at hrounds
  · rename_i s' hbody
    exact .inl ⟨s', hbody, run_of_again hbody ▸ h⟩
  · rename_i result' hbody
    cases hrounds
    exact .inr hbody
  · cases hrounds
  · cases hrounds

end Loop

end AntRelay.Base
