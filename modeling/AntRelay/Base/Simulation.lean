import AntRelay.Base.Machine

namespace AntRelay.Base

namespace Machine

variable {σ α ω τ β π : Type}

open Classical in
/-- The machine, stuck where the invariant does not hold. -/
noncomputable def restrict (m : Machine σ α ω) (inv : σ → Prop) : Machine σ α ω where
  init := m.init
  next := fun s a => if inv s then m.next s a else none

variable {m : Machine σ α ω} {inv : σ → Prop}

theorem restrict_next {s s' : σ} {a : α} {shown : List ω} :
    (m.restrict inv).next s a = some (s', shown) ↔ inv s ∧ m.next s a = some (s', shown) := by
  simp only [restrict]
  split
  · rename_i hinv
    simp [hinv]
  · rename_i hinv
    simp [hinv]

theorem Run.restrict {visits : List (Visit σ α ω)} {s : σ} {seen : List ω}
    (hrun : m.Run visits s seen) (hinv : ∀ visit ∈ visits, inv visit.state) :
    (m.restrict inv).Run visits s seen := by
  induction hrun with
  | start => exact .start
  | step _ hnext ih =>
      rw [List.forall_mem_append, List.forall_mem_singleton] at hinv
      exact (ih hinv.1).step (restrict_next.mpr ⟨hinv.2, hnext⟩)

theorem Projection.run_restrict {m' : Machine τ β π} (p : Projection (m.restrict inv) m')
    {visits : List (Visit σ α ω)} {s : σ} {seen : List ω} (hrun : m.Run visits s seen)
    (hinv : ∀ visit ∈ visits, inv visit.state) :
    m'.Run (visits.filterMap p.visit) (p.state s) (seen.filterMap p.shown) :=
  p.run (hrun.restrict hinv)

end Machine

end AntRelay.Base
