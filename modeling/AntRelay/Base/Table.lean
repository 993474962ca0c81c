import Mathlib.Data.List.AList

namespace AntRelay.Base

variable {κ ν : Type} [DecidableEq κ] {table : AList fun _ : κ => ν}

theorem lookup_insert_eq_some (k k' : κ) (v v' : ν) : (table.insert k v).lookup k' = some v' ↔
    (k' = k ∧ v = v') ∨ (k' ≠ k ∧ table.lookup k' = some v') := by
  by_cases hkey : k' = k
  · subst hkey
    simp [AList.lookup_insert]
  · simp [AList.lookup_insert_ne hkey, hkey]

theorem lookup_erase_eq_some (k k' : κ) (v' : ν) : (table.erase k).lookup k' = some v' ↔
    k' ≠ k ∧ table.lookup k' = some v' := by
  by_cases hkey : k' = k
  · subst hkey
    simp [AList.lookup_erase]
  · simp [AList.lookup_erase_ne hkey, hkey]

theorem exists_lookup_insert {k : κ} (hfree : table.lookup k = none) (v v' : ν) :
    (∃ k', (table.insert k v).lookup k' = some v') ↔
      (∃ k', table.lookup k' = some v') ∨ v' = v := by
  simp only [lookup_insert_eq_some]
  constructor
  · rintro ⟨k', ⟨_, hsame⟩ | ⟨_, hold⟩⟩
    · exact .inr hsame.symm
    · exact .inl ⟨k', hold⟩
  · rintro (⟨k', hold⟩ | rfl)
    · refine ⟨k', .inr ⟨?_, hold⟩⟩
      rintro rfl
      rw [hfree] at hold
      cases hold
    · exact ⟨k, .inl ⟨rfl, rfl⟩⟩

theorem lookup_insert_single {k : κ} {v : ν}
    (hsingle : ∀ k k' v, table.lookup k = some v → table.lookup k' = some v → k = k')
    (hnew : ∀ k', table.lookup k' ≠ some v) (k₁ k₂ : κ) (v' : ν)
    (h₁ : (table.insert k v).lookup k₁ = some v') (h₂ : (table.insert k v).lookup k₂ = some v') :
    k₁ = k₂ := by
  rw [lookup_insert_eq_some] at h₁ h₂
  rcases h₁ with ⟨rfl, rfl⟩ | ⟨_, h₁⟩
  · rcases h₂ with ⟨rfl, _⟩ | ⟨_, h₂⟩
    · rfl
    · exact absurd h₂ (hnew k₂)
  · rcases h₂ with ⟨_, rfl⟩ | ⟨_, h₂⟩
    · exact absurd h₁ (hnew k₁)
    · exact hsingle _ _ _ h₁ h₂

theorem exists_lookup_erase {k : κ} {v : ν}
    (hsingle : ∀ k k' v, table.lookup k = some v → table.lookup k' = some v → k = k')
    (hlookup : table.lookup k = some v) (v' : ν) :
    (∃ k', (table.erase k).lookup k' = some v') ↔ v' ≠ v ∧ ∃ k', table.lookup k' = some v' := by
  simp only [lookup_erase_eq_some]
  constructor
  · rintro ⟨k', hne, hold⟩
    refine ⟨?_, k', hold⟩
    rintro rfl
    exact hne (hsingle _ _ _ hold hlookup)
  · rintro ⟨hne, k', hold⟩
    refine ⟨k', ?_, hold⟩
    rintro rfl
    rw [hlookup] at hold
    exact hne (Option.some.inj hold).symm

end AntRelay.Base
