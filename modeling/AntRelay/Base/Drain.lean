import AntRelay.Base.Machine

namespace AntRelay.Base

namespace Machine

variable {σ α ω : Type} {m : Machine σ α ω}

inductive Leads (m : Machine σ α ω) (kind : α → Prop) : σ → List ω → σ → List ω → Prop where
  | here {s : σ} {seen : List ω} : Leads m kind s seen s seen
  | step {s s' s'' : σ} {seen shown seen'' : List ω} {a : α} : kind a →
      m.next s a = some (s', shown) → Leads m kind s' (seen ++ shown) s'' seen'' →
      Leads m kind s seen s'' seen''

variable {kind : α → Prop} {s s' : σ} {seen seen' : List ω}

theorem Leads.run (h : m.Leads kind s seen s' seen') {visits : List (Visit σ α ω)}
    (hrun : m.Run visits s seen) :
    ∃ more, m.Run (visits ++ more) s' seen' ∧ ∀ visit ∈ more, kind visit.action := by
  induction h generalizing visits with
  | here => exact ⟨[], by simpa using hrun, by simp⟩
  | @step s _ _ seen _ _ a hkind hnext _ ih =>
      obtain ⟨more, hmore, hall⟩ := ih (hrun.step hnext)
      refine ⟨⟨s, seen, a⟩ :: more, by simpa using hmore, ?_⟩
      rw [List.forall_mem_cons]
      exact ⟨hkind, hall⟩

theorem Leads.seen_prefix (h : m.Leads kind s seen s' seen') : seen <+: seen' := by
  induction h with
  | here => exact List.prefix_refl _
  | step _ _ _ ih => exact (List.prefix_append _ _).trans ih

inductive Takes (m : Machine σ α ω) : σ → List α → σ → List ω → Prop where
  | nil (s : σ) : Takes m s [] s []
  | cons {s s' s'' : σ} {shown more : List ω} {a : α} {actions : List α} :
      m.next s a = some (s', shown) → Takes m s' actions s'' more →
      Takes m s (a :: actions) s'' (shown ++ more)

theorem Takes.one {shown : List ω} {a : α} (h : m.next s a = some (s', shown)) :
    m.Takes s [a] s' shown := by
  have htakes := Takes.cons h (.nil s')
  rwa [List.append_nil] at htakes

theorem Takes.append {s'' : σ} {shown more : List ω} {first second : List α}
    (hfirst : m.Takes s first s' shown) (hsecond : m.Takes s' second s'' more) :
    m.Takes s (first ++ second) s'' (shown ++ more) := by
  induction hfirst with
  | nil s => exact hsecond
  | cons hnext _ ih =>
      rw [List.append_assoc]
      exact .cons hnext (ih hsecond)

theorem Takes.run {shown : List ω} {actions : List α} (h : m.Takes s actions s' shown)
    {visits : List (Visit σ α ω)} (hrun : m.Run visits s seen) :
    ∃ more, m.Run (visits ++ more) s' (seen ++ shown) ∧ more.map Visit.action = actions := by
  induction h generalizing visits seen with
  | nil s => exact ⟨[], by simpa using hrun, rfl⟩
  | @cons s _ _ _ _ a _ hnext _ ih =>
      obtain ⟨more, hmore, hactions⟩ := ih (hrun.step hnext)
      refine ⟨⟨s, seen, a⟩ :: more, by simpa using hmore, ?_⟩
      rw [List.map_cons, hactions]

theorem Leads.takes (h : m.Leads kind s seen s' seen') :
    ∃ actions shown, m.Takes s actions s' shown ∧ ∀ a ∈ actions, kind a := by
  induction h with
  | here => exact ⟨[], [], .nil _, by simp⟩
  | step hkind hnext _ ih =>
      obtain ⟨actions, shown, htakes, hall⟩ := ih
      refine ⟨_, _, .cons hnext htakes, ?_⟩
      rw [List.forall_mem_cons]
      exact ⟨hkind, hall⟩

theorem follow_visits {visits visits' : List (Visit σ α ω)} {actions : List α}
    (h : m.follow visits s seen actions = some (visits', s', seen')) :
    ∃ more, visits' = visits ++ more ∧ more.map Visit.action = actions := by
  induction actions generalizing visits s seen with
  | nil =>
      cases h
      exact ⟨[], by simp, rfl⟩
  | cons a actions ih =>
      rw [follow] at h
      cases hnext : m.next s a with
      | none =>
          rw [hnext] at h
          cases h
      | some result =>
          rw [hnext] at h
          obtain ⟨more, hvisits, hactions⟩ := ih h
          refine ⟨⟨s, seen, a⟩ :: more, by simpa using hvisits, ?_⟩
          rw [List.map_cons, hactions]

/-- While the work is not done some step makes it less: so it gets done. -/
theorem leads_to_done (m : Machine σ α ω) (kind : α → Prop) (inv : σ → List ω → Prop)
    (done : σ → Prop) (work : σ → Nat)
    (hstep : ∀ {s seen}, inv s seen → ¬ done s → ∃ a s' shown, kind a ∧
      m.next s a = some (s', shown) ∧ inv s' (seen ++ shown) ∧ work s' < work s) :
    ∀ {s seen}, inv s seen → ∃ s' seen', m.Leads kind s seen s' seen' ∧ inv s' seen' ∧ done s' := by
  suffices haux : ∀ n s seen, work s = n → inv s seen →
      ∃ s' seen', m.Leads kind s seen s' seen' ∧ inv s' seen' ∧ done s' by
    intro s seen hinv
    exact haux (work s) s seen rfl hinv
  intro n
  induction n using Nat.strongRecOn with
  | ind n ih =>
      intro s seen hwork hinv
      by_cases hdone : done s
      · exact ⟨s, seen, .here, hinv, hdone⟩
      · obtain ⟨a, s₁, shown, hkind, hnext, hinv₁, hless⟩ := hstep hinv hdone
        obtain ⟨s', seen', hleads, hinv', hdone'⟩ := ih (work s₁) (hwork ▸ hless) s₁ _ rfl hinv₁
        exact ⟨s', seen', .step hkind hnext hleads, hinv', hdone'⟩

end Machine

end AntRelay.Base
