import Mathlib.Data.List.Basic

namespace AntRelay.Base

/-! A machine takes one action at a time and shows what it does. A run keeps
every step it took, so that a property of a run can speak about the state before
each step, the action, and all that was seen until then. -/

/-- `next` is `none` where an action is not possible. -/
structure Machine (σ α ω : Type) where
  init : σ
  next : σ → α → Option (σ × List ω)

structure Visit (σ α ω : Type) where
  state : σ
  seen : List ω
  action : α

namespace Machine

variable {σ α ω : Type} (m : Machine σ α ω)

/-- `Run visits s seen`: taking the steps `visits` from the start leads to `s`,
and `seen` is all that was seen on the way. -/
inductive Run : List (Visit σ α ω) → σ → List ω → Prop where
  | start : Run [] m.init []
  | step {visits : List (Visit σ α ω)} {s s' : σ} {seen shown : List ω} {a : α} :
      Run visits s seen → m.next s a = some (s', shown) →
      Run (visits ++ [⟨s, seen, a⟩]) s' (seen ++ shown)

variable {m}

/-- What holds at the start and survives every step that meets `allowed` holds
before and after every step of a run whose steps all meet it. -/
theorem Run.invariant (inv : σ → List ω → Prop) (allowed : Visit σ α ω → Prop)
    (hinit : inv m.init [])
    (hstep : ∀ {s seen a s' shown}, inv s seen → allowed ⟨s, seen, a⟩ →
      m.next s a = some (s', shown) → inv s' (seen ++ shown))
    {visits : List (Visit σ α ω)} {s : σ} {seen : List ω} (hrun : m.Run visits s seen)
    (hallowed : ∀ visit ∈ visits, allowed visit) :
    inv s seen ∧ ∀ visit ∈ visits, inv visit.state visit.seen := by
  induction hrun with
  | start => exact ⟨hinit, by simp⟩
  | step _ hnext ih =>
      rw [List.forall_mem_append, List.forall_mem_singleton] at hallowed
      have hbefore := ih hallowed.1
      refine ⟨hstep hbefore.1 hallowed.2 hnext, ?_⟩
      rw [List.forall_mem_append, List.forall_mem_singleton]
      exact ⟨hbefore.2, hbefore.1⟩

theorem Run.always (inv : σ → List ω → Prop) (hinit : inv m.init [])
    (hstep : ∀ {s seen a s' shown}, inv s seen → m.next s a = some (s', shown) →
      inv s' (seen ++ shown))
    {visits : List (Visit σ α ω)} {s : σ} {seen : List ω} (hrun : m.Run visits s seen) :
    inv s seen ∧ ∀ visit ∈ visits, inv visit.state visit.seen := by
  exact hrun.invariant inv (fun _ => True) hinit (fun hinv _ hnext => hstep hinv hnext)
    (fun _ _ => trivial)

theorem Run.after (inv : σ → List ω → Prop) {visits : List (Visit σ α ω)} {s : σ}
    {seen : List ω} (hrun : m.Run visits s seen) (hlast : inv s seen)
    (hvisits : ∀ visit ∈ visits, inv visit.state visit.seen) :
    ∀ visit ∈ visits, ∃ s' shown, m.next visit.state visit.action = some (s', shown) ∧
      inv s' (visit.seen ++ shown) := by
  induction hrun with
  | start => simp
  | step _ hnext ih =>
      rw [List.forall_mem_append, List.forall_mem_singleton] at hvisits ⊢
      exact ⟨ih hvisits.2 hvisits.1, _, _, hnext, hlast⟩

/-- What holds before and after every step of a run exactly when no step is bad:
a stronger invariant survives the others, and a bad step breaks it at once.
`base` is what is known of every state anyway. -/
theorem Run.holds_iff_never (base strong inv : σ → List ω → Prop) {bad : Visit σ α ω → Prop}
    {visits : List (Visit σ α ω)} {s : σ} {seen : List ω} (hrun : m.Run visits s seen)
    (hbase : ∀ visit ∈ visits, base visit.state visit.seen) (hinit : strong m.init [])
    (hstep : ∀ {s seen a s' shown}, strong s seen → ¬ bad ⟨s, seen, a⟩ →
      m.next s a = some (s', shown) → strong s' (seen ++ shown))
    (hweaken : ∀ {s seen}, strong s seen → inv s seen)
    (hbreak : ∀ {s seen a s' shown}, base s seen → bad ⟨s, seen, a⟩ →
      m.next s a = some (s', shown) → ¬ inv s' (seen ++ shown)) :
    (inv s seen ∧ ∀ visit ∈ visits, inv visit.state visit.seen) ↔
      ∀ visit ∈ visits, ¬ bad visit := by
  constructor
  · intro hinv visit hvisit hbad
    obtain ⟨s', shown, hnext, hafter⟩ := hrun.after inv hinv.1 hinv.2 visit hvisit
    exact hbreak (hbase visit hvisit) hbad hnext hafter
  · intro hallowed
    have hstrong := hrun.invariant strong (fun visit => ¬ bad visit) hinit hstep hallowed
    exact ⟨hweaken hstrong.1, fun visit hvisit => hweaken (hstrong.2 visit hvisit)⟩

/-- An invariant that speaks about the steps taken. -/
theorem Run.recorded (inv : List (Visit σ α ω) → σ → List ω → Prop) (hinit : inv [] m.init [])
    (hstep : ∀ {visits s seen a s' shown}, inv visits s seen → m.next s a = some (s', shown) →
      inv (visits ++ [⟨s, seen, a⟩]) s' (seen ++ shown))
    {visits : List (Visit σ α ω)} {s : σ} {seen : List ω} (hrun : m.Run visits s seen) :
    inv visits s seen := by
  induction hrun with
  | start => exact hinit
  | step _ hnext ih => exact hstep ih hnext

theorem Run.until {visits : List (Visit σ α ω)} {s : σ} {seen : List ω}
    (hrun : m.Run visits s seen) :
    ∀ before visit after, visits = before ++ visit :: after →
      m.Run before visit.state visit.seen := by
  induction hrun with
  | start =>
      intro before visit after hsplit
      simp at hsplit
  | @step visits s s' seen shown a hrun _ ih =>
      intro before visit after hsplit
      rcases List.eq_nil_or_concat after with rfl | ⟨rest, last, rfl⟩
      · obtain ⟨hbefore, hlast⟩ := List.append_inj' hsplit rfl
        cases hlast
        rw [← hbefore]
        exact hrun
      · rw [List.concat_eq_append, ← List.cons_append, ← List.append_assoc] at hsplit
        obtain ⟨hvisits, _⟩ := List.append_inj' hsplit rfl
        exact ih before visit rest hvisits

def follow (m : Machine σ α ω) :
    List (Visit σ α ω) → σ → List ω → List α →
      Option (List (Visit σ α ω) × σ × List ω)
  | visits, s, seen, [] => some (visits, s, seen)
  | visits, s, seen, a :: actions =>
      match m.next s a with
      | none => none
      | some (s', shown) => follow m (visits ++ [⟨s, seen, a⟩]) s' (seen ++ shown) actions

theorem Run.follow {visits visits' : List (Visit σ α ω)} {s s' : σ} {seen seen' : List ω}
    {actions : List α} (hrun : m.Run visits s seen)
    (h : m.follow visits s seen actions = some (visits', s', seen')) : m.Run visits' s' seen' := by
  induction actions generalizing visits s seen with
  | nil =>
      cases h
      exact hrun
  | cons a actions ih =>
      rw [Machine.follow] at h
      cases hnext : m.next s a with
      | none =>
          rw [hnext] at h
          cases h
      | some result =>
          rw [hnext] at h
          exact ih (hrun.step hnext) h

variable {τ β π : Type} {m' : Machine τ β π}

/-- Every step of `m` is a step of `m'`, or one that `m'` does not see. -/
structure Projection (m : Machine σ α ω) (m' : Machine τ β π) where
  state : σ → τ
  action : σ → α → Option β
  shown : ω → Option π
  init : state m.init = m'.init
  step : ∀ {s a s' out b}, m.next s a = some (s', out) → action s a = some b →
    m'.next (state s) b = some (state s', out.filterMap shown)
  stutter : ∀ {s a s' out}, m.next s a = some (s', out) → action s a = none →
    state s' = state s ∧ out.filterMap shown = []

namespace Projection

def visit (p : Projection m m') (visit : Visit σ α ω) : Option (Visit τ β π) :=
  (p.action visit.state visit.action).map fun b =>
    ⟨p.state visit.state, visit.seen.filterMap p.shown, b⟩

theorem run (p : Projection m m') {visits : List (Visit σ α ω)} {s : σ} {seen : List ω}
    (hrun : m.Run visits s seen) :
    m'.Run (visits.filterMap p.visit) (p.state s) (seen.filterMap p.shown) := by
  induction hrun with
  | start =>
      rw [p.init]
      exact .start
  | @step visits s s' seen out a _ hnext ih =>
      rw [List.filterMap_append, List.filterMap_append]
      cases haction : p.action s a with
      | none =>
          obtain ⟨hstate, hout⟩ := p.stutter hnext haction
          have hvisit : p.visit ⟨s, seen, a⟩ = none := by
            rw [visit, haction]
            rfl
          rw [List.filterMap_cons_none hvisit, List.filterMap_nil, List.append_nil, hstate, hout,
            List.append_nil]
          exact ih
      | some b =>
          have hvisit : p.visit ⟨s, seen, a⟩ =
              some ⟨p.state s, seen.filterMap p.shown, b⟩ := by
            rw [visit, haction]
            rfl
          rw [List.filterMap_cons_some hvisit, List.filterMap_nil]
          exact ih.step (p.step hnext haction)

end Projection

end Machine

/-- `p` holds of everything seen, together with what was seen before it. -/
def Historically {ω : Type} (p : List ω → ω → Prop) (seen : List ω) : Prop :=
  ∀ before x after, seen = before ++ x :: after → p before x

namespace Historically

variable {ω : Type} {p : List ω → ω → Prop} {seen : List ω}

theorem nil : Historically p [] := by
  intro before x after h
  simp at h

theorem concat (h : Historically p seen) {x : ω} (hx : p seen x) :
    Historically p (seen ++ [x]) := by
  intro before y after hsplit
  rcases List.eq_nil_or_concat after with rfl | ⟨rest, last, rfl⟩
  · obtain ⟨hbefore, hlast⟩ := List.append_inj' hsplit rfl
    cases hlast
    rw [← hbefore]
    exact hx
  · rw [List.concat_eq_append, ← List.cons_append, ← List.append_assoc] at hsplit
    obtain ⟨hseen, _⟩ := List.append_inj' hsplit rfl
    exact h before y rest hseen

theorem append (h : Historically p seen) {shown : List ω}
    (hshown : ∀ x ∈ shown, ∀ before, p before x) : Historically p (seen ++ shown) := by
  induction shown generalizing seen with
  | nil => rwa [List.append_nil]
  | cons x shown ih =>
      rw [List.forall_mem_cons] at hshown
      rw [← List.singleton_append, ← List.append_assoc]
      exact ih (h.concat (hshown.1 seen)) hshown.2

end Historically

/-- Since some item with `p`, all items have had `q`. -/
def Since {ω : Type} (p q : ω → Prop) (seen : List ω) : Prop :=
  ∃ before x after, seen = before ++ x :: after ∧ p x ∧ ∀ y ∈ after, q y

namespace Since

variable {ω : Type} {p q : ω → Prop} {seen : List ω}

theorem now (seen : List ω) {x : ω} (hx : p x) : Since p q (seen ++ [x]) := by
  refine ⟨seen, x, [], rfl, hx, ?_⟩
  intro y hmem
  cases hmem

theorem concat (h : Since p q seen) {x : ω} (hx : q x) : Since p q (seen ++ [x]) := by
  obtain ⟨before, y, after, rfl, hy, hafter⟩ := h
  refine ⟨before, y, after ++ [x], by simp, hy, ?_⟩
  rw [List.forall_mem_append, List.forall_mem_singleton]
  exact ⟨hafter, hx⟩

end Since

section Shown

variable {α β γ : Type} {wrap : α → β} {items : List α}

theorem filterMap_map_some {part? : β → Option α} (h : ∀ a, part? (wrap a) = some a) :
    (items.map wrap).filterMap part? = items := by
  have hsome : part? ∘ wrap = some := by
    funext a
    exact h a
  rw [List.filterMap_map, hsome, List.filterMap_some]

theorem filterMap_map_none {other? : β → Option γ} (h : ∀ a, other? (wrap a) = none) :
    (items.map wrap).filterMap other? = [] := by
  rw [List.filterMap_map]
  exact List.filterMap_eq_nil_iff.mpr fun a _ => h a

end Shown

end AntRelay.Base
