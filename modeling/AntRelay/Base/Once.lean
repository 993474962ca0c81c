import AntRelay.Base.Outcome

namespace AntRelay.Base

/-! A call on an object may change it, fail or panic, and does work on the way.
A cell keeps what the first computation came back with, an error too, and is
only read afterwards. `Keeps` says of a call that it comes back with what a
plain computation gives, and that all the work it does was still to be done. -/

/-- A call: what it comes back with, the object after it, and the work done. -/
def Call (σ ω ε α : Type) : Type := σ → Outcome ε α × σ × List ω

def outcomeOf {ε α : Type} : Except ε α → Outcome ε α
  | .ok value => .ok value
  | .error err => .error err

namespace Call

variable {σ τ ω ε α β : Type}

def bind (call : Call σ ω ε α) (next : α → Call σ ω ε β) : Call σ ω ε β := fun s =>
  match call s with
  | (.ok value, s', work) =>
      let (result, s'', more) := next value s'
      (result, s'', work ++ more)
  | (.error err, s', work) => (.error err, s', work)
  | (.panicked, s', work) => (.panicked, s', work)

instance : Monad (Call σ ω ε) where
  pure value := fun s => (.ok value, s, [])
  bind := bind

def read (result : σ → Outcome ε α) : Call σ ω ε α := fun s => (result s, s, [])

def work (item : ω) (result : σ → Outcome ε α) : Call σ ω ε α := fun s =>
  match result s with
  | .panicked => (.panicked, s, [])
  | result => (result, s, [item])

def onNew (start : τ) (call : Call τ ω ε α) : Call σ ω ε (α × τ) := fun s =>
  match call start with
  | (.ok value, t, work) => (.ok (value, t), s, work)
  | (.error err, _, work) => (.error err, s, work)
  | (.panicked, _, work) => (.panicked, s, work)

def getOrInit (get : σ → Option (Except ε α)) (set : σ → Except ε α → σ)
    (init : Call σ ω ε α) : Call σ ω ε α := fun s =>
  match get s with
  | some result => (outcomeOf result, s, [])
  | none =>
      match init s with
      | (.ok value, s', work) => (.ok value, set s' (.ok value), work)
      | (.error err, s', work) => (.error err, set s' (.error err), work)
      | (.panicked, s', work) => (.panicked, s', work)

theorem bind_apply (call : Call σ ω ε α) (next : α → Call σ ω ε β) (s : σ) :
    (call >>= next) s =
      match call s with
      | (.ok value, s', work) =>
          ((next value s').1, (next value s').2.1, work ++ (next value s').2.2)
      | (.error err, s', work) => (.error err, s', work)
      | (.panicked, s', work) => (.panicked, s', work) := rfl

section Rules

variable [DecidableEq ω] {inv : σ → Prop} {room : σ → ω → Nat} {call : Call σ ω ε α}
  {plain : Outcome ε α} {own : ω}

structure Keeps (inv : σ → Prop) (room : σ → ω → Nat) (call : Call σ ω ε α)
    (plain : Outcome ε α) : Prop where
  result : ∀ s, inv s → (call s).1 = plain
  sound : ∀ s, inv s → inv (call s).2.1
  work : ∀ s, inv s → ∀ item, (call s).2.2.count item + room (call s).2.1 item ≤ room s item

/-- What fills the cell `own` does its work once, and only if it comes back. -/
structure Fills (inv : σ → Prop) (room : σ → ω → Nat) (own : ω) (call : Call σ ω ε α)
    (plain : Outcome ε α) : Prop where
  result : ∀ s, inv s → (call s).1 = plain
  sound : ∀ s, inv s → inv (call s).2.1
  others : ∀ s, inv s → ∀ item, item ≠ own ∨ (call s).1 = .panicked →
    (call s).2.2.count item + room (call s).2.1 item ≤ room s item
  once : ∀ s, inv s → (call s).2.2.count own ≤ 1

theorem keeps_read {result : σ → Outcome ε α} (h : ∀ s, inv s → result s = plain) :
    Keeps inv room (read result) plain where
  result := h
  sound := fun _ hs => hs
  work := by
    intro s _ item
    simp [read]

theorem fills_work {result : σ → Outcome ε α} (h : ∀ s, inv s → result s = plain) :
    Fills inv room own (work own result) plain := by
  have hwork (s : σ) (hs : inv s) : work own result s =
      (plain, s, if plain matches .panicked then [] else [own]) := by
    unfold work
    rw [h s hs]
    cases plain <;> rfl
  refine ⟨fun s hs => by rw [hwork s hs], fun s hs => by rw [hwork s hs]; exact hs, ?_, ?_⟩
  · intro s hs item hitem
    rw [hwork s hs] at hitem ⊢
    cases plain with
    | panicked => simp
    | ok value | error err =>
        have hne : item ≠ own := by simpa using hitem
        simp [hne.symm]
  · intro s hs
    rw [hwork s hs]
    cases plain <;> simp

theorem Keeps.bind {next : α → Call σ ω ε β} {after : α → Outcome ε β}
    (h : Keeps inv room call plain) (hnext : ∀ value, plain = .ok value →
      Keeps inv room (next value) (after value)) :
    Keeps inv room (call >>= next) (plain >>= after) := by
  have hall (s : σ) (hs : inv s) : ((call >>= next) s).1 = (plain >>= after) ∧
      inv ((call >>= next) s).2.1 ∧ ∀ item, ((call >>= next) s).2.2.count item +
        room ((call >>= next) s).2.1 item ≤ room s item := by
    have hresult := h.result s hs
    have hinv := h.sound s hs
    have hwork := h.work s hs
    rw [bind_apply]
    rcases hcall : call s with ⟨result, s', items⟩
    rw [hcall] at hresult hinv hwork
    subst hresult
    cases result with
    | ok value =>
        have hafter := hnext value rfl
        refine ⟨hafter.result s' hinv, hafter.sound s' hinv, ?_⟩
        intro item
        have hbefore := hwork item
        have hmore := hafter.work s' hinv item
        simp only [List.count_append] at hbefore ⊢
        omega
    | error err => exact ⟨rfl, hinv, hwork⟩
    | panicked => exact ⟨rfl, hinv, hwork⟩
  exact ⟨fun s hs => (hall s hs).1, fun s hs => (hall s hs).2.1, fun s hs => (hall s hs).2.2⟩

theorem Fills.bind {next : α → Call σ ω ε β} {after : α → Outcome ε β}
    (h : Keeps inv room call plain)
    (halone : ∀ s, inv s → room (call s).2.1 own = room s own)
    (hnext : ∀ value, plain = .ok value → Fills inv room own (next value) (after value)) :
    Fills inv room own (call >>= next) (plain >>= after) := by
  have hall (s : σ) (hs : inv s) : ((call >>= next) s).1 = (plain >>= after) ∧
      inv ((call >>= next) s).2.1 ∧
      (∀ item, item ≠ own ∨ ((call >>= next) s).1 = .panicked →
        ((call >>= next) s).2.2.count item + room ((call >>= next) s).2.1 item ≤ room s item) ∧
      ((call >>= next) s).2.2.count own ≤ 1 := by
    have hresult := h.result s hs
    have hinv := h.sound s hs
    have hwork := h.work s hs
    have hown := halone s hs
    rw [bind_apply]
    rcases hcall : call s with ⟨result, s', items⟩
    rw [hcall] at hresult hinv hwork hown
    have hnone : items.count own = 0 := by
      have hbefore := hwork own
      simp only at hbefore hown
      omega
    have honce : items.count own ≤ 1 := by omega
    subst hresult
    cases result with
    | ok value =>
        have hafter := hnext value rfl
        refine ⟨hafter.result s' hinv, hafter.sound s' hinv, ?_, ?_⟩
        · intro item hitem
          have hbefore := hwork item
          have hmore := hafter.others s' hinv item hitem
          simp only [List.count_append] at hbefore ⊢
          omega
        · have honce := hafter.once s' hinv
          simp only [List.count_append, hnone]
          omega
    | error err => exact ⟨rfl, hinv, fun item _ => hwork item, honce⟩
    | panicked => exact ⟨rfl, hinv, fun item _ => hwork item, honce⟩
  exact ⟨fun s hs => (hall s hs).1, fun s hs => (hall s hs).2.1, fun s hs => (hall s hs).2.2.1,
    fun s hs => (hall s hs).2.2.2⟩

/-- Reading a cell that a computation fills is that computation, done once. -/
theorem Fills.getOrInit {get : σ → Option (Except ε α)} {set : σ → Except ε α → σ}
    (h : Fills inv room own call plain)
    (hget : ∀ s result, inv s → get s = some result → outcomeOf result = plain)
    (hset : ∀ s result, inv s → outcomeOf result = plain → inv (set s result))
    (hempty : ∀ s, inv s → get s = none → room s own = 1)
    (hroom : ∀ s result item, room (set s result) item = if item = own then 0 else room s item) :
    Keeps inv room (Call.getOrInit get set call) plain := by
  have hall (s : σ) (hs : inv s) : (Call.getOrInit get set call s).1 = plain ∧
      inv (Call.getOrInit get set call s).2.1 ∧
      ∀ item, (Call.getOrInit get set call s).2.2.count item +
        room (Call.getOrInit get set call s).2.1 item ≤ room s item := by
    unfold Call.getOrInit
    cases hcell : get s with
    | some result => exact ⟨hget s result hs hcell, hs, fun item => by simp⟩
    | none =>
        have hresult := h.result s hs
        have hinv := h.sound s hs
        have hothers := h.others s hs
        have honce := h.once s hs
        have hspare := hempty s hs hcell
        have hfilled (result : Except ε α) (s' : σ) (items : List ω)
            (hitems : items.count own ≤ 1)
            (hrest : ∀ item, item ≠ own → items.count item + room s' item ≤ room s item)
            (item : ω) : items.count item + room (set s' result) item ≤ room s item := by
          rw [hroom]
          split
          · rename_i hitem
            rw [hitem]
            omega
          · rename_i hitem
            exact hrest item hitem
        rcases hcall : call s with ⟨result, s', items⟩
        rw [hcall] at hresult hinv hothers honce
        cases result with
        | ok value =>
            exact ⟨hresult, hset s' (.ok value) hinv hresult,
              hfilled (.ok value) s' items honce fun item hitem => hothers item (.inl hitem)⟩
        | error err =>
            exact ⟨hresult, hset s' (.error err) hinv hresult,
              hfilled (.error err) s' items honce fun item hitem => hothers item (.inl hitem)⟩
        | panicked => exact ⟨hresult, hinv, fun item => hothers item (.inr rfl)⟩
  exact ⟨fun s hs => (hall s hs).1, fun s hs => (hall s hs).2.1, fun s hs => (hall s hs).2.2⟩

end Rules

end Call

end AntRelay.Base
