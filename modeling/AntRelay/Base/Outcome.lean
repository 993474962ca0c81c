import Mathlib.Data.List.Basic

namespace AntRelay.Base

/-! A call returns a value, returns an error, or panics. The slice operations
below panic exactly where the indexing they stand for does, so that "never
panics" is a statement about the code's own arithmetic. -/

inductive Outcome (ε α : Type) where
  | ok (value : α)
  | error (err : ε)
  | panicked
  deriving DecidableEq, Repr

namespace Outcome

variable {ε α β : Type}

def bind : Outcome ε α → (α → Outcome ε β) → Outcome ε β
  | .ok value, next => next value
  | .error err, _ => .error err
  | .panicked, _ => .panicked

instance : Monad (Outcome ε) where
  pure := .ok
  bind := bind

@[simp] theorem ok_bind (value : α) (next : α → Outcome ε β) :
    (Outcome.ok value >>= next) = next value := rfl

@[simp] theorem error_bind (err : ε) (next : α → Outcome ε β) :
    (Outcome.error err >>= next) = .error err := rfl

@[simp] theorem panicked_bind (next : α → Outcome ε β) :
    ((Outcome.panicked : Outcome ε α) >>= next) = .panicked := rfl

@[simp] theorem pure_eq_ok (value : α) : (pure value : Outcome ε α) = .ok value := rfl

theorem bind_eq_ok {x : Outcome ε α} {next : α → Outcome ε β} {result : β} :
    (x >>= next) = .ok result ↔ ∃ value, x = .ok value ∧ next value = .ok result := by
  cases x with
  | ok value => simp
  | error err => simp
  | panicked => simp

theorem bind_ne_panicked {x : Outcome ε α} {next : α → Outcome ε β}
    (hx : x ≠ .panicked) (hnext : ∀ value, x = .ok value → next value ≠ .panicked) :
    (x >>= next) ≠ .panicked := by
  cases x with
  | ok value => exact hnext value rfl
  | error err => simp
  | panicked => exact absurd rfl hx

def Returns (x : Outcome ε α) : Prop :=
  ∃ value, x = .ok value

theorem returns_ok (value : α) : (ok value : Outcome ε α).Returns :=
  ⟨value, rfl⟩

theorem returns_pure_iff (value : α) : (pure value : Outcome ε α).Returns ↔ True :=
  iff_of_true (returns_ok value) trivial

theorem returns_bind_iff {x : Outcome ε α} {next : α → Outcome ε β} {p : Prop}
    (hnext : ∀ value, (next value).Returns ↔ p) : (x >>= next).Returns ↔ x.Returns ∧ p := by
  cases x with
  | ok value =>
      rw [ok_bind, hnext]
      exact (and_iff_right (returns_ok value)).symm
  | error err => exact iff_of_false nofun fun h => nomatch h.1
  | panicked => exact iff_of_false nofun fun h => nomatch h.1

end Outcome

section Slices

variable {ε α : Type}

/-- `xs.split_at(mid)`: panics past the end. -/
def splitAt (xs : List α) (mid : Nat) : Outcome ε (List α × List α) :=
  if mid ≤ xs.length then .ok (xs.take mid, xs.drop mid) else .panicked

def sliceTo (xs : List α) (count : Nat) : Outcome ε (List α) :=
  if count ≤ xs.length then .ok (xs.take count) else .panicked

/-- `dst.copy_from_slice(src)`, as the content it leaves in `dst`: panics
unless the lengths agree. -/
def copyFromSlice (dst src : List α) : Outcome ε (List α) :=
  if dst.length = src.length then .ok src else .panicked

theorem splitAt_of_le {xs : List α} {mid : Nat} (h : mid ≤ xs.length) :
    (splitAt xs mid : Outcome ε _) = .ok (xs.take mid, xs.drop mid) :=
  if_pos h

theorem sliceTo_of_le {xs : List α} {count : Nat} (h : count ≤ xs.length) :
    (sliceTo xs count : Outcome ε _) = .ok (xs.take count) :=
  if_pos h

theorem copyFromSlice_of_length_eq {dst src : List α} (h : dst.length = src.length) :
    (copyFromSlice dst src : Outcome ε _) = .ok src :=
  if_pos h

end Slices

end AntRelay.Base
