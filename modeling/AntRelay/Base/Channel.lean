import Mathlib.Data.List.Basic

namespace AntRelay.Base

/-- How items are framed, and what decoding the front of a buffer comes back
with: nothing while the first frame is not all there, then its item.  Only the
items that fit are promised to come back. -/
structure FrameFormat (β α ρ : Type) where
  frame : α → List β
  fits : α → Prop
  decode : List β → ρ
  nothing : List β → ρ
  item : α → List β → ρ
  decode_nil : decode [] = nothing []
  decode_frame : ∀ {a}, fits a → ∀ behind, decode (frame a ++ behind) = item a behind
  decode_part : ∀ {a}, fits a → ∀ part, part <+: frame a → part ≠ frame a →
    decode part = nothing part
  item_ne_nothing : ∀ a left buf, item a left ≠ nothing buf

structure Channel (β : Type) where
  unsent : List β
  wire : List β
  buffer : List β
  deriving DecidableEq, Repr

namespace Channel

variable {β α ρ : Type}

def empty : Channel β where
  unsent := []
  wire := []
  buffer := []

def flush (c : Channel β) (count : Nat) : Channel β where
  unsent := c.unsent.drop count
  wire := c.wire ++ c.unsent.take count
  buffer := c.buffer

def arrive (c : Channel β) (count : Nat) : Channel β where
  unsent := c.unsent
  wire := c.wire.drop count
  buffer := c.buffer ++ c.wire.take count

/-- The frames of these items, in order, are what is in the channel. -/
structure Carries (f : FrameFormat β α ρ) (c : Channel β) (items : List α) : Prop where
  fits : ∀ a ∈ items, f.fits a
  bytes : c.buffer ++ (c.wire ++ c.unsent) = (items.map f.frame).flatten

variable {f : FrameFormat β α ρ} {c : Channel β} {items : List α}

theorem carries_empty (f : FrameFormat β α ρ) : (empty : Channel β).Carries f [] :=
  ⟨by simp, rfl⟩

theorem Carries.flush (h : c.Carries f items) (count : Nat) : (c.flush count).Carries f items := by
  refine ⟨h.fits, ?_⟩
  unfold Channel.flush
  rw [List.append_assoc, List.take_append_drop]
  exact h.bytes

theorem Carries.arrive (h : c.Carries f items) (count : Nat) :
    (c.arrive count).Carries f items := by
  refine ⟨h.fits, ?_⟩
  unfold Channel.arrive
  rw [List.append_assoc, ← List.append_assoc (c.wire.take count), List.take_append_drop]
  exact h.bytes

theorem Carries.write (h : c.Carries f items) {a : α} (ha : f.fits a) :
    Carries f { c with unsent := c.unsent ++ f.frame a } (items ++ [a]) := by
  refine ⟨?_, ?_⟩
  · rw [List.forall_mem_append, List.forall_mem_singleton]
    exact ⟨h.fits, ha⟩
  · rw [← List.append_assoc c.wire, ← List.append_assoc c.buffer, h.bytes]
    simp

theorem Carries.decode (h : c.Carries f items) :
    f.decode c.buffer = f.nothing c.buffer ∨
      ∃ a rest left, items = a :: rest ∧ f.decode c.buffer = f.item a left ∧
        Carries f { c with buffer := left } rest := by
  obtain ⟨hfits, hbytes⟩ := h
  cases items with
  | nil =>
      have hbuffer : c.buffer = [] := (List.append_eq_nil_iff.mp hbytes).1
      rw [hbuffer]
      exact .inl f.decode_nil
  | cons a rest =>
      rw [List.forall_mem_cons] at hfits
      have hcat : c.buffer ++ (c.wire ++ c.unsent) = f.frame a ++ (rest.map f.frame).flatten :=
        hbytes
      rcases List.append_eq_append_iff.mp hcat with ⟨more, hframe, _⟩ | ⟨left, hbuffer, hrest⟩
      · by_cases hwhole : c.buffer = f.frame a
        · right
          refine ⟨a, rest, [], rfl, ?_, hfits.2, ?_⟩
          · rw [hwhole, ← f.decode_frame hfits.1, List.append_nil]
          · rw [hwhole, List.append_cancel_left_eq] at hcat
            exact hcat
        · exact .inl (f.decode_part hfits.1 c.buffer ⟨more, hframe.symm⟩ hwhole)
      · right
        refine ⟨a, rest, left, rfl, ?_, hfits.2, hrest.symm⟩
        rw [hbuffer, f.decode_frame hfits.1]

theorem Carries.eq_nil (h : c.Carries f items) (hwire : c.wire = []) (hunsent : c.unsent = [])
    (hnothing : f.decode c.buffer = f.nothing c.buffer) : items = [] := by
  obtain ⟨hfits, hbytes⟩ := h
  cases items with
  | nil => rfl
  | cons a rest =>
      have hbuffer : c.buffer = f.frame a ++ (rest.map f.frame).flatten := by
        rw [← List.append_nil c.buffer, ← List.append_nil (c.buffer ++ []), List.append_assoc]
        rw [hwire, hunsent] at hbytes
        exact hbytes
      rw [hbuffer, f.decode_frame (hfits a List.mem_cons_self)] at hnothing
      exact absurd hnothing (f.item_ne_nothing _ _ _)

theorem Carries.countP (h : c.Carries f items) (last : β → Bool)
    (hframe : ∀ {a}, f.fits a → (f.frame a).countP last = 1) :
    (c.buffer ++ (c.wire ++ c.unsent)).countP last = items.length := by
  obtain ⟨hfits, hbytes⟩ := h
  rw [hbytes]
  clear hbytes
  induction items with
  | nil => rfl
  | cons a items ih =>
      rw [List.forall_mem_cons] at hfits
      rw [List.map_cons, List.flatten_cons, List.countP_append, hframe hfits.1, ih hfits.2,
        List.length_cons, Nat.add_comm]

def distance (c : Channel β) : Nat :=
  (if c.unsent = [] then 0 else 2) + if c.wire = [] then 0 else 1

theorem distance_flush (h : c.unsent ≠ []) :
    (c.flush c.unsent.length).distance < c.distance := by
  simp only [distance, flush, List.drop_length, ↓reduceIte, if_neg h]
  split <;> split <;> omega

theorem distance_arrive (h : c.wire ≠ []) : (c.arrive c.wire.length).distance < c.distance := by
  simp only [distance, arrive, List.drop_length, ↓reduceIte, if_neg h]
  omega

theorem distance_write (more : List β) :
    distance { c with unsent := c.unsent ++ more } ≤ c.distance + 2 := by
  simp only [distance]
  split <;> split <;> omega

end Channel

end AntRelay.Base
