import AntRelay.Codec.Frames
import Mathlib.Data.List.Forall2

namespace AntRelay.Codec
open AntRelay.Base
open AntRelay.Base.Cobs
open AntRelay.Base.Segments

variable {IoError : Type}

namespace CobsCodec

variable (cobs : CobsCrate)

def encodeAll : Bytes → List Bytes → Outcome (Error IoError) Bytes
  | dst, [] => pure dst
  | dst, item :: items => do
      let dst ← encode cobs item dst
      encodeAll dst items

theorem resize_zeros (count length : Nat) :
    resize (List.replicate count 0) length = List.replicate length 0 := by
  rw [resize, List.take_replicate, List.length_replicate, List.replicate_append_replicate]
  congr 1
  omega

theorem flatten_singleton_zero (body : Bytes) : ([body].map (· ++ [0])).flatten = body ++ [0] := by
  simp

/-- The segments that an item is encoded to: its own, and an empty one behind full
groups, since one byte too many is counted then. -/
def Framed (item : Bytes) (framed : List Bytes) : Prop :=
  ∃ body : Bytes, (0 : UInt8) ∉ body ∧ unstuff body = some item ∧
    framed = body :: if FullGroups item then [[]] else []

theorem encode_appends (IoError : Type) (item : Bytes) : ∃ framed, Framed item framed ∧
    ∀ dst, encode cobs item dst =
      (.ok (dst ++ (framed.map (· ++ [0])).flatten) : Outcome (Error IoError) Bytes) := by
  let room : Bytes := List.replicate (cobs.maxEncodingLength item.length) 0
  obtain ⟨body, hform, hle, hencode⟩ := cobs.encode_form item room (by simp [room])
  have hbody : (0 : UInt8) ∉ body ∧ unstuff body = some item := by
    split at hform
    · rename_i hnil
      rw [hform, hnil]
      exact ⟨by simp, rfl⟩
    · exact ⟨hform.zero_not_mem, hform.unstuff_form⟩
  refine ⟨_, ⟨body, hbody.1, hbody.2, rfl⟩, ?_⟩
  intro dst
  have hsplit : (splitAt (dst ++ room) dst.length : Outcome (Error IoError) _) =
      .ok (dst, room) := by
    rw [splitAt_of_le (by simp), List.take_left, List.drop_left]
  have hshrink (extra : Nat) :
      resize (dst ++ (body ++ room.drop body.length)) (dst.length + (body.length + extra) + 1) =
        dst ++ (body ++ List.replicate (extra + 1) 0) := by
    rw [Nat.add_assoc, Nat.add_assoc, resize_append, resize_append, List.drop_replicate,
      resize_zeros]
  simp only [encode]
  rw [resize_add, hsplit, Outcome.ok_bind]
  simp only [hencode, hshrink, Outcome.pure_eq_ok]
  by_cases hfull : FullGroups item <;> simp [hfull, List.replicate_succ]

/-- What an item is appended as: a frame of its own, whatever is there before. -/
def AppendsFrame (IoError : Type) (item body : Bytes) : Prop :=
  (0 : UInt8) ∉ body ∧
    ∀ dst, encode cobs item dst = (.ok (dst ++ (body ++ [0])) : Outcome (Error IoError) Bytes)

/-- Every item is appended as a frame, with one zero behind it, and any cut of the
frames reads back as the items, with nothing left. -/
def RoundTrips (IoError : Type) (items : List Bytes) : Prop :=
  ∃ bodies : List Bytes,
    List.Forall₂ (AppendsFrame cobs IoError) items bodies ∧
    (∀ dst, encodeAll cobs dst items =
      (.ok (dst ++ (bodies.map (· ++ [0])).flatten) : Outcome (Error IoError) Bytes)) ∧
    ∀ chunks : List Bytes, chunks.flatten = (bodies.map (· ++ [0])).flatten →
      ∃ log, (decoder cobs IoError).framedRead [] chunks = .ok (log, []) ∧
        log.map Prod.fst = items.map .ok

variable {cobs}

theorem encodeAll_appends {items : List Bytes} {framed : List (List Bytes)}
    (h : List.Forall₂ (fun item framed => ∀ dst, encode cobs item dst =
      (.ok (dst ++ (framed.map (· ++ [0])).flatten) : Outcome (Error IoError) Bytes))
      items framed) (dst : Bytes) :
    encodeAll cobs dst items =
      (.ok (dst ++ (framed.flatten.map (· ++ [0])).flatten) : Outcome (Error IoError) Bytes) := by
  induction h generalizing dst with
  | nil => simp [encodeAll]
  | cons happends _ ih =>
      rw [encodeAll, happends, Outcome.ok_bind, ih]
      simp

theorem encodeAll_bodies {items bodies : List Bytes}
    (h : List.Forall₂ (AppendsFrame cobs IoError) items bodies) (dst : Bytes) :
    encodeAll cobs dst items =
      (.ok (dst ++ (bodies.map (· ++ [0])).flatten) : Outcome (Error IoError) Bytes) := by
  have hframed : List.Forall₂ (fun item framed => ∀ dst, encode cobs item dst =
      (.ok (dst ++ (framed.map (· ++ [0])).flatten) : Outcome (Error IoError) Bytes))
      items (bodies.map fun body => [body]) := by
    rw [List.forall₂_map_right_iff]
    refine List.Forall₂.imp ?_ h
    intro item body hbody dst
    rw [hbody.2, flatten_singleton_zero]
  have hflat : (bodies.map fun body => [body]).flatten = bodies := by
    rw [← List.flatMap_def, List.flatMap_singleton']
  rw [encodeAll_appends hframed, hflat]

theorem framedRead_frames {items bodies : List Bytes}
    (h : List.Forall₂ (fun item body => (0 : UInt8) ∉ body ∧ unstuff body = some item)
      items bodies) {chunks : List Bytes}
    (hchunks : chunks.flatten = (bodies.map (· ++ [0])).flatten) :
    ∃ log, (decoder cobs IoError).framedRead [] chunks = .ok (log, []) ∧
      log.map Prod.fst = items.map .ok := by
  have hbodies : (∀ body ∈ bodies, (0 : UInt8) ∉ body ∧ Survives body) ∧
      bodies.map frameItem = items.map (.ok : Bytes → Item IoError) := by
    clear hchunks
    induction h with
    | nil => simp
    | cons hbody _ ih =>
        rw [List.forall_mem_cons, List.map_cons, List.map_cons, ih.2, frameItem, hbody.2]
        refine ⟨⟨⟨hbody.1, ?_⟩, ih.1⟩, rfl⟩
        intro hmalformed
        rw [hbody.2] at hmalformed
        cases hmalformed
  obtain ⟨groups, log, hgroups, hlog, hitems⟩ := framedRead_segments IoError cobs chunks
  rw [hchunks, streamSegments_flatten fun body hmem => (hbodies.1 body hmem).1] at hgroups
  refine ⟨log, hlog, ?_⟩
  rw [hitems, (flatten_eq_map_iff hgroups).mpr fun body hmem => (hbodies.1 body hmem).2, hbodies.2]

/-- What is read of an item: an empty one as well behind full groups. -/
def itemsRead (item : Bytes) : List Bytes :=
  item :: if FullGroups item then [[]] else []

theorem Framed.decodes {item : Bytes} {framed : List Bytes} (h : Framed item framed) :
    List.Forall₂ (fun item body => (0 : UInt8) ∉ body ∧ unstuff body = some item)
      (itemsRead item) framed := by
  obtain ⟨body, hz, hunstuff, rfl⟩ := h
  refine .cons ⟨hz, hunstuff⟩ ?_
  by_cases hfull : FullGroups item
  · rw [if_pos hfull]
    exact .cons ⟨by simp, rfl⟩ .nil
  · rw [if_neg hfull]
    exact .nil

/-- What is read of any list of byte strings, however its encoding is cut. -/
theorem framedRead_encoded (cobs : CobsCrate) (IoError : Type) (items : List Bytes) :
    ∃ stream : Bytes,
      (∀ dst, encodeAll cobs dst items =
        (.ok (dst ++ stream) : Outcome (Error IoError) Bytes)) ∧
      ∀ chunks : List Bytes, chunks.flatten = stream →
        ∃ log, (decoder cobs IoError).framedRead [] chunks = .ok (log, []) ∧
          log.map Prod.fst = (items.flatMap itemsRead).map .ok := by
  have hframed : ∃ framed : List (List Bytes), List.Forall₂ (fun item framed =>
      ∀ dst, encode cobs item dst =
        (.ok (dst ++ (framed.map (· ++ [0])).flatten) : Outcome (Error IoError) Bytes))
      items framed ∧ List.Forall₂ (fun item body => (0 : UInt8) ∉ body ∧ unstuff body = some item)
        (items.flatMap itemsRead) framed.flatten := by
    induction items with
    | nil => exact ⟨[], .nil, .nil⟩
    | cons item items ih =>
        obtain ⟨framed, hrest, hdecodes⟩ := ih
        obtain ⟨first, hfirst, happends⟩ := encode_appends cobs IoError item
        exact ⟨first :: framed, .cons happends hrest, List.rel_append hfirst.decodes hdecodes⟩
  obtain ⟨framed, happends, hdecodes⟩ := hframed
  exact ⟨_, encodeAll_appends happends, fun chunks hchunks => framedRead_frames hdecodes hchunks⟩

theorem appendsFrame_iff (cobs : CobsCrate) (IoError : Type) (item : Bytes) :
    (∃ body, AppendsFrame cobs IoError item body) ↔ ¬ FullGroups item := by
  obtain ⟨_, ⟨body, hz, _, rfl⟩, happends⟩ := encode_appends cobs IoError item
  constructor
  · rintro ⟨other, hother, hencode⟩ hfull
    have heq := (hencode []).symm.trans (happends [])
    rw [if_pos hfull] at heq
    simp only [List.nil_append, List.map_cons, List.map_nil, List.flatten_cons, List.flatten_nil,
      List.append_nil, Outcome.ok.injEq] at heq
    have hbody := List.append_cancel_right heq
    rw [hbody] at hother
    exact hother (by simp)
  · intro hfull
    refine ⟨body, hz, ?_⟩
    intro dst
    rw [happends, if_neg hfull, flatten_singleton_zero]

theorem flatMap_itemsRead {items : List Bytes} (h : ∀ item ∈ items, ¬ FullGroups item) :
    items.flatMap itemsRead = items := by
  induction items with
  | nil => rfl
  | cons item items ih =>
      rw [List.forall_mem_cons] at h
      rw [List.flatMap_cons, ih h.2, itemsRead, if_neg h.1]
      rfl

/-- A list of byte strings survives the wire exactly when none of them consists of
full groups alone. -/
theorem framing_round_trip_iff (cobs : CobsCrate) (IoError : Type) (items : List Bytes) :
    RoundTrips cobs IoError items ↔ ∀ item ∈ items, ¬ FullGroups item := by
  have hbodies : (∃ bodies : List Bytes, List.Forall₂ (AppendsFrame cobs IoError) items bodies) ↔
      ∀ item ∈ items, ¬ FullGroups item := by
    induction items with
    | nil => exact iff_of_true ⟨[], .nil⟩ (by simp)
    | cons item items ih =>
        rw [List.forall_mem_cons, ← ih, ← appendsFrame_iff cobs IoError item]
        constructor
        · rintro ⟨bodies, happends⟩
          cases happends with
          | cons hbody hrest => exact ⟨⟨_, hbody⟩, ⟨_, hrest⟩⟩
        · rintro ⟨⟨body, hbody⟩, ⟨bodies, hrest⟩⟩
          exact ⟨body :: bodies, .cons hbody hrest⟩
  rw [← hbodies]
  constructor
  · rintro ⟨bodies, happends, -, -⟩
    exact ⟨bodies, happends⟩
  · rintro ⟨bodies, happends⟩
    obtain ⟨stream, hencode, hread⟩ := framedRead_encoded cobs IoError items
    have hstream : stream = (bodies.map (· ++ [0])).flatten := by
      have heq := (hencode []).symm.trans (encodeAll_bodies happends [])
      simpa using heq
    rw [hstream, flatMap_itemsRead (hbodies.mp ⟨bodies, happends⟩)] at hread
    exact ⟨bodies, happends, encodeAll_bodies happends, hread⟩

theorem fullGroups_replicate {byte : UInt8} (h : byte ≠ 0) :
    FullGroups (List.replicate 254 byte) := by
  have hlen : (List.replicate 254 byte).length = 254 := List.length_replicate
  refine ⟨List.ne_nil_of_length_pos (by omega), ?_, by omega⟩
  intro hmem
  exact h (List.eq_of_mem_replicate hmem).symm

/-- A string of 254 ones is read back with an empty one behind it. -/
theorem framing_adds_empty :
    ¬ RoundTrips .reference Unit [List.replicate 254 1] ∧
    ∃ stream : Bytes,
      encodeAll .reference [] [List.replicate 254 1] =
        (.ok stream : Outcome (Error Unit) Bytes) ∧
      ∃ log, (decoder .reference Unit).framedRead [] [stream] = .ok (log, []) ∧
        log.map Prod.fst = [.ok (List.replicate 254 1), .ok []] := by
  have hfull := fullGroups_replicate (show (1 : UInt8) ≠ 0 by decide)
  constructor
  · rintro ⟨bodies, happends, -, -⟩
    cases happends with
    | cons hbody _ => exact (appendsFrame_iff .reference Unit _).mp ⟨_, hbody⟩ hfull
  · obtain ⟨stream, hencode, hread⟩ := framedRead_encoded .reference Unit [List.replicate 254 1]
    refine ⟨stream, hencode [], ?_⟩
    obtain ⟨log, hlog, hitems⟩ := hread [stream] (by simp)
    refine ⟨log, hlog, ?_⟩
    rw [hitems, List.flatMap_cons, itemsRead, if_pos hfull]
    rfl

end CobsCodec

end AntRelay.Codec
