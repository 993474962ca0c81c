import AntRelay.Base.Channel
import AntRelay.Codec.RoundTrip

namespace AntRelay.Codec
open AntRelay.Base
open AntRelay.Base.Cobs

namespace CobsCodec

variable (cobs : CobsCrate) (IoError : Type)

def frame (item : Bytes) : Bytes :=
  match (encode cobs item [] : Outcome (Error IoError) Bytes) with
  | .ok bytes => bytes
  | .error _ => []
  | .panicked => []

theorem frame_eq (item : Bytes) : ∃ framed, Framed item framed ∧
    frame cobs IoError item = (framed.map (· ++ [0])).flatten ∧
    ∀ dst, encode cobs item dst =
      (.ok (dst ++ (framed.map (· ++ [0])).flatten) : Outcome (Error IoError) Bytes) := by
  obtain ⟨framed, hframed, hencode⟩ := encode_appends cobs IoError item
  refine ⟨framed, hframed, ?_, hencode⟩
  rw [frame, hencode, List.nil_append]

theorem encode_eq (item dst : Bytes) : encode cobs item dst =
    (.ok (dst ++ frame cobs IoError item) : Outcome (Error IoError) Bytes) := by
  obtain ⟨framed, _, hframe, hencode⟩ := frame_eq cobs IoError item
  rw [hframe, hencode]

variable {cobs IoError}

theorem frame_of_fits {item : Bytes} (h : ¬ FullGroups item) : ∃ body : Bytes,
    frame cobs IoError item = body ++ [0] ∧ (0 : UInt8) ∉ body ∧ unstuff body = some item := by
  obtain ⟨framed, ⟨body, hzero, hunstuff, rfl⟩, hframe, _⟩ := frame_eq cobs IoError item
  refine ⟨body, ?_, hzero, hunstuff⟩
  rw [hframe, if_neg h, flatten_singleton_zero]

theorem decode_of_part {body part : Bytes} (hz : (0 : UInt8) ∉ body) (h : part <+: body ++ [0])
    (hne : part ≠ body ++ [0]) :
    decode cobs part = (.ok (none, part) : Outcome IoError _) := by
  apply decode_of_zero_not_mem
  intro hmem
  cases List.prefix_concat_iff.mp h with
  | inl hwhole => exact hne hwhole
  | inr hbody => exact hz (hbody.subset hmem)

variable (cobs IoError)

def format : FrameFormat UInt8 Bytes (Outcome IoError (Option (Item IoError) × Bytes)) where
  frame := frame cobs IoError
  fits := fun item => ¬ FullGroups item
  decode := decode cobs
  nothing := fun buf => .ok (none, buf)
  item := fun pkt left => .ok (some (.ok pkt), left)
  decode_nil := decode_of_zero_not_mem (by simp)
  decode_frame := by
    intro item hfits behind
    obtain ⟨body, hframe, hzero, hunstuff⟩ := frame_of_fits hfits
    rw [hframe, List.append_assoc, List.singleton_append]
    exact decode_wellFormed IoError cobs hzero hunstuff behind
  decode_part := by
    intro item hfits part hpart hne
    obtain ⟨body, hframe, hzero, hunstuff⟩ := frame_of_fits hfits
    rw [hframe] at hpart hne
    exact decode_of_part hzero hpart hne
  item_ne_nothing := by
    intro item left buf h
    cases h

/-- A zero-free body and the packet that it stands for. -/
structure Frame where
  body : Bytes
  packet : Bytes
  zero_not_mem : (0 : UInt8) ∉ body
  unstuff_body : unstuff body = some packet

def Frame.bytes (self : Frame) : Bytes :=
  self.body ++ [0]

def frames : FrameFormat UInt8 Frame (Outcome IoError (Option (Item IoError) × Bytes)) where
  frame := Frame.bytes
  fits := fun _ => True
  decode := decode cobs
  nothing := fun buf => .ok (none, buf)
  item := fun self left => .ok (some (.ok self.packet), left)
  decode_nil := decode_of_zero_not_mem (by simp)
  decode_frame := by
    intro self _ behind
    rw [Frame.bytes, List.append_assoc, List.singleton_append]
    exact decode_wellFormed IoError cobs self.zero_not_mem self.unstuff_body behind
  decode_part := by
    intro self _ part hpart hne
    exact decode_of_part self.zero_not_mem hpart hne
  item_ne_nothing := by
    intro self left buf h
    cases h

variable {cobs : CobsCrate} {IoError : Type} {items : List Bytes}

theorem zero_not_mem_of_nothing {buf : Bytes}
    (h : decode cobs buf = (.ok (none, buf) : Outcome IoError _)) : (0 : UInt8) ∉ buf := by
  intro hmem
  obtain ⟨item, left, hdecode⟩ := decode_of_zero_mem IoError cobs hmem
  rw [hdecode] at h
  cases h

theorem drain_tail {tail : Bytes} (hz : (0 : UInt8) ∉ tail) :
    drain (decode cobs) remaining tail =
      (.ok ([], tail) : Outcome IoError (List (Item IoError × Bytes) × Bytes)) := by
  rw [drain_eq decode_remaining_lt, decode_of_zero_not_mem hz]
  rfl

theorem drain_carries {c : Channel UInt8} (h : c.Carries (format cobs IoError) items) :
    ∃ log left taken rest, drain (decode cobs) remaining c.buffer =
        (.ok (log, left) : Outcome IoError (List (Item IoError × Bytes) × Bytes)) ∧
      items = taken ++ rest ∧ log.map Prod.fst = taken.map .ok ∧
      Channel.Carries (format cobs IoError) { c with buffer := left } rest ∧
      (0 : UInt8) ∉ left := by
  induction items generalizing c with
  | nil =>
      have hbuffer : c.buffer = [] := (List.append_eq_nil_iff.mp h.bytes).1
      refine ⟨[], [], [], [], ?_, rfl, rfl, ?_, by simp⟩
      · rw [hbuffer, drain_tail (by simp)]
      · rw [← hbuffer]
        exact h
  | cons a items ih =>
      rcases h.decode with hnothing | ⟨b, rest, left, hitems, hitem, hcarries⟩
      · have hzero := zero_not_mem_of_nothing hnothing
        exact ⟨[], c.buffer, [], a :: items, drain_tail hzero, rfl, rfl, h, hzero⟩
      · cases hitems
        obtain ⟨log, last, taken, rest, hdrain, rfl, hlog, hrest, hzero⟩ := ih hcarries
        refine ⟨(.ok a, left) :: log, last, a :: taken, rest, ?_, rfl, ?_, hrest, hzero⟩
        · have hcall : decode cobs c.buffer =
              (.ok (some (.ok a), left) : Outcome IoError _) := hitem
          rw [drain_eq decode_remaining_lt, hcall, Outcome.ok_bind]
          simp only [hdrain, Outcome.ok_bind]
        · rw [List.map_cons, List.map_cons, hlog]

/-- However what has been written is cut, the framed reader gets the first items
and keeps a part of the next one. -/
theorem readChunks_carries {unsent buffer : Bytes} {chunks : List Bytes}
    (h : Channel.Carries (format cobs IoError) ⟨unsent, chunks.flatten, buffer⟩ items)
    (hbuffer : (0 : UInt8) ∉ buffer) :
    ∃ log left taken rest, (decoder cobs IoError).readChunks buffer chunks = .ok (log, left) ∧
      items = taken ++ rest ∧ log.map Prod.fst = taken.map .ok ∧
      Channel.Carries (format cobs IoError) ⟨unsent, [], left⟩ rest ∧ (0 : UInt8) ∉ left := by
  induction chunks generalizing buffer items with
  | nil => exact ⟨[], buffer, [], items, rfl, rfl, rfl, h, hbuffer⟩
  | cons chunk chunks ih =>
      have hmoved : Channel.Carries (format cobs IoError)
          ⟨unsent, chunks.flatten, buffer ++ chunk⟩ items := by
        refine ⟨h.fits, ?_⟩
        rw [← h.bytes, List.flatten_cons]
        simp only [List.append_assoc]
      obtain ⟨first, left, taken, rest, hdrain, rfl, hfirst, hrest, hzero⟩ := drain_carries hmoved
      obtain ⟨log, last, more, behind, hread, rfl, hlog, hbehind, hlast⟩ := ih hrest hzero
      have hcall : drain (decoder cobs IoError).decode (decoder cobs IoError).measure
          ((decoder cobs IoError).append buffer chunk) = .ok (first, left) := hdrain
      refine ⟨first ++ log, last, taken ++ more, behind, ?_, ?_, ?_, hbehind, hlast⟩
      · simp only [Decoder.readChunks, hcall, hread, Outcome.ok_bind]
        rfl
      · rw [List.append_assoc]
      · rw [List.map_append, List.map_append, hfirst, hlog]

end CobsCodec

end AntRelay.Codec
