import AntRelay.Base.Segments
import AntRelay.Codec.Cobs

namespace AntRelay.Codec
open AntRelay.Base
open AntRelay.Base.Cobs
open AntRelay.Base.Segments

namespace CobsCodec

variable {IoError : Type} {cobs : CobsCrate}

theorem terminated_behind {frame behind : Bytes} (h : Terminated (frame ++ 0 :: behind)) :
    Terminated behind := by
  intro byte hbyte
  apply h
  rw [List.getLast?_append_of_ne_nil _ (List.cons_ne_nil _ _), List.getLast?_cons, hbyte]
  rfl

theorem terminated_append {front back : Bytes} (hfront : Terminated front)
    (hback : Terminated back) : Terminated (front ++ back) := by
  intro byte hbyte
  by_cases hend : back = []
  · rw [hend, List.append_nil] at hbyte
    exact hfront byte hbyte
  · rw [List.getLast?_append_of_ne_nil _ hend] at hbyte
    exact hback byte hbyte

theorem yields_terminated (IoError : Type) (cobs : CobsCrate) {buf : Bytes} (h : Terminated buf) :
    ∃ items : List (Item IoError), (items = [] ↔ buf = []) ∧
      ∀ {behind last : Bytes} {more : List (Item IoError)},
        Yields (decode cobs) behind more last →
        Yields (decode cobs) (buf ++ behind) (items ++ more) last := by
  induction hlen : buf.length using Nat.strong_induction_on generalizing buf with
  | _ n ih =>
      by_cases hnil : buf = []
      · subst hnil
        exact ⟨[], by simp, id⟩
      · obtain ⟨frame, rest, rfl, hz⟩ :=
          List.eq_append_cons_of_mem (zero_mem_of_terminated h hnil)
        obtain ⟨residue, hresidue, hdecode⟩ := decode_frame IoError cobs hz
        have hlt : (residue ++ rest).length < n := by
          have hle := hresidue.length_le
          rw [List.length_append, List.length_cons] at hlen
          rw [List.length_append]
          omega
        obtain ⟨items, _, hitems⟩ :=
          ih _ hlt (terminated_append hresidue.terminated (terminated_behind h)) rfl
        refine ⟨frameItem frame :: items, by simp, ?_⟩
        intro behind last more hmore
        rw [List.append_assoc, List.cons_append]
        refine .item (hdecode _) ?_
        rw [← List.append_assoc]
        exact hitems hmore

/-- A frame gives its own item first, and no other one exactly when it survives. -/
theorem yields_frame (IoError : Type) (cobs : CobsCrate) {frame : Bytes}
    (hz : (0 : UInt8) ∉ frame) :
    ∃ group : List (Item IoError), Group frameItem Survives frame group ∧
      ∀ {behind last : Bytes} {more : List (Item IoError)},
        Yields (decode cobs) behind more last →
        Yields (decode cobs) (frame ++ 0 :: behind) (group ++ more) last := by
  obtain ⟨residue, hresidue, hdecode⟩ := decode_frame IoError cobs hz
  obtain ⟨items, hnil, hitems⟩ := yields_terminated IoError cobs hresidue.terminated
  refine ⟨frameItem frame :: items, ⟨items, rfl, hnil.trans hresidue.nil_iff⟩, ?_⟩
  intro behind last more hmore
  exact .item (hdecode behind) (hitems hmore)

theorem yields_tail {tail : Bytes} (hz : (0 : UInt8) ∉ tail) :
    Yields (decode cobs) tail ([] : List (Item IoError)) tail :=
  .stop (decode_of_zero_not_mem hz)

theorem yields_segments (IoError : Type) (cobs : CobsCrate) (buf : Bytes) :
    ∃ groups : List (List (Item IoError)),
      List.Forall₂ (Group frameItem Survives) (segments buf).1 groups ∧
      Yields (decode cobs) buf groups.flatten (segments buf).2 := by
  induction buf using segment_induction with
  | tail hz =>
      rw [segments_of_zero_not_mem hz]
      exact ⟨[], .nil, yields_tail hz⟩
  | segment hz ih =>
      obtain ⟨groups, hgroups, hyields⟩ := ih
      obtain ⟨group, hgroup, hmore⟩ := yields_frame IoError cobs hz
      rw [segments_cons hz]
      exact ⟨group :: groups, .cons hgroup hgroups, hmore hyields⟩

theorem Terminated.yieldsEof {buf last : Bytes} {items : List (Item IoError)}
    (hterm : Terminated buf) (h : Yields (decode cobs) buf items last) :
    Yields (decodeEof cobs) buf items last := by
  induction h with
  | stop hcall =>
      apply Yields.stop
      rw [decodeEof_eq, if_pos hterm]
      exact hcall
  | item hcall _ ih =>
      refine .item ?_ (ih ((decode_eq_some hcall).2.2 hterm))
      rw [decodeEof_eq, if_pos hterm]
      exact hcall

theorem decodeEof_tail {tail : Bytes} (hz : (0 : UInt8) ∉ tail) (hne : tail ≠ []) :
    decodeEof cobs tail = (decodeEof cobs (tail ++ [0]) : Outcome IoError _) := by
  rw [decodeEof_eq, decodeEof_eq, if_neg, if_pos]
  · simp [Terminated]
  · intro hterm
    exact hz (zero_mem_of_terminated hterm hne)

theorem yieldsEof_tail (IoError : Type) (cobs : CobsCrate) {tail : Bytes}
    (hz : (0 : UInt8) ∉ tail) : ∃ groups : List (List (Item IoError)),
      List.Forall₂ (Group frameItem Survives) (streamSegments tail) groups ∧
      Yields (decodeEof cobs) tail groups.flatten [] := by
  rw [streamSegments_tail hz]
  by_cases hnil : tail = []
  · subst hnil
    exact ⟨[], .nil, Terminated.yieldsEof (by simp [Terminated]) (yields_tail hz)⟩
  · obtain ⟨group, hgroup, hmore⟩ := yields_frame IoError cobs hz
    rw [if_neg hnil]
    refine ⟨[group], .cons hgroup .nil, Yields.of_call_eq ?_ (decodeEof_tail hz hnil)⟩
    apply Terminated.yieldsEof (by simp [Terminated])
    exact hmore (yields_tail (by simp))

theorem reads_segments (IoError : Type) (cobs : CobsCrate) {tail : Bytes}
    (hz : (0 : UInt8) ∉ tail) (chunks : List Bytes) : ∃ groups : List (List (Item IoError)),
      List.Forall₂ (Group frameItem Survives) (streamSegments (tail ++ chunks.flatten)) groups ∧
      (decoder cobs IoError).Reads tail chunks groups.flatten [] := by
  induction chunks generalizing tail with
  | nil =>
      obtain ⟨groups, hgroups, hyields⟩ := yieldsEof_tail IoError cobs hz
      rw [List.flatten_nil, List.append_nil]
      exact ⟨groups, hgroups, .ends hyields⟩
  | cons chunk chunks ih =>
      obtain ⟨first, hfirst, hyields⟩ := yields_segments IoError cobs (tail ++ chunk)
      obtain ⟨groups, hgroups, hreads⟩ := ih (segments_zero_not_mem (tail ++ chunk))
      rw [List.flatten_cons, ← List.append_assoc, streamSegments_append]
      refine ⟨first ++ groups, List.rel_append hfirst hgroups, ?_⟩
      rw [List.flatten_append]
      exact .chunk hyields hreads

theorem framedRead_segments (IoError : Type) (cobs : CobsCrate) (chunks : List Bytes) :
    ∃ (groups : List (List (Item IoError))) (log : List (Item IoError × Bytes)),
      List.Forall₂ (Group frameItem Survives) (streamSegments chunks.flatten) groups ∧
      (decoder cobs IoError).framedRead [] chunks = .ok (log, []) ∧
      log.map Prod.fst = groups.flatten := by
  obtain ⟨groups, hgroups, hreads⟩ :=
    reads_segments IoError cobs (show (0 : UInt8) ∉ [] by simp) chunks
  obtain ⟨log, hlog, hitems⟩ := hreads.framedRead
  exact ⟨groups, log, hgroups, hlog, hitems⟩

/-- The stream reads as one item for each segment, in order. -/
def ReadsFrameByFrame (cobs : CobsCrate) (IoError : Type) (chunks : List Bytes) : Prop :=
  ∃ log, (decoder cobs IoError).framedRead [] chunks = .ok (log, []) ∧
    log.map Prod.fst = (streamSegments chunks.flatten).map frameItem

end CobsCodec

end AntRelay.Codec
