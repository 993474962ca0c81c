import AntRelay.Codec.Cobs

namespace AntRelay.Codec
open AntRelay.Base
open AntRelay.Base.Cobs

namespace CobsCodec

variable {cobs : CobsCrate} {IoError : Type}

def overwritten (cobs : CobsCrate) (src : Bytes) : Bytes :=
  (cobs.decodeInPlaceReport src).2

/-- The arguments of `advance`, of the slice, of `split_to` and of `truncate`
lie within what they are applied to. -/
def InRange (cobs : CobsCrate) (src : Bytes) : Prop :=
  match cobs.decodeInPlaceReport src with
  | (none, buf) => ∀ pos, buf.findIdx? (· == 0) = some pos → pos + 1 ≤ buf.length
  | (some report, buf) =>
      let nextZero := if (buf.drop report.srcUsed).head? = some 0 then 1 else 0
      report.srcUsed ≤ buf.length ∧ report.srcUsed + nextZero ≤ buf.length ∧
        report.dstUsed ≤ (buf.take (report.srcUsed + nextZero)).length

/-- `decode_eof` appends a zero to the buffer. -/
def appendsZero (buf : Bytes) : Bool :=
  !buf.isEmpty && buf.getLast? != some 0

theorem decodeInPlaceReport_cases (cobs : CobsCrate) (src : Bytes) :
    ∃ (frame rest written : Bytes) (fails : Bool), src = frame ++ rest ∧
      written.length ≤ frame.length ∧
      cobs.decodeInPlaceReport src =
        (if fails then none else some ⟨written.length, frame.length⟩,
          overlay written frame ++ rest) := by
  have hsplit : ∃ frame rest, src = frame ++ rest ∧ (0 : UInt8) ∉ frame ∧
      (frame ++ rest).findIdx (· == 0) = frame.length := by
    by_cases hmem : (0 : UInt8) ∈ src
    · obtain ⟨frame, behind, rfl, hz⟩ := List.eq_append_cons_of_mem hmem
      exact ⟨frame, 0 :: behind, rfl, hz, findIdx_zero_append hz behind⟩
    · refine ⟨src, [], by simp, hmem, ?_⟩
      rw [List.append_nil, List.findIdx_eq_length]
      intro byte hbyte
      rw [beq_eq_false_iff_ne]
      rintro rfl
      exact hmem hbyte
  obtain ⟨frame, rest, rfl, hz, hlast⟩ := hsplit
  obtain ⟨written, fails, hlen, hover⟩ := exists_overwrites hz
  rw [cobs.decode_inPlace]
  exact ⟨frame, rest, written, fails, rfl, hlen, hover.decodeInPlaceReport_eq hlen hlast⟩

theorem overwritten_length (cobs : CobsCrate) (src : Bytes) :
    (overwritten cobs src).length = src.length := by
  obtain ⟨frame, rest, written, fails, rfl, hlen, hreport⟩ := decodeInPlaceReport_cases cobs src
  rw [overwritten, hreport, List.length_append, List.length_append, overlay_length hlen]

theorem decode_takes_front {src : Bytes} (h : (0 : UInt8) ∈ src) :
    ∃ (item : Item IoError) (count : Nat), 1 ≤ count ∧ count ≤ src.length ∧
      decode cobs src = .ok (some item, (overwritten cobs src).drop count) := by
  have hlen := overwritten_length cobs src
  obtain ⟨frame, behind, rfl, hz⟩ := List.eq_append_cons_of_mem h
  cases hframe : unstuff frame with
  | some data =>
      obtain ⟨hle, hover⟩ := overwrites_wellFormed hz hframe
      refine ⟨.ok data, frame.length + 1, by omega, by simp, ?_⟩
      rw [decode_wellFormed IoError cobs hz hframe, overwritten,
        decodeInPlaceReport_frame cobs hz hover hle, ← overlay_length hle,
        List.drop_length_add_append]
      rfl
  | none =>
      obtain ⟨written, hle, _, hover⟩ := overwrites_malformed hz hframe
      have hbuf : overwritten cobs (frame ++ 0 :: behind) =
          overlay written frame ++ 0 :: behind := by
        rw [overwritten, decodeInPlaceReport_frame cobs hz hover hle]
      obtain ⟨before, after, hcat, hzero⟩ :=
        List.eq_append_cons_of_mem (show (0 : UInt8) ∈ overlay written frame ++ 0 :: behind by simp)
      rw [hbuf, hcat, List.length_append, List.length_cons] at hlen
      refine ⟨.error .cobsProtocol, before.length + 1, by omega, by omega, ?_⟩
      rw [decode_malformed IoError cobs hz hover hle, hbuf, hcat, afterZero_append hzero,
        List.drop_length_add_append]
      rfl

theorem inRange (cobs : CobsCrate) (src : Bytes) : InRange cobs src := by
  obtain ⟨frame, rest, written, fails, rfl, hlen, hreport⟩ := decodeInPlaceReport_cases cobs src
  unfold InRange
  rw [hreport]
  cases fails with
  | true =>
      intro pos hpos
      exact (List.findIdx?_eq_some_iff_findIdx_eq.mp hpos).1
  | false =>
      have hread := overlay_length hlen
      simp only [Bool.false_eq_true, ↓reduceIte, ← hread, List.drop_left]
      rw [List.length_take, List.length_append]
      cases rest with
      | nil => simp [hread, hlen]
      | cons byte rest =>
          rw [List.length_cons]
          split <;> omega

theorem appendsZero_eq_false {buf : Bytes} (h : Terminated buf) : appendsZero buf = false := by
  unfold appendsZero
  cases hlast : buf.getLast? with
  | none =>
      rw [List.getLast?_eq_none_iff] at hlast
      simp [hlast]
  | some byte => simp [h byte hlast]

/-- The bytes that items can still be taken from. -/
def budget (buf : Bytes) : Nat :=
  buf.length + if Terminated buf then 0 else 1

theorem budget_le (buf : Bytes) : budget buf ≤ buf.length + 1 := by
  unfold budget
  split <;> omega

theorem decodeEof_eq_none {buf left : Bytes}
    (h : (decodeEof cobs buf : Outcome IoError _) = .ok (none, left)) : buf = [] ∧ left = [] := by
  rw [decodeEof_eq] at h
  split at h
  · rename_i hterm
    by_cases hzero : (0 : UInt8) ∈ buf
    · obtain ⟨item, left', hdecode⟩ := decode_of_zero_mem IoError cobs hzero
      rw [hdecode] at h
      cases h
    · rw [decode_of_zero_not_mem hzero] at h
      cases h
      have hnil : buf = [] := by
        by_contra hne
        exact hzero (zero_mem_of_terminated hterm hne)
      exact ⟨hnil, hnil⟩
  · obtain ⟨item, left', hdecode⟩ :=
      decode_of_zero_mem IoError cobs (show (0 : UInt8) ∈ buf ++ [0] by simp)
    rw [hdecode] at h
    cases h

theorem decodeEof_eq_some {buf left : Bytes} {item : Item IoError}
    (h : decodeEof cobs buf = .ok (some item, left)) :
    Terminated left ∧ budget left < budget buf := by
  rw [decodeEof_eq] at h
  split at h
  · rename_i hterm
    obtain ⟨_, hlt, hleft⟩ := decode_eq_some h
    refine ⟨hleft hterm, ?_⟩
    rw [budget, budget, if_pos (hleft hterm), if_pos hterm]
    exact hlt
  · rename_i hterm
    obtain ⟨_, hlt, hleft⟩ := decode_eq_some h
    have hgrown := hleft (show Terminated (buf ++ [0]) by simp [Terminated])
    have hsize : (buf ++ [0]).length = buf.length + 1 := by simp
    refine ⟨hgrown, ?_⟩
    rw [budget, budget, if_pos hgrown, if_neg hterm, ← hsize]
    exact hlt

theorem decodeEof_total (cobs : CobsCrate) (IoError : Type) (buf : Bytes) :
    ∃ result left, (decodeEof cobs buf : Outcome IoError _) = .ok (result, left) := by
  rw [decodeEof_eq]
  generalize (if Terminated buf then buf else buf ++ [0]) = src
  by_cases h : (0 : UInt8) ∈ src
  · obtain ⟨item, left, hdecode⟩ := decode_of_zero_mem IoError cobs h
    exact ⟨_, _, hdecode⟩
  · exact ⟨_, _, decode_of_zero_not_mem h⟩

theorem drain_decodeEof (cobs : CobsCrate) (IoError : Type) (buf : Bytes) :
    ∃ items : List (Item IoError × Bytes), drain (decodeEof cobs) remaining buf = .ok (items, []) ∧
      items.length ≤ budget buf ∧ ∀ entry ∈ items, Terminated entry.2 := by
  induction hbudget : budget buf using Nat.strong_induction_on generalizing buf with
  | _ size ih =>
      subst hbudget
      obtain ⟨result, left, hcall⟩ := decodeEof_total cobs IoError buf
      rw [drain_eq decodeEof_remaining_lt, hcall]
      cases result with
      | none =>
          obtain ⟨rfl, rfl⟩ := decodeEof_eq_none hcall
          exact ⟨[], rfl, Nat.zero_le _, by simp⟩
      | some item =>
          obtain ⟨hleft, hlt⟩ := decodeEof_eq_some hcall
          obtain ⟨items, hdrain, hlen, hterm⟩ := ih _ hlt left rfl
          refine ⟨(item, left) :: items, ?_, ?_, ?_⟩
          · rw [Outcome.ok_bind]
            simp only [hdrain, Outcome.ok_bind]
          · rw [List.length_cons]
            omega
          · rw [List.forall_mem_cons]
            exact ⟨hleft, hterm⟩

/-- `decode` yields nothing exactly when there is no zero, and otherwise takes at
least a byte off the front, with every argument in range.  At the end of the
stream at most one of the calls appends a zero, and the drain of `n` bytes ends
after `n + 1` items at most, with an empty buffer. -/
theorem decode_progress (cobs : CobsCrate) (IoError : Type) (buf : Bytes) :
    ((0 : UInt8) ∉ buf → decode cobs buf = (.ok (none, buf) : Outcome IoError _)) ∧
    ((0 : UInt8) ∈ buf → ∃ (item : Item IoError) (count : Nat), 1 ≤ count ∧ count ≤ buf.length ∧
      decode cobs buf = .ok (some item, (overwritten cobs buf).drop count)) ∧
    (overwritten cobs buf).length = buf.length ∧ InRange cobs buf ∧
    ∃ items : List (Item IoError × Bytes), drain (decodeEof cobs) remaining buf = .ok (items, []) ∧
      items.length ≤ buf.length + 1 ∧ (buf :: items.map (·.2)).countP appendsZero ≤ 1 := by
  refine ⟨decode_of_zero_not_mem, decode_takes_front, overwritten_length cobs buf,
    inRange cobs buf, ?_⟩
  obtain ⟨items, hdrain, hlen, hterm⟩ := drain_decodeEof cobs IoError buf
  refine ⟨items, hdrain, hlen.trans (budget_le buf), ?_⟩
  have hzero : (items.map (·.2)).countP appendsZero = 0 := by
    rw [List.countP_eq_zero]
    intro left hmem
    obtain ⟨entry, hentry, rfl⟩ := List.mem_map.mp hmem
    rw [appendsZero_eq_false (hterm entry hentry)]
    exact Bool.false_ne_true
  rw [List.countP_cons, hzero]
  split <;> omega

end CobsCodec

end AntRelay.Codec
