import AntRelay.Base.CobsInPlace

namespace AntRelay.Base.Cobs

theorem frame_induction {motive : Bytes → Prop} (nil : motive [])
    (zero : ∀ {tail}, motive (0 :: tail))
    (overrun : ∀ {code tail}, tail.length + 1 < UInt8.toNat code → motive (code :: tail))
    (group : ∀ {code data rest}, code ≠ 0 → data.length = UInt8.toNat code - 1 →
      motive rest → motive (code :: (data ++ rest))) (frame : Bytes) : motive frame := by
  induction hlen : frame.length using Nat.strong_induction_on generalizing frame with
  | _ n ih =>
      cases frame with
      | nil => exact nil
      | cons code tail =>
          by_cases hzero : code = 0
          · subst hzero
            exact zero
          · by_cases hlong : tail.length + 1 < code.toNat
            · exact overrun hlong
            · rw [← List.take_append_drop (code.toNat - 1) tail]
              refine group hzero ?_ (ih _ ?_ _ rfl)
              · rw [List.length_take]
                omega
              · rw [← hlen, List.length_drop, List.length_cons]
                omega

theorem zero_not_mem_group {code : UInt8} {data rest : Bytes}
    (hz : (0 : UInt8) ∉ code :: (data ++ rest)) : (0 : UInt8) ∉ data ∧ (0 : UInt8) ∉ rest := by
  rw [List.mem_cons, List.mem_append, not_or, not_or] at hz
  exact hz.2

theorem unstuff_overrun {code : UInt8} {tail : Bytes} (h : tail.length + 1 < code.toNat) :
    unstuff (code :: tail) = none := by
  rw [unstuff, unstuffFrom]
  split
  · rfl
  · rw [unstuffFrom_of_length_lt (by omega)]
    rfl

theorem unstuff_group_append {code : UInt8} (hcode : code ≠ 0) {data : Bytes}
    (h : data.length = code.toNat - 1) (rest : Bytes) :
    unstuff (code :: (data ++ rest)) =
      (unstuff rest).map ((data ++ separator code rest) ++ ·) := by
  rw [unstuff_group hcode h, separator]
  by_cases hend : rest = []
  · subst hend
    simp [unstuffFrom]
  · rw [unstuffFrom_pending hend, Option.map_map]
    congr 1
    funext more
    by_cases hfull : code = 0xff <;> simp [hend, hfull]

theorem separator_length_le (code : UInt8) (rest : Bytes) : (separator code rest).length ≤ 1 := by
  unfold separator
  split <;> simp

theorem overwrites_wellFormed {frame data : Bytes} (hz : (0 : UInt8) ∉ frame)
    (h : unstuff frame = some data) :
    data.length ≤ frame.length ∧ Overwrites frame data false := by
  induction frame using frame_induction generalizing data with
  | nil =>
      cases h
      exact ⟨Nat.le_refl _, Overwrites.nil⟩
  | zero => simp at hz
  | overrun hlong => simp [unstuff_overrun hlong] at h
  | group hcode hlen ih =>
      rename_i code block rest
      rw [unstuff_group_append hcode hlen, Option.map_eq_some_iff] at h
      obtain ⟨more, hmore, rfl⟩ := h
      obtain ⟨hle, hrest⟩ := ih (zero_not_mem_group hz).2 hmore
      refine ⟨?_, Overwrites.group hcode hlen hrest⟩
      have hsep := separator_length_le code rest
      simp only [List.length_append, List.length_cons]
      omega

/-- All groups before the one that runs past the end of the frame are full ones,
so no zero has been written when that one fails. -/
inductive FailsCleanly : Bytes → Prop where
  | overrun {code : UInt8} {tail : Bytes} :
      tail.length + 1 < code.toNat → FailsCleanly (code :: tail)
  | full {data rest : Bytes} : data.length = 254 →
      FailsCleanly rest → FailsCleanly (0xff :: (data ++ rest))

theorem failsCleanly_group {code : UInt8} {data rest : Bytes}
    (h : data.length = code.toNat - 1) (hcode : code ≠ 0) :
    FailsCleanly (code :: (data ++ rest)) ↔ code = 0xff ∧ FailsCleanly rest := by
  have hpos := toNat_pos hcode
  constructor
  · intro hclean
    generalize hframe : code :: (data ++ rest) = frame at hclean
    cases hclean with
    | overrun hlong =>
        cases hframe
        rw [List.length_append] at hlong
        omega
    | full hlen hrest =>
        obtain ⟨rfl, hcat⟩ := List.cons.inj hframe
        obtain ⟨_, rfl⟩ := List.append_inj hcat (h.trans hlen.symm)
        exact ⟨rfl, hrest⟩
  · rintro ⟨rfl, hclean⟩
    exact .full h hclean

/-- The loop fails at a malformed frame, and has written a zero by then unless
that fails cleanly. -/
theorem overwrites_malformed {frame : Bytes} (hz : (0 : UInt8) ∉ frame)
    (h : unstuff frame = none) : ∃ written : Bytes, written.length ≤ frame.length ∧
      ((0 : UInt8) ∉ written ↔ FailsCleanly frame) ∧ Overwrites frame written true := by
  induction frame using frame_induction with
  | nil => simp at h
  | zero => simp at hz
  | overrun hlong =>
      exact ⟨[], Nat.zero_le _, iff_of_true (by simp) (.overrun hlong), Overwrites.overrun hlong⟩
  | group hcode hlen ih =>
      rename_i code data rest
      obtain ⟨hdata, hzrest⟩ := zero_not_mem_group hz
      rw [unstuff_group_append hcode hlen, Option.map_eq_none_iff] at h
      obtain ⟨written, hle, hclean, hrest⟩ := ih hzrest h
      have hend : rest ≠ [] := by
        rintro rfl
        simp at h
      refine ⟨data ++ separator code rest ++ written, ?_, ?_, Overwrites.group hcode hlen hrest⟩
      · have hsep := separator_length_le code rest
        simp only [List.length_append, List.length_cons]
        omega
      · rw [failsCleanly_group hlen hcode, ← hclean, separator]
        by_cases hfull : code = 0xff <;> simp [hfull, hend, hdata]

theorem exists_overwrites {frame : Bytes} (hz : (0 : UInt8) ∉ frame) :
    ∃ (written : Bytes) (fails : Bool), written.length ≤ frame.length ∧
      Overwrites frame written fails := by
  cases h : unstuff frame with
  | some data => exact ⟨data, false, overwrites_wellFormed hz h⟩
  | none =>
      obtain ⟨written, hlen, _, hover⟩ := overwrites_malformed hz h
      exact ⟨written, true, hlen, hover⟩

end AntRelay.Base.Cobs
