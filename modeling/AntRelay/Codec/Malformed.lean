import AntRelay.Codec.Frames

namespace AntRelay.Codec
open AntRelay.Base
open AntRelay.Base.Cobs
open AntRelay.Base.Segments

namespace CobsCodec

/-- Malformed segments cost only themselves exactly when in each of them all groups
before the one that runs past its end are full. -/
theorem malformed_cost_only_themselves_iff (cobs : CobsCrate) (IoError : Type)
    (chunks : List Bytes) :
    ReadsFrameByFrame cobs IoError chunks ↔
      ∀ segment ∈ streamSegments chunks.flatten, unstuff segment = none →
        FailsCleanly segment := by
  obtain ⟨groups, log, hgroups, hlog, hitems⟩ := framedRead_segments IoError cobs chunks
  change _ ↔ ∀ segment ∈ streamSegments chunks.flatten, Survives segment
  rw [← flatten_eq_map_iff hgroups]
  constructor
  · rintro ⟨other, hother, heq⟩
    rw [hlog] at hother
    cases hother
    rw [← hitems, heq]
  · intro heq
    exact ⟨log, hlog, hitems.trans heq⟩

/-- The zero written for the first group is taken for the terminator, so that one
segment gives two errors. -/
theorem malformed_read_twice :
    (∃ log, (decoder .reference Unit).framedRead [] [[1, 3, 0]] = .ok (log, []) ∧
      log.map Prod.fst = [.error .cobsProtocol, .error .cobsProtocol]) ∧
    streamSegments ([[1, 3, 0]] : List Bytes).flatten = [[1, 3]] ∧
    ¬ ReadsFrameByFrame .reference Unit [[1, 3, 0]] := by
  refine ⟨⟨_, rfl, rfl⟩, rfl, ?_⟩
  rintro ⟨log, hread, hitems⟩
  have hlength := congrArg List.length hitems
  cases hread
  cases hlength

end CobsCodec

end AntRelay.Codec
