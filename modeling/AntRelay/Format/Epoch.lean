import AntRelay.Format.Header

namespace AntRelay.Format

/-! The 4 bytes of a timestamp count milliseconds since `EPOCH`. The conversion
takes the remainder by the greatest timestamp, not by the number of timestamps,
so a timestamp's cycle is one millisecond short. -/

structure DateTime where
  nanos : Int
  deriving DecidableEq, Repr

structure Duration where
  nanos : Int
  deriving DecidableEq, Repr

def Duration.milliseconds (count : Int) : Duration :=
  ⟨count * 1000000⟩

/-- Whole milliseconds, towards zero. -/
def Duration.numMilliseconds (span : Duration) : Int :=
  span.nanos.tdiv 1000000

namespace DateTime

/-- 2022-06-01, midnight UTC. -/
def epoch : DateTime :=
  ⟨1654041600 * 1000000000⟩

def add (dt : DateTime) (span : Duration) : DateTime :=
  ⟨dt.nanos + span.nanos⟩

def sub (dt other : DateTime) : Duration :=
  ⟨dt.nanos - other.nanos⟩

def afterEpoch (millis : Nat) : DateTime :=
  epoch.add (.milliseconds millis)

end DateTime

namespace MissionEpoch

def toDateTime (epoch : MissionEpoch) : DateTime :=
  DateTime.epoch.add (.milliseconds epoch.val.toNat)

def ofDateTime (dt : DateTime) : MissionEpoch :=
  ofMillis (dt.sub DateTime.epoch).numMilliseconds

theorem toDateTime_eq (epoch : MissionEpoch) :
    epoch.toDateTime = DateTime.afterEpoch epoch.val.toNat := rfl

theorem ofDateTime_afterEpoch (millis : Nat) :
    ofDateTime (.afterEpoch millis) = ofMillis millis := by
  have hspan : ((DateTime.afterEpoch millis).sub DateTime.epoch).numMilliseconds = millis := by
    have hsub : (DateTime.afterEpoch millis).sub DateTime.epoch = .milliseconds millis := by
      unfold DateTime.sub DateTime.afterEpoch DateTime.add
      congr 1
      rw [Int.add_comm]
      exact Int.add_sub_cancel _ _
    rw [hsub]
    exact Int.mul_tdiv_cancel _ (show (1000000 : Int) ≠ 0 by decide)
  rw [ofDateTime, hspan]

theorem ofDateTime_val (millis : Nat) :
    (ofDateTime (.afterEpoch millis)).val.toNat = millis % 4294967295 := by
  rw [ofDateTime_afterEpoch, ofMillis]
  have hcast : (millis : Int).tmod 4294967295 = ((millis % 4294967295 : Nat) : Int) := by
    rw [Int.tmod_eq_emod_of_nonneg (Int.natCast_nonneg _)]
    rfl
  have hlt : millis % 4294967295 < 4294967296 := by omega
  have hkeep : (((millis % 4294967295 : Nat) : Int) % 2 ^ 32).toNat = millis % 4294967295 := by
    omega
  rw [hcast, UInt32.ofInt, hkeep]
  exact Nat.mod_eq_of_lt hlt

theorem round_trip_iff (epoch : MissionEpoch) :
    ofDateTime epoch.toDateTime = epoch ↔ epoch.val ≠ 4294967295 := by
  obtain ⟨val⟩ := epoch
  have hlt : val.toNat < 4294967296 := val.toNat_lt
  rw [toDateTime_eq, MissionEpoch.mk.injEq, ← UInt32.toNat_inj, ofDateTime_val, ne_eq,
    ← UInt32.toNat_inj, show UInt32.toNat 4294967295 = 4294967295 from rfl]
  dsimp only
  omega

theorem afterEpoch_iff (millis : Nat) :
    (ofDateTime (.afterEpoch millis)).val.toNat = millis % 4294967296 ↔
      4294967295 ∣ millis / 4294967296 ∧ millis % 4294967296 ≠ 4294967295 := by
  rw [ofDateTime_val]
  omega

theorem consecutive_iff (millis : Nat) :
    (ofDateTime (.afterEpoch (millis + 1))).val = (ofDateTime (.afterEpoch millis)).val + 1 ↔
      ¬ 4294967295 ∣ millis + 1 := by
  rw [← UInt32.toNat_inj, UInt32.toNat_add, ofDateTime_val, ofDateTime_val, UInt32.toNat_one]
  omega

/-- A timestamp comes back from its instant exactly when it is not the greatest
one.  A millisecond's timestamp is its count modulo 2 ^ 32 exactly in every
(2 ^ 32 - 1)-th cycle of 2 ^ 32, but for the cycle's last millisecond.  The next
millisecond has the next timestamp unless 2 ^ 32 - 1 divides its count. -/
theorem timestamps_wrap_iff (epoch : MissionEpoch) (millis : Nat) :
    (ofDateTime epoch.toDateTime = epoch ↔ epoch.val ≠ 4294967295) ∧
    ((ofDateTime (.afterEpoch millis)).val.toNat = millis % 4294967296 ↔
      4294967295 ∣ millis / 4294967296 ∧ millis % 4294967296 ≠ 4294967295) ∧
    ((ofDateTime (.afterEpoch (millis + 1))).val =
        (ofDateTime (.afterEpoch millis)).val + 1 ↔ ¬ 4294967295 ∣ millis + 1) :=
  ⟨round_trip_iff epoch, afterEpoch_iff millis, consecutive_iff millis⟩

/-- The last timestamp comes back as the first one, and the millisecond it stands
for is given the first one again. -/
theorem last_timestamp_lost :
    ofDateTime (toDateTime ⟨4294967295⟩) = ⟨0⟩ ∧
      (ofDateTime (.afterEpoch 4294967295)).val.toNat ≠ 4294967295 % 4294967296 ∧
      (ofDateTime (.afterEpoch 4294967295)).val ≠
        (ofDateTime (.afterEpoch 4294967294)).val + 1 := by
  decide

end MissionEpoch

end AntRelay.Format
