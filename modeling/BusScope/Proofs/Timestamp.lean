import BusScope.Timestamp
import Mathlib

/-! Elapsed time beside the order of timestamps. As long as the nanoseconds stay within a second the
order is that of the moments themselves, counted in nanoseconds, and the elapsed time is the
distance to an earlier moment. A distance that does not fit 64 bits is taken for none at all. -/

namespace BusScope.Timestamp

def Proper (t : Timestamp) : Prop := t.nanoseconds.toNat < 10 ^ 9

def distance (t earlier : Timestamp) : Int := t.totalNanoseconds - earlier.totalNanoseconds

theorem isLE_compare_iff_lex (a b : Timestamp) :
    (compare a b).isLE = true ↔ a.seconds.toInt < b.seconds.toInt ∨
      a.seconds.toInt = b.seconds.toInt ∧ a.nanoseconds.toNat ≤ b.nanoseconds.toNat := by
  have hcompare : compare a b =
      (compare a.seconds b.seconds).then (compare a.nanoseconds b.nanoseconds) := rfl
  rw [hcompare, Ordering.isLE_then_iff_or, Std.compare_eq_lt, Std.compare_eq_iff_eq,
    Std.isLE_compare, Int64.lt_iff_toInt_lt, ← Int64.toInt_inj, UInt32.le_iff_toNat_le]

theorem isLE_compare_iff {a b : Timestamp} (ha : a.Proper) (hb : b.Proper) :
    (compare a b).isLE = true ↔ a.distance b ≤ 0 := by
  rw [isLE_compare_iff_lex]
  unfold Proper at ha hb
  unfold distance totalNanoseconds
  constructor
  · intro h
    rcases h with hlt | ⟨heq, hle⟩ <;> omega
  · intro h
    rcases lt_trichotomy a.seconds.toInt b.seconds.toInt with hlt | heq | hgt
    · exact .inl hlt
    · exact .inr ⟨heq, by omega⟩
    · omega

theorem compare_eq_gt_iff {a b : Timestamp} (ha : a.Proper) (hb : b.Proper) :
    compare a b = .gt ↔ 0 < a.distance b := by
  have hle := isLE_compare_iff ha hb
  rw [← not_le, ← hle]
  cases compare a b <;> simp

theorem since_eq (a b : Timestamp) :
    (a.since b : Int) = if 0 ≤ a.distance b ∧ a.distance b < 2 ^ 64 then a.distance b else 0 := by
  unfold since distance
  dsimp only
  split <;> split <;> omega

/-- The elapsed time is zero up to the other moment, and also when it does not fit 64 bits; else it
is the distance of the two, to the nanosecond. -/
theorem since_follows_order {a b : Timestamp} (ha : a.Proper) (hb : b.Proper) :
    (a.since b = 0 ↔ (compare a b).isLE = true ∨ 2 ^ 64 ≤ a.distance b) ∧
    (compare a b = .gt → a.distance b < 2 ^ 64 → (a.since b : Int) = a.distance b) := by
  have hsince := since_eq a b
  rw [isLE_compare_iff ha hb, compare_eq_gt_iff ha hb]
  constructor
  · split at hsince <;> omega
  · intro hlater hfits
    rw [hsince, if_pos ⟨hlater.le, hfits⟩]

theorem since_follows_order_across_epoch :
    let a : Timestamp := ⟨3, 42⟩
    let b : Timestamp := ⟨-1, 999999999⟩
    a.Proper ∧ b.Proper ∧ compare a b = .gt ∧ a.distance b = 3000000043 ∧
      (a.since b : Int) = 3000000043 := by
  intro a b
  have ha : a.Proper := by unfold Proper; decide
  have hb : b.Proper := by unfold Proper; decide
  have hlater : compare a b = .gt := by decide
  have hdistance : a.distance b = 3000000043 := by decide
  refine ⟨ha, hb, hlater, hdistance, ?_⟩
  rw [← hdistance]
  exact (since_follows_order ha hb).2 hlater (by rw [hdistance]; norm_num)

/-- The first moment so late that it does not count as later any more. -/
theorem no_time_since_epoch :
    let a : Timestamp := ⟨18446744073, 709551616⟩
    a.Proper ∧ zero.Proper ∧ compare a zero = .gt ∧ a.distance zero = 2 ^ 64 ∧ a.since zero = 0 ∧
      ¬ (a.since zero = 0 ↔ (compare a zero).isLE = true) := by
  unfold Proper
  decide

end BusScope.Timestamp
