import NeuroMesh.Common.Bytes

/-!
This module contains the lemmas about durations that are cast to a coarser unit. The cast rounds towards zero,
so that a duration reaches a positive bound in the coarser unit exactly when it does without the cast.
-/

namespace NeuroMesh

theorem le_tdiv_iff {w k d : Int} (hw : 0 < w) (hk : 0 < k) : w ≤ d.tdiv k ↔ w * k ≤ d := by
  rcases Int.le_total 0 d with hd | hd
  . rw [Int.tdiv_eq_ediv_of_nonneg hd]
    exact Int.le_ediv_iff_mul_le hk
  . obtain ⟨n, rfl⟩ : ∃ n, d = -n := ⟨-d, by omega⟩
    have hpos : 0 < w * k := Int.mul_pos hw hk
    have hnonneg : 0 ≤ n.tdiv k := Int.tdiv_nonneg (by omega) hk.le
    rw [Int.neg_tdiv]
    omega

theorem tdiv_le_neg_iff {w k d : Int} (hw : 0 < w) (hk : 0 < k) : d.tdiv k ≤ -w ↔ d ≤ -(w * k) := by
  have hneg := le_tdiv_iff (d := -d) hw hk
  rw [Int.neg_tdiv] at hneg
  omega

theorem le_seconds_iff {w d : Int} (hw : 0 < w) : w ≤ seconds d ↔ w * 1000000000 ≤ d := by
  apply le_tdiv_iff hw
  decide

theorem le_milliseconds_iff {w d : Int} (hw : 0 < w) : w ≤ milliseconds d ↔ w * 1000000 ≤ d := by
  apply le_tdiv_iff hw
  decide

end NeuroMesh
