import Mathlib

/-!
This module contains the counting arguments behind quorum systems: how much two large subsets of a
finite set have to overlap, and how many of the members of a large subset are outside of a small one.
-/

namespace Quorum

variable {α : Type} [DecidableEq α]

theorem card_add_card_le_card_inter_add {U A B : Finset α} (hA : A ⊆ U) (hB : B ⊆ U)
    : A.card + B.card ≤ (A ∩ B).card + U.card := by
  have hunion : (A ∪ B).card ≤ U.card := by
    apply Finset.card_le_card
    apply Finset.union_subset hA hB
  have := Finset.card_union_add_card_inter A B
  omega

theorem exists_card_inter_le {U : Finset α} {k : Nat} (hk : k ≤ U.card)
    : ∃ A B, A ⊆ U ∧ B ⊆ U ∧ A.card = k ∧ B.card = k ∧ (A ∩ B).card ≤ 2 * k - U.card := by
  obtain ⟨A, hA, hAcard⟩ := Finset.exists_subset_card_eq hk
  have hrest : (U \ A).card = U.card - k := by
    rw [Finset.card_sdiff_of_subset hA, hAcard]
  cases Nat.le_total k (U.card - k) with
  | inl hle =>
    -- there is room for a set that is disjoint from `A`
    rw [← hrest] at hle
    obtain ⟨B, hB, hBcard⟩ := Finset.exists_subset_card_eq hle
    refine ⟨A, B, hA, hB.trans Finset.sdiff_subset, hAcard, hBcard, ?_⟩
    have : A ∩ B = ∅ := by
      rw [← Finset.disjoint_iff_inter_eq_empty]
      apply Finset.disjoint_of_subset_right hB
      apply Finset.disjoint_sdiff
    simp [this]
  | inr hle =>
    -- take everything outside of `A` and only what is missing from `A`
    have hmiss : k - (U.card - k) ≤ A.card := by omega
    obtain ⟨D, hD, hDcard⟩ := Finset.exists_subset_card_eq hmiss
    have hdisj : Disjoint D (U \ A) := by
      apply Finset.disjoint_of_subset_left hD
      apply Finset.disjoint_sdiff
    refine ⟨A, D ∪ (U \ A), hA, ?_, hAcard, ?_, ?_⟩
    . apply Finset.union_subset (hD.trans hA) Finset.sdiff_subset
    . rw [Finset.card_union_of_disjoint hdisj, hDcard, hrest]
      omega
    . have : A ∩ (D ∪ (U \ A)) ⊆ D := by
        intro x hx
        simp only [Finset.mem_inter, Finset.mem_union, Finset.mem_sdiff] at hx
        tauto
      have := Finset.card_le_card this
      omega

theorem card_le_card_sdiff_add {A F : Finset α}
    : A.card ≤ (A \ F).card + F.card := by
  have hsub : A ⊆ A ∪ F := Finset.subset_union_left
  have := Finset.card_sdiff_add_card A F
  have := Finset.card_le_card hsub
  omega

end Quorum
