import NeuroMesh.Crypto.Plain
import NeuroMesh.Data.Quorum
import NeuroMesh.Consensus.PBFT.Impl.Membership

namespace NeuroMesh
namespace PBFTConsensus

variable {C : IdentityCore}

def faultBound (n : Nat) : Nat :=
  (n - 1) / 3

theorem quorumSize_pos (s : PBFTConsensus C) : 0 < s.quorumSize := by
  unfold quorumSize
  omega

theorem quorumSize_eq (s : PBFTConsensus C) {n : Nat} (hn : 1 ≤ n) (hs : s.totalNodes = n)
    : s.quorumSize = 2 * faultBound n + 1 := by
  unfold quorumSize faultBound
  rw [hs]
  omega

def QuorumsShare (n q k : Nat) : Prop :=
  ∀ nodes A B : Finset Bytes,
    nodes.card = n → A ⊆ nodes → B ⊆ nodes → q ≤ A.card → q ≤ B.card → k ≤ (A ∩ B).card

theorem quorumsShare_iff {n q k : Nat} (hq : q ≤ n) : QuorumsShare n q k ↔ k ≤ 2 * q - n := by
  constructor
  . intro h
    obtain ⟨nodes, hnodes⟩ := Infinite.exists_subset_card_eq Bytes n
    obtain ⟨A, B, hA, hB, hAcard, hBcard, hinter⟩ :=
      Quorum.exists_card_inter_le (U := nodes) (k := q) (by omega)
    have := h nodes A B hnodes hA hB (by omega) (by omega)
    omega
  . intro h nodes A B hnodes hA hB hAcard hBcard
    have := Quorum.card_add_card_le_card_inter_add hA hB
    omega

/--
Two quorums have at least `2 * q - n` nodes in common and no more than that can be promised. This is
more than the number of tolerated faults only if `n` is of the form `3 * f + 1`.
-/
theorem quorumsShare_quorumSize_iff (s : PBFTConsensus C) (n : Nat) (hn : 1 ≤ n)
    (hs : s.totalNodes = n)
    : (∀ k, QuorumsShare n s.quorumSize k ↔ k ≤ 2 * s.quorumSize - n)
        ∧
      (QuorumsShare n s.quorumSize (faultBound n + 1) ↔ n % 3 = 1) := by
  have hq : s.quorumSize ≤ n := by
    rw [quorumSize_eq s hn hs]
    unfold faultBound
    omega
  refine ⟨fun k => quorumsShare_iff hq, ?_⟩
  rw [quorumsShare_iff hq, quorumSize_eq s hn hs]
  unfold faultBound
  omega

theorem quorumsShare_quorumSize_seven
    : 1 ≤ 7
        ∧
      (new .plain 7 none none).totalNodes = (7 : Nat)
        ∧
      QuorumsShare 7 (new .plain 7 none none).quorumSize 3 :=
  ⟨by decide, rfl, (quorumsShare_quorumSize_iff (new .plain 7 none none) 7 (by decide) rfl).2.mpr rfl⟩

/--
With five nodes the quorum is three, and `{0, 1, 2}` and `{2, 3, 4}` share a single node although
one of the five may be Byzantine.
-/
theorem not_forall_quorumsShare
    : ¬ ∀ n : Nat, 1 ≤ n →
        QuorumsShare n (new .plain n none none).quorumSize (faultBound n + 1) := by
  intro h
  have := h 5 (by decide) {[0], [1], [2], [3], [4]} {[0], [1], [2]} {[2], [3], [4]}
    (by decide) (by decide) (by decide) (by decide) (by decide)
  revert this
  decide

end PBFTConsensus
end NeuroMesh
