import NeuroMesh.Crypto.ProofChain.Export
import NeuroMesh.Crypto.ProofChain.Linked

namespace NeuroMesh
namespace ProofChain

open Merkle (Sibling)

variable {sha256Hex : Bytes → Bytes} {chain : ProofChain}

structure FoundBySequence (sha256Hex : Bytes → Bytes) (chain : ProofChain) (s : UInt64) : Prop where
  retained : ∀ i link, chain.links[i]? = some link → link.sequence = s →
    let siblings := chain.computeSiblingPath sha256Hex i
    (chain.getProofPath sha256Hex s.toNat).1 = siblings
      ∧ (chain.exportProofToFile sha256Hex true s.toNat).1
        = some (exportProof chain.nodeId s.toNat link.linkHash (chain.root sha256Hex) siblings)
  gone : (∀ link ∈ chain.links, link.sequence ≠ s) →
    (chain.getProofPath sha256Hex s.toNat).1 = []
      ∧ ∀ opened, (chain.exportProofToFile sha256Hex opened s.toNat).1 = none

section Path

theorem computeSiblingPath_rebuildMerkle (i : Nat)
    : (chain.rebuildMerkle sha256Hex).computeSiblingPath sha256Hex i = chain.computeSiblingPath sha256Hex i := by
  unfold computeSiblingPath leaves
  rw [links_rebuildMerkle]

theorem fst_getProofPath_of_lt {i : Nat} (hi : i < chain.links.length)
    : (chain.getProofPath sha256Hex i).1 = chain.computeSiblingPath sha256Hex i := by
  unfold getProofPath
  rw [if_neg (by omega)]
  exact computeSiblingPath_rebuildMerkle i

theorem fst_getProofPath_of_le {i : Nat} (hi : chain.links.length ≤ i)
    : (chain.getProofPath sha256Hex i).1 = [] := by
  unfold getProofPath
  rw [if_pos hi]

theorem fst_exportProofToFile_of_le {i : Nat} (hi : chain.links.length ≤ i) (opened : Bool)
    : (chain.exportProofToFile sha256Hex opened i).1 = none := by
  unfold exportProofToFile
  rw [if_pos hi]

theorem fst_exportProofToFile_of_lt {i : Nat} {link : ProofLink} (h : chain.Cached sha256Hex)
    (hi : chain.links[i]? = some link)
    : (chain.exportProofToFile sha256Hex true i).1
        =
      some (exportProof chain.nodeId i link.linkHash (chain.root sha256Hex)
        (chain.computeSiblingPath sha256Hex i)) := by
  have hlt := (List.getElem?_eq_some_iff.mp hi).1
  have hid : (chain.rebuildMerkle sha256Hex).nodeId = chain.nodeId := by
    unfold rebuildMerkle
    split <;> rfl
  unfold exportProofToFile
  rw [if_neg (by omega)]
  dsimp only
  rw [computeSiblingPath_rebuildMerkle, links_rebuildMerkle, hi,
    merkleRoot_rebuildMerkle h (List.ne_nil_of_length_pos (by omega)), hid]
  rfl

theorem encode_left_ne_right (a b : Bytes) : encode (.left a) ≠ encode (.right b) := by
  intro h
  have hhead : some (0x4c : UInt8) = some 0x52 := congrArg List.head? h
  revert hhead
  decide

theorem sibling?_even {layer : List Bytes} {i : Nat} (heven : layer.length % 2 = 0) (hi : i < layer.length)
    : ∃ a, Merkle.sibling? layer i = some (if i % 2 = 0 then .right a else .left a) := by
  unfold Merkle.sibling?
  split
  . next hmod => exact ⟨layer[i + 1], by rw [List.getElem?_eq_getElem (by omega)]; rfl⟩
  . next hmod => exact ⟨layer[i - 1], by rw [List.getElem?_eq_getElem (by omega)]; rfl⟩

theorem siblings_inj {k fuel : Nat} {layer : List Bytes} {i j : Nat} (hlength : layer.length = 2 ^ k)
    (hfuel : k ≤ fuel) (hi : i < layer.length) (hj : j < layer.length)
    (h : (Merkle.siblings (join sha256Hex) sha256Hex fuel layer i).filterMap (Option.map encode)
      = (Merkle.siblings (join sha256Hex) sha256Hex fuel layer j).filterMap (Option.map encode))
    : i = j := by
  induction k generalizing fuel layer i j with
  | zero =>
    rw [hlength] at hi hj
    omega
  | succ k ih =>
    have hpos := Nat.two_pow_pos k
    have hnext := Merkle.length_nextLayer (join sha256Hex) sha256Hex layer
    obtain ⟨fuel, rfl⟩ : ∃ n, fuel = n + 1 := ⟨fuel - 1, by omega⟩
    obtain ⟨a, ha⟩ := sibling?_even (by omega) hi
    obtain ⟨b, hb⟩ := sibling?_even (by omega) hj
    unfold Merkle.siblings at h
    rw [if_pos (by omega), if_pos (by omega), ha, hb] at h
    simp only [List.filterMap_cons, Option.map_some, List.cons.injEq] at h
    have hside : i % 2 = 0 ↔ j % 2 = 0 := by
      by_cases hie : i % 2 = 0
      . by_cases hje : j % 2 = 0
        . simp [hie, hje]
        . rw [if_pos hie, if_neg hje] at h
          exact absurd h.1.symm (encode_left_ne_right b a)
      . by_cases hje : j % 2 = 0
        . rw [if_neg hie, if_pos hje] at h
          exact absurd h.1 (encode_left_ne_right a b)
        . simp [hie, hje]
    have hhalf := ih (by omega) (by omega) (by omega) (by omega) h.2
    omega

theorem computeSiblingPath_inj (hlength : chain.links.length = maxChain) {i j : Nat} (hi : i < maxChain)
    (hj : j < maxChain) (h : chain.computeSiblingPath sha256Hex i = chain.computeSiblingPath sha256Hex j)
    : i = j := by
  have hmax : maxChain = 2 ^ 12 := rfl
  have hleaves : chain.leaves.length = maxChain := by simp [leaves, hlength]
  unfold computeSiblingPath at h
  rw [computeSiblingPath_go_eq _ _ (by omega), computeSiblingPath_go_eq _ _ (by omega)] at h
  simp only [List.nil_append] at h
  apply siblings_inj (k := 12) _ _ _ _ h
  all_goals omega

theorem computeSiblingPath_ne_nil (hlength : chain.links.length = maxChain) {i : Nat} (hi : i < maxChain)
    : chain.computeSiblingPath sha256Hex i ≠ [] := by
  have hmax : maxChain = 4095 + 1 := rfl
  have hleaves : chain.leaves.length = maxChain := by simp [leaves, hlength]
  obtain ⟨a, ha⟩ :=
    sibling?_even (show chain.leaves.length % 2 = 0 by omega) (show i < chain.leaves.length by omega)
  unfold computeSiblingPath
  rw [computeSiblingPath_go_eq _ _ (by omega), hlength, hmax, Merkle.siblings, if_pos (by omega), ha]
  simp

end Path

section Sequence

variable {count : Nat}

theorem Linked.toNat_sequence (h : Linked sha256Hex count chain) {i : Nat} {link : ProofLink}
    (hi : chain.links[i]? = some link)
    : link.sequence.toNat = (count - maxChain + i) % 2 ^ 64 := by
  have hlength := h.length
  rw [h.sequence i link hi, UInt64.toNat_ofNat', show count - chain.links.length = count - maxChain by omega]

theorem foundBySequence_of_aligned (h : Linked sha256Hex count chain) (hcached : chain.Cached sha256Hex)
    (haligned : (count - maxChain) % 2 ^ 64 = 0) (s : UInt64)
    : FoundBySequence sha256Hex chain s := by
  have hlength := h.length
  have hmax : maxChain = 4096 := rfl
  have hplace : ∀ (i : Nat) (link : ProofLink), chain.links[i]? = some link → link.sequence.toNat = i := by
    intro i link hi
    have hlt := (List.getElem?_eq_some_iff.mp hi).1
    rw [h.toNat_sequence hi]
    omega
  constructor
  . rintro i link hi rfl
    have hlt := (List.getElem?_eq_some_iff.mp hi).1
    rw [hplace i link hi]
    exact ⟨fst_getProofPath_of_lt hlt, fst_exportProofToFile_of_lt hcached hi⟩
  . intro hgone
    have hle : chain.links.length ≤ s.toNat := by
      by_contra hlt
      have hi := List.getElem?_eq_getElem (show s.toNat < chain.links.length by omega)
      apply hgone _ (List.getElem_mem _)
      apply UInt64.toNat_inj.mp
      exact hplace _ _ hi
    exact ⟨fst_getProofPath_of_le hle, fst_exportProofToFile_of_le hle⟩

theorem gone_of_foundBySequence (h : Linked sha256Hex count chain)
    (hshifted : (count - maxChain) % 2 ^ 64 ≠ 0) {s : UInt64} (hfound : FoundBySequence sha256Hex chain s)
    : chain.links.length ≤ s.toNat ∧ ∀ link ∈ chain.links, link.sequence ≠ s := by
  have hlength : chain.links.length = maxChain := by
    have := h.length
    omega
  have hmax : maxChain = 4096 := rfl
  have hgone : ∀ link ∈ chain.links, link.sequence ≠ s := by
    rintro link hlink rfl
    obtain ⟨i, hi⟩ := List.mem_iff_getElem?.mp hlink
    have hlt := (List.getElem?_eq_some_iff.mp hi).1
    have hpath := (hfound.retained i link hi rfl).1
    have hne : link.sequence.toNat ≠ i := by
      rw [h.toNat_sequence hi]
      omega
    by_cases hs : link.sequence.toNat < maxChain
    . rw [fst_getProofPath_of_lt (by omega)] at hpath
      exact hne (computeSiblingPath_inj hlength hs (by omega) hpath)
    . rw [fst_getProofPath_of_le (by omega)] at hpath
      exact computeSiblingPath_ne_nil hlength (by omega) hpath.symm
  refine ⟨?_, hgone⟩
  by_contra hlt
  have hpath := (hfound.gone hgone).1
  rw [fst_getProofPath_of_lt (by omega)] at hpath
  exact computeSiblingPath_ne_nil hlength (by omega) hpath

end Sequence

theorem foundBySequence_iff (sha256Hex : Bytes → Bytes) (nodeId : Bytes) (ops : List Op) (s : UInt64)
    : let chain := ops.foldl (step sha256Hex) { nodeId }
      FoundBySequence sha256Hex chain s
        ↔
      (ops.countP Op.isAppend - maxChain) % 2 ^ 64 = 0
        ∨ (chain.links.length ≤ s.toNat ∧ ∀ link ∈ chain.links, link.sequence ≠ s) := by
  intro chain
  have hlinked : Linked sha256Hex (ops.countP Op.isAppend) chain := linked_run sha256Hex nodeId ops
  constructor
  . intro hfound
    by_cases haligned : (ops.countP Op.isAppend - maxChain) % 2 ^ 64 = 0
    . exact .inl haligned
    . exact .inr (gone_of_foundBySequence hlinked haligned hfound)
  . rintro (haligned | ⟨hle, hgone⟩)
    . exact foundBySequence_of_aligned hlinked (cached_run nodeId ops) haligned s
    . constructor
      . intro i link hi hs
        exact absurd hs (hgone link (List.mem_of_getElem? hi))
      . intro _
        exact ⟨fst_getProofPath_of_le hle, fst_exportProofToFile_of_le hle⟩

theorem not_foundBySequence_of_evicted
    : let chain := (List.replicate (maxChain + 1) (sampleAppend [])).foldl (step id) { nodeId := [0x61] }
      (∀ link ∈ chain.links, link.sequence ≠ 0) ∧ (chain.exportProofToFile id true 0).1 ≠ none
        ∧ ¬FoundBySequence id chain 0 := by
  intro chain
  have hcount : (List.replicate (maxChain + 1) (sampleAppend [])).countP Op.isAppend = maxChain + 1 := by
    rw [List.countP_replicate]
    rfl
  have hlinked : Linked id (maxChain + 1) chain := by
    have := linked_run id [0x61] (List.replicate (maxChain + 1) (sampleAppend []))
    rwa [hcount] at this
  have hmax : maxChain = 4096 := rfl
  have hlength := hlinked.length
  have hgone : ∀ link ∈ chain.links, link.sequence ≠ 0 := by
    intro link hlink hzero
    obtain ⟨i, hi⟩ := List.mem_iff_getElem?.mp hlink
    have hlt := (List.getElem?_eq_some_iff.mp hi).1
    have hsequence := hlinked.toNat_sequence hi
    rw [hzero, UInt64.toNat_zero] at hsequence
    omega
  have hsome : (chain.exportProofToFile id true 0).1 ≠ none := by
    unfold exportProofToFile
    rw [if_neg (by omega)]
    exact nofun
  exact ⟨hgone, hsome, fun hfound => hsome ((hfound.gone hgone).2 true)⟩

end ProofChain
end NeuroMesh
