import NeuroMesh.Common.Text
import NeuroMesh.Crypto.ProofChain.Linked

namespace NeuroMesh
namespace ProofChain

def IsDigest (s : Bytes) : Prop :=
  s.length = 64 ∧ ∀ c ∈ s, isDigit c ∨ (0x61 ≤ c ∧ c ≤ 0x66)

section Strings

variable (sha256Hex : Bytes → Bytes)

def layerStrings (layer : List Bytes) : List Bytes :=
  match layer with
  | a :: b :: layer => (a ++ b) :: layerStrings layer
  | [a] => [a]
  | [] => []

def treeStrings (fuel : Nat) (layer : List Bytes) : List Bytes :=
  match fuel with
  | 0 => []
  | fuel + 1 =>
    if 1 < layer.length then
      layerStrings layer ++ treeStrings fuel (Merkle.nextLayer (join sha256Hex) sha256Hex layer)
    else
      []

def siblingString (cur s : Bytes) : Bytes :=
  match s with
  | 0x4c :: s => s ++ cur
  | 0x52 :: s => cur ++ s
  | s => cur ++ s

def verifyStrings (cur : Bytes) (siblings : List Bytes) : List Bytes :=
  match siblings with
  | [] => []
  | s :: siblings => siblingString cur s :: verifyStrings (applySibling sha256Hex cur s) siblings

def linkStrings (chain : ProofChain) : List Bytes :=
  chain.links.map ProofLink.toString

def Collides (strings : List Bytes) : Prop :=
  ∃ a ∈ strings, ∃ b ∈ strings, a ≠ b ∧ sha256Hex a = sha256Hex b

def allStrings (chain : ProofChain) (leafHash : Bytes) (siblings : List Bytes) : List Bytes :=
  chain.linkStrings ++ treeStrings sha256Hex chain.links.length chain.leaves
    ++ verifyStrings sha256Hex leafHash siblings

end Strings

variable {sha256Hex : Bytes → Bytes}

theorem Collides.mono {strings strings' : List Bytes} (h : strings ⊆ strings')
    (hcollides : Collides sha256Hex strings)
    : Collides sha256Hex strings' := by
  obtain ⟨a, ha, b, hb, hne, heq⟩ := hcollides
  exact ⟨a, h ha, b, h hb, hne, heq⟩

theorem eq_of_not_collides {strings : List Bytes} {a b : Bytes} (h : ¬Collides sha256Hex strings)
    (ha : a ∈ strings) (hb : b ∈ strings) (heq : sha256Hex a = sha256Hex b)
    : a = b := by
  by_contra hne
  exact h ⟨a, ha, b, hb, hne, heq⟩

theorem applySibling_eq (cur s : Bytes)
    : applySibling sha256Hex cur s = sha256Hex (siblingString cur s) := by
  fun_cases siblingString cur s with
  | case1 => rfl
  | case2 => rfl
  | case3 s hleft hright =>
    unfold applySibling
    split
    . next s => exact absurd rfl (hleft s)
    . next s => exact absurd rfl (hright s)
    . rfl

theorem siblingString_cases (cur s : Bytes)
    : ∃ t, siblingString cur s = t ++ cur ∨ siblingString cur s = cur ++ t := by
  unfold siblingString
  split
  . exact ⟨_, .inl rfl⟩
  . exact ⟨_, .inr rfl⟩
  . exact ⟨_, .inr rfl⟩

theorem nextLayer_eq (layer : List Bytes)
    : Merkle.nextLayer (join sha256Hex) sha256Hex layer = (layerStrings layer).map sha256Hex := by
  fun_induction layerStrings layer with
  | case1 a b layer ih => simp [Merkle.nextLayer, join, ih]
  | case2 a => rfl
  | case3 => rfl

theorem mem_layer_of_mem_layerStrings {layer : List Bytes} (hlayer : ∀ a ∈ layer, a.length = 64)
    {cur s : Bytes} (hcur : cur.length = 64) (h : siblingString cur s ∈ layerStrings layer)
    : cur ∈ layer := by
  obtain ⟨t, ht⟩ := siblingString_cases cur s
  generalize siblingString cur s = string at h ht
  fun_induction layerStrings layer with
  | case1 a b layer ih =>
    simp only [List.forall_mem_cons] at hlayer
    rw [List.mem_cons] at h
    rcases h with rfl | h
    . rcases ht with ht | ht
      . have hb := (List.append_inj' ht (by omega)).2
        simp [hb]
      . have ha := (List.append_inj ht (by omega)).1
        simp [ha]
    . apply List.mem_cons_of_mem a
      apply List.mem_cons_of_mem b
      exact ih hlayer.2.2 h
  | case2 a =>
    rw [List.mem_singleton] at h ⊢
    have hlength : a.length = 64 := hlayer a List.mem_cons_self
    have ht_nil : t = [] := by
      apply List.eq_nil_of_length_eq_zero
      rcases ht with ht | ht
      . have hsum := congrArg List.length ht
        rw [h, List.length_append] at hsum
        omega
      . have hsum := congrArg List.length ht
        rw [h, List.length_append] at hsum
        omega
    rw [ht_nil, List.nil_append, List.append_nil, or_self] at ht
    rw [← ht, h]
  | case3 => simp at h

section Down

theorem mem_of_foldl_eq {fuel : Nat} {layer siblings : List Bytes} {cur : Bytes}
    (hdigest : ∀ data, (sha256Hex data).length = 64) (hlayer : ∀ a ∈ layer, a.length = 64)
    (hfuel : layer.length ≤ fuel + 1) (hcur : cur.length = 64)
    (hlength : siblings.length = Nat.clog 2 layer.length)
    (hroot : siblings.foldl (applySibling sha256Hex) cur
      ∈ Merkle.collapse (join sha256Hex) sha256Hex fuel layer)
    (hfree : ¬Collides sha256Hex (treeStrings sha256Hex fuel layer ++ verifyStrings sha256Hex cur siblings))
    : cur ∈ layer := by
  induction fuel generalizing layer siblings cur with
  | zero =>
    rw [Nat.clog_of_right_le_one (by omega), List.length_eq_zero_iff] at hlength
    rw [hlength] at hroot
    exact hroot
  | succ fuel ih =>
    unfold Merkle.collapse at hroot
    split at hroot
    . next hlarge =>
      rw [Merkle.clog_halve hlarge] at hlength
      cases siblings with
      | nil => simp at hlength
      | cons s siblings =>
        unfold treeStrings verifyStrings at hfree
        rw [if_pos hlarge] at hfree
        rw [List.foldl_cons] at hroot
        have hnext : applySibling sha256Hex cur s ∈ Merkle.nextLayer (join sha256Hex) sha256Hex layer := by
          apply ih _ _ _ _ hroot
          . intro hcollides
            apply hfree (hcollides.mono _)
            intro string
            simp only [List.mem_append, List.mem_cons]
            tauto
          . intro a ha
            rw [nextLayer_eq, List.mem_map] at ha
            obtain ⟨string, _, rfl⟩ := ha
            exact hdigest string
          . rw [Merkle.length_nextLayer]
            omega
          . rw [applySibling_eq]
            exact hdigest _
          . rw [Merkle.length_nextLayer]
            rw [List.length_cons] at hlength
            omega
        rw [nextLayer_eq, List.mem_map] at hnext
        obtain ⟨string, hstring, heq⟩ := hnext
        rw [applySibling_eq] at heq
        apply mem_layer_of_mem_layerStrings hlayer hcur
        rwa [← eq_of_not_collides hfree _ _ heq]
        . simp [hstring]
        . simp
    . next hlarge =>
      rw [Nat.clog_of_right_le_one (by omega), List.length_eq_zero_iff] at hlength
      rw [hlength] at hroot
      exact hroot

end Down

section Parents

theorem toString_eq_cons (link : ProofLink)
    : ∃ rest, link.toString = toDecimal link.sequence.toNat ++ pipe :: rest := by
  exact ⟨_, Delimited.intercalate_cons _ (List.cons_ne_nil _ _)⟩

theorem toString_eq_concat (link : ProofLink)
    : ∃ front, link.toString = (front ++ [pipe]) ++ link.parentHash := by
  let fields := [
    toDecimal link.sequence.toNat, toDecimal link.eventType.code, link.nodeId, link.targetId, link.dataHash
  ]
  refine ⟨joinPipe fields, ?_⟩
  rw [List.append_assoc]
  exact Delimited.intercalate_concat (x := fields) link.parentHash (List.cons_ne_nil _ _)

theorem length_toDecimal_le (n : UInt64) : (toDecimal n.toNat).length ≤ 20 := by
  unfold toDecimal
  rw [List.length_map, Nat.length_toDigits_le_iff (by omega) (by omega)]
  have hlt := n.toNat_lt
  omega

theorem pipe_notMem_of_isDigest {s : Bytes} (h : IsDigest s) : pipe ∉ s := by
  intro hmem
  have hdigit := h.2 pipe hmem
  revert hdigit
  decide

theorem eq_parentHash {cur s : Bytes} {link : ProofLink} (hcur : IsDigest cur)
    (hparent : link.parentHash = [] ∨ link.parentHash.length = 64)
    (h : siblingString cur s = link.toString)
    : cur = link.parentHash := by
  obtain ⟨t, ht | ht⟩ := siblingString_cases cur s
  . obtain ⟨front, hfront⟩ := toString_eq_concat link
    rw [h, hfront] at ht
    rcases hparent with hnil | hlength
    . exfalso
      apply pipe_notMem_of_isDigest hcur
      apply List.mem_of_getLast?
      have hlast := congrArg List.getLast? ht
      have hne : cur ≠ [] := List.ne_nil_of_length_pos (by have := hcur.1; omega)
      rw [hnil, List.append_nil, List.getLast?_append_of_ne_nil _ hne, List.getLast?_concat] at hlast
      exact hlast.symm
    . have hcur_length := hcur.1
      exact ((List.append_inj' ht (by omega)).2).symm
  . exfalso
    obtain ⟨rest, hrest⟩ := toString_eq_cons link
    have hdecimal := length_toDecimal_le link.sequence
    have hcur_length := hcur.1
    rw [h, hrest] at ht
    apply pipe_notMem_of_isDigest hcur
    have hat : (cur ++ t)[(toDecimal link.sequence.toNat).length]? = some pipe := by
      rw [← ht]
      simp
    rw [List.getElem?_append_left (by omega)] at hat
    exact List.mem_of_getElem? hat

variable {chain : ProofChain} {count : Nat}

theorem mem_leaves_of_foldl_mem {siblings : List Bytes} {cur : Bytes} (h : Linked sha256Hex count chain)
    (hcount : count ≤ maxChain) (hdigest : ∀ data, IsDigest (sha256Hex data)) (hcur : IsDigest cur)
    (hmem : siblings.foldl (applySibling sha256Hex) cur ∈ chain.leaves)
    (hfree : ¬Collides sha256Hex (chain.linkStrings ++ verifyStrings sha256Hex cur siblings))
    : cur ∈ chain.leaves := by
  induction siblings generalizing cur with
  | nil => exact hmem
  | cons s siblings ih =>
    have hnext : applySibling sha256Hex cur s ∈ chain.leaves := by
      apply ih _ hmem
      . intro hcollides
        apply hfree (hcollides.mono _)
        intro string
        simp only [verifyStrings, List.mem_append, List.mem_cons]
        tauto
      . rw [applySibling_eq]
        exact hdigest _
    unfold leaves at hnext ⊢
    rw [List.mem_map] at hnext
    obtain ⟨link, hlink, heq⟩ := hnext
    rw [applySibling_eq, h.hash link hlink] at heq
    have hstring : link.toString = siblingString cur s := by
      apply eq_of_not_collides hfree _ _ heq
      . exact List.mem_append_left _ (List.mem_map_of_mem hlink)
      . exact List.mem_append_right _ List.mem_cons_self
    obtain ⟨i, hi⟩ := List.getElem?_of_mem hlink
    match i with
    | 0 =>
      exfalso
      rcases h.first link hi with ⟨_, hnil⟩ | ⟨hgt, _⟩
      . have hlength := hcur.1
        rw [eq_parentHash hcur (.inl hnil) hstring.symm, hnil] at hlength
        simp at hlength
      . omega
    | i + 1 =>
      have hlt := (List.getElem?_eq_some_iff.mp hi).1
      have hprev := List.getElem?_eq_getElem (show i < chain.links.length by omega)
      have hmem_prev := List.mem_of_getElem? hprev
      have hparent := h.parent i _ link hprev hi
      have hlength : link.parentHash.length = 64 := by
        rw [hparent, h.hash _ hmem_prev]
        exact (hdigest _).1
      rw [eq_parentHash hcur (.inr hlength) hstring.symm, hparent]
      exact List.mem_map_of_mem hmem_prev

end Parents

section Sound

variable {chain : ProofChain} {count : Nat}

theorem isDigest_foldl {cur : Bytes} (hdigest : ∀ data, IsDigest (sha256Hex data)) (hcur : IsDigest cur)
    (siblings : List Bytes)
    : IsDigest (siblings.foldl (applySibling sha256Hex) cur) := by
  apply List.foldlRecOn
  . exact hcur
  . intro cur _ s _
    rw [applySibling_eq]
    exact hdigest _

theorem verifyStrings_append (cur : Bytes) (front back : List Bytes)
    : verifyStrings sha256Hex cur (front ++ back)
        =
      verifyStrings sha256Hex cur front
        ++ verifyStrings sha256Hex (front.foldl (applySibling sha256Hex) cur) back := by
  induction front generalizing cur with
  | nil => rfl
  | cons s front ih => simp [verifyStrings, ih]

theorem root_mem_collapse (hlinks : chain.links ≠ [])
    : chain.root sha256Hex
        ∈ Merkle.collapse (join sha256Hex) sha256Hex chain.links.length chain.leaves := by
  have hpos : 0 < chain.leaves.length := by
    simpa [leaves] using List.length_pos_of_ne_nil hlinks
  have hcollapse := Merkle.collapse_eq (join sha256Hex) sha256Hex (List.getElem?_eq_getElem hpos)
    (show _ ≤ chain.links.length + 1 by simp [leaves])
  unfold root
  rw [hcollapse]
  simp

theorem mem_leaves_of_verifyProof {siblings : List Bytes} {leafHash : Bytes}
    (h : Linked sha256Hex count chain) (hdigest : ∀ data, IsDigest (sha256Hex data))
    (hleaf : IsDigest leafHash) (hle : Nat.clog 2 chain.links.length ≤ siblings.length)
    (hcond : count ≤ maxChain ∨ siblings.length = Nat.clog 2 chain.links.length)
    (hverify : verifyProof sha256Hex (chain.root sha256Hex) leafHash siblings = true)
    : leafHash ∈ chain.leaves ∨ Collides sha256Hex (chain.allStrings sha256Hex leafHash siblings) := by
  rw [or_iff_not_imp_right]
  intro hfree
  have hroot : siblings.foldl (applySibling sha256Hex) leafHash = chain.root sha256Hex := by
    simpa [verifyProof] using hverify
  by_cases hlinks : chain.links = []
  . have hlength := (isDigest_foldl hdigest hleaf siblings).1
    simp [hroot, root, leaves, hlinks, Merkle.collapse] at hlength
  . -- the last siblings lead from a leaf to the root, the ones before from a link to a later one
    obtain ⟨front, back, hsplit, hback⟩ : ∃ front back, siblings = front ++ back
        ∧ back.length = Nat.clog 2 chain.links.length := by
      refine ⟨_, _, (List.take_append_drop (siblings.length - Nat.clog 2 chain.links.length) siblings).symm, ?_⟩
      rw [List.length_drop]
      omega
    rw [hsplit] at hroot hfree
    unfold allStrings at hfree
    rw [verifyStrings_append] at hfree
    have hmem : front.foldl (applySibling sha256Hex) leafHash ∈ chain.leaves := by
      apply mem_of_foldl_eq (fun data => (hdigest data).1) _ _ (isDigest_foldl hdigest hleaf front).1
      . simpa [leaves] using hback
      . rw [← List.foldl_append, hroot]
        exact root_mem_collapse hlinks
      . intro hcollides
        apply hfree (hcollides.mono _)
        intro string
        simp only [List.mem_append]
        tauto
      . intro a ha
        obtain ⟨link, hlink, rfl⟩ := List.mem_map.mp ha
        rw [h.hash link hlink]
        exact (hdigest _).1
      . simp [leaves]
    rcases hcond with hcount | hlength
    . apply mem_leaves_of_foldl_mem h hcount hdigest hleaf hmem
      intro hcollides
      apply hfree (hcollides.mono _)
      intro string
      simp only [List.mem_append]
      tauto
    . rw [hsplit, List.length_append] at hlength
      rw [List.eq_nil_of_length_eq_zero (show front.length = 0 by omega)] at hmem
      exact hmem

end Sound

end ProofChain
end NeuroMesh
