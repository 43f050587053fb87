import NeuroMesh.Crypto.ProofChain.Lemmas

namespace NeuroMesh
namespace ProofChain

variable {sha256Hex : Bytes → Bytes} {chain : ProofChain} {count : Nat}

structure Linked (sha256Hex : Bytes → Bytes) (count : Nat) (chain : ProofChain) : Prop where
  length : chain.links.length = min count maxChain
  seq : chain.seq = UInt64.ofNat count
  nodeId : ∀ link ∈ chain.links, link.nodeId = chain.nodeId
  sequence : ∀ i link, chain.links[i]? = some link →
    link.sequence = UInt64.ofNat (count - chain.links.length + i)
  hash : ∀ link ∈ chain.links, link.linkHash = sha256Hex link.toString
  data : ∀ link ∈ chain.links, ∃ data, link.dataHash = sha256Hex data
  parent : ∀ i a b, chain.links[i]? = some a → chain.links[i + 1]? = some b →
    b.parentHash = a.linkHash
  first : ∀ link, chain.links[0]? = some link →
    (count ≤ maxChain ∧ link.parentHash = [])
      ∨ (maxChain < count ∧ ∃ gone : ProofLink, gone.sequence = UInt64.ofNat (count - maxChain - 1)
        ∧ link.parentHash = sha256Hex gone.toString)

theorem linked_new (sha256Hex : Bytes → Bytes) (nodeId : Bytes) : Linked sha256Hex 0 { nodeId } := by
  constructor
  all_goals simp

section Append

variable {nowUs : Int} {type : ProofEventType} {targetId data sigHex : Bytes}

theorem links_append (h : chain.links.length ≤ maxChain)
    : (chain.append sha256Hex nowUs type targetId data sigHex).links
        =
      (chain.links ++ [chain.newLink sha256Hex nowUs type targetId data sigHex]).drop
        (chain.links.length + 1 - maxChain) := by
  unfold append newLink
  dsimp only
  split
  . next hfull =>
    rw [List.length_append, List.length_singleton] at hfull
    rw [show chain.links.length + 1 - maxChain = 1 by omega]
  . next hfull =>
    rw [List.length_append, List.length_singleton] at hfull
    rw [show chain.links.length + 1 - maxChain = 0 by omega, List.drop_zero]

theorem parentHash_newLink (a : ProofLink) {i : Nat} (hi : i + 1 = chain.links.length)
    (ha : chain.links[i]? = some a)
    : (chain.newLink sha256Hex nowUs type targetId data sigHex).parentHash = a.linkHash := by
  have hlast : chain.links.getLast? = some a := by
    rw [List.getLast?_eq_getElem?, ← ha]
    congr
    omega
  simp [newLink, hlast]

theorem parent_concat (h : Linked sha256Hex count chain) (i : Nat) (a b : ProofLink)
    (ha : (chain.links ++ [chain.newLink sha256Hex nowUs type targetId data sigHex])[i]? = some a)
    (hb : (chain.links ++ [chain.newLink sha256Hex nowUs type targetId data sigHex])[i + 1]? = some b)
    : b.parentHash = a.linkHash := by
  rw [List.getElem?_append] at ha hb
  split at hb
  . next hlt =>
    rw [if_pos (by omega)] at ha
    exact h.parent i a b ha hb
  . next hge =>
    have hi : i + 1 = chain.links.length := by
      have hlt := (List.getElem?_eq_some_iff.mp hb).1
      simp at hlt
      omega
    rw [if_pos (by omega)] at ha
    simp [hi] at hb
    rw [← hb]
    exact parentHash_newLink a hi ha

theorem mem_concat {P : ProofLink → Prop} (h : ∀ link ∈ chain.links, P link)
    (hnew : P (chain.newLink sha256Hex nowUs type targetId data sigHex)) (d : Nat)
    : ∀ link ∈ (chain.links ++ [chain.newLink sha256Hex nowUs type targetId data sigHex]).drop d,
        P link := by
  intro link hmem
  have hmem := List.mem_of_mem_drop hmem
  rw [List.mem_append, List.mem_singleton] at hmem
  rcases hmem with hmem | rfl
  . exact h link hmem
  . exact hnew

theorem linked_append (h : Linked sha256Hex count chain)
    : Linked sha256Hex (count + 1) (chain.append sha256Hex nowUs type targetId data sigHex) := by
  have hlength := h.length
  have hmax : 2 ≤ maxChain := by decide
  have hlinks : (chain.append sha256Hex nowUs type targetId data sigHex).links = _ :=
    links_append (by omega)
  refine ⟨?_, ?_, ?_, ?_, ?_, ?_, ?_, ?_⟩
  . rw [hlinks, List.length_drop, List.length_append, List.length_singleton]
    omega
  . show chain.seq + 1 = _
    rw [h.seq, UInt64.ofNat_add]
    rfl
  . rw [hlinks]
    exact mem_concat h.nodeId rfl _
  . intro i link hi
    rw [hlinks, List.getElem?_drop, List.getElem?_append] at hi
    rw [hlinks, List.length_drop, List.length_append, List.length_singleton]
    split at hi
    . rw [h.sequence _ link hi]
      apply congrArg UInt64.ofNat
      omega
    . next hge =>
      have hlt := (List.getElem?_eq_some_iff.mp hi).1
      simp only [List.length_singleton] at hlt
      rw [show chain.links.length + 1 - maxChain + i - chain.links.length = 0 by omega] at hi
      cases hi
      show chain.seq = _
      rw [h.seq]
      apply congrArg UInt64.ofNat
      omega
  . rw [hlinks]
    exact mem_concat h.hash rfl _
  . rw [hlinks]
    exact mem_concat h.data ⟨data, rfl⟩ _
  . intro i a b ha hb
    rw [hlinks, List.getElem?_drop] at ha hb
    rw [← Nat.add_assoc] at hb
    exact parent_concat h _ a b ha hb
  . intro link hfirst
    rw [hlinks, List.getElem?_drop] at hfirst
    by_cases hfull : maxChain ≤ count
    . -- the oldest link is removed, and the second one becomes the first one
      right
      rw [show chain.links.length + 1 - maxChain + 0 = 0 + 1 by omega] at hfirst
      have hpos : 0 < chain.links.length := by omega
      have hgone := List.getElem?_eq_getElem hpos
      refine ⟨by omega, chain.links[0], ?_, ?_⟩
      . rw [h.sequence 0 _ hgone]
        apply congrArg UInt64.ofNat
        omega
      . rw [parent_concat h 0 _ link ?_ hfirst, h.hash _ (List.getElem_mem hpos)]
        rw [List.getElem?_append_left hpos, hgone]
    . left
      rw [show chain.links.length + 1 - maxChain + 0 = 0 by omega, List.getElem?_append] at hfirst
      refine ⟨by omega, ?_⟩
      split at hfirst
      . rcases h.first link hfirst with hfirst | hfirst
        . exact hfirst.2
        . omega
      . next hempty =>
        have hnil : chain.links = [] := List.eq_nil_of_length_eq_zero (by omega)
        simp [hnil] at hfirst
        rw [← hfirst]
        simp [newLink, hnil]

end Append

theorem linked_rebuildMerkle (h : Linked sha256Hex count chain)
    : Linked sha256Hex count (chain.rebuildMerkle sha256Hex) := by
  unfold rebuildMerkle
  split
  . exact h
  . exact ⟨h.length, h.seq, h.nodeId, h.sequence, h.hash, h.data, h.parent, h.first⟩

theorem linked_step (op : Op) (h : Linked sha256Hex count chain)
    : Linked sha256Hex (count + if op.isAppend then 1 else 0) (chain.step sha256Hex op) := by
  cases op with
  | append nowUs type targetId data sigHex => exact linked_append h
  | getRootHash =>
    show Linked sha256Hex count (chain.getRootHash sha256Hex).2
    unfold getRootHash
    split
    . exact h
    . exact linked_rebuildMerkle h
  | getProofPath seq =>
    show Linked sha256Hex count (chain.getProofPath sha256Hex seq).2
    unfold getProofPath
    split
    . exact h
    . exact linked_rebuildMerkle h

theorem linked_foldl (ops : List Op) (h : Linked sha256Hex count chain)
    : Linked sha256Hex (count + ops.countP Op.isAppend) (ops.foldl (step sha256Hex) chain) := by
  induction ops generalizing count chain with
  | nil => exact h
  | cons op ops ih =>
    have hrest := ih (linked_step op h)
    rw [Nat.add_assoc, Nat.add_comm (if op.isAppend then 1 else 0), ← List.countP_cons] at hrest
    exact hrest

theorem linked_run (sha256Hex : Bytes → Bytes) (nodeId : Bytes) (ops : List Op)
    : Linked sha256Hex (ops.countP Op.isAppend) (ops.foldl (step sha256Hex) { nodeId }) := by
  have h := linked_foldl ops (linked_new sha256Hex nodeId)
  rwa [Nat.zero_add] at h

end ProofChain
end NeuroMesh
