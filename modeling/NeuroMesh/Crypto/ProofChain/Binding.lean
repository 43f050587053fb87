import NeuroMesh.Crypto.ProofChain.Lemmas

namespace NeuroMesh
namespace ProofChain

def hashed (sha256Hex : Bytes → Bytes) (chain : ProofChain) : List Bytes :=
  Merkle.hashed sha256Hex (· ++ ·) id chain.links.length chain.leaves

variable {sha256Hex : Bytes → Bytes} {chain other : ProofChain}

theorem collapse_leaves_eq_of_root_eq (hlinks : chain.links ≠ [])
    (hlength : chain.links.length = other.links.length)
    (h : chain.root sha256Hex = other.root sha256Hex)
    : Merkle.collapse (join sha256Hex) sha256Hex chain.links.length chain.leaves
        =
      Merkle.collapse (join sha256Hex) sha256Hex chain.links.length other.leaves := by
  have hother : other.links ≠ [] := by
    rw [← List.length_pos_iff] at hlinks ⊢
    omega
  have hsingle (c : ProofChain) (hc : c.links ≠ [])
      : ∃ root, Merkle.collapse (join sha256Hex) sha256Hex c.links.length c.leaves = [root] := by
    apply Merkle.exists_collapse_eq
    . simpa [leaves] using hc
    . simp [leaves]
  obtain ⟨a, ha⟩ := hsingle chain hlinks
  obtain ⟨b, hb⟩ := hsingle other hother
  unfold root at h
  rw [ha, hb] at h
  rw [ha, hlength, hb]
  exact congrArg (fun r => [r]) h

theorem leaves_eq_or_collides (hdigest : ∀ data, (sha256Hex data).length = 64)
    (hlinks : chain.links ≠ []) (hlength : chain.links.length = other.links.length)
    (hwidth : ∀ leaf ∈ chain.leaves, leaf.length = 64) (hother : ∀ leaf ∈ other.leaves, leaf.length = 64)
    (hcached : chain.Cached sha256Hex) (hcachedOther : other.Cached sha256Hex)
    (h : (chain.rebuildMerkle sha256Hex).merkleRoot = (other.rebuildMerkle sha256Hex).merkleRoot)
    : chain.leaves = other.leaves
        ∨ Merkle.Collides sha256Hex (chain.hashed sha256Hex ++ other.hashed sha256Hex) := by
  have hlinksOther : other.links ≠ [] := by
    rw [← List.length_pos_iff] at hlinks ⊢
    omega
  rw [merkleRoot_rebuildMerkle hcached hlinks, merkleRoot_rebuildMerkle hcachedOther hlinksOther] at h
  unfold hashed
  rw [← hlength]
  apply Merkle.eq_or_collides_of_collapse_eq fun a => a.length = 64
  . intro a b c d ha hc heq
    exact List.append_inj heq (ha.trans hc.symm)
  . intro a b heq
    exact heq
  . exact hdigest
  . simpa [leaves] using hlength
  . exact hwidth
  . exact hother
  . exact collapse_leaves_eq_of_root_eq hlinks hlength h

def sampleLink (hash : Bytes) : ProofLink where
  sequence := 0
  eventType := .anomalyDetected
  nodeId := []
  targetId := []
  dataHash := []
  parentHash := []
  linkHash := hash
  timestampUs := 0
  signatureHex := []

def sampleChain (digits : List UInt8) : ProofChain where
  nodeId := []
  links := digits.map fun c => sampleLink (List.replicate 64 c)
  merkleDirty := true

def truncated (data : Bytes) : Bytes :=
  (data ++ List.replicate 64 0x30).take 64

theorem leaves_eq_or_collides_sample
    : (sampleChain [0x31, 0x32]).leaves = (sampleChain [0x31, 0x33]).leaves
        ∨ Merkle.Collides truncated
          ((sampleChain [0x31, 0x32]).hashed truncated ++ (sampleChain [0x31, 0x33]).hashed truncated) := by
  apply leaves_eq_or_collides
  . intro data
    simp [truncated]
  . simp [sampleChain]
  . rfl
  . simp [sampleChain, leaves, sampleLink]
  . simp [sampleChain, leaves, sampleLink]
  . intro hdirty
    contradiction
  . intro hdirty
    contradiction
  . decide +kernel

end ProofChain
end NeuroMesh
