import NeuroMesh.Consensus.MeshNode.Lemmas.Dispatch

namespace NeuroMesh
namespace MeshNode

variable {C : IdentityCore}

def Chained (node : MeshNode C) : Prop :=
  (node.pbft.historyOf node.nodeId).isEmpty = true
    ∨ ∃ hash, EndsAt (node.pbft.historyOf node.nodeId) node.sequenceNumber hash

structure CanVote (node : MeshNode C) : Prop where
  notBanned : node.nodeId ∉ node.pbft.bannedPeers
  known : node.nodeId ∈ node.pbft.peerPublicKeys
  signs : ∃ key, node.pbft.privateKey = some key ∧
    ∀ data, C.verifyWith (node.pbft.peerPublicKeys.getD node.nodeId none) data
      (C.signPayload key data) = true

variable {node : MeshNode C}

theorem toNat_add_one (seq : UInt64) (h : seq.toNat + 1 < 2 ^ 64) : (seq + 1).toNat = seq.toNat + 1 := by
  rw [UInt64.toNat_add]
  simp only [UInt64.reduceToNat]
  omega

theorem verifies_ownMessage (hcan : node.CanVote) (hchained : node.Chained)
    (hseq : node.sequenceNumber.toNat + 100 < 2 ^ 64) (stageStr targetId evidenceJson : Bytes)
    : node.pbft.Verifies (node.ownMessage stageStr targetId evidenceJson) := by
  constructor
  . exact hcan.notBanned
  . exact hcan.known
  . obtain ⟨key, hkey, hsign⟩ := hcan.signs
    unfold PBFTConsensus.SignedBySender ownMessage
    dsimp
    unfold PBFTConsensus.signMessage
    rw [hkey]
    apply hsign
  . rcases hchained with hempty | ⟨hash, hends⟩
    . unfold PBFTConsensus.verifyMessageChaining
      simp [ownMessage, hempty]
    . rw [PBFTConsensus.verifyMessageChaining_of_endsAt hends]
      . simp [ownMessage, PBFTConsensus.getLastSentHash_of_endsAt hends]
      . simp [ownMessage]
  . rcases hchained with hempty | ⟨hash, hends⟩
    . unfold PBFTConsensus.verifySequenceContinuity
      simp [ownMessage, hempty]
    . rw [PBFTConsensus.verifySequenceContinuity_of_endsAt hends]
      have hone := toNat_add_one node.sequenceNumber (by omega)
      have hgap : (node.sequenceNumber + PBFTConsensus.maxSequenceGap).toNat
          = node.sequenceNumber.toNat + 100 := by
        rw [UInt64.toNat_add]
        simp only [PBFTConsensus.maxSequenceGap, UInt64.reduceToNat]
        omega
      have hle : ¬node.sequenceNumber + PBFTConsensus.maxSequenceGap < node.sequenceNumber + 1 := by
        rw [UInt64.lt_iff_toNat_lt]
        omega
      change (!decide (node.sequenceNumber + PBFTConsensus.maxSequenceGap
        < node.sequenceNumber + 1)) = true
      rw [decide_eq_false hle]
      rfl

theorem verifies_afterSend {stageStr targetId evidenceJson : Bytes}
    (h : node.pbft.Verifies (node.ownMessage stageStr targetId evidenceJson))
    : (node.afterSend stageStr targetId evidenceJson).pbft.Verifies
        (node.ownMessage stageStr targetId evidenceJson) := by
  unfold afterSend
  dsimp
  split
  . exact ⟨h.notBanned, h.known, h.signed, h.chained, h.continuous⟩
  . exact h

theorem chained_of_admits {pbft : PBFTConsensus C} {a : Ambient} {msg : P2PMessage}
    (hadmits : pbft.Admits a msg) {seq : UInt64} (hseq : seq.toNat + 1 < 2 ^ 64)
    (hnumber : msg.sequenceNumber = seq + 1)
    (hchained : (pbft.historyOf msg.senderId).isEmpty = true
      ∨ ∃ hash, EndsAt (pbft.historyOf msg.senderId) seq hash)
    : ∃ hash, EndsAt ((pbft.advanceState a msg).2.historyOf msg.senderId) (seq + 1) hash := by
  rw [PBFTConsensus.historyOf_advanceState hadmits, if_pos rfl, hnumber]
  refine ⟨_, PBFTConsensus.endsAt_evictHistory (PBFTConsensus.endsAt_insert ?_ _)⟩
  intro k hk
  rcases hchained with hempty | ⟨hash, hends⟩
  . simp [Std.ExtTreeMap.isEmpty_iff.mp hempty] at hk
  . have hle := hends.le_of_mem k hk
    have hone := toNat_add_one seq hseq
    rw [UInt64.le_iff_toNat_le] at *
    omega

end MeshNode
end NeuroMesh
