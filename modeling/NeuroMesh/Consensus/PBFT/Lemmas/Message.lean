import NeuroMesh.Common.Text
import NeuroMesh.Consensus.PBFT.Impl.Advance

namespace NeuroMesh
namespace PBFTConsensus

variable {C : IdentityCore}

theorem sequenceNumber_eq_of_computeMessageHash_eq (hfree : C.CollisionFree) {m₁ m₂ : P2PMessage}
    (h : computeMessageHash C m₁ = computeMessageHash C m₂)
    : m₁.sequenceNumber = m₂.sequenceNumber := by
  have hjoin := hfree h
  obtain ⟨-, hrest⟩ := Delimited.intercalate_concat_inj
    (x := [m₁.stageStr, m₁.senderId, m₁.targetId, m₁.evidenceJson, m₁.prevMessageHash,
      toDecimal m₁.sequenceNumber.toNat])
    (y := [m₂.stageStr, m₂.senderId, m₂.targetId, m₂.evidenceJson, m₂.prevMessageHash,
      toDecimal m₂.sequenceNumber.toNat])
    (pipe_notMem_toDecimalInt m₁.view) (pipe_notMem_toDecimalInt m₂.view) (by simp) (by simp) hjoin
  obtain ⟨hseq, -⟩ := Delimited.intercalate_concat_inj
    (x := [m₁.stageStr, m₁.senderId, m₁.targetId, m₁.evidenceJson, m₁.prevMessageHash])
    (y := [m₂.stageStr, m₂.senderId, m₂.targetId, m₂.evidenceJson, m₂.prevMessageHash])
    (pipe_notMem_toDecimal _) (pipe_notMem_toDecimal _) (by simp) (by simp) hrest
  exact UInt64.toNat.inj (toDecimal_injective hseq)

theorem stageStr_eq_of_computeMessageHash_eq (hfree : C.CollisionFree) {m₁ m₂ : P2PMessage}
    (hstage₁ : pipe ∉ m₁.stageStr) (hstage₂ : pipe ∉ m₂.stageStr)
    (h : computeMessageHash C m₁ = computeMessageHash C m₂)
    : m₁.stageStr = m₂.stageStr := by
  exact (Delimited.intercalate_cons_inj hstage₁ hstage₂ (by simp) (by simp) (hfree h)).1

theorem senderId_eq_of_computeMessageHash_eq (hfree : C.CollisionFree) {m₁ m₂ : P2PMessage}
    (hstage₁ : pipe ∉ m₁.stageStr) (hstage₂ : pipe ∉ m₂.stageStr)
    (hsender₁ : pipe ∉ m₁.senderId) (hsender₂ : pipe ∉ m₂.senderId)
    (h : computeMessageHash C m₁ = computeMessageHash C m₂)
    : m₁.senderId = m₂.senderId := by
  obtain ⟨-, hrest⟩ :=
    Delimited.intercalate_cons_inj hstage₁ hstage₂ (by simp) (by simp) (hfree h)
  exact (Delimited.intercalate_cons_inj hsender₁ hsender₂ (by simp) (by simp) hrest).1

theorem computeMessageHash_ne_genesis (hfree : C.CollisionFree) (msg : P2PMessage)
    : computeMessageHash C msg ≠ C.sha256Hex (bytes "GENESIS") := by
  intro h
  have hmem : pipe ∈ bytes "GENESIS" := by
    rw [← hfree h]
    simp [joinPipe]
  revert hmem
  decide

theorem pipe_notMem_sha256Hex (hhex : C.HexDigest) (data : Bytes) : pipe ∉ C.sha256Hex data := by
  intro hmem
  have hdigit := (hhex data).2 pipe hmem
  revert hdigit
  decide

theorem roundKey_inj (hfree : C.CollisionFree) (hhex : C.HexDigest) {e₁ e₂ t₁ t₂ : Bytes}
    (ht₁ : pipe ∉ t₁) (ht₂ : pipe ∉ t₂) (h : roundKey C e₁ t₁ = roundKey C e₂ t₂)
    : e₁ = e₂ ∧ t₁ = t₂ := by
  unfold roundKey at h
  simp only [(hhex _).1, if_false] at h
  obtain ⟨ht, he⟩ := Delimited.intercalate_concat_inj (x := [e₁]) (y := [e₂]) ht₁ ht₂
    (by simp) (by simp) (hfree h)
  exact ⟨by simpa using he, ht⟩

theorem blob_inj {m₁ m₂ : P2PMessage}
    (hstage₁ : pipe ∉ m₁.stageStr) (hstage₂ : pipe ∉ m₂.stageStr)
    (htarget₁ : pipe ∉ m₁.targetId) (htarget₂ : pipe ∉ m₂.targetId)
    (hprev₁ : pipe ∉ m₁.prevMessageHash) (hprev₂ : pipe ∉ m₂.prevMessageHash)
    (h : m₁.blob = m₂.blob)
    : m₁.stageStr = m₂.stageStr
        ∧
      m₁.targetId = m₂.targetId
        ∧
      m₁.evidenceJson = m₂.evidenceJson
        ∧
      m₁.sequenceNumber = m₂.sequenceNumber
        ∧
      m₁.view = m₂.view
        ∧
      m₁.prevMessageHash = m₂.prevMessageHash := by
  obtain ⟨hstage, h⟩ := Delimited.intercalate_cons_inj hstage₁ hstage₂ (by simp) (by simp) h
  obtain ⟨htarget, h⟩ := Delimited.intercalate_cons_inj htarget₁ htarget₂ (by simp) (by simp) h
  obtain ⟨hprev, h⟩ := Delimited.intercalate_concat_inj
    (x := [m₁.evidenceJson, toDecimal m₁.sequenceNumber.toNat, toDecimalInt m₁.view])
    (y := [m₂.evidenceJson, toDecimal m₂.sequenceNumber.toNat, toDecimalInt m₂.view])
    hprev₁ hprev₂ (by simp) (by simp) h
  obtain ⟨hview, h⟩ := Delimited.intercalate_concat_inj
    (x := [m₁.evidenceJson, toDecimal m₁.sequenceNumber.toNat])
    (y := [m₂.evidenceJson, toDecimal m₂.sequenceNumber.toNat])
    (pipe_notMem_toDecimalInt _) (pipe_notMem_toDecimalInt _) (by simp) (by simp) h
  obtain ⟨hseq, h⟩ := Delimited.intercalate_concat_inj
    (x := [m₁.evidenceJson]) (y := [m₂.evidenceJson])
    (pipe_notMem_toDecimal _) (pipe_notMem_toDecimal _) (by simp) (by simp) h
  exact ⟨hstage, htarget, by simpa using h, UInt64.toNat.inj (toDecimal_injective hseq),
    toDecimalInt_injective hview, hprev⟩

end PBFTConsensus
end NeuroMesh
