import NeuroMesh.Consensus.MeshNode.Lemmas.Upkeep

namespace NeuroMesh
namespace MeshNode

variable {C : IdentityCore}

def Joins (s t : PBFTConsensus C) : Prop :=
  t = s
    ∨ ∃ id pem, id ∉ s.registeredPeers ∧ t = (s.registerPeerKey id pem).incrementPeers

theorem joins_registerConfirmed (node : MeshNode C) (confirm : PathConfirmResult) (id pem : Bytes)
    : Joins node.pbft (node.registerConfirmed confirm id pem).pbft := by
  unfold registerConfirmed
  split
  . next h =>
    simp only [PBFTConsensus.hasPeer, Bool.and_eq_true, Bool.not_eq_true', decide_eq_false_iff_not]
      at h
    exact .inr ⟨id, pem, h.2, rfl⟩
  . exact .inl rfl

theorem joins_processAnnounce (node : MeshNode C) (env : Env) (tokens : List Bytes)
    (senderIp : Bytes)
    : Joins node.pbft (node.processAnnounce env tokens senderIp).pbft := by
  have hconfirmed := @joins_registerConfirmed C
  unfold processAnnounce
  split
  . exact .inl rfl
  . dsimp
    split
    . exact .inl rfl
    . split
      . exact hconfirmed { node with peerManager := _ } _ _ _
      . split
        . exact hconfirmed { node with peerManager := _ } _ _ _
        . exact hconfirmed { node with peerManager := _ } _ _ _

theorem keptByExchange_pbft : KeptByExchange fun node node' : MeshNode C => node'.pbft = node.pbft where
  refl _ := rfl
  trans h₁ h₂ := h₂.trans h₁
  peerManager _ _ := rfl

theorem pbft_trustCert (node : MeshNode C) (confirm : PathConfirmResult) (beacon : Beacon)
    : (node.trustCert confirm beacon).pbft = node.pbft := by
  unfold trustCert
  split <;> rfl

theorem joins_processBeacon (node : MeshNode C) (env : Env) (dial : Dial) (beacon : Beacon)
    (senderIp : Bytes)
    : Joins node.pbft (node.processBeacon env dial beacon senderIp).pbft := by
  unfold processBeacon
  split
  . exact .inl rfl
  . dsimp only
    split
    . exact .inl rfl
    . unfold admitBeacon
      extract_lets start trusted confirmed
      have htrusted : trusted.pbft = node.pbft := start.pbft_trustCert _ _
      have hconfirmed : Joins trusted.pbft confirmed.pbft := trusted.joins_registerConfirmed _ _ _
      rw [htrusted] at hconfirmed
      split
      . split
        . rw [keptByExchange_pbft.performPexHandshake]
          exact hconfirmed
        . exact hconfirmed
      . exact .inl rfl

theorem joins_processDiscovery (node : MeshNode C) (env : Env) (dial : Dial) (msg senderIp : Bytes)
    : Joins node.pbft (node.processDiscovery env dial msg senderIp).pbft := by
  unfold processDiscovery
  split
  . exact .inl rfl
  . dsimp
    split
    . exact .inl rfl
    . unfold processDiscoveryBeacon
      split
      . exact .inl rfl
      . exact joins_processBeacon { node with peerManager := _ } _ _ _ _

def incoming (node : MeshNode C) (msg : Bytes) : Option P2PMessage :=
  let tokens := splitString msg pipe
  if tokens.head? = some (bytes "VOTE") then parseVote node.maxEvidenceSize tokens else none

theorem tokens_of_parseVote {maxEvidenceSize : Nat} {tokens : List Bytes} {vote : P2PMessage}
    (h : parseVote maxEvidenceSize tokens = some vote)
    : (∃ cmd seqStr viewStr b64Evidence b64Sig rest,
        tokens = cmd :: vote.stageStr :: vote.senderId :: seqStr :: viewStr :: vote.targetId
          :: b64Evidence :: vote.prevMessageHash :: b64Sig :: rest)
      ∧ vote.stageStr ∈ [Stage.prePrepare, Stage.prepare, Stage.commit, Stage.banPeer]
      ∧ vote.evidenceJson.head? = some 0x7b := by
  unfold parseVote at h
  split at h
  . split at h
    . contradiction
    . split at h
      . contradiction
      . split at h
        . contradiction
        . dsimp only at h
          split at h
          . contradiction
          . split at h
            . contradiction
            . next hbrace =>
              split at h
              . contradiction
              . next hstage =>
                split at h
                . split at h
                  . contradiction
                  . cases h
                    exact ⟨⟨_, _, _, _, _, _, rfl⟩, not_not.mp hstage, not_not.mp hbrace⟩
                . contradiction
  . contradiction

theorem parseVote_of_incoming {node : MeshNode C} {msg : Bytes} {vote : P2PMessage}
    (h : node.incoming msg = some vote)
    : parseVote node.maxEvidenceSize (splitString msg pipe) = some vote := by
  unfold incoming at h
  dsimp only at h
  split at h
  . exact h
  . contradiction

structure Framed (vote : P2PMessage) : Prop where
  stage : pipe ∉ vote.stageStr
  sender : pipe ∉ vote.senderId
  target : pipe ∉ vote.targetId
  prev : pipe ∉ vote.prevMessageHash

theorem framed_of_incoming {node : MeshNode C} {msg : Bytes} {vote : P2PMessage}
    (h : node.incoming msg = some vote)
    : Framed vote := by
  have hfield : ∀ field ∈ splitString msg pipe, pipe ∉ field := by
    intro field hmem
    exact Delimited.notMem_of_mem_split hmem
  obtain ⟨⟨_, _, _, _, _, _, htokens⟩, _⟩ := tokens_of_parseVote (parseVote_of_incoming h)
  rw [htokens] at hfield
  simp only [List.forall_mem_cons] at hfield
  exact ⟨hfield.2.1, hfield.2.2.1, hfield.2.2.2.2.2.1, hfield.2.2.2.2.2.2.2.1⟩

@[elab_as_elim]
theorem processMessage_rule {motive : MeshNode C → Prop} (node : MeshNode C) (env : Env) (msg senderIp : Bytes)
    (hstart : ∀ peerManager, motive { node with peerManager })
    (hannounce : ∀ peerManager tokens, motive ({ node with peerManager }.processAnnounce env.right tokens senderIp))
    (hvote : ∀ peerManager vote, node.incoming msg = some vote →
      motive ({ node with peerManager }.processVote env.right vote))
    : motive (node.processMessage env msg senderIp) := by
  unfold processMessage
  split
  . exact hstart _
  . dsimp
    split
    . exact hstart _
    . split
      . exact hstart _
      . split
        . exact hannounce _ _
        . split
          . next hprefix =>
            split
            . exact hstart _
            . next vote hparse =>
              apply hvote
              unfold incoming
              rw [if_pos hprefix]
              exact hparse
          . exact hstart _

end MeshNode
end NeuroMesh
