import NeuroMesh.Consensus.MeshNode.Impl.Discovery
import NeuroMesh.Consensus.MeshNode.Lemmas.Dispatch

/-!
This module contains the rule for what a node keeps while it votes. All that the voting does is to hand votes to the
`PBFTConsensus` object, to ban peers and to add events to the log.
-/

namespace NeuroMesh
namespace MeshNode

variable {C : IdentityCore}

structure KeptByVoting (R : MeshNode C → MeshNode C → Prop) : Prop where
  refl : ∀ node, R node node
  trans : ∀ {node node' node''}, R node node' → R node' node'' → R node node''
  emit : ∀ node event, (∀ msg pbft, event ≠ .broadcast msg pbft) → R node (node.emit event)
  banPeerLocal : ∀ node nodeId reason, R node { node with pbft := node.pbft.banPeerLocal nodeId reason }
  receive : ∀ node env msg, R node (node.receive env msg).2
  afterSend : ∀ node, ∀ stageStr ∈ [Stage.prePrepare, Stage.prepare, Stage.commit], ∀ targetId evidenceJson,
    R node (node.afterSend stageStr targetId evidenceJson)

namespace KeptByVoting

variable {R : MeshNode C → MeshNode C → Prop} (h : KeptByVoting R) (node : MeshNode C) (env : Env)
include h

theorem castOwnVote {stageStr : Bytes} (hstage : stageStr ∈ [Stage.prePrepare, Stage.prepare, Stage.commit])
    (targetId evidenceJson : Bytes)
    : R node (node.castOwnVote env stageStr targetId evidenceJson).2 := by
  rw [castOwnVote_eq]
  exact h.trans (h.afterSend node stageStr hstage targetId evidenceJson) (h.receive _ env _)

theorem onExecuted (stageStr targetId evidenceJson commitSig : Bytes)
    : R node (node.onExecuted stageStr targetId evidenceJson commitSig) := by
  unfold MeshNode.onExecuted
  split
  . apply h.trans (h.banPeerLocal node targetId _)
    apply h.emit
    simp
  . split
    . exact h.refl node
    . apply h.trans (h.emit node _ _)
      . apply h.trans (h.emit _ _ _)
        . apply h.emit
          simp
        . simp
      . simp

theorem dispatch (fuel : Nat) (next : Option PBFTStage) (stageStr targetId evidenceJson commitSig : Bytes)
    : R node (node.dispatch fuel env next stageStr targetId evidenceJson commitSig) := by
  apply dispatch_induction (E := fun _ => True) (M := fun _ _ => R node) (F := R node)
  . simp
  . simp
  . intro _ _ _ hnode
    exact hnode
  . intro _ node' env _ hnode
    exact h.trans hnode (h.castOwnVote node' env (by simp) targetId evidenceJson)
  . intro _ node' env _ hnode
    apply h.trans (h.trans hnode (h.emit node' _ _)) (h.castOwnVote _ env _ targetId evidenceJson)
    . simp
    . simp
  . intro stageStr node' commitSig hnode
    exact h.trans hnode (h.onExecuted node' stageStr targetId evidenceJson commitSig)
  . trivial
  . exact h.refl node

theorem broadcastPbftStage (targetId evidenceJson : Bytes)
    : R node (node.broadcastPbftStage env Stage.prePrepare targetId evidenceJson) := by
  unfold MeshNode.broadcastPbftStage
  apply h.trans (h.castOwnVote node env.left List.mem_cons_self targetId evidenceJson)
  apply h.dispatch

theorem initiateConsensus (hmanager : ∀ node peerManager, R node { node with peerManager })
    (targetId evidenceJson : Bytes)
    : R node (node.initiateConsensus env targetId evidenceJson) := by
  have hemit : R node (node.emit (.proposed targetId evidenceJson)) := by
    apply h.emit
    simp
  unfold MeshNode.initiateConsensus
  dsimp only
  split
  . exact hemit
  . apply h.trans hemit
    apply h.trans (hmanager _ _)
    apply h.broadcastPbftStage

theorem proposeBan (targetId reason : Bytes) : R node (node.proposeBan env targetId reason).2 := by
  unfold MeshNode.proposeBan
  split
  . exact h.refl node
  . extract_lets start sent
    have hsent : R node sent := by
      apply h.trans (h.emit node _ _) (h.broadcastPbftStage start env targetId _)
      simp
    split
    . exact hsent
    . apply h.trans hsent
      apply h.trans (h.banPeerLocal sent targetId reason)
      apply h.emit
      simp

theorem proposeRecentBans_go (bans : List Bytes) : R node (proposeRecentBans.go node env bans) := by
  induction bans generalizing node env with
  | nil => exact h.refl node
  | cons banned bans ih =>
    unfold proposeRecentBans.go
    exact h.trans (h.proposeBan node env.left banned _) (ih _ _)

theorem processVote (htargeted : ∀ time, R node { node with lastTargetedAt := time }) (vote : P2PMessage)
    : R node (node.processVote env vote) := by
  unfold MeshNode.processVote
  split
  . exact h.refl node
  . extract_lets start
    have hstart : R node start := by
      unfold start
      split
      . exact htargeted _
      . exact h.refl node
    apply h.trans (h.trans hstart (h.receive start env.left vote))
    apply h.dispatch

end KeptByVoting
end MeshNode
end NeuroMesh
