import NeuroMesh.Consensus.MeshNode.Lemmas.Quiet
import NeuroMesh.Consensus.MeshNode.Lemmas.Voting

namespace NeuroMesh
namespace MeshNode

variable {C : IdentityCore}

structure Extends (node node' : MeshNode C) : Prop where
  nodeId_eq : node'.nodeId = node.nodeId
  log_subset : node.log ⊆ node'.log

namespace Extends

variable {node node' node'' : MeshNode C}

theorem of_log_eq (hid : node'.nodeId = node.nodeId) (hlog : node'.log = node.log)
    : Extends node node' := by
  refine ⟨hid, ?_⟩
  rw [hlog]
  exact List.Subset.refl _

theorem refl (node : MeshNode C) : Extends node node := by
  exact of_log_eq rfl rfl

theorem trans (h₁ : Extends node node') (h₂ : Extends node' node'') : Extends node node'' := by
  constructor
  . rw [h₂.nodeId_eq, h₁.nodeId_eq]
  . exact List.Subset.trans h₁.log_subset h₂.log_subset

end Extends

variable (node : MeshNode C) (env : Env)

theorem extends_emit (event : Event C) : Extends node (node.emit event) := by
  exact ⟨rfl, List.subset_cons_self _ _⟩

theorem keptByVoting_extends : KeptByVoting (Extends (C := C)) where
  refl := Extends.refl
  trans := Extends.trans
  emit node event _ := node.extends_emit event
  banPeerLocal _ _ _ := Extends.of_log_eq rfl rfl
  receive node env msg := ⟨node.nodeId_receive env msg, (node.log_suffix_receive env msg).subset⟩
  afterSend _ _ _ _ _ := ⟨rfl, List.subset_cons_self _ _⟩

theorem Quiet.extends {node node' : MeshNode C} (h : Quiet node node') : Extends node node' := by
  exact ⟨h.nodeId_eq, h.log_subset⟩

theorem extends_processMessage (msg senderIp : Bytes)
    : Extends node (node.processMessage env msg senderIp) := by
  have hstart := fun peerManager => (node.quiet_peerManager peerManager).extends
  refine processMessage_rule node env msg senderIp hstart ?_ ?_
  . intro peerManager tokens
    exact (hstart peerManager).trans (keptByUpkeep_quiet.processAnnounce _ _ _ _).extends
  . intro peerManager vote _
    apply (hstart peerManager).trans
    apply keptByVoting_extends.processVote
    intro time
    apply Extends.of_log_eq <;> rfl

theorem extends_act (step : Step) : Extends node (node.act step) := by
  by_cases hupkeep : step.action.isUpkeep
  . exact (keptByUpkeep_quiet.act node step hupkeep).extends
  . obtain ⟨env, dial, action⟩ := step
    unfold act
    cases action with
    | message msg senderIp => apply extends_processMessage
    | proposeRecentBans =>
      have hdrain : Extends node { node with pbft := (node.pbft.drainRecentBans (env 0)).2 } := by
        apply Extends.of_log_eq <;> rfl
      apply hdrain.trans
      apply keptByVoting_extends.proposeRecentBans_go
    | initiateConsensus targetId evidenceJson =>
      apply keptByVoting_extends.initiateConsensus
      intro node peerManager
      exact (node.quiet_peerManager peerManager).extends
    | proposeBan targetId reason => apply keptByVoting_extends.proposeBan
    | _ => exact absurd trivial hupkeep

end MeshNode
end NeuroMesh
