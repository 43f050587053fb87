import NeuroMesh.Consensus.MeshNode.Lemmas.Discovery
import NeuroMesh.Consensus.PBFT.Lemmas.Continue
import NeuroMesh.Consensus.PBFT.Lemmas.Votes

/-!
This module contains the frame lemmas of the handlers that do not take part in the consensus: they cast
no votes and leave the rounds alone.
-/

namespace NeuroMesh
namespace MeshNode

variable {C : IdentityCore}

structure Quiet (node node' : MeshNode C) : Prop where
  nodeId_eq : node'.nodeId = node.nodeId
  log : ∃ events, node'.log = events ++ node.log ∧ ∀ event ∈ events, ∃ payload, event = .announce payload
  voters : ∀ key stage voter, voter ∈ node'.pbft.voters key stage → voter ∈ node.pbft.voters key stage
  rounds_eq : node'.pbft.rounds = node.pbft.rounds
  continues : PBFTConsensus.Continues node.nodeId node.pbft node'.pbft

namespace Quiet

variable {node node' node'' : MeshNode C}

theorem trans (h₁ : Quiet node node') (h₂ : Quiet node' node'') : Quiet node node'' := by
  constructor
  . rw [h₂.nodeId_eq, h₁.nodeId_eq]
  . obtain ⟨first, hfirst, hannounced₁⟩ := h₁.log
    obtain ⟨second, hsecond, hannounced₂⟩ := h₂.log
    refine ⟨second ++ first, ?_, ?_⟩
    . rw [hsecond, hfirst, List.append_assoc]
    . intro event hevent
      rcases List.mem_append.mp hevent with hevent | hevent
      . exact hannounced₂ event hevent
      . exact hannounced₁ event hevent
  . intro key stage voter hvoter
    apply h₁.voters
    apply h₂.voters _ _ _ hvoter
  . rw [h₂.rounds_eq, h₁.rounds_eq]
  . apply h₁.continues.trans
    rw [← h₁.nodeId_eq]
    exact h₂.continues

theorem log_subset (h : Quiet node node') : node.log ⊆ node'.log := by
  obtain ⟨events, heq, _⟩ := h.log
  rw [heq]
  apply List.subset_append_right

theorem announced (h : Quiet node node')
    : ∀ event ∈ node'.log, event ∈ node.log ∨ ∃ payload, event = .announce payload := by
  obtain ⟨events, heq, hannounced⟩ := h.log
  intro event hevent
  rw [heq] at hevent
  rcases List.mem_append.mp hevent with hevent | hevent
  . exact .inr (hannounced event hevent)
  . exact .inl hevent

theorem of_pbft_eq (hid : node'.nodeId = node.nodeId) (hlog : node'.log = node.log)
    (hpbft : node'.pbft = node.pbft)
    : Quiet node node' := by
  constructor
  . exact hid
  . exact ⟨[], hlog, by simp⟩
  . rw [hpbft]
    exact fun _ _ _ h => h
  . rw [hpbft]
  . rw [hpbft]
    apply PBFTConsensus.Continues.refl

theorem refl (node : MeshNode C) : Quiet node node := by
  exact of_pbft_eq rfl rfl rfl

theorem of_foldl {α : Type} {f : MeshNode C → α → MeshNode C} (hstep : ∀ node x, Quiet node (f node x))
    (node : MeshNode C) (xs : List α)
    : Quiet node (xs.foldl f node) := by
  induction xs generalizing node with
  | nil => apply refl
  | cons x xs ih =>
    apply (hstep node x).trans
    apply ih

end Quiet

variable (node : MeshNode C)

theorem quiet_pbft {pbft : PBFTConsensus C}
    (hvoters : ∀ key stage voter, voter ∈ pbft.voters key stage → voter ∈ node.pbft.voters key stage)
    (hrounds : pbft.rounds = node.pbft.rounds)
    (hcontinues : PBFTConsensus.Continues node.nodeId node.pbft pbft)
    : Quiet node { node with pbft } := by
  constructor
  . rfl
  . exact ⟨[], rfl, by simp⟩
  . exact hvoters
  . exact hrounds
  . exact hcontinues

theorem quiet_registerConfirmed (confirm : PathConfirmResult) (peerId pem : Bytes)
    : Quiet node (node.registerConfirmed confirm peerId pem) := by
  unfold registerConfirmed
  split
  . apply quiet_pbft
    . exact fun _ _ _ h => h
    . rfl
    . exact ⟨rfl, rfl, fun _ _ h => h⟩
  . apply Quiet.refl

theorem quiet_provisionPeer (peer : Bytes × Bytes) : Quiet node (node.provisionPeer peer) := by
  constructor
  case log => exact ⟨[], rfl, by simp⟩
  case voters => exact fun _ _ _ h => h
  case continues => exact ⟨rfl, rfl, fun _ _ h => h⟩
  all_goals rfl

theorem nodeId_new (nodeId : Bytes) (key pbftKey : C.PrivKey) (settings : Settings)
    : (new C nodeId key pbftKey settings).nodeId = nodeId := by
  unfold new
  exact (Quiet.of_foldl quiet_provisionPeer _ _).nodeId_eq

theorem quiet_announceIdentity : Quiet node node.announceIdentity := by
  unfold announceIdentity emit
  constructor
  case log => exact ⟨[_], rfl, by simp⟩
  case voters => exact fun _ _ _ h => h
  case continues => apply PBFTConsensus.Continues.refl
  all_goals rfl

theorem quiet_peerManager (peerManager : PeerManager) : Quiet node { node with peerManager } := by
  apply Quiet.of_pbft_eq <;> rfl

theorem quiet_trustCert (confirm : PathConfirmResult) (beacon : Beacon)
    : Quiet node (node.trustCert confirm beacon) := by
  unfold trustCert
  split
  . apply Quiet.of_pbft_eq <;> rfl
  . apply Quiet.refl

theorem keptByUpkeep_quiet : KeptByUpkeep (Quiet (C := C)) where
  refl := Quiet.refl
  trans := Quiet.trans
  peerManager := quiet_peerManager
  registerConfirmed := quiet_registerConfirmed
  lastAnnounceTime _ _ := Quiet.of_pbft_eq rfl rfl rfl
  announceIdentity := quiet_announceIdentity
  trustCert := quiet_trustCert
  prunePeer node peerId := by
    apply quiet_pbft
    . intro key stage voter hvoter
      unfold PBFTConsensus.prunePeer at hvoter
      rw [PBFTConsensus.voters_prunePeerLocked] at hvoter
      exact Finset.mem_of_mem_erase hvoter
    . rfl
    . apply PBFTConsensus.continues_prunePeerLocked
  advanceView node := by
    apply quiet_pbft
    . exact fun _ _ _ h => h
    . rfl
    . exact ⟨rfl, rfl, fun _ _ h => h⟩

end MeshNode
end NeuroMesh
