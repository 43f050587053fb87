import NeuroMesh.Consensus.MeshNode.Lemmas.Extend
import NeuroMesh.Consensus.MeshNode.Lemmas.Ledger

/-!
This module contains the model of a mesh: honest nodes that run `MeshNode` and a network that may hand
any datagram to any of them at any time, but cannot forge signatures.
-/

namespace NeuroMesh

variable {C : IdentityCore}

structure Members (C : IdentityCore) where
  honest : Finset Bytes
  byzantine : Finset Bytes
  disjoint : Disjoint honest byzantine
  pubKey : Bytes → C.PubKey
  card_byzantine_le : byzantine.card ≤ PBFTConsensus.faultBound (honest ∪ byzantine).card

namespace Members

def all (members : Members C) : Finset Bytes :=
  members.honest ∪ members.byzantine

def f (members : Members C) : Nat :=
  PBFTConsensus.faultBound members.all.card

theorem mem_honest_or_byzantine {members : Members C} {nodeId : Bytes} (h : nodeId ∈ members.all)
    : nodeId ∈ members.honest ∨ nodeId ∈ members.byzantine := by
  exact Finset.mem_union.mp h

end Members

abbrev Mesh (C : IdentityCore) := Bytes → MeshNode C

namespace Mesh

structure Step where
  nodeId : Bytes
  step : MeshNode.Step

def act (mesh : Mesh C) (step : Step) : Mesh C :=
  Function.update mesh step.nodeId ((mesh step.nodeId).act step.step)

def sentBlobs (node : MeshNode C) : List Bytes :=
  node.log.filterMap fun
    | .broadcast msg _ => some msg.blob
    | _ => none

def executions (node : MeshNode C) : List P2PMessage :=
  node.log.filterMap fun
    | .advanced msg .executed => some msg
    | _ => none

/--
The steps of a mesh: an honest node acts, and a vote that it is handed verifies under the key of an
honest node only if that node has signed it.
-/
structure Permitted (members : Members C) (mesh : Mesh C) (step : Step) : Prop where
  honest : step.nodeId ∈ members.honest
  unforgeable : ∀ vote ∈ (mesh step.nodeId).handed step.step, ∀ peerId ∈ members.honest,
    C.verifyWith (some (members.pubKey peerId)) vote.blob vote.signature = true →
    vote.blob ∈ sentBlobs (mesh peerId)
  target : ∀ proposal ∈ (mesh step.nodeId).proposals step.step, pipe ∉ proposal.1

structure Fixed (members : Members C) (mesh : Mesh C) : Prop where
  total : ∀ nodeId ∈ members.honest, (mesh nodeId).pbft.totalNodes = members.all.card
  known : ∀ nodeId ∈ members.honest, ∀ peerId ∈ members.all,
    (mesh nodeId).pbft.peerPublicKeys[peerId]? = some (some (members.pubKey peerId))
  only : ∀ nodeId ∈ members.honest, ∀ peerId ∈ (mesh nodeId).pbft.peerPublicKeys.keys,
    peerId ∈ members.all

def Starts (members : Members C) (mesh : Mesh C) : Prop :=
  ∀ nodeId ∈ members.honest, ∃ key pbftKey settings,
    mesh nodeId = MeshNode.new C nodeId key pbftKey settings

theorem mem_sentBlobs {node : MeshNode C} {blob : Bytes}
    : blob ∈ sentBlobs node ↔ ∃ msg pbft, .broadcast msg pbft ∈ node.log ∧ msg.blob = blob := by
  unfold sentBlobs
  rw [List.mem_filterMap]
  constructor
  . rintro ⟨event, hmem, hblob⟩
    cases event with
    | broadcast msg pbft => exact ⟨msg, pbft, hmem, by simpa using hblob⟩
    | _ => contradiction
  . rintro ⟨msg, pbft, hmem, rfl⟩
    exact ⟨_, hmem, rfl⟩

theorem mem_executions {node : MeshNode C} {msg : P2PMessage}
    : msg ∈ executions node ↔ .advanced msg .executed ∈ node.log := by
  unfold executions
  rw [List.mem_filterMap]
  constructor
  . rintro ⟨event, hmem, hmsg⟩
    split at hmsg
    . cases hmsg
      exact hmem
    . contradiction
  . intro hmem
    exact ⟨_, hmem, rfl⟩

instance [DecidableEq C.PubKey] (members : Members C) (mesh : Mesh C) (step : Step) :
    Decidable (Permitted members mesh step) :=
  decidable_of_iff _ ⟨fun h => ⟨h.1, h.2.1, h.2.2⟩, fun h => And.intro h.1 (And.intro h.2 h.3)⟩

instance [DecidableEq C.PubKey] (members : Members C) (mesh : Mesh C) :
    Decidable (Fixed members mesh) :=
  decidable_of_iff _ ⟨fun h => ⟨h.1, h.2.1, h.2.2⟩, fun h => And.intro h.1 (And.intro h.2 h.3)⟩

theorem extends_act (mesh : Mesh C) (step : Step) (nodeId : Bytes)
    : MeshNode.Extends (mesh nodeId) (mesh.act step nodeId) := by
  unfold act
  rw [Function.update_apply]
  split
  . next heq =>
    subst heq
    apply MeshNode.extends_act
  . apply MeshNode.Extends.refl

theorem sentBlobs_subset_act (mesh : Mesh C) (step : Step) (nodeId : Bytes)
    : sentBlobs (mesh nodeId) ⊆ sentBlobs (mesh.act step nodeId) := by
  apply List.filterMap_subset
  exact (mesh.extends_act step nodeId).log_subset

structure Authentic (members : Members C) (Allowed : Mesh C → P2PMessage → Prop) (mesh : Mesh C)
    (vote : P2PMessage) : Prop where
  framed : MeshNode.Framed vote
  member : vote.senderId ∈ members.all
  allowed : Allowed mesh vote
  sent : vote.senderId ∈ members.honest → vote.blob ∈ sentBlobs (mesh vote.senderId)

structure Sound (members : Members C) (Allowed : Mesh C → P2PMessage → Prop) (Own : P2PMessage → Prop)
    (mesh : Mesh C) : Prop where
  nodeId_eq : ∀ nodeId ∈ members.honest, (mesh nodeId).nodeId = nodeId
  ledger : ∀ nodeId ∈ members.honest,
    Ledger (Authentic members Allowed mesh) Own (2 * members.f + 1) (mesh nodeId)

variable {members : Members C} {Allowed : Mesh C → P2PMessage → Prop} {Own : P2PMessage → Prop}
  {mesh : Mesh C}

theorem sound_starts (hhex : C.HexDigest) (h : mesh.Starts members)
    : mesh.Sound members Allowed Own := by
  constructor
  . intro nodeId hnode
    obtain ⟨key, pbftKey, settings, heq⟩ := h nodeId hnode
    rw [heq]
    apply MeshNode.nodeId_new
  . intro nodeId hnode
    obtain ⟨key, pbftKey, settings, heq⟩ := h nodeId hnode
    rw [heq]
    exact MeshNode.ledger_new hhex nodeId key pbftKey settings

theorem quorumSize_of_fixed (hfixed : mesh.Fixed members) {nodeId : Bytes}
    (hnode : nodeId ∈ members.honest)
    : (mesh nodeId).pbft.quorumSize = 2 * members.f + 1 := by
  apply PBFTConsensus.quorumSize_eq _ _ (hfixed.total nodeId hnode)
  exact Finset.card_pos.mpr ⟨nodeId, Finset.mem_union_left _ hnode⟩

theorem authentic_of_verifies (hfixed : mesh.Fixed members) {step : Step}
    (hpermitted : mesh.Permitted members step) {vote : P2PMessage}
    (hhanded : (mesh step.nodeId).handed step.step = some vote)
    (hallowed : Allowed mesh vote) (hvalid : (mesh step.nodeId).pbft.Verifies vote)
    : Authentic members Allowed mesh vote := by
  have hmember : vote.senderId ∈ members.all := by
    apply hfixed.only _ hpermitted.honest
    rw [Std.ExtTreeMap.mem_keys]
    exact hvalid.known
  constructor
  . exact MeshNode.framed_of_handed hhanded
  . exact hmember
  . exact hallowed
  . intro hhonest
    apply hpermitted.unforgeable vote hhanded _ hhonest
    have hsigned := hvalid.signed
    unfold PBFTConsensus.SignedBySender at hsigned
    rw [Std.ExtTreeMap.getD_eq_getD_getElem?] at hsigned
    rw [hfixed.known _ hpermitted.honest _ hmember] at hsigned
    exact hsigned

theorem sound_act (hhex : C.HexDigest) (h : mesh.Sound members Allowed Own) {step : Step}
    (hmono : ∀ vote, Allowed mesh vote → Allowed (mesh.act step) vote)
    (hfixed : mesh.Fixed members) (hfixed' : (mesh.act step).Fixed members)
    (hpermitted : mesh.Permitted members step)
    (hallowed : ∀ vote ∈ (mesh step.nodeId).handed step.step, Allowed mesh vote)
    (hown : ∀ msg : P2PMessage,
      (msg.targetId, msg.evidenceJson) ∈ (mesh step.nodeId).proposals step.step →
      msg.view = (mesh step.nodeId).pbft.currentView → Own msg)
    : (mesh.act step).Sound members Allowed Own := by
  have hauthentic : ∀ vote, Authentic members Allowed mesh vote →
      Authentic members Allowed (mesh.act step) vote := by
    intro vote hvote
    refine ⟨hvote.framed, hvote.member, hmono vote hvote.allowed, ?_⟩
    intro hhonest
    exact mesh.sentBlobs_subset_act step vote.senderId (hvote.sent hhonest)
  constructor
  . intro nodeId hnode
    rw [(mesh.extends_act step nodeId).nodeId_eq]
    exact h.nodeId_eq nodeId hnode
  . intro nodeId hnode
    apply MeshNode.ledger_mono hauthentic
    have hend := quorumSize_of_fixed hfixed' hnode
    unfold act at hend ⊢
    rw [Function.update_apply] at hend ⊢
    split at hend
    . next heq =>
      subst heq
      rw [if_pos rfl]
      apply MeshNode.ledger_act hhex (h.ledger _ hnode) step.step
      . exact quorumSize_of_fixed hfixed hnode
      . exact hend
      . exact hpermitted.target
      . exact hown
      . intro vote hhanded _ hvalid
        exact authentic_of_verifies hfixed hpermitted hhanded (hallowed vote hhanded) hvalid
    . next hne =>
      rw [if_neg hne]
      exact h.ledger nodeId hnode

end Mesh
end NeuroMesh
