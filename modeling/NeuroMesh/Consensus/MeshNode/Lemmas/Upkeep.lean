import NeuroMesh.Consensus.MeshNode.Impl.Discovery

/-!
This module contains the rules for what a node keeps while it gets to know its peers and forgets them again. They ask
for as much as the handler can do: a peer exchange changes nothing but the list of peers.
-/

namespace NeuroMesh
namespace MeshNode

variable {C : IdentityCore}

structure KeptByExchange (R : MeshNode C → MeshNode C → Prop) : Prop where
  refl : ∀ node, R node node
  trans : ∀ {node node' node''}, R node node' → R node' node'' → R node node''
  peerManager : ∀ node peerManager, R node { node with peerManager }

structure KeptByAnnounce (R : MeshNode C → MeshNode C → Prop) : Prop extends KeptByExchange R where
  registerConfirmed : ∀ node confirm peerId pem, R node (node.registerConfirmed confirm peerId pem)
  lastAnnounceTime : ∀ node now, R node { node with lastAnnounceTime := now }
  announceIdentity : ∀ node, R node node.announceIdentity

structure KeptByUpkeep (R : MeshNode C → MeshNode C → Prop) : Prop extends KeptByAnnounce R where
  trustCert : ∀ node confirm beacon, R node (node.trustCert confirm beacon)
  prunePeer : ∀ node peerId, R node { node with pbft := node.pbft.prunePeer peerId }
  advanceView : ∀ node, R node { node with pbft := node.pbft.advanceView }

variable {R : MeshNode C → MeshNode C → Prop} (node : MeshNode C) (env : Env) (dial : Dial)

namespace KeptByExchange

variable (h : KeptByExchange R)
include h

theorem performPexHandshake_go (peers : List (Bytes × Bytes × Int))
    : R node (performPexHandshake.go node env peers) := by
  induction peers generalizing node env with
  | nil => exact h.refl node
  | cons peer peers ih =>
    unfold performPexHandshake.go
    refine h.trans ?_ (ih _ _)
    split
    . apply h.peerManager
    . exact h.refl node

theorem performPexHandshake (ip : Bytes) (port : Int) (expectedPeerId : Bytes)
    : R node (node.performPexHandshake env dial ip port expectedPeerId) := by
  unfold MeshNode.performPexHandshake
  dsimp only
  split
  . exact h.refl node
  . split
    . exact h.refl node
    . apply h.performPexHandshake_go

theorem processPex (msg : Bytes) : R node (node.processPex env dial msg) := by
  unfold MeshNode.processPex
  generalize pexPeerList msg = peers
  induction peers generalizing node env with
  | nil => exact h.refl node
  | cons peer peers ih =>
    unfold processPex.go
    refine h.trans ?_ (ih _ _)
    split
    . split
      . apply h.trans (h.peerManager node _)
        apply h.performPexHandshake
      . apply h.peerManager
    . exact h.refl node

theorem unpinPeerKey (nodeId : Bytes) : R node (node.unpinPeerKey nodeId) := by
  unfold MeshNode.unpinPeerKey
  split
  . apply h.peerManager
  . exact h.refl node

end KeptByExchange

theorem KeptByAnnounce.processAnnounce (h : KeptByAnnounce R) (tokens : List Bytes) (senderIp : Bytes)
    : R node (node.processAnnounce env tokens senderIp) := by
  unfold MeshNode.processAnnounce
  split
  . exact h.refl node
  . dsimp only
    split
    . apply h.peerManager
    . apply h.trans (h.peerManager node _)
      split
      . exact h.trans (h.registerConfirmed _ _ _ _) (h.announceIdentity _)
      . split
        . apply h.trans (h.registerConfirmed _ _ _ _)
          exact h.trans (h.lastAnnounceTime _ _) (h.announceIdentity _)
        . apply h.registerConfirmed

namespace KeptByUpkeep

variable (h : KeptByUpkeep R)
include h

theorem processBeacon (beacon : Beacon) (senderIp : Bytes) : R node (node.processBeacon env dial beacon senderIp) := by
  unfold MeshNode.processBeacon
  split
  . exact h.refl node
  . dsimp only
    split
    . apply h.peerManager
    . unfold admitBeacon
      extract_lets start trusted confirmed
      have hconfirmed : R start confirmed := h.trans (h.trustCert _ _ _) (h.registerConfirmed trusted _ _ _)
      apply h.trans (h.peerManager node _)
      split
      . apply h.trans hconfirmed
        split
        . apply h.performPexHandshake
        . exact h.refl _
      . exact h.refl _

theorem processDiscovery (msg senderIp : Bytes) : R node (node.processDiscovery env dial msg senderIp) := by
  unfold MeshNode.processDiscovery
  split
  . apply h.peerManager
  . apply h.trans (h.peerManager node _)
    dsimp only
    split
    . exact h.refl _
    . unfold processDiscoveryBeacon
      split
      . exact h.refl _
      . apply h.processBeacon

theorem pruneStalePeers : R node (node.pruneStalePeers env) := by
  unfold MeshNode.pruneStalePeers
  generalize node.peerManager.getStalePeers (env 0) = peerIds
  induction peerIds generalizing node with
  | nil => exact h.refl node
  | cons peerId peerIds ih =>
    refine h.trans ?_ (ih _)
    unfold pruneStalePeer
    extract_lets start
    have hstart : R node start := h.peerManager node _
    split
    . exact h.trans hstart (h.prunePeer start peerId)
    . exact hstart

theorem checkStalledRounds : R node (node.checkStalledRounds env) := by
  unfold MeshNode.checkStalledRounds
  generalize env.right = env, node.peerManager.getAllPeerIds _ = peerIds
  induction peerIds generalizing node env with
  | nil => exact h.refl node
  | cons peerId peerIds ih =>
    unfold checkStalledRounds.go
    refine h.trans ?_ (ih _ _)
    split
    . apply h.advanceView
    . exact h.refl node

end KeptByUpkeep

def Action.isUpkeep (action : Action) : Prop :=
  match action with
  | .discovery _ _ | .pex _ | .pruneStalePeers | .checkStalledRounds | .unpinPeerKey _ => True
  | _ => False

theorem KeptByUpkeep.act (h : KeptByUpkeep R) (step : Step) (hupkeep : step.action.isUpkeep)
    : R node (node.act step) := by
  obtain ⟨env, dial, action⟩ := step
  unfold MeshNode.act
  cases action with
  | discovery msg senderIp => apply h.processDiscovery
  | pex msg => apply h.processPex
  | pruneStalePeers => apply h.pruneStalePeers
  | checkStalledRounds => apply h.checkStalledRounds
  | unpinPeerKey nodeId => apply h.unpinPeerKey
  | _ => exact hupkeep.elim

end MeshNode
end NeuroMesh
