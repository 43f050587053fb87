import NeuroMesh.Consensus.MeshNode.Lemmas.Budget
import NeuroMesh.Consensus.MeshNode.Lemmas.Discovery
import NeuroMesh.Consensus.PBFT.Lemmas.Membership
import NeuroMesh.Data.Run

namespace NeuroMesh
namespace MeshNode

open PBFTConsensus (SameMembers)

variable {C : IdentityCore}

theorem accounted_budget (nodeId : Bytes)
    : Budget nodeId (PBFTConsensus.Accounted (C := C)) (fun n s => s.Slack nodeId n) (fun _ => True) := by
  have hsign : ∀ (s : PBFTConsensus C) key sig, SameMembers s (s.setRoundCommitSig key sig) :=
    fun _ _ _ => ⟨rfl, rfl, rfl⟩
  have hban : ∀ (s : PBFTConsensus C) id reason, SameMembers s (s.banPeerLocal id reason) :=
    fun _ _ _ => ⟨rfl, rfl, rfl⟩
  constructor
  . intro n s hslack
    apply (SameMembers.refl s).slack _ hslack
    omega
  . intro s key sig h
    exact (hsign s key sig).accounted h
  . intro n s key sig hslack
    exact (hsign s key sig).slack le_rfl hslack
  . intro n s msg now a hsender h hslack
    rw [← hsender] at hslack
    apply PBFTConsensus.accounted_receive h
    intro hkey
    apply (hslack hkey).imp id
    omega
  . intro n s msg now a hsender hslack
    rw [← hsender] at hslack ⊢
    exact PBFTConsensus.slack_receive_self hslack now a
  . intro s id reason _ h
    exact (hban s id reason).accounted h
  . intro n s id reason hslack
    exact (hban s id reason).slack le_rfl hslack
  . intro _ _
    trivial

theorem accounted_processVote (node : MeshNode C) (env : Env) {msg : P2PMessage}
    (h : node.pbft.Accounted) (hsender : node.pbft.Slack msg.senderId 1)
    (hself : node.pbft.Slack node.nodeId 1)
    : (node.processVote env msg).pbft.Accounted := by
  apply keeps_processVote (accounted_budget node.nodeId) env rfl h (fun _ => trivial)
  . intro _
    exact PBFTConsensus.accounted_receive h hsender _ _
  . intro hne hnext
    obtain ⟨stage, hstage⟩ := Option.ne_none_iff_exists'.mp hnext
    exact PBFTConsensus.slack_receive_other hne hself hstage

section Discovery

variable {node : MeshNode C}

theorem accounted_of_joins {s t : PBFTConsensus C} (h : s.Accounted) (hjoins : Joins s t)
    : t.Accounted := by
  cases hjoins with
  | inl heq =>
    rw [heq]
    exact h
  | inr hnew =>
    obtain ⟨id, pem, hnew, heq⟩ := hnew
    rw [heq]
    exact PBFTConsensus.accounted_registerPeerKey h hnew pem

def prunedPeers (node : MeshNode C) (env : Env) : List Bytes :=
  (node.peerManager.getStalePeers (env 0)).filter fun peerId =>
    !node.peerManager.isPeerPreProvisioned peerId

theorem nodup_prunedPeers (node : MeshNode C) (env : Env) : (node.prunedPeers env).Nodup := by
  have hkeys : node.peerManager.peers.keys.Nodup := Std.ExtTreeMap.nodup_keys
  have horder := ((env 0).bucketOrder_perm node.peerManager.peers.keys).symm.nodup hkeys
  exact (horder.filter _).filter _

theorem isPeerPreProvisioned_removePeer (m : PeerManager) (peerId other : Bytes)
    : (m.removePeer peerId).isPeerPreProvisioned other = m.isPeerPreProvisioned other := by
  rfl

theorem pbft_foldl_pruneStalePeer (node : MeshNode C) (peerIds : List Bytes)
    : (peerIds.foldl pruneStalePeer node).pbft
        =
      (peerIds.filter fun peerId => !node.peerManager.isPeerPreProvisioned peerId).foldl
        PBFTConsensus.prunePeer node.pbft := by
  induction peerIds generalizing node with
  | nil => rfl
  | cons peerId peerIds ih =>
    have hkeep : (pruneStalePeer node peerId).peerManager.isPeerPreProvisioned
        = node.peerManager.isPeerPreProvisioned := by
      unfold pruneStalePeer
      dsimp
      split <;> rfl
    rw [List.foldl_cons, ih, hkeep, List.filter_cons]
    unfold pruneStalePeer
    dsimp
    rw [isPeerPreProvisioned_removePeer]
    split <;> rfl

theorem accounted_pruneStalePeers (env : Env) (h : node.pbft.Accounted)
    (hpruned : (node.pbft.registeredPeers \ (node.prunedPeers env).toFinset).card = 1
      ∨ (node.pbft.registeredPeers \ (node.prunedPeers env).toFinset).Nonempty
        ∧ (node.prunedPeers env).toFinset ⊆ node.pbft.registeredPeers)
    : (node.pruneStalePeers env).pbft.Accounted := by
  unfold pruneStalePeers
  rw [pbft_foldl_pruneStalePeer]
  exact PBFTConsensus.accounted_foldl_prunePeer _ _ h (node.nodup_prunedPeers env) hpruned

theorem sameMembers_checkStalledRounds_go (node : MeshNode C) (env : Env) (peerIds : List Bytes)
    : SameMembers node.pbft (checkStalledRounds.go node env peerIds).pbft := by
  induction peerIds generalizing node env with
  | nil => exact .refl _
  | cons peerId peerIds ih =>
    unfold checkStalledRounds.go
    dsimp
    split
    . have hview : SameMembers node.pbft node.pbft.advanceView := ⟨rfl, rfl, rfl⟩
      exact hview.trans (ih { node with pbft := node.pbft.advanceView } _)
    . exact ih node _

theorem accounted_provisionPeers (peers : List (Bytes × Bytes)) (h : node.pbft.Accounted)
    (hnodup : (peers.map (·.1)).Nodup) (hnew : ∀ peer ∈ peers, peer.1 ∉ node.pbft.registeredPeers)
    : (peers.foldl provisionPeer node).pbft.Accounted := by
  induction peers generalizing node with
  | nil => exact h
  | cons peer peers ih =>
    rw [List.map_cons, List.nodup_cons] at hnodup
    rw [List.foldl_cons]
    apply ih
    . exact PBFTConsensus.accounted_registerPeerKey h (hnew peer (by simp)) peer.2
    . exact hnodup.2
    . intro other hother hmem
      have : other.1 = peer.1 ∨ other.1 ∈ node.pbft.registeredPeers := by
        simpa [provisionPeer, PBFTConsensus.incrementPeers, PBFTConsensus.registerPeerKey] using hmem
      cases this with
      | inl heq => exact hnodup.1 (heq ▸ List.mem_map_of_mem hother)
      | inr hmem => exact hnew other (by simp [hother]) hmem

def DistinctIds (nodeId : Bytes) (settings : Settings) : Prop :=
  (nodeId :: (peerKeysFromEnv settings.peerKeys).map (·.1)).Nodup

theorem accounted_new {nodeId : Bytes} {settings : Settings} (h : DistinctIds nodeId settings)
    (key pbftKey : C.PrivKey)
    : (new C nodeId key pbftKey settings).pbft.Accounted := by
  unfold DistinctIds at h
  rw [List.nodup_cons] at h
  unfold new
  apply accounted_provisionPeers
  . constructor
    . simp [PBFTConsensus.new, PBFTConsensus.registerPeerKey, PBFTConsensus.setMyIdentity,
        PBFTConsensus.setPrivateKey]
    . simp [PBFTConsensus.new, PBFTConsensus.registerPeerKey, PBFTConsensus.setMyIdentity,
        PBFTConsensus.setPrivateKey]
  . exact h.2
  . intro peer hpeer hmem
    have heq : peer.1 = nodeId := by
      simpa [PBFTConsensus.new, PBFTConsensus.registerPeerKey, PBFTConsensus.setMyIdentity,
        PBFTConsensus.setPrivateKey] using hmem
    exact h.1 (heq ▸ List.mem_map_of_mem hpeer)

end Discovery

def KeepsCount (node : MeshNode C) (step : Step) : Prop :=
  match step.action with
  | .message msg _ =>
    ∀ vote, node.incoming msg = some vote →
      node.pbft.Slack vote.senderId 1 ∧ node.pbft.Slack node.nodeId 1
  | .initiateConsensus _ _ => node.pbft.Slack node.nodeId 1
  | .proposeBan _ _ => node.pbft.Slack node.nodeId 1
  | .proposeRecentBans =>
    node.pbft.recentBans.size ≠ 0 → node.pbft.Slack node.nodeId node.pbft.recentBans.size
  | .pruneStalePeers =>
    let pruned := (node.prunedPeers step.env).toFinset
    let remaining := node.pbft.registeredPeers \ pruned
    remaining.card = 1 ∨ remaining.Nonempty ∧ pruned ⊆ node.pbft.registeredPeers
  | _ => True

theorem accounted_act {node : MeshNode C} {step : Step} (h : node.pbft.Accounted)
    (hkeeps : node.KeepsCount step)
    : (node.act step).pbft.Accounted := by
  unfold KeepsCount at hkeeps
  unfold act
  cases haction : step.action with
  | message msg senderIp =>
    rw [haction] at hkeeps
    dsimp only
    refine processMessage_rule node step.env msg senderIp (fun _ => h) ?_ ?_
    . intro peerManager tokens
      exact accounted_of_joins h (joins_processAnnounce { node with peerManager } _ _ _)
    . intro peerManager vote hvote
      have hslack := hkeeps vote hvote
      exact accounted_processVote { node with peerManager } _ h hslack.1 hslack.2
  | discovery msg senderIp => exact accounted_of_joins h (node.joins_processDiscovery _ _ _ _)
  | pex msg =>
    simp only [keptByExchange_pbft.processPex]
    exact h
  | pruneStalePeers =>
    rw [haction] at hkeeps
    exact accounted_pruneStalePeers step.env h hkeeps
  | checkStalledRounds => exact (sameMembers_checkStalledRounds_go node _ _).accounted h
  | proposeRecentBans =>
    rw [haction] at hkeeps
    have hlength := ((step.env 0).bucketOrder_perm node.pbft.recentBans.toList).length_eq
    rw [Std.ExtTreeSet.length_toList] at hlength
    apply keeps_proposeRecentBans_go (accounted_budget node.nodeId)
    . rfl
    . exact ⟨h.total_eq, h.registered_of_key⟩
    . intro hbans
      rw [hlength]
      apply hkeeps
      rw [← hlength]
      simpa using hbans
  | initiateConsensus targetId evidenceJson =>
    rw [haction] at hkeeps
    exact keeps_initiateConsensus (accounted_budget node.nodeId) step.env rfl h hkeeps (fun _ => trivial)
  | proposeBan targetId reason =>
    rw [haction] at hkeeps
    exact (affords_proposeBan (accounted_budget node.nodeId) step.env rfl h hkeeps targetId reason).keeps
  | unpinPeerKey nodeId =>
    simp only [unpinPeerKey]
    split <;> exact h

theorem totalNodes_eq_card_of_keepsCount (nodeId : Bytes) (key pbftKey : C.PrivKey)
    (settings : Settings) (steps : List Step) (hids : DistinctIds nodeId settings)
    (hkeeps : Run.Along act KeepsCount (new C nodeId key pbftKey settings) steps)
    : Run.Always act (fun node => node.pbft.totalNodes = node.pbft.registeredPeers.card)
        (new C nodeId key pbftKey settings) steps := by
  apply Run.always_of_invariant (I := fun node : MeshNode C => node.pbft.Accounted)
  . intro node step
    exact accounted_act
  . intro node h
    exact h.total_eq
  . exact accounted_new hids key pbftKey
  . exact hkeeps

def stepAt (now : Time) (action : Action) : Step :=
  {
    env := fun _ => { now, bucketOrder := id, bucketOrder_perm := List.Perm.refl }
    dial := fun _ _ => none
    action
  }

def pexThenPrune : List Step :=
  [stepAt 0 (.pex (bytes "PEX|X|1|P:10.0.0.1:9000")), stepAt 40000000000 .pruneStalePeers]

theorem totalNodes_eq_card_alone
    : Run.Always act (fun node => node.pbft.totalNodes = node.pbft.registeredPeers.card)
        (new .plain (bytes "A") (bytes "A") (bytes "A") {}) pexThenPrune := by
  apply totalNodes_eq_card_of_keepsCount
  . unfold DistinctIds
    decide +kernel
  . unfold pexThenPrune
    simp only [Run.Along, KeepsCount, stepAt, true_and, and_true]
    left
    decide +kernel

theorem not_forall_totalNodes_eq_card
    : ¬ ∀ (nodeId : Bytes) (key pbftKey : Bytes) (settings : Settings) (steps : List Step),
        Run.Always act (fun node => node.pbft.totalNodes = node.pbft.registeredPeers.card)
          (new .plain nodeId key pbftKey settings) steps := by
  intro h
  have hrun := h (bytes "A") (bytes "A") (bytes "A") { peerKeys := some (bytes "B:-----BEGIN") }
    pexThenPrune
  have hlast := hrun.2.2
  revert hlast
  simp only [Run.Always]
  decide +kernel

end MeshNode
end NeuroMesh
