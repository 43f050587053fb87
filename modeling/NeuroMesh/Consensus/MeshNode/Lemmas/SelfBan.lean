import NeuroMesh.Consensus.MeshNode.Lemmas.Admit
import NeuroMesh.Consensus.MeshNode.Lemmas.Extend
import NeuroMesh.Consensus.MeshNode.Lemmas.Membership

namespace NeuroMesh

variable {C : IdentityCore}

namespace PBFTConsensus

def Room (s : PBFTConsensus C) (nodeId : Bytes) (n : Nat) : Prop :=
  nodeId ∈ s.peerPublicKeys → max 1 (s.trustOf nodeId).consecutiveFailures + n < autoPruneFailures

section Receive

variable {s : PBFTConsensus C} {msg : P2PMessage} {n : Nat}

theorem room_of_le {t : PBFTConsensus C} {nodeId : Bytes} {m : Nat}
    (hkey : nodeId ∈ t.peerPublicKeys → nodeId ∈ s.peerPublicKeys)
    (hle : max 1 (t.trustOf nodeId).consecutiveFailures + m
      ≤ max 1 (s.trustOf nodeId).consecutiveFailures + n)
    (h : s.Room nodeId n)
    : t.Room nodeId m := by
  intro hmem
  have := h (hkey hmem)
  omega

theorem roster_receive_of_room (h : s.Room msg.senderId (n + 1)) (now : Time) (a : Ambient)
    : (s.receive now a msg).2.roster = s.roster := by
  by_cases hvalid : s.Verifies msg
  . rw [receive_of_verifies hvalid]
    rcases (s.recordSuccess msg.senderId).roster_advanceState a msg with hsame | ⟨hbrink, _⟩
    . exact hsame
    . have hbelow := s.belowThreshold_recordSuccess msg.senderId
      exact absurd hbrink.failures (Int.not_le.mpr hbelow)
  . rw [receive_of_not_verifies hvalid]
    rcases s.roster_verifyMessage now msg with hsame | ⟨hbrink, _⟩
    . exact hsame
    . have hroom := h hbrink.known
      have hfailures := hbrink.failures
      omega

theorem mem_peerPublicKeys_of_roster {t : PBFTConsensus C} (h : t.roster = s.roster) (nodeId : Bytes)
    : nodeId ∈ t.peerPublicKeys → nodeId ∈ s.peerPublicKeys := by
  have hkeys : t.peerPublicKeys = s.peerPublicKeys := congrArg Roster.peerPublicKeys h
  rw [hkeys]
  exact id

theorem room_receive_self (h : s.Room msg.senderId (n + 1)) (now : Time) (a : Ambient)
    : (s.receive now a msg).2.Room msg.senderId n
        ∧
      ((s.receive now a msg).1 ≠ none → (s.receive now a msg).2.Room msg.senderId (n + 1)) := by
  have hkey := mem_peerPublicKeys_of_roster (roster_receive_of_room h now a) msg.senderId
  cases hnext : (s.receive now a msg).1 with
  | some next =>
    have hle := s.consecutiveFailures_receive_le now a hnext
    constructor
    . apply room_of_le hkey _ h
      omega
    . intro _
      apply room_of_le hkey _ h
      omega
  | none =>
    simp only [ne_eq, not_true_eq_false, IsEmpty.forall_iff, and_true]
    by_cases hvalid : s.Verifies msg
    . simp [receive_of_verifies hvalid] at hnext
    . apply room_of_le hkey _ h
      rw [receive_of_not_verifies hvalid]
      have hcases := s.verifyMessage_cases now msg
      generalize s.verifyMessage now msg = res at *
      cases hcases with
      | banned =>
        dsimp only
        omega
      | unknown =>
        dsimp only
        omega
      | rejected _ hknown =>
        have hroom := h hknown
        have hbelow : s.BelowThreshold msg.senderId := by
          unfold BelowThreshold
          omega
        dsimp only
        rw [consecutiveFailures_recordFailure s now hbelow]
        omega
      | verified => contradiction

end Receive

end PBFTConsensus

namespace MeshNode

theorem notBanned_budget (nodeId : Bytes)
    : Budget nodeId (fun s : PBFTConsensus C => nodeId ∉ s.bannedPeers) (fun n s => s.Room nodeId n)
        (· ≠ nodeId) := by
  constructor
  . intro n s h
    apply PBFTConsensus.room_of_le id _ h
    omega
  . intro s key sig h
    exact h
  . intro n s key sig h
    exact PBFTConsensus.room_of_le id le_rfl h
  . intro n s msg now a hsender h hroom
    rw [← hsender] at hroom
    have hbanned : (s.receive now a msg).2.bannedPeers = s.bannedPeers :=
      congrArg PBFTConsensus.Roster.bannedPeers (PBFTConsensus.roster_receive_of_room hroom now a)
    rw [hbanned]
    exact h
  . intro n s msg now a hsender hroom
    rw [← hsender] at hroom ⊢
    exact PBFTConsensus.room_receive_self hroom now a
  . intro s id reason hne h hmem
    rcases Finset.mem_insert.mp hmem with heq | hmem
    . exact hne heq.symm
    . exact h hmem
  . intro n s target reason h
    exact PBFTConsensus.room_of_le id le_rfl h
  . intro target hne
    exact hne

variable {node : MeshNode C}

theorem notBanned_processVote (node : MeshNode C) (env : Env) {msg : P2PMessage}
    (h : node.nodeId ∉ node.pbft.bannedPeers)
    (hban : isBanRound msg.evidenceJson → msg.targetId ≠ node.nodeId)
    (hroom : node.pbft.Room node.nodeId 1)
    : node.nodeId ∉ (node.processVote env msg).pbft.bannedPeers := by
  apply keeps_processVote (notBanned_budget node.nodeId) env rfl h hban
  . intro hne
    have hsame := node.pbft.sameAbout_receive (env.left 0).now (env.left 1) hne
    rw [hsame.banned_iff]
    exact h
  . intro hne _
    have hsame := node.pbft.sameAbout_receive (env.left 0).now (env.left 1) hne
    apply PBFTConsensus.room_of_le _ _ hroom
    . rw [Std.ExtTreeMap.mem_iff_isSome_getElem?, hsame.key_eq, ← Std.ExtTreeMap.mem_iff_isSome_getElem?]
      exact id
    . rw [hsame.trust_eq]

def SparesItself (node : MeshNode C) (step : Step) : Prop :=
  match step.action with
  | .message msg _ =>
    ∀ vote, node.incoming msg = some vote →
      (isBanRound vote.evidenceJson → vote.targetId ≠ node.nodeId) ∧ node.pbft.Room node.nodeId 1
  | .initiateConsensus targetId evidenceJson =>
    (isBanRound evidenceJson → targetId ≠ node.nodeId) ∧ node.pbft.Room node.nodeId 1
  | .proposeBan _ _ => node.pbft.Room node.nodeId 1
  | .proposeRecentBans =>
    node.pbft.recentBans.size ≠ 0 → node.pbft.Room node.nodeId node.pbft.recentBans.size
  | _ => True

theorem bannedPeers_of_joins {s t : PBFTConsensus C} (h : Joins s t) : t.bannedPeers = s.bannedPeers := by
  rcases h with rfl | ⟨peerId, pem, _, rfl⟩
  . rfl
  . rfl

theorem bannedPeers_foldl_pruneStalePeer (node : MeshNode C) (peerIds : List Bytes)
    : (peerIds.foldl pruneStalePeer node).pbft.bannedPeers = node.pbft.bannedPeers := by
  induction peerIds generalizing node with
  | nil => rfl
  | cons peerId peerIds ih =>
    rw [List.foldl_cons, ih]
    unfold pruneStalePeer
    dsimp only
    split <;> rfl

theorem bannedPeers_checkStalledRounds_go (node : MeshNode C) (env : Env) (peerIds : List Bytes)
    : (checkStalledRounds.go node env peerIds).pbft.bannedPeers = node.pbft.bannedPeers := by
  induction peerIds generalizing node env with
  | nil => rfl
  | cons peerId peerIds ih =>
    unfold checkStalledRounds.go
    dsimp only
    rw [ih]
    split <;> rfl

theorem notBanned_act {step : Step} (h : node.nodeId ∉ node.pbft.bannedPeers)
    (hspares : node.SparesItself step)
    : (node.act step).nodeId ∉ (node.act step).pbft.bannedPeers := by
  rw [(node.extends_act step).nodeId_eq]
  have hbudget := notBanned_budget (C := C) node.nodeId
  obtain ⟨env, dial, action⟩ := step
  unfold act
  cases action with
  | message msg senderIp =>
    dsimp only
    refine processMessage_rule node env msg senderIp (fun _ => h) ?_ ?_
    . intro peerManager tokens
      rw [bannedPeers_of_joins (joins_processAnnounce { node with peerManager } _ _ _)]
      exact h
    . intro peerManager vote hvote
      have hvote := hspares vote hvote
      exact notBanned_processVote { node with peerManager } env.right h hvote.1 hvote.2
  | discovery msg senderIp =>
    dsimp only
    rw [bannedPeers_of_joins (node.joins_processDiscovery env dial msg senderIp)]
    exact h
  | pex msg =>
    dsimp only
    rw [keptByExchange_pbft.processPex]
    exact h
  | pruneStalePeers =>
    dsimp only
    unfold pruneStalePeers
    rw [bannedPeers_foldl_pruneStalePeer]
    exact h
  | checkStalledRounds =>
    dsimp only
    unfold checkStalledRounds
    rw [bannedPeers_checkStalledRounds_go]
    exact h
  | proposeRecentBans =>
    have hlength := ((env 0).bucketOrder_perm node.pbft.recentBans.toList).length_eq
    rw [Std.ExtTreeSet.length_toList] at hlength
    apply keeps_proposeRecentBans_go hbudget
    . rfl
    . exact h
    . intro hbans
      rw [hlength]
      apply PBFTConsensus.room_of_le (s := node.pbft) id le_rfl
      apply hspares
      rw [← hlength]
      simpa using hbans
  | initiateConsensus targetId evidenceJson =>
    exact keeps_initiateConsensus hbudget env rfl h hspares.2 hspares.1
  | proposeBan targetId reason =>
    exact (affords_proposeBan hbudget env rfl h hspares targetId reason).keeps
  | unpinPeerKey nodeId =>
    dsimp only
    unfold unpinPeerKey
    split <;> exact h

theorem bannedPeers_new (nodeId : Bytes) (key pbftKey : C.PrivKey) (settings : Settings)
    : (new C nodeId key pbftKey settings).pbft.bannedPeers = ∅ := by
  unfold new
  generalize peerKeysFromEnv settings.peerKeys = peers
  extract_lets pbft₁ pbft₂ pbft₃ pbft₄ node
  have hnode : node.pbft.bannedPeers = ∅ := rfl
  clear_value node
  induction peers generalizing node with
  | nil => exact hnode
  | cons peer peers ih => exact ih (provisionPeer node peer) hnode

theorem always_notBanned_of_sparesItself (nodeId : Bytes) (key pbftKey : C.PrivKey) (settings : Settings)
    (steps : List Step)
    (h : Run.Along act SparesItself (new C nodeId key pbftKey settings) steps)
    : Run.Always act (fun node => node.nodeId ∉ node.pbft.bannedPeers)
        (new C nodeId key pbftKey settings) steps := by
  apply Run.always_of_invariant (I := fun node : MeshNode C => node.nodeId ∉ node.pbft.bannedPeers) _ _ _ h
  . intro node step
    exact notBanned_act
  . intro node
    exact id
  . rw [bannedPeers_new]
    apply Finset.notMem_empty

def banProposal (target : String) : Step :=
  let msg : P2PMessage := {
    stageStr := Stage.prePrepare
    senderId := bytes "B"
    targetId := bytes target
    evidenceJson := bytes "\x7b\"action\":\"ban\"\x7d"
    signature := []
    prevMessageHash := []
    sequenceNumber := 1
    view := 0
  }
  stepAt 0 <| .message (encodeVote { msg with signature := bytes "-----BEGIN" ++ msg.blob })
    (bytes "10.0.0.1")

theorem always_notBanned_other
    : let init := new .plain (bytes "A") (bytes "A") (bytes "A") { peerKeys := some (bytes "B:-----BEGIN") }
      bytes "T" ∈ (init.act (banProposal "T")).pbft.bannedPeers
        ∧
      Run.Always act (fun node => node.nodeId ∉ node.pbft.bannedPeers) init [banProposal "T"] := by
  intro init
  refine ⟨by decide +kernel, ?_⟩
  apply always_notBanned_of_sparesItself
  refine ⟨?_, trivial⟩
  intro vote hvote
  constructor
  . intro _ htarget
    have hread := congrArg (Option.map P2PMessage.targetId) hvote
    rw [Option.map_some, htarget] at hread
    revert hread
    decide +kernel
  . intro _
    decide +kernel

theorem not_forall_always_notBanned
    : ¬ ∀ (nodeId : Bytes) (key pbftKey : Bytes) (settings : Settings) (steps : List Step),
        Run.Always act (fun node => node.nodeId ∉ node.pbft.bannedPeers)
          (new .plain nodeId key pbftKey settings) steps := by
  intro h
  have hrun := h (bytes "A") (bytes "A") (bytes "A") { peerKeys := some (bytes "B:-----BEGIN") }
    [banProposal "A"]
  have hlast := hrun.2
  revert hlast
  simp only [Run.Always]
  decide +kernel

end MeshNode
end NeuroMesh
