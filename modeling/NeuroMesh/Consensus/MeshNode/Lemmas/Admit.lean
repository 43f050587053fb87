import NeuroMesh.Consensus.MeshNode.Lemmas.Calls
import NeuroMesh.Consensus.PeerManager.Contact

namespace NeuroMesh

namespace PeerManager

variable {m : PeerManager} {peerId publicKeyPem : Bytes} {pathFlag : UInt8}

def IsPath (pathFlag : UInt8) : Prop :=
  pathFlag = pathBeacon ∨ pathFlag = pathAnnounce

theorem fst_confirmPath_congr {m' : PeerManager} (hpeers : m'.peers = m.peers)
    (hkeys : m'.preProvisionedKeys = m.preProvisionedKeys)
    : (m'.confirmPath peerId pathFlag publicKeyPem).1 = (m.confirmPath peerId pathFlag publicKeyPem).1 := by
  unfold confirmPath
  rw [hpeers, hkeys]
  split
  . rfl
  . split
    . split <;> rfl
    . split
      . split <;> rfl
      . split <;> rfl

theorem dualConfirmed_confirmPath_of_fresh (hpath : IsPath pathFlag) {entry : PeerEntry}
    (hentry : m.peers[peerId]? = some entry) (hfresh : entry.confirmedPaths = 0)
    : (m.confirmPath peerId pathFlag publicKeyPem).1.dualConfirmed = false := by
  have hconfirm : (m.confirmEntry peerId entry pathFlag publicKeyPem).1.dualConfirmed = false := by
    unfold confirmEntry
    dsimp only
    rw [confirmedPaths_fillKey]
    dsimp only
    rw [hfresh]
    rcases hpath with rfl | rfl
    . decide
    . decide
  unfold confirmPath
  rw [hentry]
  dsimp only
  split
  . split
    . rfl
    . exact hconfirm
  . split
    . next hflag => simp [hfresh] at hflag
    . split
      . rfl
      . exact hconfirm

theorem dualConfirmed_confirmPath_addPeer {m' : PeerManager} (hpeers : m'.peers = m.peers)
    (hkeys : m'.preProvisionedKeys = m.preProvisionedKeys) (hpath : IsPath pathFlag) (now : Time)
    (ip pem : Bytes) (tcpPort tlsPort : Int)
    : ((m'.addPeer now peerId ip tcpPort tlsPort pem).2.confirmPath peerId pathFlag
        publicKeyPem).1.dualConfirmed
        =
      (m.confirmPath peerId pathFlag publicKeyPem).1.dualConfirmed := by
  rw [← fst_confirmPath_congr hpeers hkeys]
  unfold addPeer
  split
  . rfl
  . next hnew =>
    have hnone : (m'.confirmPath peerId pathFlag publicKeyPem).1.dualConfirmed = false := by
      unfold confirmPath
      rw [Std.ExtTreeMap.getElem?_eq_none hnew]
    rw [hnone]
    apply dualConfirmed_confirmPath_of_fresh hpath
    . exact Std.ExtTreeMap.getElem?_insert_self
    . rfl

theorem dualConfirmed_of_keyMismatch
    (h : (m.confirmPath peerId pathFlag publicKeyPem).1.keyMismatch = true)
    : (m.confirmPath peerId pathFlag publicKeyPem).1.dualConfirmed = false := by
  have hcases : (m.confirmPath peerId pathFlag publicKeyPem).1 = ⟨false, true⟩
      ∨ (m.confirmPath peerId pathFlag publicKeyPem).1.keyMismatch = false := by
    unfold confirmPath
    split
    . exact .inr rfl
    . split
      . split
        . exact .inl rfl
        . exact .inr rfl
      . split
        . split
          . exact .inl rfl
          . exact .inr rfl
        . split
          . exact .inl rfl
          . exact .inr rfl
  rcases hcases with heq | hnot
  . rw [heq]
  . rw [hnot] at h
    contradiction

theorem snd_checkRateLimit (m : PeerManager) (a : Ambient) (ip : Bytes)
    : ∃ rateLimits, (m.checkRateLimit a ip).2 = { m with rateLimits } := by
  unfold checkRateLimit
  extract_lets
  split
  . exact ⟨_, rfl⟩
  . exact ⟨_, rfl⟩

end PeerManager

namespace MeshNode

open PeerManager (IsPath)
open PBFTConsensus (Leaves)

variable {C : IdentityCore}

structure Introduction where
  peerId : Bytes
  pem : Bytes
  path : UInt8
deriving DecidableEq

def introducedByAnnounce (node : MeshNode C) (msg : Bytes) : Option Introduction :=
  let tokens := splitString msg pipe
  if tokens.head? = some (bytes "ANNOUNCE") then
    (node.parseAnnounce tokens).map fun (peerId, pem) => ⟨peerId, pem, pathAnnounce⟩
  else
    none

def introducedByBeacon (node : MeshNode C) (now : Time) (msg : Bytes) : Option Introduction :=
  if bytes "TELEMETRY|" <+: msg then
    none
  else
    match parseBeacon (splitString msg pipe) with
    | none => none
    | some beacon =>
      let fingerprint := beacon.tlsFingerprint.getD []
      if node.acceptsBeacon now beacon
          ∧ (fingerprint = [] ∨ node.peerManager.verifyTlsCert beacon.peerId fingerprint) then
        some ⟨beacon.peerId, beacon.pem, pathBeacon⟩
      else
        none

def introduction (node : MeshNode C) (step : Step) : Option Introduction :=
  match step.action with
  | .message msg senderIp =>
    if (node.peerManager.checkRateLimit (step.env 0) senderIp).1 && validateMessage msg then
      node.introducedByAnnounce msg
    else
      none
  | .discovery msg senderIp =>
    if (node.peerManager.checkRateLimit (step.env 0) senderIp).1 then
      node.introducedByBeacon (step.env.right 0).now msg
    else
      none
  | _ => none

def completes (node : MeshNode C) (intro : Introduction) : Bool :=
  (node.peerManager.confirmPath intro.peerId intro.path intro.pem).1.dualConfirmed

def welcome (node : MeshNode C) (intro : Introduction) : PBFTConsensus C :=
  if node.completes intro && !node.pbft.hasPeer intro.peerId then
    (node.pbft.registerPeerKey intro.peerId intro.pem).incrementPeers
  else
    node.pbft

section Admit

variable {node : MeshNode C} {intro : Introduction}

theorem welcome_of_not_completes (h : node.completes intro = false) : node.welcome intro = node.pbft := by
  unfold welcome
  rw [h]
  rfl

theorem pbft_registerConfirmed (start : MeshNode C) {confirm : PathConfirmResult}
    (hpbft : start.pbft = node.pbft) (hdual : confirm.dualConfirmed = node.completes intro)
    : (start.registerConfirmed confirm intro.peerId intro.pem).pbft = node.welcome intro := by
  unfold registerConfirmed welcome
  rw [hpbft, hdual]
  split
  . rfl
  . exact hpbft

theorem welcome_congr {start : MeshNode C} (hpbft : start.pbft = node.pbft)
    (hpeers : start.peerManager.peers = node.peerManager.peers)
    (hkeys : start.peerManager.preProvisionedKeys = node.peerManager.preProvisionedKeys)
    : start.welcome intro = node.welcome intro := by
  unfold welcome completes
  rw [hpbft, PeerManager.fst_confirmPath_congr hpeers hkeys]

end Admit

theorem pbft_processAnnounce_of_some {node : MeshNode C} {tokens : List Bytes} {peerId pem : Bytes}
    (h : node.parseAnnounce tokens = some (peerId, pem)) (env : Env) (senderIp : Bytes)
    : (node.processAnnounce env tokens senderIp).pbft = node.welcome ⟨peerId, pem, pathAnnounce⟩ := by
  unfold processAnnounce
  rw [h]
  have hdual : (meetAnnounce node.peerManager (env 0).now peerId pem senderIp).1.dualConfirmed
      = node.completes ⟨peerId, pem, pathAnnounce⟩ :=
    PeerManager.dualConfirmed_confirmPath_addPeer
      (show (node.peerManager.addKnownIp peerId).peers = node.peerManager.peers from rfl) rfl (.inr rfl)
      (env 0).now senderIp pem 0 0
  have hregister : ∀ start : MeshNode C, start.pbft = node.pbft → _ = _ :=
    fun start hstart => pbft_registerConfirmed start hstart hdual
  dsimp only
  split
  . next hmismatch =>
    have hfalse : (meetAnnounce node.peerManager (env 0).now peerId pem senderIp).1.dualConfirmed = false :=
      PeerManager.dualConfirmed_of_keyMismatch hmismatch
    rw [hfalse] at hdual
    exact (welcome_of_not_completes hdual.symm).symm
  . split
    . exact hregister { node with peerManager := _ } rfl
    . split
      . exact hregister { node with peerManager := _ } rfl
      . exact hregister { node with peerManager := _ } rfl

theorem peers_pinBeacon (m : PeerManager) (beacon : Beacon) : (pinBeacon m beacon).peers = m.peers := by
  unfold pinBeacon
  dsimp only
  split <;> rfl

theorem preProvisionedKeys_pinBeacon (m : PeerManager) (beacon : Beacon)
    : (pinBeacon m beacon).preProvisionedKeys = m.preProvisionedKeys := by
  unfold pinBeacon
  dsimp only
  split <;> rfl

theorem dualConfirmed_meetBeacon (m : PeerManager) (now : Time) (beacon : Beacon) (senderIp : Bytes)
    : (meetBeacon m now beacon senderIp).1.dualConfirmed
        =
      (m.confirmPath beacon.peerId pathBeacon beacon.pem).1.dualConfirmed := by
  exact PeerManager.dualConfirmed_confirmPath_addPeer (peers_pinBeacon m beacon)
    (preProvisionedKeys_pinBeacon m beacon) (.inl rfl) _ _ _ _ _

section Beacon

variable {node : MeshNode C}

theorem processBeacon_of_not_passes {env : Env} {beacon : Beacon}
    (h : node.passesBeacon (env 0).now beacon = false) (dial : Dial) (senderIp : Bytes)
    : node.processBeacon env dial beacon senderIp = node := by
  unfold processBeacon
  rw [h]
  rfl

theorem processBeacon_of_keyMismatch {env : Env} {beacon : Beacon} {senderIp : Bytes}
    (hpasses : node.passesBeacon (env 0).now beacon = true)
    (h : (meetBeacon node.peerManager (env 1).now beacon senderIp).1.keyMismatch = true) (dial : Dial)
    : node.processBeacon env dial beacon senderIp
        =
      { node with peerManager := (meetBeacon node.peerManager (env 1).now beacon senderIp).2 } := by
  unfold processBeacon
  rw [hpasses]
  exact if_pos h

theorem addPeer_fst (m : PeerManager) (now : Time) (peerId ip : Bytes) (tcpPort tlsPort : Int) (pem : Bytes)
    : (m.addPeer now peerId ip tcpPort tlsPort pem).1 = !m.hasPeer peerId := by
  unfold PeerManager.addPeer PeerManager.hasPeer
  split
  . next h => simp [h]
  . next h => simp [h]

theorem processBeacon_of_keyMatch {env : Env} {beacon : Beacon} {senderIp : Bytes}
    (hpasses : node.passesBeacon (env 0).now beacon = true)
    (h : (meetBeacon node.peerManager (env 1).now beacon senderIp).1.keyMismatch = false) (dial : Dial)
    : node.processBeacon env dial beacon senderIp
        =
      node.admitBeacon env dial beacon senderIp (!node.peerManager.hasPeer beacon.peerId)
        (meetBeacon node.peerManager (env 1).now beacon senderIp) := by
  have hnew : (pinBeacon node.peerManager beacon).hasPeer beacon.peerId
      = node.peerManager.hasPeer beacon.peerId := by
    unfold PeerManager.hasPeer
    rw [peers_pinBeacon]
  rw [← hnew, ← addPeer_fst _ (env 1).now beacon.peerId senderIp beacon.tcpPort beacon.tlsPort beacon.pem]
  unfold processBeacon
  rw [hpasses]
  rw [← Bool.not_eq_true] at h
  exact if_neg h

end Beacon

theorem pbft_admitBeacon {node : MeshNode C} {beacon : Beacon} {met : PathConfirmResult × PeerManager}
    (hdual : met.1.dualConfirmed = node.completes ⟨beacon.peerId, beacon.pem, pathBeacon⟩) (env : Env)
    (dial : Dial) (senderIp : Bytes) (isNew : Bool)
    : (node.admitBeacon env dial beacon senderIp isNew met).pbft
        =
      node.welcome ⟨beacon.peerId, beacon.pem, pathBeacon⟩ := by
  unfold admitBeacon
  extract_lets start trusted registered
  have htrusted : trusted.pbft = node.pbft := start.pbft_trustCert _ _
  have hregistered : registered.pbft = node.welcome ⟨beacon.peerId, beacon.pem, pathBeacon⟩ :=
    pbft_registerConfirmed trusted htrusted hdual
  split
  . split
    . rw [keptByExchange_pbft.performPexHandshake]
      exact hregistered
    . exact hregistered
  . next hno =>
    rw [Bool.or_eq_true, not_or, Bool.not_eq_true, Bool.not_eq_true] at hno
    rw [hno.2] at hdual
    exact (welcome_of_not_completes hdual.symm).symm

theorem pbft_processBeacon (node : MeshNode C) (env : Env) (dial : Dial) (beacon : Beacon)
    (senderIp : Bytes)
    : let fingerprint := beacon.tlsFingerprint.getD []
      (node.processBeacon env dial beacon senderIp).pbft
        =
      if node.acceptsBeacon (env 0).now beacon
          ∧ (fingerprint = [] ∨ node.peerManager.verifyTlsCert beacon.peerId fingerprint) then
        node.welcome ⟨beacon.peerId, beacon.pem, pathBeacon⟩
      else
        node.pbft := by
  intro fingerprint
  have hdual : _ = node.completes ⟨beacon.peerId, beacon.pem, pathBeacon⟩ :=
    dualConfirmed_meetBeacon node.peerManager (env 1).now beacon senderIp
  cases hpasses : node.passesBeacon (env 0).now beacon with
  | false => rw [processBeacon_of_not_passes hpasses, if_neg (of_decide_eq_false hpasses)]
  | true =>
    rw [if_pos (of_decide_eq_true hpasses)]
    cases hmismatch : (meetBeacon node.peerManager (env 1).now beacon senderIp).1.keyMismatch with
    | true =>
      have hfalse : (meetBeacon node.peerManager (env 1).now beacon senderIp).1.dualConfirmed = false :=
        PeerManager.dualConfirmed_of_keyMismatch hmismatch
      rw [hfalse] at hdual
      rw [processBeacon_of_keyMismatch hpasses hmismatch]
      exact (welcome_of_not_completes hdual.symm).symm
    | false =>
      rw [processBeacon_of_keyMatch hpasses hmismatch]
      exact pbft_admitBeacon hdual env dial senderIp _

theorem parseAnnounce_of_length_lt (node : MeshNode C) {tokens : List Bytes} (h : tokens.length < 3)
    : node.parseAnnounce tokens = none := by
  unfold parseAnnounce
  split
  . simp at h
    omega
  . rfl

def readMessage (node : MeshNode C) (env : Env) (msg senderIp : Bytes) : MeshNode C :=
  let tokens := splitString msg pipe
  if tokens.length < 3 then
    node
  else if tokens.head? = some (bytes "ANNOUNCE") then
    node.processAnnounce env tokens senderIp
  else if tokens.head? = some (bytes "VOTE") then
    match parseVote node.maxEvidenceSize tokens with
    | none => node
    | some incoming => node.processVote env incoming
  else
    node

def afterLimit (node : MeshNode C) (env : Env) (senderIp : Bytes) : MeshNode C :=
  { node with peerManager := (node.peerManager.checkRateLimit (env 0) senderIp).2 }

theorem processMessage_eq (node : MeshNode C) (env : Env) (msg senderIp : Bytes)
    : node.processMessage env msg senderIp
        =
      if (node.peerManager.checkRateLimit (env 0) senderIp).1 && validateMessage msg then
        (node.afterLimit env senderIp).readMessage env.right msg senderIp
      else
        node.afterLimit env senderIp := by
  unfold processMessage afterLimit
  cases node.peerManager.checkRateLimit (env 0) senderIp with
  | mk passes peerManager =>
    cases passes with
    | false => rfl
    | true =>
      cases validateMessage msg with
      | false => rfl
      | true => rfl

theorem processDiscovery_eq (node : MeshNode C) (env : Env) (dial : Dial) (msg senderIp : Bytes)
    : node.processDiscovery env dial msg senderIp
        =
      if (node.peerManager.checkRateLimit (env 0) senderIp).1 then
        if bytes "TELEMETRY|" <+: msg then
          node.afterLimit env senderIp
        else
          (node.afterLimit env senderIp).processDiscoveryBeacon env.right dial msg senderIp
      else
        node.afterLimit env senderIp := by
  unfold processDiscovery afterLimit
  cases node.peerManager.checkRateLimit (env 0) senderIp with
  | mk passes peerManager =>
    cases passes with
    | false => rfl
    | true => rfl

theorem welcome_afterLimit (node : MeshNode C) (env : Env) (senderIp : Bytes) (intro : Introduction)
    : (node.afterLimit env senderIp).welcome intro = node.welcome intro := by
  obtain ⟨rateLimits, heq⟩ := node.peerManager.snd_checkRateLimit (env 0) senderIp
  unfold afterLimit
  rw [heq]
  exact welcome_congr rfl rfl rfl

theorem introducedByBeacon_afterLimit (node : MeshNode C) (env : Env) (senderIp : Bytes) (now : Time)
    (msg : Bytes)
    : (node.afterLimit env senderIp).introducedByBeacon now msg = node.introducedByBeacon now msg := by
  obtain ⟨rateLimits, heq⟩ := node.peerManager.snd_checkRateLimit (env 0) senderIp
  unfold afterLimit
  rw [heq]
  rfl

theorem readMessage_cases (node : MeshNode C) (env : Env) (msg senderIp : Bytes)
    : (∃ tokens peerId pem, node.parseAnnounce tokens = some (peerId, pem)
        ∧ node.introducedByAnnounce msg = some ⟨peerId, pem, pathAnnounce⟩
        ∧ node.readMessage env msg senderIp = node.processAnnounce env tokens senderIp)
      ∨ (node.introducedByAnnounce msg = none
        ∧ (node.readMessage env msg senderIp = node
          ∨ ∃ vote, node.readMessage env msg senderIp = node.processVote env vote)) := by
  unfold readMessage introducedByAnnounce
  dsimp only
  generalize splitString msg pipe = tokens
  by_cases hhead : tokens.head? = some (bytes "ANNOUNCE")
  . rw [if_pos hhead, if_pos hhead]
    cases hparse : node.parseAnnounce tokens with
    | none =>
      refine .inr ⟨rfl, .inl ?_⟩
      unfold processAnnounce
      rw [hparse]
      split <;> rfl
    | some announced =>
      have hlength : ¬tokens.length < 3 := by
        intro hshort
        rw [node.parseAnnounce_of_length_lt hshort] at hparse
        contradiction
      rw [if_neg hlength]
      exact .inl ⟨tokens, _, _, hparse, rfl, rfl⟩
  . rw [if_neg hhead, if_neg hhead]
    refine .inr ⟨rfl, ?_⟩
    split
    . exact .inl rfl
    . split
      . split
        . exact .inl rfl
        . exact .inr ⟨_, rfl⟩
      . exact .inl rfl

theorem pbft_readMessage (node : MeshNode C) (env : Env) (msg senderIp : Bytes)
    : match node.introducedByAnnounce msg with
      | some intro => (node.readMessage env msg senderIp).pbft = node.welcome intro
      | none => Leaves node.pbft (node.readMessage env msg senderIp).pbft := by
  rcases node.readMessage_cases env msg senderIp with ⟨_, _, _, hparse, hintro, heq⟩ | ⟨hnone, heq | ⟨vote, heq⟩⟩
  . rw [hintro, heq]
    exact pbft_processAnnounce_of_some hparse env senderIp
  . rw [hnone, heq]
    apply Run.Reaches.refl
  . rw [hnone, heq]
    apply PBFTConsensus.Votes.leaves
    apply keptByVoting_votes.processVote
    intro time
    apply Run.Reaches.refl

theorem pbft_processMessage (node : MeshNode C) (env : Env) (dial : Dial) (msg senderIp : Bytes)
    : match node.introduction ⟨env, dial, .message msg senderIp⟩ with
      | some intro => (node.processMessage env msg senderIp).pbft = node.welcome intro
      | none => Leaves node.pbft (node.processMessage env msg senderIp).pbft := by
  unfold introduction
  rw [processMessage_eq]
  dsimp only
  cases (node.peerManager.checkRateLimit (env 0) senderIp).1 && validateMessage msg with
  | false => apply Run.Reaches.refl
  | true =>
    have hread := (node.afterLimit env senderIp).pbft_readMessage env.right msg senderIp
    simp only [welcome_afterLimit] at hread
    exact hread

theorem pbft_processDiscoveryBeacon (node : MeshNode C) (env : Env) (dial : Dial) {msg : Bytes}
    (senderIp : Bytes) (h : ¬bytes "TELEMETRY|" <+: msg)
    : (node.processDiscoveryBeacon env dial msg senderIp).pbft
        =
      match node.introducedByBeacon (env 0).now msg with
      | some intro => node.welcome intro
      | none => node.pbft := by
  unfold introducedByBeacon processDiscoveryBeacon
  rw [if_neg h]
  cases parseBeacon (splitString msg pipe) with
  | none => rfl
  | some beacon =>
    dsimp only
    rw [pbft_processBeacon]
    split <;> rfl

theorem pbft_processDiscovery (node : MeshNode C) (env : Env) (dial : Dial) (msg senderIp : Bytes)
    : (node.processDiscovery env dial msg senderIp).pbft
        =
      match node.introduction ⟨env, dial, .discovery msg senderIp⟩ with
      | some intro => node.welcome intro
      | none => node.pbft := by
  unfold introduction
  rw [processDiscovery_eq]
  dsimp only
  split
  . split
    . next h =>
      unfold introducedByBeacon
      rw [if_pos h]
      rfl
    . next h =>
      rw [pbft_processDiscoveryBeacon _ env.right dial senderIp h]
      simp only [introducedByBeacon_afterLimit, welcome_afterLimit]
      rfl
  . rfl

theorem leaves_act {node : MeshNode C} {step : Step} (h : node.introduction step = none)
    : Leaves node.pbft (node.act step).pbft := by
  obtain ⟨env, dial, action⟩ := step
  unfold act
  cases action with
  | message msg senderIp =>
    have hmessage := node.pbft_processMessage env dial msg senderIp
    rw [h] at hmessage
    exact hmessage
  | discovery msg senderIp =>
    have hdiscovery := node.pbft_processDiscovery env dial msg senderIp
    rw [h] at hdiscovery
    dsimp only
    rw [hdiscovery]
    apply Run.Reaches.refl
  | pex msg =>
    dsimp only
    rw [keptByExchange_pbft.processPex]
    apply Run.Reaches.refl
  | pruneStalePeers => apply leaves_pruneStalePeers
  | checkStalledRounds => apply leaves_checkStalledRounds_go
  | proposeRecentBans =>
    apply (node.pbft.leaves_single ⟨env 0, .drainRecentBans⟩ trivial).trans
    apply PBFTConsensus.Votes.leaves
    apply keptByVoting_votes.proposeRecentBans_go { node with pbft := _ }
  | initiateConsensus targetId evidenceJson =>
    apply PBFTConsensus.Votes.leaves
    apply keptByVoting_votes.initiateConsensus
    intro node peerManager
    apply Run.Reaches.refl
  | proposeBan targetId reason =>
    apply PBFTConsensus.Votes.leaves
    apply keptByVoting_votes.proposeBan
  | unpinPeerKey nodeId =>
    dsimp only
    unfold unpinPeerKey
    split <;> apply Run.Reaches.refl

theorem pbft_act {node : MeshNode C} {step : Step} {intro : Introduction}
    (h : node.introduction step = some intro)
    : (node.act step).pbft = node.welcome intro := by
  obtain ⟨env, dial, action⟩ := step
  cases action with
  | message msg senderIp =>
    have hmessage := node.pbft_processMessage env dial msg senderIp
    rw [h] at hmessage
    exact hmessage
  | discovery msg senderIp =>
    have hdiscovery := node.pbft_processDiscovery env dial msg senderIp
    rw [h] at hdiscovery
    exact hdiscovery
  | _ => contradiction

end MeshNode

end NeuroMesh
