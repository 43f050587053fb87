import NeuroMesh.Consensus.MeshNode.Lemmas.Admit
import NeuroMesh.Consensus.MeshNode.Lemmas.Membership

namespace NeuroMesh

inductive Contact.Moves (pruned : Bool) (c : Option Contact) : Option Contact → Prop where
  | keep : Moves pruned c c
  | listed (h : c = none) : Moves pruned c (some {})
  | pruned (h : pruned = true) : Moves pruned c none

namespace PeerManager

variable {m m' : PeerManager}

structure Spares (pruned : Bool) (p : Bytes) (m m' : PeerManager) : Prop where
  contact : Contact.Moves pruned (m.contact? p) (m'.contact? p)
  pin : m'.pin p = m.pin p
  preProvisionedKeys : m'.preProvisionedKeys = m.preProvisionedKeys

theorem Spares.refl (pruned : Bool) (p : Bytes) (m : PeerManager) : Spares pruned p m m := by
  exact ⟨.keep, rfl, rfl⟩

structure Lists (m m' : PeerManager) : Prop where
  contact : ∀ p, m'.contact? p = m.contact? p ∨ m.contact? p = none ∧ m'.contact? p = some {}
  tofuTrust : m'.tofuTrust = m.tofuTrust
  preProvisionedKeys : m'.preProvisionedKeys = m.preProvisionedKeys

namespace Lists

theorem of_peers_eq (hpeers : m'.peers = m.peers) (htofu : m'.tofuTrust = m.tofuTrust)
    (hkeys : m'.preProvisionedKeys = m.preProvisionedKeys)
    : Lists m m' := by
  constructor
  . intro p
    unfold contact?
    rw [hpeers]
    exact .inl rfl
  . exact htofu
  . exact hkeys

theorem refl (m : PeerManager) : Lists m m := by
  exact of_peers_eq rfl rfl rfl

theorem trans {m'' : PeerManager} (h₁ : Lists m m') (h₂ : Lists m' m'') : Lists m m'' := by
  constructor
  . intro p
    rcases h₂.contact p with heq | ⟨hnone, hlisted⟩
    . rw [heq]
      exact h₁.contact p
    . rcases h₁.contact p with heq | ⟨_, hsome⟩
      . exact .inr ⟨heq ▸ hnone, hlisted⟩
      . rw [hnone] at hsome
        contradiction
  . rw [h₂.tofuTrust, h₁.tofuTrust]
  . rw [h₂.preProvisionedKeys, h₁.preProvisionedKeys]

theorem contact?_eq (h : Lists m m') {p : Bytes} {c : Contact} (hc : m.contact? p = some c)
    : m'.contact? p = some c := by
  rcases h.contact p with heq | ⟨hnone, _⟩
  . rw [heq, hc]
  . rw [hnone] at hc
    contradiction

theorem spares (h : Lists m m') (pruned : Bool) (p : Bytes) : Spares pruned p m m' := by
  constructor
  . rcases h.contact p with heq | ⟨hnone, hlisted⟩
    . rw [heq]
      exact .keep
    . rw [hlisted]
      exact .listed hnone
  . unfold pin
    rw [h.tofuTrust]
  . exact h.preProvisionedKeys

end Lists

theorem lists_addPeer (m : PeerManager) (now : Time) (peerId ip : Bytes) (tcpPort tlsPort : Int)
    : Lists m (m.addPeer now peerId ip tcpPort tlsPort []).2 := by
  constructor
  . intro p
    rw [contact?_addPeer]
    split
    . cases m.contact? p with
      | none => exact .inr ⟨rfl, rfl⟩
      | some c => exact .inl rfl
    . exact .inl rfl
  . apply tofuTrust_addPeer
  . apply preProvisionedKeys_addPeer

theorem lists_checkRateLimit (m : PeerManager) (a : Ambient) (ip : Bytes)
    : Lists m (m.checkRateLimit a ip).2 := by
  obtain ⟨rateLimits, heq⟩ := m.snd_checkRateLimit a ip
  rw [heq]
  exact .of_peers_eq rfl rfl rfl

end PeerManager

namespace MeshNode

open PeerManager (Lists)

variable {C : IdentityCore}

section Pex

variable (node : MeshNode C) (env : Env) (dial : Dial)

theorem lists_performPexHandshake_go (peers : List (Bytes × Bytes × Int))
    : Lists node.peerManager (performPexHandshake.go node env peers).peerManager := by
  induction peers generalizing node env with
  | nil => apply Lists.refl
  | cons peer peers ih =>
    unfold performPexHandshake.go
    refine Lists.trans ?_ (ih _ _)
    split
    . apply PeerManager.lists_addPeer
    . apply Lists.refl

theorem lists_performPexHandshake (ip : Bytes) (port : Int) (expectedPeerId : Bytes)
    : Lists node.peerManager
        (node.performPexHandshake env dial ip port expectedPeerId).peerManager := by
  unfold performPexHandshake
  dsimp only
  split
  . apply Lists.refl
  . split
    . apply Lists.refl
    . apply lists_performPexHandshake_go

theorem lists_processPex_go (peers : List (Bytes × Bytes × Int))
    : Lists node.peerManager (processPex.go dial node env peers).peerManager := by
  induction peers generalizing node env with
  | nil => apply Lists.refl
  | cons peer peers ih =>
    obtain ⟨peerId, ip, port⟩ := peer
    unfold processPex.go
    refine Lists.trans ?_ (ih _ _)
    have hadd := node.peerManager.lists_addPeer (env 0).now peerId ip port 0
    split
    . split
      . next heq =>
        rw [heq] at hadd
        apply hadd.trans
        apply lists_performPexHandshake { node with peerManager := _ }
      . next heq =>
        rw [heq] at hadd
        exact hadd
    . apply Lists.refl

end Pex

section Introduce

variable {node : MeshNode C}

@[simp]
theorem peerManager_registerConfirmed (node : MeshNode C) (confirm : PathConfirmResult) (peerId pem : Bytes)
    : (node.registerConfirmed confirm peerId pem).peerManager = node.peerManager := by
  unfold registerConfirmed
  split <;> rfl

@[simp]
theorem peerManager_trustCert (node : MeshNode C) (confirm : PathConfirmResult) (beacon : Beacon)
    : (node.trustCert confirm beacon).peerManager = node.peerManager := by
  unfold trustCert
  split <;> rfl

theorem peerManager_processAnnounce {tokens : List Bytes} {peerId pem : Bytes}
    (h : node.parseAnnounce tokens = some (peerId, pem)) (env : Env) (senderIp : Bytes)
    : (node.processAnnounce env tokens senderIp).peerManager
        =
      (((node.peerManager.addKnownIp peerId).addPeer (env 0).now peerId senderIp 0 0 pem).2.confirmPath
        peerId pathAnnounce pem).2 := by
  unfold processAnnounce
  rw [h]
  dsimp only
  split
  . rfl
  . split
    . exact peerManager_registerConfirmed _ _ _ _
    . split
      . exact peerManager_registerConfirmed _ _ _ _
      . exact peerManager_registerConfirmed _ _ _ _

theorem lists_admitBeacon (env : Env) (dial : Dial) (beacon : Beacon) (senderIp : Bytes) (isNew : Bool)
    (met : PathConfirmResult × PeerManager)
    : Lists (refreshBeacon met.2 (env 2).now beacon senderIp isNew)
        (node.admitBeacon env dial beacon senderIp isNew met).peerManager := by
  unfold admitBeacon
  generalize refreshBeacon met.2 (env 2).now beacon senderIp isNew = m
  extract_lets start trusted registered
  have hregistered : registered.peerManager = m := by
    unfold registered trusted
    rw [peerManager_registerConfirmed, peerManager_trustCert]
  split
  . split
    . rw [← hregistered]
      apply lists_performPexHandshake
    . rw [hregistered]
      apply Lists.refl
  . apply Lists.refl

theorem contact?_pinBeacon (m : PeerManager) (beacon : Beacon) (p : Bytes)
    : (pinBeacon m beacon).contact? p = m.contact? p := by
  unfold PeerManager.contact?
  rw [peers_pinBeacon]

theorem contact?_meetBeacon (m : PeerManager) (now : Time) (beacon : Beacon) (senderIp p : Bytes)
    : (meetBeacon m now beacon senderIp).2.contact? p
        =
      if beacon.peerId = p then
        some (.meet (m.contact? p) m.preProvisionedKeys[p]? pathBeacon beacon.pem)
      else
        m.contact? p := by
  unfold meetBeacon addBeacon
  rw [PeerManager.contact?_confirmPath_addPeer, contact?_pinBeacon, preProvisionedKeys_pinBeacon]

theorem keyMismatch_meetBeacon (m : PeerManager) (now : Time) (beacon : Beacon) (senderIp : Bytes)
    : (meetBeacon m now beacon senderIp).1.keyMismatch
        =
      ((m.contact? beacon.peerId).getD (.fresh beacon.pem)).refuses m.preProvisionedKeys[beacon.peerId]?
        pathBeacon beacon.pem := by
  unfold meetBeacon addBeacon
  rw [PeerManager.keyMismatch_confirmPath_addPeer, contact?_pinBeacon, preProvisionedKeys_pinBeacon]

theorem preProvisionedKeys_meetBeacon (m : PeerManager) (now : Time) (beacon : Beacon) (senderIp : Bytes)
    : (meetBeacon m now beacon senderIp).2.preProvisionedKeys = m.preProvisionedKeys := by
  unfold meetBeacon addBeacon
  rw [PeerManager.preProvisionedKeys_confirmPath, PeerManager.preProvisionedKeys_addPeer,
    preProvisionedKeys_pinBeacon]

theorem tofuTrust_meetBeacon (m : PeerManager) (now : Time) (beacon : Beacon) (senderIp : Bytes)
    : (meetBeacon m now beacon senderIp).2.tofuTrust = (pinBeacon m beacon).tofuTrust := by
  unfold meetBeacon addBeacon
  rw [PeerManager.tofuTrust_confirmPath, PeerManager.tofuTrust_addPeer]

theorem lists_refreshBeacon {m : PeerManager} {beacon : Beacon} {c : Contact}
    (hc : m.contact? beacon.peerId = some c) (hkey : c.key ≠ []) (now : Time) (senderIp : Bytes)
    (isNew : Bool)
    : Lists m (refreshBeacon m now beacon senderIp isNew) := by
  unfold refreshBeacon refreshPeer
  dsimp only
  split
  . apply Lists.refl
  . split
    . apply Lists.refl
    . constructor
      . intro p
        rw [PeerManager.contact?_updatePeerHeartbeat]
        split
        . next heq =>
          subst heq
          rw [hc, Option.map_some, Contact.fill_of_ne_nil hkey]
          exact .inl rfl
        . exact .inl rfl
      . apply PeerManager.tofuTrust_updatePeerHeartbeat
      . apply PeerManager.preProvisionedKeys_updatePeerHeartbeat

theorem pem_ne_nil_of_acceptsBeacon {now : Time} {beacon : Beacon}
    (h : node.acceptsBeacon now beacon = true)
    : beacon.pem ≠ [] := by
  unfold acceptsBeacon at h
  simp only [Bool.and_eq_true, decide_eq_true_eq] at h
  exact h.1.1.1.2

theorem pem_ne_nil_of_passesBeacon {now : Time} {beacon : Beacon} (h : node.passesBeacon now beacon = true)
    : beacon.pem ≠ [] := by
  unfold passesBeacon at h
  rw [decide_eq_true_iff] at h
  exact pem_ne_nil_of_acceptsBeacon h.1

theorem lists_processBeacon {env : Env} {beacon : Beacon}
    (hpasses : node.passesBeacon (env 0).now beacon = true) (dial : Dial) (senderIp : Bytes)
    : Lists (meetBeacon node.peerManager (env 1).now beacon senderIp).2
        (node.processBeacon env dial beacon senderIp).peerManager := by
  cases hmismatch : (meetBeacon node.peerManager (env 1).now beacon senderIp).1.keyMismatch with
  | true =>
    rw [processBeacon_of_keyMismatch hpasses hmismatch]
    apply Lists.refl
  | false =>
    have hcontact := contact?_meetBeacon node.peerManager (env 1).now beacon senderIp beacon.peerId
    rw [if_pos rfl] at hcontact
    rw [keyMismatch_meetBeacon] at hmismatch
    have hkey := Contact.key_confirm_ne_nil hmismatch (pem_ne_nil_of_passesBeacon hpasses)
    rw [processBeacon_of_keyMatch hpasses (by rwa [keyMismatch_meetBeacon])]
    apply (lists_refreshBeacon hcontact hkey _ _ _).trans
    apply lists_admitBeacon

end Introduce

section Consensus

variable (node : MeshNode C) (env : Env)

theorem keptByVoting_peerManager
    : KeptByVoting fun node node' : MeshNode C => node'.peerManager = node.peerManager where
  refl _ := rfl
  trans h₁ h₂ := h₂.trans h₁
  emit _ _ _ := rfl
  banPeerLocal _ _ _ := rfl
  receive node env msg := node.peerManager_receive env msg
  afterSend _ _ _ _ _ := rfl

theorem lists_initiateConsensus (targetId evidenceJson : Bytes)
    : Lists node.peerManager (node.initiateConsensus env targetId evidenceJson).peerManager := by
  unfold initiateConsensus
  dsimp only
  split
  . apply Lists.refl
  . rw [keptByVoting_peerManager.broadcastPbftStage]
    exact .of_peers_eq rfl rfl rfl

theorem peerManager_checkStalledRounds_go (peerIds : List Bytes)
    : (checkStalledRounds.go node env peerIds).peerManager = node.peerManager := by
  induction peerIds generalizing node env with
  | nil => rfl
  | cons peerId peerIds ih =>
    unfold checkStalledRounds.go
    rw [ih]
    split <;> rfl

theorem peerManager_foldl_pruneStalePeer (peerIds : List Bytes)
    : (peerIds.foldl pruneStalePeer node).peerManager
        =
      peerIds.foldl PeerManager.removePeer node.peerManager := by
  induction peerIds generalizing node with
  | nil => rfl
  | cons peerId peerIds ih =>
    rw [List.foldl_cons, ih]
    unfold pruneStalePeer
    dsimp only
    split <;> rfl

end Consensus

end MeshNode

namespace PeerManager

theorem contact?_foldl_removePeer (m : PeerManager) (peerIds : List Bytes) (p : Bytes)
    : (peerIds.foldl removePeer m).contact? p = if p ∈ peerIds then none else m.contact? p := by
  induction peerIds generalizing m with
  | nil => rfl
  | cons peerId peerIds ih =>
    rw [List.foldl_cons, ih, contact?_removePeer]
    by_cases hmem : p ∈ peerIds
    . simp [hmem]
    . by_cases heq : peerId = p
      . simp [heq]
      . simp [hmem, heq, Ne.symm heq]

theorem foldl_removePeer_eq (m : PeerManager) (peerIds : List Bytes)
    : ∃ peers, peerIds.foldl removePeer m = { m with peers } := by
  induction peerIds generalizing m with
  | nil => exact ⟨m.peers, rfl⟩
  | cons peerId peerIds ih => exact ih (m.removePeer peerId)

end PeerManager

namespace MeshNode

variable {C : IdentityCore} {node : MeshNode C} {step : Step}

def prunes (node : MeshNode C) (step : Step) (p : Bytes) : Bool :=
  match step.action with
  | .pruneStalePeers => p ∈ node.peerManager.getStalePeers (step.env 0)
  | _ => false

structure Meets (m : PeerManager) (intro : Introduction) (m' : PeerManager) : Prop where
  contact : m'.contact? intro.peerId
    = some (.meet (m.contact? intro.peerId) m.preProvisionedKeys[intro.peerId]? intro.path intro.pem)
  pin : m.pin intro.peerId ≠ [] → m'.pin intro.peerId = m.pin intro.peerId
  others : ∀ pruned p, intro.peerId ≠ p → m.Spares pruned p m'

theorem Meets.of_lists {m met m' : PeerManager} {intro : Introduction}
    (hcontact : ∀ p, met.contact? p
      = if intro.peerId = p then
          some (.meet (m.contact? p) m.preProvisionedKeys[p]? intro.path intro.pem)
        else
          m.contact? p)
    (hself : m.pin intro.peerId ≠ [] → met.pin intro.peerId = m.pin intro.peerId)
    (hother : ∀ p, intro.peerId ≠ p → met.pin p = m.pin p)
    (hkeys : met.preProvisionedKeys = m.preProvisionedKeys) (hlists : met.Lists m')
    : Meets m intro m' := by
  have hspares (pruned : Bool) (p : Bytes) := hlists.spares pruned p
  constructor
  . apply hlists.contact?_eq
    rw [hcontact, if_pos rfl]
  . intro hpin
    rw [(hspares false _).pin, hself hpin]
  . intro pruned p hne
    have hthis := (hspares pruned p).contact
    rw [hcontact, if_neg hne] at hthis
    constructor
    . exact hthis
    . rw [(hspares pruned p).pin, hother p hne]
    . rw [(hspares pruned p).preProvisionedKeys, hkeys]

theorem meets_processAnnounce {tokens : List Bytes} {peerId pem : Bytes}
    (h : node.parseAnnounce tokens = some (peerId, pem)) (env : Env) (senderIp : Bytes)
    : Meets node.peerManager ⟨peerId, pem, pathAnnounce⟩
        (node.processAnnounce env tokens senderIp).peerManager := by
  have htofu : (node.processAnnounce env tokens senderIp).peerManager.tofuTrust = node.peerManager.tofuTrust := by
    rw [peerManager_processAnnounce h, PeerManager.tofuTrust_confirmPath, PeerManager.tofuTrust_addPeer]
    rfl
  have hpin (p : Bytes)
      : (node.processAnnounce env tokens senderIp).peerManager.pin p = node.peerManager.pin p := by
    unfold PeerManager.pin
    rw [htofu]
  refine Meets.of_lists ?_ (fun _ => hpin _) (fun p _ => hpin p) ?_ (.refl _)
  . rw [peerManager_processAnnounce h]
    exact PeerManager.contact?_confirmPath_addPeer _ _ _ _ _ _ _ _
  . rw [peerManager_processAnnounce h, PeerManager.preProvisionedKeys_confirmPath,
      PeerManager.preProvisionedKeys_addPeer]
    rfl

theorem pin_pinBeacon (m : PeerManager) (beacon : Beacon) (p : Bytes)
    : (pinBeacon m beacon).pin p
        =
      if beacon.tlsFingerprint.getD [] ≠ [] ∧ beacon.peerId = p then
        beacon.tlsFingerprint.getD []
      else
        m.pin p := by
  unfold pinBeacon
  dsimp only
  split
  . next hpresent =>
    rw [PeerManager.pin_insert]
    simp [hpresent]
  . next habsent => simp [habsent]

theorem pin_eq_of_verifyTlsCert {m : PeerManager} {peerId fingerprint : Bytes}
    (h : m.verifyTlsCert peerId fingerprint = true) (hpin : m.pin peerId ≠ [])
    : m.pin peerId = fingerprint := by
  unfold PeerManager.verifyTlsCert at h
  unfold PeerManager.pin at hpin ⊢
  rw [Std.ExtTreeMap.getD_eq_getD_getElem?] at hpin ⊢
  cases hpinned : m.tofuTrust[peerId]? with
  | none => simp [hpinned] at hpin
  | some pinned =>
    rw [hpinned] at h hpin
    simpa [show pinned ≠ [] from hpin] using h

theorem pin_meetBeacon (m : PeerManager) (now : Time) (beacon : Beacon) (senderIp p : Bytes)
    : (meetBeacon m now beacon senderIp).2.pin p = (pinBeacon m beacon).pin p := by
  unfold PeerManager.pin
  rw [tofuTrust_meetBeacon]

theorem meets_processBeacon {env : Env} {beacon : Beacon}
    (h : node.passesBeacon (env 0).now beacon = true) (dial : Dial) (senderIp : Bytes)
    : Meets node.peerManager ⟨beacon.peerId, beacon.pem, pathBeacon⟩
        (node.processBeacon env dial beacon senderIp).peerManager := by
  refine Meets.of_lists ?_ ?_ ?_ ?_ (lists_processBeacon h dial senderIp)
  . apply contact?_meetBeacon
  . intro hpin
    rw [pin_meetBeacon, pin_pinBeacon]
    split
    . next hpresent =>
      have hverify : node.peerManager.verifyTlsCert beacon.peerId (beacon.tlsFingerprint.getD []) := by
        unfold passesBeacon at h
        rw [decide_eq_true_iff] at h
        exact h.2.resolve_left hpresent.1
      exact (pin_eq_of_verifyTlsCert hverify hpin).symm
    . rfl
  . intro p hne
    rw [pin_meetBeacon, pin_pinBeacon, if_neg]
    rintro ⟨_, heq⟩
    exact hne heq
  . apply preProvisionedKeys_meetBeacon

theorem introducedByBeacon_of_some {now : Time} {msg : Bytes} {beacon : Beacon}
    (htelemetry : ¬bytes "TELEMETRY|" <+: msg) (h : parseBeacon (splitString msg pipe) = some beacon)
    : node.introducedByBeacon now msg
        =
      if node.passesBeacon now beacon then some ⟨beacon.peerId, beacon.pem, pathBeacon⟩ else none := by
  unfold introducedByBeacon passesBeacon
  rw [if_neg htelemetry, h]
  simp only [decide_eq_true_eq]

theorem afterLimit_eq (node : MeshNode C) (env : Env) (senderIp : Bytes)
    : ∃ rateLimits, node.afterLimit env senderIp
        = { node with peerManager := { node.peerManager with rateLimits } } := by
  obtain ⟨rateLimits, heq⟩ := node.peerManager.snd_checkRateLimit (env 0) senderIp
  refine ⟨rateLimits, ?_⟩
  unfold afterLimit
  rw [heq]

theorem lists_afterLimit (node : MeshNode C) (env : Env) (senderIp : Bytes)
    : node.peerManager.Lists (node.afterLimit env senderIp).peerManager := by
  apply PeerManager.lists_checkRateLimit

theorem meets_afterLimit {env : Env} {senderIp : Bytes} {intro : Introduction} {m : PeerManager}
    (h : Meets (node.afterLimit env senderIp).peerManager intro m)
    : Meets node.peerManager intro m := by
  obtain ⟨rateLimits, heq⟩ := node.afterLimit_eq env senderIp
  rw [heq] at h
  refine ⟨h.contact, h.pin, ?_⟩
  intro pruned p hne
  have hspares := h.others pruned p hne
  exact ⟨hspares.contact, hspares.pin, hspares.preProvisionedKeys⟩

theorem peerManager_readMessage (node : MeshNode C) (env : Env) (msg senderIp : Bytes)
    : match node.introducedByAnnounce msg with
      | some intro => Meets node.peerManager intro (node.readMessage env msg senderIp).peerManager
      | none => (node.readMessage env msg senderIp).peerManager = node.peerManager := by
  rcases node.readMessage_cases env msg senderIp with ⟨_, _, _, hparse, hintro, heq⟩ | ⟨hnone, heq | ⟨vote, heq⟩⟩
  . rw [hintro, heq]
    exact meets_processAnnounce hparse env senderIp
  . rw [hnone, heq]
  . rw [hnone, heq]
    exact keptByVoting_peerManager.processVote node env (fun _ => rfl) vote

theorem processDiscoveryBeacon_cases (node : MeshNode C) (env : Env) (dial : Dial) {msg : Bytes}
    (senderIp : Bytes) (h : ¬bytes "TELEMETRY|" <+: msg)
    : match node.introducedByBeacon (env 0).now msg with
      | some intro =>
        Meets node.peerManager intro (node.processDiscoveryBeacon env dial msg senderIp).peerManager
      | none => node.processDiscoveryBeacon env dial msg senderIp = node := by
  unfold processDiscoveryBeacon
  cases hparse : parseBeacon (splitString msg pipe) with
  | none =>
    unfold introducedByBeacon
    rw [if_neg h, hparse]
  | some beacon =>
    rw [introducedByBeacon_of_some h hparse]
    cases hpasses : node.passesBeacon (env 0).now beacon with
    | true => exact meets_processBeacon hpasses dial senderIp
    | false => exact processBeacon_of_not_passes hpasses dial senderIp

theorem processMessage_contacts (node : MeshNode C) (env : Env) (dial : Dial) (msg senderIp : Bytes)
    : match node.introduction ⟨env, dial, .message msg senderIp⟩ with
      | some intro => Meets node.peerManager intro (node.processMessage env msg senderIp).peerManager
      | none => node.peerManager.Lists (node.processMessage env msg senderIp).peerManager := by
  unfold introduction
  rw [processMessage_eq]
  dsimp only
  cases (node.peerManager.checkRateLimit (env 0) senderIp).1 && validateMessage msg with
  | false => apply lists_afterLimit
  | true =>
    have hread := (node.afterLimit env senderIp).peerManager_readMessage env.right msg senderIp
    have hsame : (node.afterLimit env senderIp).introducedByAnnounce msg = node.introducedByAnnounce msg :=
      rfl
    simp only [if_true]
    rw [hsame] at hread
    cases hintro : node.introducedByAnnounce msg with
    | none =>
      rw [hintro] at hread
      dsimp only at hread ⊢
      rw [hread]
      apply lists_afterLimit
    | some intro =>
      rw [hintro] at hread
      exact meets_afterLimit hread

theorem processDiscovery_contacts (node : MeshNode C) (env : Env) (dial : Dial) (msg senderIp : Bytes)
    : match node.introduction ⟨env, dial, .discovery msg senderIp⟩ with
      | some intro =>
        Meets node.peerManager intro (node.processDiscovery env dial msg senderIp).peerManager
      | none => node.peerManager.Lists (node.processDiscovery env dial msg senderIp).peerManager := by
  unfold introduction
  rw [processDiscovery_eq]
  dsimp only
  cases (node.peerManager.checkRateLimit (env 0) senderIp).1 with
  | false => apply lists_afterLimit
  | true =>
    simp only [if_true]
    by_cases htelemetry : bytes "TELEMETRY|" <+: msg
    . have hnone : node.introducedByBeacon (env.right 0).now msg = none := by
        unfold introducedByBeacon
        rw [if_pos htelemetry]
      rw [hnone, if_pos htelemetry]
      apply lists_afterLimit
    . have hread := (node.afterLimit env senderIp).processDiscoveryBeacon_cases env.right dial senderIp
        htelemetry
      rw [introducedByBeacon_afterLimit] at hread
      rw [if_neg htelemetry]
      cases hintro : node.introducedByBeacon (env.right 0).now msg with
      | none =>
        rw [hintro] at hread
        dsimp only at hread ⊢
        rw [hread]
        apply lists_afterLimit
      | some intro =>
        rw [hintro] at hread
        exact meets_afterLimit hread

theorem meets_act {intro : Introduction} (h : node.introduction step = some intro)
    : Meets node.peerManager intro (node.act step).peerManager := by
  obtain ⟨env, dial, action⟩ := step
  cases action with
  | message msg senderIp =>
    have hmessage := node.processMessage_contacts env dial msg senderIp
    rw [h] at hmessage
    exact hmessage
  | discovery msg senderIp =>
    have hdiscovery := node.processDiscovery_contacts env dial msg senderIp
    rw [h] at hdiscovery
    exact hdiscovery
  | _ => contradiction

theorem contact?_pruneStalePeers (node : MeshNode C) (env : Env) (p : Bytes)
    : (node.pruneStalePeers env).peerManager.contact? p
        =
      if p ∈ node.peerManager.getStalePeers (env 0) then none else node.peerManager.contact? p := by
  unfold pruneStalePeers
  rw [peerManager_foldl_pruneStalePeer, PeerManager.contact?_foldl_removePeer]

theorem contact?_unpinPeerKey (node : MeshNode C) (nodeId p : Bytes)
    : (node.unpinPeerKey nodeId).peerManager.contact? p
        =
      if nodeId = p then
        (node.peerManager.contact? p).map .unpin
      else
        node.peerManager.contact? p := by
  unfold unpinPeerKey
  split
  . exact node.peerManager.contact?_unpinPeerKey p nodeId
  . next habsent =>
    split
    . next heq =>
      subst heq
      have hnone : node.peerManager.contact? nodeId = none := by
        simpa [PeerManager.hasPeer_eq] using habsent
      rw [hnone]
      rfl
    . rfl

theorem pin_unpinPeerKey (node : MeshNode C) (nodeId p : Bytes)
    : (node.unpinPeerKey nodeId).peerManager.pin p
        =
      if node.peerManager.hasPeer nodeId ∧ nodeId = p then [] else node.peerManager.pin p := by
  unfold unpinPeerKey
  split
  . next hpresent =>
    dsimp only
    rw [PeerManager.pin_unpinPeerKey]
    simp [hpresent]
  . next habsent => simp [habsent]

theorem preProvisionedKeys_unpinPeerKey (node : MeshNode C) (nodeId : Bytes)
    : (node.unpinPeerKey nodeId).peerManager.preProvisionedKeys = node.peerManager.preProvisionedKeys := by
  unfold unpinPeerKey
  split
  . apply PeerManager.preProvisionedKeys_unpinPeerKey
  . rfl

theorem spares_pruneStalePeers (node : MeshNode C) (env : Env) (p : Bytes)
    : node.peerManager.Spares (p ∈ node.peerManager.getStalePeers (env 0)) p
        (node.pruneStalePeers env).peerManager := by
  have hcontact := node.contact?_pruneStalePeers env p
  obtain ⟨peers, heq⟩ := node.peerManager.foldl_removePeer_eq (node.peerManager.getStalePeers (env 0))
  rw [← peerManager_foldl_pruneStalePeer] at heq
  constructor
  . rw [hcontact]
    split
    . next hstale => exact .pruned (by simpa using hstale)
    . exact .keep
  . unfold pruneStalePeers
    rw [heq]
    rfl
  . unfold pruneStalePeers
    rw [heq]

theorem spares_act {p : Bytes} (hintro : ∀ intro, node.introduction step = some intro → intro.peerId ≠ p)
    (hunpin : step.action ≠ .unpinPeerKey p)
    : node.peerManager.Spares (node.prunes step p) p (node.act step).peerManager := by
  cases h : node.introduction step with
  | some intro => exact (meets_act h).others _ p (hintro intro h)
  | none =>
    obtain ⟨env, dial, action⟩ := step
    unfold act
    cases action with
    | message msg senderIp =>
      have hmessage := node.processMessage_contacts env dial msg senderIp
      rw [h] at hmessage
      exact hmessage.spares _ p
    | discovery msg senderIp =>
      have hdiscovery := node.processDiscovery_contacts env dial msg senderIp
      rw [h] at hdiscovery
      exact hdiscovery.spares _ p
    | pex msg => exact (lists_processPex_go node env dial _).spares _ p
    | pruneStalePeers => exact node.spares_pruneStalePeers env p
    | checkStalledRounds =>
      dsimp only
      unfold checkStalledRounds
      rw [peerManager_checkStalledRounds_go]
      apply PeerManager.Spares.refl
    | proposeRecentBans =>
      dsimp only
      unfold proposeRecentBans
      dsimp only
      rw [keptByVoting_peerManager.proposeRecentBans_go]
      apply PeerManager.Spares.refl
    | initiateConsensus targetId evidenceJson =>
      exact (node.lists_initiateConsensus env targetId evidenceJson).spares _ p
    | proposeBan targetId reason =>
      dsimp only
      rw [keptByVoting_peerManager.proposeBan]
      apply PeerManager.Spares.refl
    | unpinPeerKey nodeId =>
      have hne : nodeId ≠ p := by
        rintro rfl
        exact hunpin rfl
      constructor
      . dsimp only
        rw [contact?_unpinPeerKey, if_neg hne]
        exact .keep
      . dsimp only
        rw [pin_unpinPeerKey, if_neg]
        rintro ⟨_, heq⟩
        exact hne heq
      . apply preProvisionedKeys_unpinPeerKey

theorem act_of_unpinPeerKey {nodeId : Bytes} (h : step.action = .unpinPeerKey nodeId)
    : node.act step = node.unpinPeerKey nodeId := by
  unfold act
  rw [h]

@[simp]
theorem preProvisionedKeys_act (node : MeshNode C) (step : Step)
    : (node.act step).peerManager.preProvisionedKeys = node.peerManager.preProvisionedKeys := by
  cases h : node.introduction step with
  | some intro =>
    obtain ⟨p, hne⟩ := exists_ne intro.peerId
    exact ((meets_act h).others false p hne.symm).preProvisionedKeys
  | none =>
    by_cases hunpin : ∃ nodeId, step.action = .unpinPeerKey nodeId
    . obtain ⟨nodeId, haction⟩ := hunpin
      rw [act_of_unpinPeerKey haction]
      apply preProvisionedKeys_unpinPeerKey
    . refine (spares_act (p := []) ?_ ?_).preProvisionedKeys
      . simp [h]
      . intro haction
        exact hunpin ⟨[], haction⟩

theorem peers_new (nodeId : Bytes) (key pbftKey : C.PrivKey) (settings : Settings)
    : (new C nodeId key pbftKey settings).peerManager.peers = ∅ := by
  have hprovision (peers : List (Bytes × Bytes)) (node : MeshNode C)
      : (peers.foldl provisionPeer node).peerManager.peers = node.peerManager.peers := by
    induction peers generalizing node with
    | nil => rfl
    | cons peer peers ih =>
      rw [List.foldl_cons, ih]
      rfl
  unfold new
  rw [hprovision]

theorem contact?_new (nodeId : Bytes) (key pbftKey : C.PrivKey) (settings : Settings) (p : Bytes)
    : (new C nodeId key pbftKey settings).peerManager.contact? p = none := by
  unfold PeerManager.contact?
  rw [peers_new]
  simp

def plainAnnounce (peerId pem : Bytes) : Bytes :=
  joinPipe [bytes "ANNOUNCE", peerId, pem, base64Encode (pem ++ joinPipe [peerId, pem])]

def plainBeacon (peerId pem fingerprint cert : Bytes) : Bytes :=
  let fields := [peerId, bytes "9000", bytes "9001", bytes "0"]
  let signature := pem ++ joinPipe (fields ++ [fingerprint, base64Encode cert])
  joinPipe ([bytes "DISCOVERY"] ++ fields
    ++ [base64Encode pem, fingerprint, base64Encode cert, base64Encode signature])

def quietEnv : Env :=
  (stepAt 0 .pruneStalePeers).env

def silentDial : Dial :=
  (stepAt 0 .pruneStalePeers).dial

def plainKey (name : String) : Bytes :=
  bytes "-----BEGIN PUBLIC KEY-----" ++ bytes name

def announces (peerId : Bytes) (key : String) : Step :=
  stepAt 0 (.message (plainAnnounce peerId (plainKey key)) (bytes "10.0.0.1"))

def beacons (peerId : Bytes) (key fingerprint : String) : Step :=
  stepAt 0 (.discovery (plainBeacon peerId (plainKey key) (bytes fingerprint) []) (bytes "10.0.0.1"))

end MeshNode
end NeuroMesh
