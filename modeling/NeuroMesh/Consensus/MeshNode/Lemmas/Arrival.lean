import NeuroMesh.Consensus.MeshNode.Lemmas.Contact
import NeuroMesh.Consensus.MeshNode.Lemmas.Quiet
import NeuroMesh.Consensus.PeerManager.Alike

namespace NeuroMesh
namespace MeshNode

variable {C : IdentityCore}

structure Alike (node node' : MeshNode C) : Prop where
  nodeId : node'.nodeId = node.nodeId
  pbft : node'.pbft = node.pbft
  transport : node'.transport = node.transport
  peerManager : node.peerManager.Alike node'.peerManager

section Simulation

variable {node node' : MeshNode C}

theorem alike_peerManager (h : Alike node node') {m m' : PeerManager} (hm : m.Alike m')
    : Alike { node with peerManager := m } { node' with peerManager := m' } := by
  exact ⟨h.nodeId, h.pbft, h.transport, hm⟩

theorem alike_performPexHandshake_go (h : Alike node node') (env : Env)
    (peers : List (Bytes × Bytes × Int))
    : Alike (performPexHandshake.go node env peers) (performPexHandshake.go node' env peers) := by
  induction peers generalizing node node' env with
  | nil => exact h
  | cons peer peers ih =>
    obtain ⟨peerId, ip, port⟩ := peer
    unfold performPexHandshake.go
    apply ih
    by_cases hself : peerId ≠ node.nodeId
    . rw [if_pos hself, if_pos (h.nodeId ▸ hself)]
      exact alike_peerManager h (h.peerManager.addPeer (env 0).now peerId ip port 0 [])
    . rw [if_neg hself, if_neg (h.nodeId ▸ hself)]
      exact h

theorem alike_performPexHandshake (h : Alike node node') (env : Env) (dial : Dial) (ip : Bytes) (port : Int)
    (expectedPeerId : Bytes)
    : Alike (node.performPexHandshake env dial ip port expectedPeerId)
        (node'.performPexHandshake env dial ip port expectedPeerId) := by
  unfold performPexHandshake
  dsimp only
  rw [h.peerManager.hasPeer, h.peerManager.ip_getPeer]
  split
  . exact h
  . split
    . exact h
    . exact alike_performPexHandshake_go h env _

theorem alike_registerConfirmed (h : Alike node node') (confirm : PathConfirmResult) (peerId pem : Bytes)
    : Alike (node.registerConfirmed confirm peerId pem) (node'.registerConfirmed confirm peerId pem) := by
  unfold registerConfirmed
  rw [h.pbft]
  split
  . exact ⟨h.nodeId, rfl, h.transport, h.peerManager⟩
  . exact h

theorem alike_trustCert (h : Alike node node') (confirm : PathConfirmResult) (beacon : Beacon)
    : Alike (node.trustCert confirm beacon) (node'.trustCert confirm beacon) := by
  unfold trustCert
  rw [h.pbft, h.transport]
  split
  . exact ⟨h.nodeId, rfl, rfl, h.peerManager⟩
  . exact h

theorem alike_refreshBeacon {m m' : PeerManager} (h : m.Alike m') (now : Time) (beacon : Beacon)
    (senderIp : Bytes) (isNew : Bool)
    : (refreshBeacon m now beacon senderIp isNew).Alike (refreshBeacon m' now beacon senderIp isNew) := by
  unfold refreshBeacon refreshPeer
  dsimp only
  rw [h.publicKeyPem_getPeer]
  split
  . exact h
  . split
    . exact h
    . apply h.updatePeerHeartbeat

theorem alike_pinBeacon {m m' : PeerManager} (h : m.Alike m') (beacon : Beacon)
    : (pinBeacon m beacon).Alike (pinBeacon m' beacon) := by
  unfold pinBeacon
  dsimp only
  split
  . apply h.pinTlsFingerprint
  . exact h

theorem alike_admitBeacon (h : Alike node node') (env : Env) (dial : Dial) (beacon : Beacon)
    (senderIp : Bytes) (isNew : Bool) (confirm : PathConfirmResult) {m m' : PeerManager} (hm : m.Alike m')
    : Alike (node.admitBeacon env dial beacon senderIp isNew (confirm, m))
        (node'.admitBeacon env dial beacon senderIp isNew (confirm, m')) := by
  have hstart := alike_peerManager h (alike_refreshBeacon hm (env 2).now beacon senderIp isNew)
  have hregistered := alike_registerConfirmed (alike_trustCert hstart confirm beacon) confirm beacon.peerId
    beacon.pem
  unfold admitBeacon
  dsimp only
  rw [hregistered.peerManager.hasPeer]
  split
  . split
    . exact alike_performPexHandshake hregistered _ _ _ _ _
    . exact hregistered
  . exact hstart

theorem alike_processBeacon (h : Alike node node') (env : Env) (dial : Dial) (beacon : Beacon)
    (senderIp : Bytes)
    : Alike (node.processBeacon env dial beacon senderIp)
        (node'.processBeacon env dial beacon senderIp) := by
  have hpasses : node'.passesBeacon (env 0).now beacon = node.passesBeacon (env 0).now beacon := by
    unfold passesBeacon acceptsBeacon PeerManager.verifyTlsCert
    rw [h.nodeId, h.peerManager.tofuTrust]
  cases hpass : node.passesBeacon (env 0).now beacon with
  | false =>
    rw [processBeacon_of_not_passes hpass, processBeacon_of_not_passes (by rw [hpasses, hpass])]
    exact h
  | true =>
    have hpass' := hpasses.trans hpass
    have hadded := (alike_pinBeacon h.peerManager beacon).addPeer (env 1).now beacon.peerId senderIp
      beacon.tcpPort beacon.tlsPort beacon.pem
    have hfst : (meetBeacon node'.peerManager (env 1).now beacon senderIp).1
        = (meetBeacon node.peerManager (env 1).now beacon senderIp).1 := hadded.fst_confirmPath _ _ _
    have hsnd : (meetBeacon node.peerManager (env 1).now beacon senderIp).2.Alike
        (meetBeacon node'.peerManager (env 1).now beacon senderIp).2 := hadded.confirmPath _ _ _
    cases hmismatch : (meetBeacon node.peerManager (env 1).now beacon senderIp).1.keyMismatch with
    | true =>
      rw [processBeacon_of_keyMismatch hpass hmismatch,
        processBeacon_of_keyMismatch hpass' (by rw [hfst, hmismatch])]
      exact alike_peerManager h hsnd
    | false =>
      rw [processBeacon_of_keyMatch hpass hmismatch,
        processBeacon_of_keyMatch hpass' (by rw [hfst, hmismatch]), h.peerManager.hasPeer]
      generalize meetBeacon node.peerManager (env 1).now beacon senderIp = met at hfst hsnd
      generalize meetBeacon node'.peerManager (env 1).now beacon senderIp = met' at hfst hsnd
      obtain ⟨confirm, m⟩ := met
      obtain ⟨confirm', m'⟩ := met'
      obtain rfl : confirm' = confirm := hfst
      exact alike_admitBeacon h env dial beacon senderIp _ confirm' hsnd

structure BeaconDatagram where
  env : Env
  dial : Dial
  msg : Bytes
  senderIp : Bytes

def receiveBeacon (node : MeshNode C) (d : BeaconDatagram) : MeshNode C :=
  node.processDiscoveryBeacon d.env d.dial d.msg d.senderIp

theorem alike_receiveBeacon (h : Alike node node') (d : BeaconDatagram)
    : Alike (node.receiveBeacon d) (node'.receiveBeacon d) := by
  unfold receiveBeacon processDiscoveryBeacon
  split
  . exact h
  . exact alike_processBeacon h _ _ _ _

theorem alike_foldl_receiveBeacon (h : Alike node node') (ds : List BeaconDatagram)
    : Alike (ds.foldl receiveBeacon node) (ds.foldl receiveBeacon node') := by
  induction ds generalizing node node' with
  | nil => exact h
  | cons d ds ih => exact ih (alike_receiveBeacon h d)

end Simulation

section Listing

def listed (nodeId : Bytes) (peers : List (Bytes × Bytes × Int)) (q : Bytes) : Option PeerEntry :=
  match peers with
  | [] => none
  | (peerId, ip, port) :: peers =>
    (if peerId ≠ nodeId ∧ peerId = q then some { nodeId := peerId, ip, tcpPort := port } else none).or
      (listed nodeId peers q)

def listing (nodeId : Bytes) (dial : Dial) (ip : Bytes) (port : Int) (q : Bytes) : Option PeerEntry :=
  match dial ip port with
  | none => none
  | some resp => listed nodeId (pexPeerList resp) q

theorem view_performPexHandshake_go (node : MeshNode C) (env : Env) (peers : List (Bytes × Bytes × Int))
    (q : Bytes)
    : (performPexHandshake.go node env peers).peerManager.view q
        =
      (node.peerManager.view q).or (listed node.nodeId peers q) := by
  induction peers generalizing node env with
  | nil => simp [performPexHandshake.go, listed]
  | cons peer peers ih =>
    obtain ⟨peerId, ip, port⟩ := peer
    unfold performPexHandshake.go listed
    rw [ih]
    by_cases hself : peerId ≠ node.nodeId
    . rw [if_pos hself]
      dsimp only
      rw [PeerManager.view_addPeer]
      by_cases hq : peerId = q
      . rw [if_pos hq, if_pos ⟨hself, hq⟩]
        cases node.peerManager.view q with
        | none => rfl
        | some entry => rfl
      . rw [if_neg hq, if_neg (fun h => hq h.2), Option.none_or]
    . rw [if_neg hself, if_neg (fun h => hself h.1), Option.none_or]

theorem view_performPexHandshake {node : MeshNode C} {ip expectedPeerId : Bytes}
    (h : (node.peerManager.getPeer expectedPeerId).ip = ip) (env : Env) (dial : Dial) (port : Int) (q : Bytes)
    : (node.performPexHandshake env dial ip port expectedPeerId).peerManager.view q
        =
      (node.peerManager.view q).or (listing node.nodeId dial ip port q) := by
  unfold performPexHandshake listing
  dsimp only
  rw [if_neg (fun hguard => hguard.2.2.1 h)]
  cases dial ip port with
  | none => rw [Option.or_none]
  | some resp => apply view_performPexHandshake_go

end Listing

theorem keptByAnnounce_transport : KeptByAnnounce fun node node' : MeshNode C => node'.transport = node.transport where
  refl _ := rfl
  trans h₁ h₂ := h₂.trans h₁
  peerManager _ _ := rfl
  registerConfirmed node confirm peerId pem := by
    unfold registerConfirmed
    split <;> rfl
  lastAnnounceTime _ _ := rfl
  announceIdentity _ := rfl

theorem transport_admitBeacon (node : MeshNode C) (env : Env) (dial : Dial) (beacon : Beacon) (senderIp : Bytes)
    (isNew : Bool) (met : PathConfirmResult × PeerManager)
    : (node.admitBeacon env dial beacon senderIp isNew met).transport
        =
      (node.trustCert met.1 beacon).transport := by
  unfold admitBeacon
  generalize refreshBeacon met.2 (env 2).now beacon senderIp isNew = m
  extract_lets start trusted registered
  have htrusted : trusted.transport = (node.trustCert met.1 beacon).transport := by
    unfold trusted start trustCert
    dsimp only
    split <;> rfl
  have hregistered : registered.transport = trusted.transport := keptByAnnounce_transport.registerConfirmed _ _ _ _
  split
  . split
    . rw [keptByAnnounce_transport.performPexHandshake, hregistered, htrusted]
    . rw [hregistered, htrusted]
  . next hno =>
    rw [Bool.or_eq_true, not_or, Bool.not_eq_true, Bool.not_eq_true] at hno
    unfold trustCert
    rw [hno.2]
    rfl

theorem view_processAnnounce {node : MeshNode C} {tokens : List Bytes} {peerId pem : Bytes}
    (h : node.parseAnnounce tokens = some (peerId, pem)) (env : Env) (senderIp q : Bytes)
    : (node.processAnnounce env tokens senderIp).peerManager.view q
        =
      if peerId = q then
        some (PeerEntry.confirm
          ((node.peerManager.view q).getD {
            nodeId := peerId, ip := senderIp, publicKeyPem := pem, verified := pem ≠ []
          })
          node.peerManager.preProvisionedKeys[q]? pathAnnounce pem)
      else
        node.peerManager.view q := by
  rw [peerManager_processAnnounce h, PeerManager.view_confirmPath, PeerManager.view_addPeer,
    PeerManager.preProvisionedKeys_addPeer]
  split
  . rfl
  . rfl

theorem view_meetBeacon (m : PeerManager) (now : Time) (beacon : Beacon) (senderIp q : Bytes)
    : (meetBeacon m now beacon senderIp).2.view q
        =
      if beacon.peerId = q then
        some (PeerEntry.confirm
          ((m.view q).getD {
            nodeId := beacon.peerId, ip := senderIp, tcpPort := beacon.tcpPort, tlsPort := beacon.tlsPort,
            publicKeyPem := beacon.pem, verified := beacon.pem ≠ []
          })
          m.preProvisionedKeys[q]? pathBeacon beacon.pem)
      else
        m.view q := by
  have hpinned : (pinBeacon m beacon).view q = m.view q := by
    unfold PeerManager.view
    rw [peers_pinBeacon]
  unfold meetBeacon addBeacon
  rw [PeerManager.view_confirmPath, PeerManager.view_addPeer, PeerManager.preProvisionedKeys_addPeer,
    preProvisionedKeys_pinBeacon, hpinned]
  split
  . rfl
  . rfl

theorem nodeId_trustCert (node : MeshNode C) (confirm : PathConfirmResult) (beacon : Beacon)
    : (node.trustCert confirm beacon).nodeId = node.nodeId := by
  exact (node.quiet_trustCert confirm beacon).nodeId_eq

theorem view_admitBeacon {node : MeshNode C} {env : Env} {beacon : Beacon} {senderIp : Bytes} {isNew : Bool}
    {met : PathConfirmResult × PeerManager} {entry : PeerEntry} (h : (isNew || met.1.dualConfirmed) = true)
    (hentry : (refreshBeacon met.2 (env 2).now beacon senderIp isNew).view beacon.peerId = some entry)
    (hip : entry.ip = senderIp) (dial : Dial) (q : Bytes)
    : (node.admitBeacon env dial beacon senderIp isNew met).peerManager.view q
        =
      ((refreshBeacon met.2 (env 2).now beacon senderIp isNew).view q).or
        (listing node.nodeId dial senderIp beacon.tcpPort q) := by
  unfold admitBeacon
  generalize refreshBeacon met.2 (env 2).now beacon senderIp isNew = m at hentry
  extract_lets start trusted registered
  have hregistered : registered.peerManager = m := by
    unfold registered trusted
    rw [peerManager_registerConfirmed, peerManager_trustCert]
  have hnodeId : registered.nodeId = node.nodeId := by
    have hquiet : Quiet trusted registered := quiet_registerConfirmed _ _ _ _
    rw [hquiet.nodeId_eq, nodeId_trustCert]
  have hhas : registered.peerManager.hasPeer beacon.peerId = true := by
    rw [hregistered, PeerManager.hasPeer_eq_view, hentry]
    rfl
  have hget : (registered.peerManager.getPeer beacon.peerId).ip = senderIp := by
    have hage := congrArg PeerEntry.ip (m.ageless_getPeer beacon.peerId)
    rw [hentry, Option.getD_some, hip] at hage
    rw [hregistered]
    exact hage
  rw [if_pos h, if_pos hhas, view_performPexHandshake hget, hregistered, hnodeId]

theorem tofuTrust_pinBeacon_congr {m m' : PeerManager} (h : m'.tofuTrust = m.tofuTrust) (beacon : Beacon)
    : (pinBeacon m' beacon).tofuTrust = (pinBeacon m beacon).tofuTrust := by
  unfold pinBeacon PeerManager.pinTlsFingerprint
  dsimp only
  split
  . rw [h]
  . exact h

structure Unknown (node : MeshNode C) (p pem : Bytes) : Prop where
  peers : p ∉ node.peerManager.peers
  tofuTrust : p ∉ node.peerManager.tofuTrust
  preProvisionedKeys : ∀ key ∈ node.peerManager.preProvisionedKeys[p]?, key = pem
  pbft : node.pbft.hasPeer p = false

def entryOf (beacon : Beacon) (senderIp : Bytes) (confirmedPaths : UInt8) : PeerEntry :=
  {
    nodeId := beacon.peerId
    ip := senderIp
    tcpPort := beacon.tcpPort
    tlsPort := beacon.tlsPort
    publicKeyPem := beacon.pem
    verified := true
    confirmedPaths
  }

structure Settled (node : MeshNode C) (dial : Dial) (beacon : Beacon) (senderIp : Bytes) (paths : UInt8)
    (pbft : PBFTConsensus C) (transport : Option TransportLayer) (node' : MeshNode C) : Prop where
  nodeId : node'.nodeId = node.nodeId
  pbft : node'.pbft = pbft
  transport : node'.transport = transport
  tofuTrust : node'.peerManager.tofuTrust = (pinBeacon node.peerManager beacon).tofuTrust
  preProvisionedKeys : node'.peerManager.preProvisionedKeys = node.peerManager.preProvisionedKeys
  view : ∀ q, node'.peerManager.view q
    = if beacon.peerId = q then
        some (entryOf beacon senderIp paths)
      else
        (node.peerManager.view q).or (listing node.nodeId dial senderIp beacon.tcpPort q)

theorem alike_of_settled {node n₁ n₂ : MeshNode C} {dial : Dial} {beacon : Beacon} {senderIp : Bytes}
    {paths : UInt8} {pbft : PBFTConsensus C} {transport : Option TransportLayer}
    (h₁ : Settled node dial beacon senderIp paths pbft transport n₁)
    (h₂ : Settled node dial beacon senderIp paths pbft transport n₂)
    : Alike n₁ n₂ := by
  constructor
  . rw [h₁.nodeId, h₂.nodeId]
  . rw [h₁.pbft, h₂.pbft]
  . rw [h₁.transport, h₂.transport]
  . constructor
    . intro q
      rw [h₁.view, h₂.view]
    . rw [h₁.tofuTrust, h₂.tofuTrust]
    . rw [h₁.preProvisionedKeys, h₂.preProvisionedKeys]

section Order

variable {node : MeshNode C} {beacon : Beacon} {envB envA : Env} {ipB ipA : Bytes} {tokens : List Bytes}
  (hunknown : Unknown node beacon.peerId beacon.pem) (haccepts : node.acceptsBeacon (envB 0).now beacon = true)

section Facts

include hunknown

theorem view_of_unknown : node.peerManager.view beacon.peerId = none := by
  have hpeer := node.peerManager.hasPeer_eq_view beacon.peerId
  unfold PeerManager.hasPeer at hpeer
  rw [decide_eq_false hunknown.peers] at hpeer
  exact Option.isNone_iff_eq_none.mp (Option.isSome_eq_false_iff.mp hpeer.symm)

theorem contact?_of_unknown : node.peerManager.contact? beacon.peerId = none := by
  rw [PeerManager.contact?_eq_none_iff]
  exact hunknown.peers

theorem welcome_of_unknown (path : UInt8) : node.welcome ⟨beacon.peerId, beacon.pem, path⟩ = node.pbft := by
  apply welcome_of_not_completes
  unfold completes
  rw [PeerManager.confirmPath_of_none _ _ _ _ (contact?_of_unknown hunknown)]

end Facts

theorem passesBeacon_of_not_pinned (haccepts : node.acceptsBeacon (envB 0).now beacon = true)
    (h : beacon.peerId ∉ node.peerManager.tofuTrust)
    : node.passesBeacon (envB 0).now beacon = true := by
  have hverify : node.peerManager.verifyTlsCert beacon.peerId (beacon.tlsFingerprint.getD []) = true := by
    unfold PeerManager.verifyTlsCert
    rw [Std.ExtTreeMap.getElem?_eq_none h]
  simp [passesBeacon, haccepts, hverify]

include hunknown haccepts

theorem settled_beacon (dial : Dial)
    : Settled node dial beacon ipB pathBeacon node.pbft node.transport
        (node.processBeacon envB dial beacon ipB) := by
  have hpem := pem_ne_nil_of_acceptsBeacon haccepts
  have hpasses := passesBeacon_of_not_pinned haccepts hunknown.tofuTrust
  have hmatch : (meetBeacon node.peerManager (envB 1).now beacon ipB).1.keyMismatch = false := by
    rw [keyMismatch_meetBeacon, contact?_of_unknown hunknown]
    exact Contact.refuses_of_key_eq rfl hunknown.preProvisionedKeys
  have hlists := lists_processBeacon hpasses dial ipB
  have hnew : node.peerManager.hasPeer beacon.peerId = false := by
    rw [PeerManager.hasPeer_eq, contact?_of_unknown hunknown]
    rfl
  constructor
  . exact (keptByUpkeep_quiet.processBeacon node envB dial beacon ipB).nodeId_eq
  . rw [pbft_processBeacon, welcome_of_unknown hunknown, ite_self]
  . rw [processBeacon_of_keyMatch hpasses hmatch, transport_admitBeacon]
    unfold trustCert
    rw [dualConfirmed_meetBeacon, PeerManager.confirmPath_of_none _ _ _ _ (contact?_of_unknown hunknown)]
    rfl
  . rw [hlists.tofuTrust, tofuTrust_meetBeacon]
  . rw [hlists.preProvisionedKeys, preProvisionedKeys_meetBeacon]
  . intro q
    have hmet (q : Bytes)
        : (refreshBeacon (meetBeacon node.peerManager (envB 1).now beacon ipB).2 (envB 2).now beacon ipB
            true).view q
          = if beacon.peerId = q then some (entryOf beacon ipB pathBeacon) else node.peerManager.view q := by
      unfold refreshBeacon
      rw [if_pos rfl, view_meetBeacon]
      split
      . next heq =>
        subst heq
        rw [view_of_unknown hunknown, Option.getD_none,
          PeerEntry.confirm_of_key_eq rfl hunknown.preProvisionedKeys hpem UInt8.zero_and]
        simp [entryOf, hpem]
      . rfl
    have hself := hmet beacon.peerId
    rw [if_pos rfl] at hself
    rw [processBeacon_of_keyMatch hpasses hmatch, hnew]
    refine (view_admitBeacon rfl hself rfl dial q).trans ?_
    rw [hmet]
    split <;> rfl

end Order

theorem parseAnnounce_congr {node node' : MeshNode C} (h : node'.nodeId = node.nodeId) (tokens : List Bytes)
    : node'.parseAnnounce tokens = node.parseAnnounce tokens := by
  unfold parseAnnounce
  rw [h]

theorem acceptsBeacon_congr {node node' : MeshNode C} (h : node'.nodeId = node.nodeId) (now : Time)
    (beacon : Beacon)
    : node'.acceptsBeacon now beacon = node.acceptsBeacon now beacon := by
  unfold acceptsBeacon
  rw [h]

structure Halfway (m : PeerManager) (p pem : Bytes) (path : UInt8) (entry : PeerEntry) : Prop where
  view : m.view p = some entry
  key : entry.publicKeyPem = pem
  expected : ∀ key ∈ m.preProvisionedKeys[p]?, key = pem
  unset : entry.confirmedPaths &&& path = 0
  dual : PeerManager.dualConfirmed (entry.confirmedPaths ||| path) = true

namespace Halfway

variable {m : PeerManager} {p pem : Bytes} {path : UInt8} {entry : PeerEntry}

theorem contact?_eq (h : Halfway m p pem path entry) : m.contact? p = some entry.contact := by
  rw [PeerManager.contact?_eq_view, h.view]
  rfl

theorem refuses_eq (h : Halfway m p pem path entry)
    : entry.contact.refuses m.preProvisionedKeys[p]? path pem = false := by
  exact Contact.refuses_of_key_eq h.key h.expected

theorem dualConfirmed_eq (h : Halfway m p pem path entry)
    : (m.confirmPath p path pem).1.dualConfirmed = true := by
  rw [PeerManager.dualConfirmed_confirmPath h.contact?_eq, h.refuses_eq,
    Contact.confirm_of_not_refuses (by simp [h.refuses_eq]) (by simp [PeerEntry.contact, h.unset]),
    Contact.paths_fill]
  exact h.dual

theorem welcome_eq {node : MeshNode C} (h : Halfway node.peerManager p pem path entry)
    (hpbft : node.pbft.hasPeer p = false)
    : node.welcome ⟨p, pem, path⟩ = (node.pbft.registerPeerKey p pem).incrementPeers := by
  have hcompletes : node.completes ⟨p, pem, path⟩ = true := h.dualConfirmed_eq
  unfold welcome
  rw [hcompletes, hpbft]
  rfl

theorem confirm_eq (h : Halfway m p pem path entry) (hpem : pem ≠ [])
    : entry.confirm m.preProvisionedKeys[p]? path pem
        =
      { entry with confirmedPaths := entry.confirmedPaths ||| path } := by
  exact PeerEntry.confirm_of_key_eq h.key h.expected hpem h.unset

end Halfway

theorem view_refreshPeer {m : PeerManager} {beacon : Beacon} {entry : PeerEntry}
    (hview : m.view beacon.peerId = some entry) (hkey : entry.publicKeyPem = beacon.pem)
    (hpem : beacon.pem ≠ []) (now : Time) (senderIp q : Bytes)
    : (refreshPeer m now beacon senderIp).view q
        =
      if beacon.peerId = q then
        some { entry with ip := senderIp, tcpPort := beacon.tcpPort, tlsPort := beacon.tlsPort }
      else
        m.view q := by
  have hget : (m.getPeer beacon.peerId).publicKeyPem = beacon.pem := by
    have hage := congrArg PeerEntry.publicKeyPem (m.ageless_getPeer beacon.peerId)
    rw [hview, Option.getD_some, hkey] at hage
    exact hage
  unfold refreshPeer
  dsimp only
  rw [if_neg (fun h => h.2 hget), PeerManager.view_updatePeerHeartbeat]
  split
  . next heq =>
    subst heq
    rw [hview]
    simp [PeerManager.fillKey, hkey, hpem]
  . rfl

section Order

variable {node : MeshNode C} {beacon : Beacon} {envB envA : Env} {ipB ipA : Bytes} {tokens : List Bytes}
  (hunknown : Unknown node beacon.peerId beacon.pem) (haccepts : node.acceptsBeacon (envB 0).now beacon = true)
  (hannounce : node.parseAnnounce tokens = some (beacon.peerId, beacon.pem))
include hunknown haccepts hannounce

theorem settled_beacon_announce (dial : Dial)
    : Settled node dial beacon ipB (pathBeacon ||| pathAnnounce)
        (node.pbft.registerPeerKey beacon.peerId beacon.pem).incrementPeers node.transport
        ((node.processBeacon envB dial beacon ipB).processAnnounce envA tokens ipA) := by
  have hpem := pem_ne_nil_of_acceptsBeacon haccepts
  have hmet : Settled node dial beacon ipB pathBeacon node.pbft node.transport
      (node.processBeacon envB dial beacon ipB) := settled_beacon hunknown haccepts dial
  generalize node.processBeacon envB dial beacon ipB = met at hmet ⊢
  have hannounced := (parseAnnounce_congr hmet.nodeId tokens).trans hannounce
  have hview := hmet.view beacon.peerId
  rw [if_pos rfl] at hview
  have hhalfway : Halfway met.peerManager beacon.peerId beacon.pem pathAnnounce
      (entryOf beacon ipB pathBeacon) := by
    constructor
    . exact hview
    . rfl
    . rw [hmet.preProvisionedKeys]
      exact hunknown.preProvisionedKeys
    . show pathBeacon &&& pathAnnounce = 0
      decide
    . show PeerManager.dualConfirmed (pathBeacon ||| pathAnnounce) = true
      decide
  constructor
  . rw [(keptByUpkeep_quiet.processAnnounce met envA tokens ipA).nodeId_eq, hmet.nodeId]
  . rw [pbft_processAnnounce_of_some hannounced, hhalfway.welcome_eq, hmet.pbft]
    rw [hmet.pbft]
    exact hunknown.pbft
  . rw [keptByAnnounce_transport.processAnnounce, hmet.transport]
  . rw [peerManager_processAnnounce hannounced, PeerManager.tofuTrust_confirmPath,
      PeerManager.tofuTrust_addPeer]
    exact hmet.tofuTrust
  . rw [peerManager_processAnnounce hannounced, PeerManager.preProvisionedKeys_confirmPath,
      PeerManager.preProvisionedKeys_addPeer]
    exact hmet.preProvisionedKeys
  . intro q
    rw [view_processAnnounce hannounced, hmet.view]
    split
    . next heq =>
      subst heq
      rw [Option.getD_some, hhalfway.confirm_eq hpem]
      rfl
    . rfl

def certTrusted (node : MeshNode C) (beacon : Beacon) : Option TransportLayer :=
  if beacon.certPem ≠ [] then
    node.transport.map fun transport => transport.trustPeerCert beacon.certPem
  else
    node.transport

end Order

def announcedEntry (beacon : Beacon) (senderIp : Bytes) : PeerEntry :=
  {
    nodeId := beacon.peerId
    ip := senderIp
    publicKeyPem := beacon.pem
    verified := true
    confirmedPaths := pathAnnounce
  }

structure Announced (node : MeshNode C) (beacon : Beacon) (senderIp : Bytes) (node' : MeshNode C) : Prop where
  nodeId : node'.nodeId = node.nodeId
  pbft : node'.pbft = node.pbft
  transport : node'.transport = node.transport
  tofuTrust : node'.peerManager.tofuTrust = node.peerManager.tofuTrust
  preProvisionedKeys : node'.peerManager.preProvisionedKeys = node.peerManager.preProvisionedKeys
  view : ∀ q, node'.peerManager.view q
    = if beacon.peerId = q then some (announcedEntry beacon senderIp) else node.peerManager.view q

section Order

variable {node ann : MeshNode C} {beacon : Beacon} {envB : Env} {ipB ipA : Bytes} {tokens : List Bytes}
  (hunknown : Unknown node beacon.peerId beacon.pem) (haccepts : node.acceptsBeacon (envB 0).now beacon = true)
include hunknown haccepts

theorem announced_processAnnounce
    (hannounce : node.parseAnnounce tokens = some (beacon.peerId, beacon.pem)) (envA : Env)
    : Announced node beacon ipA (node.processAnnounce envA tokens ipA) := by
  have hpem := pem_ne_nil_of_acceptsBeacon haccepts
  constructor
  . exact (keptByUpkeep_quiet.processAnnounce node envA tokens ipA).nodeId_eq
  . rw [pbft_processAnnounce_of_some hannounce, welcome_of_unknown hunknown]
  . apply keptByAnnounce_transport.processAnnounce
  . rw [peerManager_processAnnounce hannounce, PeerManager.tofuTrust_confirmPath,
      PeerManager.tofuTrust_addPeer]
    rfl
  . rw [peerManager_processAnnounce hannounce, PeerManager.preProvisionedKeys_confirmPath,
      PeerManager.preProvisionedKeys_addPeer]
    rfl
  . intro q
    rw [view_processAnnounce hannounce]
    split
    . next heq =>
      subst heq
      rw [view_of_unknown hunknown, Option.getD_none,
        PeerEntry.confirm_of_key_eq rfl hunknown.preProvisionedKeys hpem UInt8.zero_and]
      simp [announcedEntry, hpem]
    . rfl

theorem settled_of_announced (h : Announced node beacon ipA ann) (dial : Dial)
    : Settled node dial beacon ipB (pathBeacon ||| pathAnnounce)
        (node.pbft.registerPeerKey beacon.peerId beacon.pem).incrementPeers (node.certTrusted beacon)
        (ann.processBeacon envB dial beacon ipB) := by
  have hpem := pem_ne_nil_of_acceptsBeacon haccepts
  have hpasses : ann.passesBeacon (envB 0).now beacon = true := by
    apply passesBeacon_of_not_pinned
    . rwa [acceptsBeacon_congr h.nodeId]
    . rw [h.tofuTrust]
      exact hunknown.tofuTrust
  have hview := h.view beacon.peerId
  rw [if_pos rfl] at hview
  have hhalfway : Halfway ann.peerManager beacon.peerId beacon.pem pathBeacon (announcedEntry beacon ipA) := by
    constructor
    . exact hview
    . rfl
    . rw [h.preProvisionedKeys]
      exact hunknown.preProvisionedKeys
    . show pathAnnounce &&& pathBeacon = 0
      decide
    . show PeerManager.dualConfirmed (pathAnnounce ||| pathBeacon) = true
      decide
  have hmatch : (meetBeacon ann.peerManager (envB 1).now beacon ipB).1.keyMismatch = false := by
    rw [keyMismatch_meetBeacon, hhalfway.contact?_eq]
    exact hhalfway.refuses_eq
  have hdual : (meetBeacon ann.peerManager (envB 1).now beacon ipB).1.dualConfirmed = true := by
    rw [dualConfirmed_meetBeacon, hhalfway.dualConfirmed_eq]
  have hknown : ann.peerManager.hasPeer beacon.peerId = true := by
    rw [PeerManager.hasPeer_eq, hhalfway.contact?_eq]
    rfl
  have hpbft : ann.pbft.hasPeer beacon.peerId = false := by
    rw [h.pbft]
    exact hunknown.pbft
  have hlists := lists_processBeacon hpasses dial ipB
  constructor
  . rw [(keptByUpkeep_quiet.processBeacon ann envB dial beacon ipB).nodeId_eq, h.nodeId]
  . rw [pbft_processBeacon, if_pos, hhalfway.welcome_eq hpbft, h.pbft]
    unfold passesBeacon at hpasses
    exact of_decide_eq_true hpasses
  . rw [processBeacon_of_keyMatch hpasses hmatch, transport_admitBeacon]
    unfold trustCert certTrusted
    rw [hdual, hpbft, h.transport]
    by_cases hcert : beacon.certPem ≠ []
    . rw [if_pos hcert]
      simp [hcert]
    . rw [if_neg hcert]
      simp [hcert, h.transport]
  . rw [hlists.tofuTrust, tofuTrust_meetBeacon]
    exact tofuTrust_pinBeacon_congr h.tofuTrust beacon
  . rw [hlists.preProvisionedKeys, preProvisionedKeys_meetBeacon, h.preProvisionedKeys]
  . intro q
    have hmet : (meetBeacon ann.peerManager (envB 1).now beacon ipB).2.view beacon.peerId
        = some { announcedEntry beacon ipA with confirmedPaths := pathAnnounce ||| pathBeacon } := by
      rw [view_meetBeacon, if_pos rfl, hview, Option.getD_some, hhalfway.confirm_eq hpem]
      rfl
    have hrefreshed (q : Bytes)
        : (refreshBeacon (meetBeacon ann.peerManager (envB 1).now beacon ipB).2 (envB 2).now beacon ipB
            false).view q
          = if beacon.peerId = q then
              some (entryOf beacon ipB (pathBeacon ||| pathAnnounce))
            else
              node.peerManager.view q := by
      unfold refreshBeacon
      rw [if_neg Bool.false_ne_true, view_refreshPeer hmet rfl hpem]
      split
      . rfl
      . next hne => rw [view_meetBeacon, if_neg hne, h.view, if_neg hne]
    have hself := hrefreshed beacon.peerId
    rw [if_pos rfl] at hself
    rw [processBeacon_of_keyMatch hpasses hmatch, hknown]
    refine (view_admitBeacon ?_ hself rfl dial q).trans ?_
    . rw [hdual]
      rfl
    . rw [hrefreshed, h.nodeId]
      split <;> rfl

end Order

structure Announce where
  env : Env
  tokens : List Bytes
  senderIp : Bytes

def receiveAnnounce (node : MeshNode C) (a : Announce) : MeshNode C :=
  node.processAnnounce a.env a.tokens a.senderIp

def trustedCerts (node : MeshNode C) : Finset Bytes :=
  match node.transport with
  | none => ∅
  | some transport => transport.trustedCerts

structure SameTrust (node node' : MeshNode C) : Prop where
  peerPublicKeys : node.pbft.peerPublicKeys = node'.pbft.peerPublicKeys
  registeredPeers : node.pbft.registeredPeers = node'.pbft.registeredPeers
  totalNodes : node.pbft.totalNodes = node'.pbft.totalNodes
  trustedCerts : node.trustedCerts = node'.trustedCerts

def certRedundant (node : MeshNode C) (certPem : Bytes) : Bool :=
  certPem = [] || node.transport.all fun transport =>
    !transport.readsCert certPem || certPem ∈ transport.trustedCerts

theorem sameTrust_of_alike {node node' : MeshNode C} (h : Alike node node') : SameTrust node node' := by
  constructor
  . rw [h.pbft]
  . rw [h.pbft]
  . rw [h.pbft]
  . unfold trustedCerts
    rw [h.transport]

theorem certTrusted_eq_of_certRedundant {node : MeshNode C} {beacon : Beacon}
    (h : node.certRedundant beacon.certPem = true)
    : node.certTrusted beacon = node.transport := by
  unfold certRedundant at h
  unfold certTrusted
  cases htransport : node.transport with
  | none => simp
  | some transport =>
    rw [htransport, Option.all_some] at h
    split
    . next hcert =>
      rw [decide_eq_false hcert, Bool.false_or, Bool.or_eq_true] at h
      rw [Option.map_some, TransportLayer.trustPeerCert]
      split
      . next hreads =>
        rw [hreads] at h
        have hmem : beacon.certPem ∈ transport.trustedCerts := by simpa using h
        rw [Finset.insert_eq_of_mem hmem]
      . rfl
    . rfl

theorem certRedundant_of_trustedCerts_eq {node : MeshNode C} {beacon : Beacon}
    (h : trustedCerts { node with transport := node.certTrusted beacon } = node.trustedCerts)
    : node.certRedundant beacon.certPem = true := by
  unfold certRedundant
  unfold trustedCerts certTrusted at h
  cases htransport : node.transport with
  | none => simp
  | some transport =>
    by_cases hcert : beacon.certPem = []
    . simp [hcert]
    . cases hreads : transport.readsCert beacon.certPem with
      | false => simp [hreads]
      | true =>
        rw [htransport] at h
        have hinsert : insert beacon.certPem transport.trustedCerts = transport.trustedCerts := by
          simpa [hcert, TransportLayer.trustPeerCert, hreads] using h
        simp [Finset.insert_eq_self.mp hinsert]

/--
The order of the paths does not matter exactly if there is no certificate to be trusted: the `ANNOUNCE` has
none, and a beacon is only asked for its certificate if it registers the peer.
-/
theorem sameTrust_of_either_order_iff {node : MeshNode C} {d : BeaconDatagram} {a : Announce} {beacon : Beacon}
    (hunknown : Unknown node beacon.peerId beacon.pem)
    (hbeacon : parseBeacon (splitString d.msg pipe) = some beacon)
    (haccepts : node.acceptsBeacon (d.env 0).now beacon = true)
    (hannounce : node.parseAnnounce a.tokens = some (beacon.peerId, beacon.pem))
    : (∀ further : List BeaconDatagram,
        SameTrust (further.foldl receiveBeacon ((node.receiveBeacon d).receiveAnnounce a))
          (further.foldl receiveBeacon ((node.receiveAnnounce a).receiveBeacon d)))
        ↔
      node.certRedundant beacon.certPem = true := by
  have hreceive (node : MeshNode C)
      : node.receiveBeacon d = node.processBeacon d.env d.dial beacon d.senderIp := by
    unfold receiveBeacon processDiscoveryBeacon
    rw [hbeacon]
  have hbeaconFirst : Settled node d.dial beacon d.senderIp (pathBeacon ||| pathAnnounce)
      (node.pbft.registerPeerKey beacon.peerId beacon.pem).incrementPeers node.transport
      ((node.receiveBeacon d).receiveAnnounce a) := by
    rw [hreceive]
    exact settled_beacon_announce hunknown haccepts hannounce d.dial
  have hannounceFirst : Settled node d.dial beacon d.senderIp (pathBeacon ||| pathAnnounce)
      (node.pbft.registerPeerKey beacon.peerId beacon.pem).incrementPeers (node.certTrusted beacon)
      ((node.receiveAnnounce a).receiveBeacon d) := by
    rw [hreceive]
    exact settled_of_announced hunknown haccepts
      (announced_processAnnounce hunknown haccepts hannounce a.env) d.dial
  generalize (node.receiveBeacon d).receiveAnnounce a = n₁ at hbeaconFirst ⊢
  generalize (node.receiveAnnounce a).receiveBeacon d = n₂ at hannounceFirst ⊢
  constructor
  . intro h
    have hcerts := (h []).trustedCerts
    rw [List.foldl_nil, List.foldl_nil] at hcerts
    apply certRedundant_of_trustedCerts_eq
    unfold trustedCerts at hcerts ⊢
    rw [hbeaconFirst.transport, hannounceFirst.transport] at hcerts
    exact hcerts.symm
  . intro h further
    rw [certTrusted_eq_of_certRedundant h] at hannounceFirst
    exact sameTrust_of_alike (alike_foldl_receiveBeacon (alike_of_settled hbeaconFirst hannounceFirst) further)

def readingNode (trustedCerts : Finset Bytes) : MeshNode .plain :=
  new .plain (bytes "A") (bytes "A") (bytes "A") { transport := some { readsCert := fun _ => true, trustedCerts } }

def certBeacon : BeaconDatagram :=
  ⟨quietEnv, silentDial, plainBeacon (bytes "P") (plainKey "1") (bytes "f") (bytes "c"), bytes "10.0.0.1"⟩

def keyAnnounce : Announce :=
  ⟨quietEnv, splitString (plainAnnounce (bytes "P") (plainKey "1")) pipe, bytes "10.0.0.1"⟩

theorem sameTrust_of_known_cert
    : let node := readingNode {bytes "c"}
      ∀ further : List BeaconDatagram,
        SameTrust (further.foldl receiveBeacon ((node.receiveBeacon certBeacon).receiveAnnounce keyAnnounce))
          (further.foldl receiveBeacon ((node.receiveAnnounce keyAnnounce).receiveBeacon certBeacon)) := by
  have hbeacon := Option.eq_some_of_isSome
    (show (parseBeacon (splitString certBeacon.msg pipe)).isSome = true by decide +kernel)
  refine (sameTrust_of_either_order_iff ?_ hbeacon ?_ ?_).mpr ?_
  . constructor
    . decide +kernel
    . decide +kernel
    . decide +kernel
    . decide +kernel
  . decide +kernel
  . decide +kernel
  . decide +kernel

theorem trustedCerts_of_either_order
    : let node := readingNode ∅
      let beaconFirst := (node.receiveBeacon certBeacon).receiveAnnounce keyAnnounce
      let announceFirst := (node.receiveAnnounce keyAnnounce).receiveBeacon certBeacon
      beaconFirst.pbft.hasPeer (bytes "P") = true
        ∧ announceFirst.pbft.hasPeer (bytes "P") = true
        ∧ beaconFirst.trustedCerts = ∅
        ∧ (beaconFirst.receiveBeacon certBeacon).trustedCerts = ∅
        ∧ announceFirst.trustedCerts = {bytes "c"} := by
  decide +kernel

end MeshNode
end NeuroMesh
