import NeuroMesh.Consensus.MeshNode.Impl.Consensus

/-!
This module contains the part of `MeshNode` that manages the membership: start up, the discovery paths
`ANNOUNCE`, beacon and PEX, and the pruning of stale peers.
-/

namespace NeuroMesh
namespace MeshNode

variable {C : IdentityCore}

def parsePeerKey (entry : Bytes) : Option (Bytes × Bytes) :=
  let colon : UInt8 := 0x3a
  if colon ∈ entry then
    let peerId := entry.takeWhile (· ≠ colon)
    let pem := entry.drop (peerId.length + 1)
    if bytes "-----BEGIN" <:+: pem then
      some (peerId, pem)
    else
      some (peerId, (base64Decode pem).getD pem)
  else
    none

def peerKeysFromEnv (env : Option Bytes) : List (Bytes × Bytes) :=
  match env with
  | none => []
  | some env => (splitString env 0x2c).filterMap parsePeerKey

def provisionPeer (node : MeshNode C) (peer : Bytes × Bytes) : MeshNode C :=
  let (peerId, pem) := peer
  {
    node with
    peerManager := node.peerManager.preProvisionPeerKey peerId pem
    pbft := (node.pbft.registerPeerKey peerId pem).incrementPeers
  }

def evidenceMaxFromEnv (env : Option Bytes) : Nat :=
  match env with
  | none => 4096
  | some s =>
    let (val, stop) := strtol s
    if stop ≠ s.length ∨ val ≤ 0 then 4096 else min (sizeT val) 65536

structure Settings where
  pbftRateWindow : Option Bytes := none
  pbftRateMax : Option Bytes := none
  pbftEvidenceMax : Option Bytes := none
  peerKeys : Option Bytes := none
  transport : Option TransportLayer := none

/--
`key` is the identity of the node, loaded from the keystore or generated. `pbftKey` is the duplicate of
it that the consensus signs with, or a fresh key if `EVP_PKEY_dup` fails.
-/
def new (C : IdentityCore) (nodeId : Bytes) (key pbftKey : C.PrivKey) (settings : Settings) :
    MeshNode C :=
  let pbft := PBFTConsensus.new C 1 settings.pbftRateWindow settings.pbftRateMax
  let pbft := pbft.registerPeerKey nodeId (C.getPemFromPubkey key)
  let pbft := pbft.setMyIdentity nodeId
  let pbft := pbft.setPrivateKey pbftKey
  let node : MeshNode C := {
    nodeId
    privateKey := key
    publicKeyPem := C.getPemFromPubkey key
    pbft
    maxEvidenceSize := evidenceMaxFromEnv settings.pbftEvidenceMax
    transport := settings.transport
  }
  (peerKeysFromEnv settings.peerKeys).foldl provisionPeer node

def announceIdentity (node : MeshNode C) : MeshNode C :=
  let signature := C.signPayload node.privateKey (joinPipe [node.nodeId, node.publicKeyPem])
  node.emit (.announce (joinPipe [
    bytes "ANNOUNCE", node.nodeId, node.publicKeyPem, base64Encode signature
  ]))

def registerConfirmed (node : MeshNode C) (confirm : PathConfirmResult) (peerId pem : Bytes) :
    MeshNode C :=
  if confirm.dualConfirmed && !node.pbft.hasPeer peerId then
    { node with pbft := (node.pbft.registerPeerKey peerId pem).incrementPeers }
  else
    node

def parseAnnounce (node : MeshNode C) (tokens : List Bytes) : Option (Bytes × Bytes) :=
  match tokens with
  | _ :: peerId :: pem :: b64Sig :: _ =>
    if peerId = [] ∨ 64 < peerId.length then
      none
    else if pem = [] ∨ ¬bytes "-----BEGIN PUBLIC KEY-----" <:+: pem then
      none
    else if peerId = node.nodeId then
      none
    else
      let signature := (base64Decode b64Sig).getD []
      if signature = [] then
        none
      else if C.verifyWith (C.getPubkeyFromPem pem) (joinPipe [peerId, pem]) signature then
        some (peerId, pem)
      else
        none
  | _ => none

def meetAnnounce (m : PeerManager) (now : Time) (peerId pem senderIp : Bytes) : PathConfirmResult × PeerManager :=
  let m := m.addKnownIp peerId
  let (_, m) := m.addPeer now peerId senderIp 0 0 pem
  m.confirmPath peerId pathAnnounce pem

def processAnnounce (node : MeshNode C) (env : Env) (tokens : List Bytes) (senderIp : Bytes) :
    MeshNode C :=
  match node.parseAnnounce tokens with
  | none => node
  | some (peerId, pem) =>
    let isNewPeer := !node.peerManager.isKnownIp peerId
    let (confirm, peerManager) := meetAnnounce node.peerManager (env 0).now peerId pem senderIp
    let node := { node with peerManager }
    if confirm.keyMismatch then
      node
    else
      let node := node.registerConfirmed confirm peerId pem
      if isNewPeer then
        node.announceIdentity
      else if 2 ≤ seconds ((env 1).now - node.lastAnnounceTime) then
        { node with lastAnnounceTime := (env 1).now }.announceIdentity
      else
        node

def processMessage (node : MeshNode C) (env : Env) (msg senderIp : Bytes) : MeshNode C :=
  match node.peerManager.checkRateLimit (env 0) senderIp with
  | (false, peerManager) => { node with peerManager }
  | (true, peerManager) =>
    let node := { node with peerManager }
    if !validateMessage msg then
      node
    else
      let tokens := splitString msg pipe
      if tokens.length < 3 then
        node
      else if tokens.head? = some (bytes "ANNOUNCE") then
        node.processAnnounce env.right tokens senderIp
      else if tokens.head? = some (bytes "VOTE") then
        match parseVote node.maxEvidenceSize tokens with
        | none => node
        | some incoming => node.processVote env.right incoming
      else
        node

def pexPeerList (msg : Bytes) : List (Bytes × Bytes × Int) :=
  match splitString msg pipe with
  | cmd :: _ :: _ :: peerList :: _ =>
    if cmd ≠ bytes "PEX" ∨ peerList = [] ∨ peerList = bytes "0" then
      []
    else
      (splitString peerList 0x2c).filterMap fun entry =>
        match splitString entry 0x3a with
        | peerId :: ip :: port :: _ => (tryParseInt port).map (peerId, ip, ·)
        | _ => none
  | _ => []

abbrev Dial := (ip : Bytes) → (port : Int) → Option Bytes

def performPexHandshake (node : MeshNode C) (env : Env) (dial : Dial) (ip : Bytes) (port : Int)
    (expectedPeerId : Bytes) : MeshNode C :=
  let entry := node.peerManager.getPeer expectedPeerId
  if expectedPeerId ≠ [] ∧ node.peerManager.hasPeer expectedPeerId ∧ entry.ip ≠ ip ∧ entry.ip ≠ [] then
    node
  else
    match dial ip port with
    | none => node
    | some resp => go node env (pexPeerList resp)
where
  go (node : MeshNode C) (env : Env) (peers : List (Bytes × Bytes × Int)) : MeshNode C :=
    match peers with
    | [] => node
    | (peerId, ip, port) :: peers =>
      let node :=
        if peerId ≠ node.nodeId then
          let (_, peerManager) := node.peerManager.addPeer (env 0).now peerId ip port 0 []
          { node with peerManager }
        else
          node
      go node env.right peers

def processPex (node : MeshNode C) (env : Env) (dial : Dial) (msg : Bytes) : MeshNode C :=
  go node env (pexPeerList msg)
where
  go (node : MeshNode C) (env : Env) (peers : List (Bytes × Bytes × Int)) : MeshNode C :=
    match peers with
    | [] => node
    | (peerId, ip, port) :: peers =>
      let node :=
        if peerId ≠ node.nodeId then
          match node.peerManager.addPeer (env 0).now peerId ip port 0 [] with
          | (true, peerManager) =>
            { node with peerManager }.performPexHandshake env.left dial ip port peerId
          | (false, peerManager) => { node with peerManager }
        else
          node
      go node env.right peers

structure Beacon where
  peerId : Bytes
  tcpPort : Int
  tlsPort : Int
  timestamp : Int
  pem : Bytes
  tlsFingerprint : Option Bytes
  certPem : Bytes
  signedBlob : Bytes
  signature : Bytes
deriving DecidableEq

/--
The fields of a beacon, for any way of reading a token and of giving up on a number.
-/
def readFields {m : Type → Type} [Monad m] (token : Nat → m Bytes)
    (parsed : {α : Type} → Option α → m α) (count : Nat) : m Beacon := do
  parsed (guard ((← token 0) = bytes "DISCOVERY"))
  let hasTlsFingerprint := 7 ≤ count
  let hasSignedFpr := 8 ≤ count
  let hasCertPem := 9 ≤ count
  parsed (guard (6 ≤ count))
  let peerId ← token 1
  let tcpPort ← parsed (tryParseInt (← token 2))
  let tlsPort ← (if hasTlsFingerprint then do parsed (tryParseInt (← token 3)) else pure 0)
  let timestamp ← parsed (tryParseLong (← token (if hasTlsFingerprint then 4 else 3)))
  let b64Pubkey ← token (if hasTlsFingerprint then 5 else 4)
  let fingerprint ← (if hasTlsFingerprint then token 6 else pure [])
  let b64CertPem ← (if hasCertPem then token 7 else pure [])
  let b64Sig ← (if hasCertPem then token 8 else if hasSignedFpr then token 7 else pure [])
  let ports := [peerId, toDecimalInt tcpPort, toDecimalInt tlsPort, toDecimalInt timestamp]
  let signedBlob :=
    if hasCertPem then
      joinPipe (ports ++ [fingerprint, b64CertPem])
    else if hasSignedFpr then
      joinPipe (ports ++ [fingerprint])
    else if hasTlsFingerprint then
      joinPipe ports
    else
      joinPipe [peerId, toDecimalInt timestamp]
  return {
    peerId, tcpPort, tlsPort, timestamp
    pem := (base64Decode b64Pubkey).getD []
    tlsFingerprint := if hasTlsFingerprint then some fingerprint else none
    certPem := (base64Decode b64CertPem).getD []
    signedBlob
    signature := (base64Decode b64Sig).getD []
  }

def parseBeacon (tokens : List Bytes) : Option Beacon :=
  readFields (fun i => some (tokens.getD i [])) id tokens.length

def acceptsBeacon (node : MeshNode C) (now : Time) (beacon : Beacon) : Bool :=
  -- the difference is an `int64_t`
  let drift := ((microseconds now - beacon.timestamp).bmod (2 ^ 64)).tdiv 1000000
  beacon.peerId ≠ node.nodeId
    && beacon.pem ≠ []
    && beacon.signature ≠ []
    && C.verifyWith (C.getPubkeyFromPem beacon.pem) beacon.signedBlob beacon.signature
    && !(60 < drift || drift < -60)

def refreshPeer (m : PeerManager) (now : Time) (beacon : Beacon) (senderIp : Bytes) : PeerManager :=
  let existing := m.getPeer beacon.peerId
  if existing.publicKeyPem ≠ [] ∧ existing.publicKeyPem ≠ beacon.pem then
    m
  else
    m.updatePeerHeartbeat now beacon.peerId senderIp beacon.tcpPort beacon.tlsPort beacon.pem

def trustCert (node : MeshNode C) (confirm : PathConfirmResult) (beacon : Beacon) : MeshNode C :=
  if confirm.dualConfirmed && !node.pbft.hasPeer beacon.peerId && beacon.certPem ≠ [] then
    { node with transport := node.transport.map fun transport => transport.trustPeerCert beacon.certPem }
  else
    node

def passesBeacon (node : MeshNode C) (now : Time) (beacon : Beacon) : Bool :=
  let fingerprint := beacon.tlsFingerprint.getD []
  node.acceptsBeacon now beacon
    ∧ (fingerprint = [] ∨ node.peerManager.verifyTlsCert beacon.peerId fingerprint)

def pinBeacon (m : PeerManager) (beacon : Beacon) : PeerManager :=
  let fingerprint := beacon.tlsFingerprint.getD []
  if fingerprint ≠ [] then m.pinTlsFingerprint beacon.peerId fingerprint else m

def addBeacon (m : PeerManager) (now : Time) (beacon : Beacon) (senderIp : Bytes) : Bool × PeerManager :=
  (pinBeacon m beacon).addPeer now beacon.peerId senderIp beacon.tcpPort beacon.tlsPort beacon.pem

def meetBeacon (m : PeerManager) (now : Time) (beacon : Beacon) (senderIp : Bytes) :
    PathConfirmResult × PeerManager :=
  (addBeacon m now beacon senderIp).2.confirmPath beacon.peerId pathBeacon beacon.pem

def refreshBeacon (m : PeerManager) (now : Time) (beacon : Beacon) (senderIp : Bytes) (isNew : Bool) :
    PeerManager :=
  if isNew then m else refreshPeer m now beacon senderIp

def admitBeacon (node : MeshNode C) (env : Env) (dial : Dial) (beacon : Beacon) (senderIp : Bytes)
    (isNew : Bool) (met : PathConfirmResult × PeerManager) : MeshNode C :=
  let node := { node with peerManager := refreshBeacon met.2 (env 2).now beacon senderIp isNew }
  if isNew || met.1.dualConfirmed then
    -- the source tests `has_peer` once for both of them
    let node := node.trustCert met.1 beacon
    let node := node.registerConfirmed met.1 beacon.peerId beacon.pem
    if node.peerManager.hasPeer beacon.peerId then
      node.performPexHandshake env.right dial senderIp beacon.tcpPort beacon.peerId
    else
      node
  else
    node

def processBeacon (node : MeshNode C) (env : Env) (dial : Dial) (beacon : Beacon) (senderIp : Bytes) :
    MeshNode C :=
  if !node.passesBeacon (env 0).now beacon then
    node
  else
    let met := meetBeacon node.peerManager (env 1).now beacon senderIp
    if met.1.keyMismatch then
      { node with peerManager := met.2 }
    else
      let isNew := (addBeacon node.peerManager (env 1).now beacon senderIp).1
      node.admitBeacon env dial beacon senderIp isNew met

def processDiscoveryBeacon (node : MeshNode C) (env : Env) (dial : Dial) (msg senderIp : Bytes) :
    MeshNode C :=
  match parseBeacon (splitString msg pipe) with
  | none => node
  | some beacon => node.processBeacon env dial beacon senderIp

def processDiscovery (node : MeshNode C) (env : Env) (dial : Dial) (msg senderIp : Bytes) :
    MeshNode C :=
  match node.peerManager.checkRateLimit (env 0) senderIp with
  | (false, peerManager) => { node with peerManager }
  | (true, peerManager) =>
    let node := { node with peerManager }
    if bytes "TELEMETRY|" <+: msg then
      node
    else
      node.processDiscoveryBeacon env.right dial msg senderIp

def pruneStalePeer (node : MeshNode C) (peerId : Bytes) : MeshNode C :=
  let node := { node with peerManager := node.peerManager.removePeer peerId }
  if !node.peerManager.isPeerPreProvisioned peerId then
    { node with pbft := node.pbft.prunePeer peerId }
  else
    node

def pruneStalePeers (node : MeshNode C) (env : Env) : MeshNode C :=
  (node.peerManager.getStalePeers (env 0)).foldl pruneStalePeer node

def checkStalledRounds (node : MeshNode C) (env : Env) : MeshNode C :=
  go node env.right (node.peerManager.getAllPeerIds (env 0))
where
  go (node : MeshNode C) (env : Env) (peerIds : List Bytes) : MeshNode C :=
    match peerIds with
    | [] => node
    | peerId :: peerIds =>
      let evidence := bytes "\x7b\"liveness\":\"check\"\x7d"
      let node :=
        if node.pbft.needsViewChange (env 0).now evidence peerId then
          { node with pbft := node.pbft.advanceView }
        else
          node
      go node env.right peerIds

def proposeRecentBans (node : MeshNode C) (env : Env) : MeshNode C :=
  let (bans, pbft) := node.pbft.drainRecentBans (env 0)
  go { node with pbft } env.right bans
where
  go (node : MeshNode C) (env : Env) (bans : List Bytes) : MeshNode C :=
    match bans with
    | [] => node
    | banned :: bans =>
      go (node.proposeBan env.left banned (bytes "local_auto_ban")).2 env.right bans

def unpinPeerKey (node : MeshNode C) (nodeId : Bytes) : MeshNode C :=
  if node.peerManager.hasPeer nodeId then
    { node with peerManager := node.peerManager.unpinPeerKey nodeId }
  else
    node

inductive Action where
  | message (msg senderIp : Bytes)
  | discovery (msg senderIp : Bytes)
  | pex (msg : Bytes)
  | pruneStalePeers
  | checkStalledRounds
  | proposeRecentBans
  | initiateConsensus (targetId evidenceJson : Bytes)
  | proposeBan (targetId reason : Bytes)
  | unpinPeerKey (nodeId : Bytes)

structure Step where
  env : Env
  dial : Dial
  action : Action

def act (node : MeshNode C) (step : Step) : MeshNode C :=
  match step.action with
  | .message msg senderIp => node.processMessage step.env msg senderIp
  | .discovery msg senderIp => node.processDiscovery step.env step.dial msg senderIp
  | .pex msg => node.processPex step.env step.dial msg
  | .pruneStalePeers => node.pruneStalePeers step.env
  | .checkStalledRounds => node.checkStalledRounds step.env
  | .proposeRecentBans => node.proposeRecentBans step.env
  | .initiateConsensus targetId evidenceJson => node.initiateConsensus step.env targetId evidenceJson
  | .proposeBan targetId reason => (node.proposeBan step.env targetId reason).2
  | .unpinPeerKey nodeId => node.unpinPeerKey nodeId

end MeshNode
end NeuroMesh
