import NeuroMesh.Consensus.PBFT.Basic

/-!
This module contains `PeerManager`, the registry of the peers that a node has heard of. It is separate
from the registry of `PBFTConsensus`: a peer is only registered there once two discovery paths agree
on its key.
-/

namespace NeuroMesh

/--
The file descriptor of the TLS connection is kept by `TlsNode`. For the consensus it only selects a second route
for messages that are broadcast anyway.
-/
structure PeerEntry where
  nodeId : Bytes := []
  ip : Bytes := []
  tcpPort : Int := 0
  tlsPort : Int := 0
  publicKeyPem : Bytes := []
  lastHeartbeat : Time := 0
  verified : Bool := false
  confirmedPaths : UInt8 := 0

def pathBeacon : UInt8 := 0x01
def pathAnnounce : UInt8 := 0x02

@[ext]
structure PathConfirmResult where
  dualConfirmed : Bool
  keyMismatch : Bool

structure RateLimitState where
  count : Int := 0
  windowStart : Time := 0

structure PeerManager where
  peers : Map Bytes PeerEntry := ∅
  tofuTrust : Map Bytes Bytes := ∅
  preProvisionedKeys : Map Bytes Bytes := ∅
  rateLimits : Map Bytes RateLimitState := ∅
  lastConsensus : Map Bytes Time := ∅
  knownPeerIps : Finset Bytes := ∅

namespace PeerManager

def rateLimitPerSec : Int := 100
def consensusCooldownSec : Int := 30
def livenessSec : Int := 30
def rateLimitMapCap : Nat := 4096
def rateLimitEvictSec : Int := 30

def addPeer (m : PeerManager) (now : Time) (peerId ip : Bytes) (tcpPort tlsPort : Int)
    (publicKeyPem : Bytes) : Bool × PeerManager :=
  if peerId ∈ m.peers then
    (false, m)
  else
    let entry : PeerEntry := {
      nodeId := peerId
      ip, tcpPort, tlsPort, publicKeyPem
      lastHeartbeat := now
      verified := publicKeyPem ≠ []
    }
    (true, { m with peers := m.peers.insert peerId entry })

def fillKey (entry : PeerEntry) (publicKeyPem : Bytes) : PeerEntry :=
  if publicKeyPem ≠ [] ∧ entry.publicKeyPem = [] then
    { entry with publicKeyPem, verified := true }
  else
    entry

def updatePeerHeartbeat (m : PeerManager) (now : Time) (peerId ip : Bytes) (tcpPort tlsPort : Int)
    (publicKeyPem : Bytes) : PeerManager :=
  match m.peers[peerId]? with
  | none => m
  | some entry =>
    let entry := fillKey { entry with lastHeartbeat := now, ip, tcpPort, tlsPort } publicKeyPem
    { m with peers := m.peers.insert peerId entry }

def hasPeer (m : PeerManager) (peerId : Bytes) : Bool :=
  peerId ∈ m.peers

def getPeer (m : PeerManager) (peerId : Bytes) : PeerEntry :=
  m.peers.getD peerId {}

def getPeerKey (m : PeerManager) (peerId : Bytes) : Bytes :=
  match m.peers[peerId]? with
  | none => []
  | some entry => entry.publicKeyPem

def isPeerVerified (m : PeerManager) (peerId : Bytes) : Bool :=
  match m.peers[peerId]? with
  | none => false
  | some entry => entry.verified

def getAllPeers (m : PeerManager) (a : Ambient) : List PeerEntry :=
  (a.bucketOrder m.peers.keys).map m.getPeer

def getAllPeerIds (m : PeerManager) (a : Ambient) : List Bytes :=
  a.bucketOrder m.peers.keys

def peerCount (m : PeerManager) : Int :=
  m.peers.size

def removePeer (m : PeerManager) (peerId : Bytes) : PeerManager :=
  { m with peers := m.peers.erase peerId }

def getStalePeers (m : PeerManager) (a : Ambient) : List Bytes :=
  (a.bucketOrder m.peers.keys).filter fun peerId =>
    livenessSec < seconds (a.now - (m.getPeer peerId).lastHeartbeat)

def verifyTlsCert (m : PeerManager) (peerId fingerprint : Bytes) : Bool :=
  match m.tofuTrust[peerId]? with
  | none => true
  | some pinned => pinned == [] || pinned == fingerprint

def pinTlsFingerprint (m : PeerManager) (peerId fingerprint : Bytes) : PeerManager :=
  { m with tofuTrust := m.tofuTrust.insert peerId fingerprint }

def unpinPeerKey (m : PeerManager) (nodeId : Bytes) : PeerManager :=
  let m :=
    match m.peers[nodeId]? with
    | none => m
    | some entry =>
      { m with peers := m.peers.insert nodeId { entry with publicKeyPem := [], verified := false } }
  { m with tofuTrust := m.tofuTrust.erase nodeId }

def preProvisionPeerKey (m : PeerManager) (peerId publicKeyPem : Bytes) : PeerManager :=
  { m with preProvisionedKeys := m.preProvisionedKeys.insert peerId publicKeyPem }

def isPeerPreProvisioned (m : PeerManager) (peerId : Bytes) : Bool :=
  peerId ∈ m.preProvisionedKeys

def dualConfirmed (confirmedPaths : UInt8) : Bool :=
  confirmedPaths &&& (pathBeacon ||| pathAnnounce) == (pathBeacon ||| pathAnnounce)

def confirmEntry (m : PeerManager) (peerId : Bytes) (entry : PeerEntry) (pathFlag : UInt8)
    (publicKeyPem : Bytes) : PathConfirmResult × PeerManager :=
  let entry := fillKey { entry with confirmedPaths := entry.confirmedPaths ||| pathFlag } publicKeyPem
  (⟨dualConfirmed entry.confirmedPaths, false⟩, { m with peers := m.peers.insert peerId entry })

def confirmPath (m : PeerManager) (peerId : Bytes) (pathFlag : UInt8) (publicKeyPem : Bytes) :
    PathConfirmResult × PeerManager :=
  match m.peers[peerId]? with
  | none => (⟨false, false⟩, m)
  | some entry =>
    match m.preProvisionedKeys[peerId]? with
    | some expected =>
      if publicKeyPem ≠ [] ∧ expected ≠ publicKeyPem then
        (⟨false, true⟩, m)
      else
        m.confirmEntry peerId entry pathFlag publicKeyPem
    | none =>
      if entry.confirmedPaths &&& pathFlag ≠ 0 then
        if publicKeyPem ≠ [] ∧ entry.publicKeyPem ≠ publicKeyPem then
          (⟨false, true⟩, m)
        else
          (⟨dualConfirmed entry.confirmedPaths, false⟩, m)
      else if entry.confirmedPaths ≠ 0 ∧ entry.publicKeyPem ≠ []
          ∧ publicKeyPem ≠ [] ∧ entry.publicKeyPem ≠ publicKeyPem then
        (⟨false, true⟩, m)
      else
        m.confirmEntry peerId entry pathFlag publicKeyPem

def evictRateLimits (limits : Map Bytes RateLimitState) (a : Ambient) : Map Bytes RateLimitState :=
  if rateLimitMapCap < limits.size then
    let limits := limits.filter fun _ rl => !(rateLimitEvictSec < seconds (a.now - rl.windowStart))
    if rateLimitMapCap < limits.size then
      let start := fun ip => (limits.getD ip {}).windowStart
      match a.bucketOrder limits.keys with
      | [] => limits
      | ip :: ips =>
        limits.erase (ips.foldl (fun oldest ip => if start ip < start oldest then ip else oldest) ip)
    else
      limits
  else
    limits

def checkRateLimit (m : PeerManager) (a : Ambient) (ip : Bytes) : Bool × PeerManager :=
  let rl := m.rateLimits.getD ip {}
  let rl : RateLimitState :=
    if 1000 ≤ milliseconds (a.now - rl.windowStart) then ⟨0, a.now⟩ else rl
  let rl := { rl with count := rl.count + 1 }
  let limits := m.rateLimits.insert ip rl
  if rateLimitPerSec < rl.count then
    (false, { m with rateLimits := limits })
  else
    (true, { m with rateLimits := evictRateLimits limits a })

def resetRateLimit (m : PeerManager) (ip : Bytes) : PeerManager :=
  { m with rateLimits := m.rateLimits.erase ip }

def isOnCooldown (m : PeerManager) (now : Time) (targetId : Bytes) : Bool :=
  match m.lastConsensus[targetId]? with
  | none => false
  | some last => seconds (now - last) < consensusCooldownSec

def setCooldown (m : PeerManager) (now : Time) (targetId : Bytes) : PeerManager :=
  { m with lastConsensus := m.lastConsensus.insert targetId now }

def isKnownIp (m : PeerManager) (ip : Bytes) : Bool :=
  ip ∈ m.knownPeerIps

def addKnownIp (m : PeerManager) (ip : Bytes) : PeerManager :=
  { m with knownPeerIps := insert ip m.knownPeerIps }

end PeerManager
end NeuroMesh
