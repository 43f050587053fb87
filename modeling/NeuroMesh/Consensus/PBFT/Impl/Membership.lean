import NeuroMesh.Consensus.PBFT.Basic

/-!
This module contains the operations of `PBFTConsensus` on the set of peers: registration, the node
count and the quorum derived from it, pruning and bans.
-/

namespace NeuroMesh
namespace PBFTConsensus

variable {C : IdentityCore}

def voters (s : PBFTConsensus C) (key stage : Bytes) : Finset Bytes :=
  ((s.voteRegistry.getD key ∅).getD stage ∅)

def setVoters (s : PBFTConsensus C) (key stage : Bytes) (set : Finset Bytes) : PBFTConsensus C :=
  {
    s with
    voteRegistry := s.voteRegistry.insert key ((s.voteRegistry.getD key ∅).insert stage set)
  }

def registerPeerKey (s : PBFTConsensus C) (nodeId pemKey : Bytes) : PBFTConsensus C :=
  {
    s with
    peerPublicKeys := s.peerPublicKeys.insert nodeId (C.getPubkeyFromPem pemKey)
    nodeTrust := s.nodeTrust.insert nodeId {}
    registeredPeers := insert nodeId s.registeredPeers
  }

def hasPeer (s : PBFTConsensus C) (nodeId : Bytes) : Bool :=
  nodeId ∈ s.registeredPeers

def setMyIdentity (s : PBFTConsensus C) (nodeId : Bytes) : PBFTConsensus C :=
  { s with myNodeId := nodeId }

def setPrivateKey (s : PBFTConsensus C) (key : C.PrivKey) : PBFTConsensus C :=
  { s with privateKey := some key }

def peerCount (s : PBFTConsensus C) : Int :=
  s.totalNodes

def quorumSize (s : PBFTConsensus C) : Nat :=
  (2 * ((max 1 s.totalNodes - 1) / 3) + 1).toNat

def setPeerCount (s : PBFTConsensus C) (n : Int) : PBFTConsensus C :=
  { s with totalNodes := max 1 n }

def incrementPeers (s : PBFTConsensus C) : PBFTConsensus C :=
  { s with totalNodes := s.totalNodes + 1 }

def decrementPeers (s : PBFTConsensus C) : PBFTConsensus C :=
  { s with totalNodes := max 1 (s.totalNodes - 1) }

def tryIncrementPeers (s : PBFTConsensus C) (nodeId : Bytes) : Bool × PBFTConsensus C :=
  if nodeId ∈ s.registeredPeers then
    (false, s)
  else
    let s := { s with registeredPeers := insert nodeId s.registeredPeers }
    (true, s.incrementPeers)

def prunePeerLocked (s : PBFTConsensus C) (nodeId : Bytes) : PBFTConsensus C :=
  {
    s with
    peerPublicKeys := s.peerPublicKeys.erase nodeId
    nodeTrust := s.nodeTrust.erase nodeId
    messageHistory := s.messageHistory.erase nodeId
    registeredPeers := s.registeredPeers.erase nodeId
    voteRegistry :=
      s.voteRegistry.map fun _ stageMap => stageMap.map fun _ voters => voters.erase nodeId
    totalNodes := max 1 (s.totalNodes - 1)
  }

def prunePeer (s : PBFTConsensus C) (nodeId : Bytes) : PBFTConsensus C :=
  s.prunePeerLocked nodeId

def drainRecentBans (s : PBFTConsensus C) (a : Ambient) : List Bytes × PBFTConsensus C :=
  (a.bucketOrder s.recentBans.toList, { s with recentBans := ∅ })

def isBanned (s : PBFTConsensus C) (nodeId : Bytes) : Bool :=
  nodeId ∈ s.bannedPeers

def banPeerLocked (s : PBFTConsensus C) (nodeId : Bytes) : PBFTConsensus C :=
  { s with bannedPeers := insert nodeId s.bannedPeers }

def banPeerLocal (s : PBFTConsensus C) (nodeId _reason : Bytes) : PBFTConsensus C :=
  s.banPeerLocked nodeId

def proposeBan (s : PBFTConsensus C) (targetId reason : Bytes) : Bool × PBFTConsensus C :=
  if targetId = [] ∨ targetId = s.myNodeId then
    (false, s)
  else if s.isBanned targetId then
    (false, s)
  else
    (true, s.banPeerLocal targetId reason)

def advanceView (s : PBFTConsensus C) : PBFTConsensus C :=
  { s with currentView := s.currentView + 1 }

/-
The failure counters of `m_node_trust`, they decide who is pruned and banned automatically.
-/

def trustOf (s : PBFTConsensus C) (nodeId : Bytes) : NodeTrustScore :=
  s.nodeTrust.getD nodeId {}

def setTrust (s : PBFTConsensus C) (nodeId : Bytes) (trust : NodeTrustScore) : PBFTConsensus C :=
  { s with nodeTrust := s.nodeTrust.insert nodeId trust }

def recordEquivocation (s : PBFTConsensus C) (now : Time) (nodeId : Bytes) : PBFTConsensus C :=
  let trust := s.trustOf nodeId
  s.setTrust nodeId {
    trust with
    equivocationCount := trust.equivocationCount + 1
    consecutiveFailures := trust.consecutiveFailures + 1
    lastFailure := now
  }

def recordFailure (s : PBFTConsensus C) (now : Time) (nodeId : Bytes) : PBFTConsensus C :=
  let trust := s.trustOf nodeId
  let trust := {
    trust with
    consecutiveFailures := trust.consecutiveFailures + 1
    lastFailure := now
  }
  let s := s.setTrust nodeId trust
  if autoPruneFailures ≤ trust.consecutiveFailures then
    let s := s.banPeerLocked nodeId
    let s := { s with recentBans := s.recentBans.insert nodeId }
    s.prunePeerLocked nodeId
  else
    s

def recordSuccess (s : PBFTConsensus C) (nodeId : Bytes) : PBFTConsensus C :=
  let trust := s.trustOf nodeId
  s.setTrust nodeId {
    trust with
    consecutiveFailures :=
      if 0 < trust.consecutiveFailures then 0 else trust.consecutiveFailures
    successfulRounds := trust.successfulRounds + 1
  }

end PBFTConsensus
end NeuroMesh
