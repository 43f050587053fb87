import NeuroMesh.Crypto.IdentityCore

/-!
This module contains the data model of `consensus/PBFT.hpp`.
-/

namespace NeuroMesh

inductive PBFTStage where
  | idle
  | prePrepare
  | prepare
  | commit
  | executed
  | banPeer
  deriving DecidableEq, Repr

structure P2PMessage where
  stageStr : Bytes
  senderId : Bytes
  targetId : Bytes
  evidenceJson : Bytes
  signature : Bytes
  prevMessageHash : Bytes
  sequenceNumber : UInt64
  view : Int
  deriving DecidableEq

/-
The stage of a message is a string on the wire and in `P2PMessage`, these are the ones that
`advance_state` compares it with.
-/
namespace Stage

def prePrepare : Bytes := bytes "PRE_PREPARE"
def prepare : Bytes := bytes "PREPARE"
def commit : Bytes := bytes "COMMIT"
def banPeer : Bytes := bytes "BAN_PEER"

end Stage

structure EquivocationEvidence where
  nodeId : Bytes
  sequenceNumber : UInt64
  view : Int
  hash1 : Bytes
  hash2 : Bytes
  detectedAt : Time

structure ConsensusRound where
  state : PBFTStage := .idle
  view : Int := 0
  prePrepareHash : Bytes := []
  evidenceKey : Bytes := []
  commitSignature : Bytes := []
  startedAt : Time := 0
  lastActivity : Time := 0

/--
The `trust_score` is a floating point number that no decision of the consensus reads, it is not part
of the model.
-/
structure NodeTrustScore where
  equivocationCount : Int := 0
  consecutiveFailures : Int := 0
  successfulRounds : Int := 0
  lastFailure : Time := 0

/--
What a call reads from outside of the object: the clock, and the order in which an unordered
container happens to enumerate its keys.
-/
structure Ambient where
  now : Time
  bucketOrder : List Bytes → List Bytes
  bucketOrder_perm : ∀ keys, (bucketOrder keys).Perm keys

structure PBFTConsensus (C : IdentityCore) where
  totalNodes : Int
  currentView : Int := 0
  rateWindowSec : Int
  rateMax : Int
  genesisHash : Bytes
  lastConfirmedHash : Bytes := []
  myNodeId : Bytes := []
  privateKey : Option C.PrivKey := none
  voteRegistry : Map Bytes (Map Bytes (Finset Bytes)) := ∅
  peerPublicKeys : Map Bytes (Option C.PubKey) := ∅
  rounds : Map Bytes ConsensusRound := ∅
  nodeTrust : Map Bytes NodeTrustScore := ∅
  messageHistory : Map Bytes (Map UInt64 Bytes) := ∅
  equivocationHistory : Map Bytes EquivocationEvidence := ∅
  rateLimits : Map Bytes (List Time) := ∅
  seenMessages : KeySet := ∅
  registeredPeers : Finset Bytes := ∅
  bannedPeers : Finset Bytes := ∅
  recentBans : KeySet := ∅

namespace PBFTConsensus

def viewChangeTimeoutSec : Int := 30
def roundTtlSec : Int := 120
def maxSequenceGap : UInt64 := 100
def defaultRateWindowSec : Int := 10
def defaultRateMax : Int := 5
def maxMsgHistoryPerSender : Nat := 10000
def maxSeenMessages : Nat := 100000
def autoPruneFailures : Int := 100

def rateFromEnv (env : Option Bytes) (default : Int) : Int :=
  match env with
  | none => default
  | some s =>
    let (val, stop) := strtol s
    if stop = s.length ∧ 0 < val then int32 val else default

def new (C : IdentityCore) (totalNodes : Int) (windowEnv maxEnv : Option Bytes) : PBFTConsensus C :=
  {
    totalNodes
    rateWindowSec := rateFromEnv windowEnv defaultRateWindowSec
    rateMax := rateFromEnv maxEnv defaultRateMax
    genesisHash := C.sha256Hex (bytes "GENESIS")
  }

end PBFTConsensus
end NeuroMesh
