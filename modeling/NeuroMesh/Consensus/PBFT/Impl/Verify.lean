import NeuroMesh.Consensus.PBFT.Impl.Membership

/-!
This module contains the signing and the verification of messages: the signed blob, the hash chain
of every sender and `verify_message`.
-/

namespace NeuroMesh

namespace P2PMessage

/--
What `sign_message` signs and `verify_message` verifies. The sender is not part of it, it is bound
by the key.
-/
def blob (msg : P2PMessage) : Bytes :=
  joinPipe [
    msg.stageStr, msg.targetId, msg.evidenceJson, toDecimal msg.sequenceNumber.toNat,
    toDecimalInt msg.view, msg.prevMessageHash
  ]

end P2PMessage

namespace PBFTConsensus

variable {C : IdentityCore}

def computeMessageHash (C : IdentityCore) (msg : P2PMessage) : Bytes :=
  C.sha256Hex <| joinPipe [
    msg.stageStr, msg.senderId, msg.targetId, msg.evidenceJson, msg.prevMessageHash,
    toDecimal msg.sequenceNumber.toNat, toDecimalInt msg.view
  ]

def signMessage (s : PBFTConsensus C) (msg : P2PMessage) : Bytes :=
  match s.privateKey with
  | none => []
  | some key => C.signPayload key msg.blob

def historyOf (s : PBFTConsensus C) (senderId : Bytes) : Map UInt64 Bytes :=
  s.messageHistory.getD senderId ∅

def getLastSentHash (s : PBFTConsensus C) (senderId : Bytes) : Bytes :=
  let history := s.historyOf senderId
  match history.keys.getLast? with
  | none => s.genesisHash
  | some seq => history.getD seq []

def verifyMessageChaining (s : PBFTConsensus C) (msg : P2PMessage) : Bool :=
  let history := s.historyOf msg.senderId
  if history.isEmpty then
    true
  else
    match history[msg.sequenceNumber - 1]? with
    | none => msg.prevMessageHash == [] || msg.prevMessageHash == s.genesisHash
    | some prevHash => prevHash == msg.prevMessageHash

def verifySequenceContinuity (s : PBFTConsensus C) (msg : P2PMessage) : Bool :=
  let history := s.historyOf msg.senderId
  if history.isEmpty then
    true
  else
    let maxSeq := history.foldl (fun maxSeq seq _ => if maxSeq < seq then seq else maxSeq) 0
    -- the sum is a `uint64_t` and wraps around
    !(maxSeq + maxSequenceGap < msg.sequenceNumber)

def verifyMessage (s : PBFTConsensus C) (now : Time) (msg : P2PMessage) :
    Bool × PBFTConsensus C :=
  if msg.senderId ∈ s.bannedPeers then
    (false, s)
  else
    match s.peerPublicKeys[msg.senderId]? with
    | none => (false, s)
    | some key =>
      if !C.verifyWith key msg.blob msg.signature then
        (false, s.recordFailure now msg.senderId)
      else if !s.verifyMessageChaining msg then
        (false, s.recordFailure now msg.senderId)
      else if !s.verifySequenceContinuity msg then
        (false, s.recordFailure now msg.senderId)
      else
        (true, s.recordSuccess msg.senderId)

end PBFTConsensus
end NeuroMesh
