import NeuroMesh.Consensus.PBFT.Impl.Verify

/-!
This module contains `advance_state`, the state machine of a consensus round, with everything that
stands between a verified message and a vote: the clean up of stale rounds, the rate limit, the
deduplication and the detection of equivocation.
-/

namespace NeuroMesh

def ConsensusRound.expired (now : Time) (round : ConsensusRound) : Bool :=
  PBFTConsensus.roundTtlSec < seconds (now - round.lastActivity)

namespace PBFTConsensus

variable {C : IdentityCore}

def roundKey (C : IdentityCore) (evidenceJson targetId : Bytes) : Bytes :=
  let key := C.sha256Hex (joinPipe [evidenceJson, targetId])
  if key = [] then joinPipe [evidenceJson, targetId] else key

def keyOf (C : IdentityCore) (msg : P2PMessage) : Bytes :=
  roundKey C msg.evidenceJson msg.targetId

def roundOf (s : PBFTConsensus C) (key : Bytes) : ConsensusRound :=
  s.rounds.getD key {}

def setRound (s : PBFTConsensus C) (key : Bytes) (round : ConsensusRound) : PBFTConsensus C :=
  { s with rounds := s.rounds.insert key round }

def needsViewChange (s : PBFTConsensus C) (now : Time) (evidenceJson targetId : Bytes) : Bool :=
  match s.rounds[roundKey C evidenceJson targetId]? with
  | none => false
  | some round =>
    viewChangeTimeoutSec < seconds (now - round.lastActivity) && round.state != .executed

def setRoundCommitSig (s : PBFTConsensus C) (key sig : Bytes) : PBFTConsensus C :=
  s.setRound key { s.roundOf key with commitSignature := sig }

def getRoundCommitSig (s : PBFTConsensus C) (key : Bytes) : Bytes :=
  (s.roundOf key).commitSignature

def cleanupStaleRounds (s : PBFTConsensus C) (now : Time) : PBFTConsensus C :=
  {
    s with
    rounds := s.rounds.filter fun _ round => !round.expired now
    voteRegistry := s.voteRegistry.filter fun key _ => !(s.rounds[key]?.any (·.expired now))
    -- the last executed round in key order wins
    lastConfirmedHash := s.rounds.foldl
      (fun hash key round =>
        if round.expired now && round.state == .executed then key else hash)
      s.lastConfirmedHash
  }

def checkRateLimit (s : PBFTConsensus C) (now : Time) (senderId : Bytes) :
    Bool × PBFTConsensus C :=
  let timestamps := (s.rateLimits.getD senderId []).filter fun ts =>
    !(s.rateWindowSec ≤ seconds (now - ts))
  if sizeT s.rateMax ≤ timestamps.length then
    (false, { s with rateLimits := s.rateLimits.insert senderId timestamps })
  else
    (true, { s with rateLimits := s.rateLimits.insert senderId (timestamps ++ [now]) })

def rememberMessage (s : PBFTConsensus C) (a : Ambient) (msgHash : Bytes) : PBFTConsensus C :=
  let seen := s.seenMessages.insert msgHash
  if maxSeenMessages < seen.size then
    let forgotten := (a.bucketOrder seen.toList).take (seen.size / 2)
    { s with seenMessages := seen.filter fun hash => hash ∉ forgotten }
  else
    { s with seenMessages := seen }

def evictHistory (history : Map UInt64 Bytes) : Map UInt64 Bytes :=
  if maxMsgHistoryPerSender < history.size then
    let oldest := history.keys.take (history.size - maxMsgHistoryPerSender)
    history.filter fun seq _ => seq ∉ oldest
  else
    history

def detectEquivocation (s : PBFTConsensus C) (now : Time) (msg : P2PMessage) (msgHash : Bytes) :
    PBFTConsensus C :=
  let history := s.historyOf msg.senderId
  let s :=
    match history[msg.sequenceNumber]? with
    | none => s
    | some hash =>
      if hash ≠ msgHash then
        let evidence : EquivocationEvidence := {
          nodeId := msg.senderId
          sequenceNumber := msg.sequenceNumber
          view := msg.view
          hash1 := hash
          hash2 := msgHash
          detectedAt := now
        }
        let s := {
          s with equivocationHistory := s.equivocationHistory.insert msg.senderId evidence
        }
        s.recordEquivocation now msg.senderId
      else
        s
  let history := evictHistory (history.insert msg.sequenceNumber msgHash)
  { s with messageHistory := s.messageHistory.insert msg.senderId history }

def verifyQuorumIntersection (s : PBFTConsensus C) (key : Bytes) : Bool :=
  match s.voteRegistry[key]? with
  | none => true
  | some stageMap =>
    match stageMap[Stage.prepare]? with
    | none => true
    | some prepareVoters =>
      if prepareVoters.card < s.quorumSize then
        true
      else
        match stageMap[Stage.commit]? with
        | none => true
        | some commitVoters => s.quorumSize ≤ (prepareVoters ∩ commitVoters).card

def transition (s : PBFTConsensus C) (msg : P2PMessage) (key : Bytes) (round : ConsensusRound)
    (stageVoters : Finset Bytes) : PBFTStage × PBFTConsensus C :=
  if (msg.stageStr = Stage.prePrepare ∨ msg.stageStr = Stage.banPeer) ∧ round.state = .idle then
    (.prepare, s.setRound key { round with state := .prepare })
  else if msg.stageStr = Stage.prepare ∧ s.quorumSize ≤ stageVoters.card
      ∧ round.state = .prepare then
    (.commit, s.setRound key { round with state := .commit })
  else if msg.stageStr = Stage.commit ∧ s.quorumSize ≤ stageVoters.card
      ∧ round.state = .commit then
    if !s.verifyQuorumIntersection key then
      -- roll back the vote that was just inserted
      (.idle, (s.setRound key round).setVoters key msg.stageStr (stageVoters.erase msg.senderId))
    else
      (.executed, s.setRound key { round with state := .executed })
  else
    (.idle, s.setRound key round)

def openRound (s : PBFTConsensus C) (now : Time) (msg : P2PMessage) (key msgHash : Bytes) :
    ConsensusRound :=
  let round := s.roundOf key
  if round.state = .idle then
    {
      round with
      startedAt := now
      view := msg.view
      prePrepareHash := msgHash
      evidenceKey := key
    }
  else
    round

def castVote (s : PBFTConsensus C) (now : Time) (msg : P2PMessage) (key msgHash : Bytes) :
    PBFTStage × PBFTConsensus C :=
  let stageVoters := s.voters key msg.stageStr
  if msg.senderId ∈ stageVoters then
    (.idle, s)
  else
    let stageVoters := insert msg.senderId stageVoters
    let s := s.setVoters key msg.stageStr stageVoters
    let round := s.openRound now msg key msgHash
    if round.view ≠ msg.view then
      (.idle, s.setRound key round)
    else
      s.transition msg key { round with lastActivity := now } stageVoters

def mayVote (s : PBFTConsensus C) (a : Ambient) (msg : P2PMessage) : Bool × PBFTConsensus C :=
  if msg.senderId ∈ s.bannedPeers then
    (false, s)
  else if msg.senderId ∉ s.peerPublicKeys then
    (false, s)
  else
    let s := s.cleanupStaleRounds a.now
    match s.checkRateLimit a.now msg.senderId with
    | (false, s) => (false, s.recordFailure a.now msg.senderId)
    | (true, s) =>
      let msgHash := computeMessageHash C msg
      if msgHash ∈ s.seenMessages then
        (false, s)
      else
        let s := s.rememberMessage a msgHash
        (true, s.detectEquivocation a.now msg msgHash)

def advanceState (s : PBFTConsensus C) (a : Ambient) (msg : P2PMessage) :
    PBFTStage × PBFTConsensus C :=
  match s.mayVote a msg with
  | (false, s) => (.idle, s)
  | (true, s) => s.castVote a.now msg (keyOf C msg) (computeMessageHash C msg)

/--
How every caller hands a message over: `advance_state` only gets to see what `verify_message` accepts.
The result is `none` if it does not.
-/
def receive (s : PBFTConsensus C) (now : Time) (a : Ambient) (msg : P2PMessage) :
    Option PBFTStage × PBFTConsensus C :=
  match s.verifyMessage now msg with
  | (false, s) => (none, s)
  | (true, s) =>
    let (stage, s) := s.advanceState a msg
    (some stage, s)

end PBFTConsensus
end NeuroMesh
