import NeuroMesh.Consensus.PBFT.Impl.Advance
import NeuroMesh.Consensus.PBFT.Lemmas.Quorum

/-!
This module contains the lemmas about the small operations that `verify_message` and `advance_state`
are made of: which part of the object each of them reads and which part it writes.
-/

namespace NeuroMesh
namespace PBFTConsensus

variable {C : IdentityCore}

structure Registry (C : IdentityCore) where
  totalNodes : Int
  currentView : Int
  genesisHash : Bytes
  myNodeId : Bytes
  privateKey : Option C.PrivKey
  voteRegistry : Map Bytes (Map Bytes (Finset Bytes))
  peerPublicKeys : Map Bytes (Option C.PubKey)
  rounds : Map Bytes ConsensusRound
  registeredPeers : Finset Bytes
  bannedPeers : Finset Bytes

def registry (s : PBFTConsensus C) : Registry C :=
  {
    totalNodes := s.totalNodes
    currentView := s.currentView
    genesisHash := s.genesisHash
    myNodeId := s.myNodeId
    privateKey := s.privateKey
    voteRegistry := s.voteRegistry
    peerPublicKeys := s.peerPublicKeys
    rounds := s.rounds
    registeredPeers := s.registeredPeers
    bannedPeers := s.bannedPeers
  }

section Congr

variable {s t : PBFTConsensus C} (h : s.registry = t.registry)
include h

theorem voters_congr (key stage : Bytes) : s.voters key stage = t.voters key stage := by
  have : s.voteRegistry = t.voteRegistry := congrArg Registry.voteRegistry h
  simp only [voters, this]

theorem roundOf_congr (key : Bytes) : s.roundOf key = t.roundOf key := by
  have : s.rounds = t.rounds := congrArg Registry.rounds h
  simp only [roundOf, this]

theorem quorumSize_congr : s.quorumSize = t.quorumSize := by
  have : s.totalNodes = t.totalNodes := congrArg Registry.totalNodes h
  simp only [quorumSize, this]

end Congr

theorem snd_checkRateLimit (s : PBFTConsensus C) (now : Time) (senderId : Bytes)
    : ∃ rateLimits, (s.checkRateLimit now senderId).2 = { s with rateLimits } := by
  unfold checkRateLimit
  dsimp
  split <;> exact ⟨_, rfl⟩

theorem rememberMessage_eq (s : PBFTConsensus C) (a : Ambient) (msgHash : Bytes)
    : ∃ seenMessages, s.rememberMessage a msgHash = { s with seenMessages } := by
  unfold rememberMessage
  dsimp
  split <;> exact ⟨_, rfl⟩

theorem detectEquivocation_eq (s : PBFTConsensus C) (now : Time) (msg : P2PMessage) (msgHash : Bytes)
    : ∃ nodeTrust equivocationHistory messageHistory, s.detectEquivocation now msg msgHash
        = { s with nodeTrust, equivocationHistory, messageHistory } := by
  unfold detectEquivocation
  dsimp
  split
  . exact ⟨_, _, _, rfl⟩
  . split <;> exact ⟨_, _, _, rfl⟩

@[simp]
theorem registry_recordSuccess (s : PBFTConsensus C) (nodeId : Bytes)
    : (s.recordSuccess nodeId).registry = s.registry := by
  rfl

@[simp]
theorem registry_checkRateLimit (s : PBFTConsensus C) (now : Time) (senderId : Bytes)
    : (s.checkRateLimit now senderId).2.registry = s.registry := by
  obtain ⟨_, heq⟩ := s.snd_checkRateLimit now senderId
  rw [heq]
  rfl

@[simp]
theorem registry_rememberMessage (s : PBFTConsensus C) (a : Ambient) (msgHash : Bytes)
    : (s.rememberMessage a msgHash).registry = s.registry := by
  obtain ⟨_, heq⟩ := s.rememberMessage_eq a msgHash
  rw [heq]
  rfl

@[simp]
theorem registry_detectEquivocation (s : PBFTConsensus C) (now : Time) (msg : P2PMessage)
    (msgHash : Bytes)
    : (s.detectEquivocation now msg msgHash).registry = s.registry := by
  obtain ⟨_, _, _, heq⟩ := s.detectEquivocation_eq now msg msgHash
  rw [heq]
  rfl

@[simp]
theorem voters_setVoters (s : PBFTConsensus C) (key stage : Bytes) (set : Finset Bytes)
    (key' stage' : Bytes)
    : (s.setVoters key stage set).voters key' stage'
        =
      if key = key' ∧ stage = stage' then set else s.voters key' stage' := by
  unfold voters setVoters
  simp only [Std.ExtTreeMap.getD_insert, Std.compare_eq_iff_eq]
  split
  . next hkey =>
    subst hkey
    simp only [true_and, Std.ExtTreeMap.getD_insert, Std.compare_eq_iff_eq]
  . next hkey => simp [hkey]

@[simp]
theorem voters_setRound (s : PBFTConsensus C) (key : Bytes) (round : ConsensusRound)
    (key' stage : Bytes)
    : (s.setRound key round).voters key' stage = s.voters key' stage := by
  rfl

@[simp]
theorem roundOf_setRound (s : PBFTConsensus C) (key : Bytes) (round : ConsensusRound) (key' : Bytes)
    : (s.setRound key round).roundOf key' = if key = key' then round else s.roundOf key' := by
  unfold roundOf setRound
  simp only [Std.ExtTreeMap.getD_insert, Std.compare_eq_iff_eq]

@[simp]
theorem roundOf_setVoters (s : PBFTConsensus C) (key stage : Bytes) (set : Finset Bytes)
    (key' : Bytes)
    : (s.setVoters key stage set).roundOf key' = s.roundOf key' := by
  rfl

@[simp]
theorem quorumSize_setVoters (s : PBFTConsensus C) (key stage : Bytes) (set : Finset Bytes)
    : (s.setVoters key stage set).quorumSize = s.quorumSize := by
  rfl

@[simp]
theorem quorumSize_setRound (s : PBFTConsensus C) (key : Bytes) (round : ConsensusRound)
    : (s.setRound key round).quorumSize = s.quorumSize := by
  rfl

theorem roundOf_recordFailure (s : PBFTConsensus C) (now : Time) (nodeId key : Bytes)
    : (s.recordFailure now nodeId).roundOf key = s.roundOf key := by
  unfold recordFailure
  dsimp
  split <;> rfl

theorem voters_prunePeerLocked (s : PBFTConsensus C) (nodeId key stage : Bytes)
    : (s.prunePeerLocked nodeId).voters key stage = (s.voters key stage).erase nodeId := by
  unfold voters prunePeerLocked
  simp only [Std.ExtTreeMap.getD_eq_getD_getElem?, Std.ExtTreeMap.getElem?_map]
  cases s.voteRegistry[key]? with
  | none => simp
  | some stageMap =>
    simp only [Option.map_some, Option.getD_some, Std.ExtTreeMap.getElem?_map]
    cases stageMap[stage]? with
    | none => simp
    | some set => simp

theorem voters_cleanupStaleRounds (s : PBFTConsensus C) (now : Time) (key stage : Bytes)
    : (s.cleanupStaleRounds now).voters key stage
        =
      if s.rounds[key]?.any (·.expired now) then ∅ else s.voters key stage := by
  unfold voters cleanupStaleRounds
  simp only [Std.ExtTreeMap.getD_eq_getD_getElem?, Std.ExtTreeMap.getElem?_filter']
  cases s.rounds[key]?.any (·.expired now) with
  | true => cases s.voteRegistry[key]? <;> simp [Option.filter]
  | false => cases s.voteRegistry[key]? <;> simp [Option.filter]

theorem roundOf_cleanupStaleRounds (s : PBFTConsensus C) (now : Time) (key : Bytes)
    : (s.cleanupStaleRounds now).roundOf key
        =
      if s.rounds[key]?.any (·.expired now) then {} else s.roundOf key := by
  unfold roundOf cleanupStaleRounds
  simp only [Std.ExtTreeMap.getD_eq_getD_getElem?, Std.ExtTreeMap.getElem?_filter']
  cases s.rounds[key]? with
  | none => simp
  | some round => cases h : round.expired now <;> simp [h, Option.filter]

theorem verifyQuorumIntersection_setVoters (s : PBFTConsensus C) (key : Bytes) (set : Finset Bytes)
    : (s.setVoters key Stage.commit set).verifyQuorumIntersection key
        =
      ((s.voters key Stage.prepare).card < s.quorumSize
        ∨ s.quorumSize ≤ (s.voters key Stage.prepare ∩ set).card : Bool) := by
  have hpos := s.quorumSize_pos
  have hne : Stage.commit ≠ Stage.prepare := by decide
  unfold verifyQuorumIntersection
  rw [quorumSize_setVoters]
  unfold voters setVoters
  generalize s.voteRegistry.getD key ∅ = stageMap
  simp only [Std.ExtTreeMap.getElem?_insert_self, Std.ExtTreeMap.getElem?_insert,
    Std.compare_eq_iff_eq, hne, if_false, Std.ExtTreeMap.getD_eq_getD_getElem?]
  cases stageMap[Stage.prepare]? with
  | none => simp [hpos]
  | some prepareVoters => 
    simp only [Option.getD_some]
    split <;> simp_all

theorem snd_proposeBan_cases (s : PBFTConsensus C) (targetId reason : Bytes)
    : (s.proposeBan targetId reason).2 = s
        ∨
      (s.proposeBan targetId reason).2 = s.banPeerLocal targetId reason := by
  unfold proposeBan
  split
  . exact .inl rfl
  . split
    . exact .inl rfl
    . exact .inr rfl

theorem snd_tryIncrementPeers_cases (s : PBFTConsensus C) (nodeId : Bytes)
    : (s.tryIncrementPeers nodeId).2 = s
        ∨
      nodeId ∉ s.registeredPeers
        ∧ (s.tryIncrementPeers nodeId).2
          = { s with
              registeredPeers := insert nodeId s.registeredPeers
              totalNodes := s.totalNodes + 1 } := by
  unfold tryIncrementPeers
  split
  . exact .inl rfl
  . next hnew => exact .inr ⟨hnew, rfl⟩

end PBFTConsensus
end NeuroMesh
