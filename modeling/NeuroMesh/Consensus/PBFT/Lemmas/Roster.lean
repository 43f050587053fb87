import NeuroMesh.Consensus.PBFT.Lemmas.Frame

namespace NeuroMesh
namespace PBFTConsensus

variable {C : IdentityCore}

structure Roster (C : IdentityCore) where
  totalNodes : Int
  currentView : Int
  peerPublicKeys : Map Bytes (Option C.PubKey)
  registeredPeers : Finset Bytes
  bannedPeers : Finset Bytes

def Registry.roster (registry : Registry C) : Roster C :=
  {
    totalNodes := registry.totalNodes
    currentView := registry.currentView
    peerPublicKeys := registry.peerPublicKeys
    registeredPeers := registry.registeredPeers
    bannedPeers := registry.bannedPeers
  }

def roster (s : PBFTConsensus C) : Roster C :=
  s.registry.roster

def Roster.expel (roster : Roster C) (nodeId : Bytes) : Roster C :=
  {
    roster with
    totalNodes := max 1 (roster.totalNodes - 1)
    peerPublicKeys := roster.peerPublicKeys.erase nodeId
    registeredPeers := roster.registeredPeers.erase nodeId
    bannedPeers := insert nodeId roster.bannedPeers
  }

structure Expelled (s t : PBFTConsensus C) (nodeId : Bytes) : Prop where
  roster_eq : t.roster = s.roster.expel nodeId
  notMem_voters : ∀ key stage, nodeId ∉ t.voters key stage

structure OnTheBrink (s : PBFTConsensus C) (nodeId : Bytes) : Prop where
  notBanned : nodeId ∉ s.bannedPeers
  known : nodeId ∈ s.peerPublicKeys
  failures : autoPruneFailures ≤ (s.trustOf nodeId).consecutiveFailures + 1

variable (s : PBFTConsensus C)

theorem roster_recordFailure (now : Time) (nodeId : Bytes)
    : (s.recordFailure now nodeId).roster = s.roster
        ∨ autoPruneFailures ≤ (s.trustOf nodeId).consecutiveFailures + 1
          ∧ s.Expelled (s.recordFailure now nodeId) nodeId := by
  unfold recordFailure
  dsimp only
  split
  . next h =>
    refine .inr ⟨h, rfl, ?_⟩
    intro key stage
    rw [voters_prunePeerLocked]
    apply Finset.notMem_erase
  . exact .inl rfl

theorem roster_verifyMessage (now : Time) (msg : P2PMessage)
    : (s.verifyMessage now msg).2.roster = s.roster
        ∨ s.OnTheBrink msg.senderId
          ∧ s.Expelled (s.verifyMessage now msg).2 msg.senderId := by
  have h := s.verifyMessage_cases now msg
  generalize s.verifyMessage now msg = res at *
  cases h with
  | banned => exact .inl rfl
  | unknown => exact .inl rfl
  | verified => exact .inl rfl
  | rejected hban hkey =>
    rcases s.roster_recordFailure now msg.senderId with hsame | ⟨hfailures, hexpelled⟩
    . exact .inl hsame
    . exact .inr ⟨⟨hban, hkey, hfailures⟩, hexpelled⟩

theorem roster_checkRateLimit (now : Time) (senderId : Bytes)
    : ((s.cleanupStaleRounds now).checkRateLimit now senderId).2.roster = s.roster := by
  unfold roster
  rw [registry_checkRateLimit]
  rfl

theorem roster_advanceState (a : Ambient) (msg : P2PMessage)
    : (s.advanceState a msg).2.roster = s.roster
        ∨ s.OnTheBrink msg.senderId
          ∧ s.Expelled (s.advanceState a msg).2 msg.senderId := by
  by_cases hadmits : s.Admits a msg
  . left
    unfold roster
    rw [registry_advanceState hadmits]
    rfl
  . rw [advanceState_of_not_admits hadmits]
    rw [← mayVote_eq_true_iff] at hadmits
    have h := s.mayVote_cases a msg
    generalize s.mayVote a msg = res at *
    cases h with
    | banned => exact .inl rfl
    | unknown => exact .inl rfl
    | admitted => simp at hadmits
    | seen => exact .inl (s.roster_checkRateLimit a.now msg.senderId)
    | limited hban hkey =>
      have hroster := s.roster_checkRateLimit a.now msg.senderId
      have htrust :
          ((s.cleanupStaleRounds a.now).checkRateLimit a.now msg.senderId).2.trustOf msg.senderId
            = s.trustOf msg.senderId :=
        (sameAbout_checkRateLimit (s.cleanupStaleRounds a.now) a.now msg.senderId).trust_eq
      rcases roster_recordFailure _ a.now msg.senderId with hsame | ⟨hfailures, hexpelled⟩
      . exact .inl (hsame.trans hroster)
      . rw [htrust] at hfailures
        refine .inr ⟨⟨hban, hkey, hfailures⟩, ?_, hexpelled.notMem_voters⟩
        rw [hexpelled.roster_eq, hroster]

theorem quorumSize_le_of_totalNodes {t : PBFTConsensus C} (h : max 1 t.totalNodes ≤ max 1 s.totalNodes)
    : t.quorumSize ≤ s.quorumSize := by
  unfold quorumSize
  omega

theorem quorumSize_decrementPeers_le : s.decrementPeers.quorumSize ≤ s.quorumSize := by
  apply quorumSize_le_of_totalNodes
  change max 1 (max 1 (s.totalNodes - 1)) ≤ _
  omega

theorem quorumSize_le_of_roster {t : PBFTConsensus C} {nodeId : Bytes}
    (h : t.roster = s.roster ∨ t.roster = s.roster.expel nodeId)
    : t.quorumSize ≤ s.quorumSize := by
  apply quorumSize_le_of_totalNodes
  rcases h with hsame | hexpelled
  . have : t.totalNodes = s.totalNodes := congrArg Roster.totalNodes hsame
    omega
  . have : t.totalNodes = max 1 (s.totalNodes - 1) := congrArg Roster.totalNodes hexpelled
    omega

end PBFTConsensus
end NeuroMesh
