import NeuroMesh.Consensus.PBFT.Lemmas.Basic

namespace NeuroMesh
namespace PBFTConsensus

variable {C : IdentityCore}

def SignedBySender (s : PBFTConsensus C) (msg : P2PMessage) : Prop :=
  C.verifyWith (s.peerPublicKeys.getD msg.senderId none) msg.blob msg.signature = true

structure Verifies (s : PBFTConsensus C) (msg : P2PMessage) : Prop where
  notBanned : msg.senderId ∉ s.bannedPeers
  known : msg.senderId ∈ s.peerPublicKeys
  signed : s.SignedBySender msg
  chained : s.verifyMessageChaining msg = true
  continuous : s.verifySequenceContinuity msg = true

inductive Verification (s : PBFTConsensus C) (now : Time) (msg : P2PMessage) :
    Bool × PBFTConsensus C → Prop where
  | banned (hban : msg.senderId ∈ s.bannedPeers) : Verification s now msg (false, s)
  | unknown (hban : msg.senderId ∉ s.bannedPeers) (hkey : msg.senderId ∉ s.peerPublicKeys) :
    Verification s now msg (false, s)
  | rejected (hban : msg.senderId ∉ s.bannedPeers) (hkey : msg.senderId ∈ s.peerPublicKeys)
      (hinvalid : ¬s.Verifies msg) :
    Verification s now msg (false, s.recordFailure now msg.senderId)
  | verified (hvalid : s.Verifies msg) :
    Verification s now msg (true, s.recordSuccess msg.senderId)

theorem verifyMessage_cases (s : PBFTConsensus C) (now : Time) (msg : P2PMessage)
    : Verification s now msg (s.verifyMessage now msg) := by
  unfold verifyMessage
  split
  . next hban => exact .banned hban
  . next hban =>
    split
    . next hkey =>
      apply Verification.unknown hban
      simpa using hkey
    . next key hkey =>
      have hknown : msg.senderId ∈ s.peerPublicKeys := by
        rw [Std.ExtTreeMap.mem_iff_isSome_getElem?, hkey]
        rfl
      have hsigned : s.SignedBySender msg ↔ C.verifyWith key msg.blob msg.signature = true := by
        unfold SignedBySender
        rw [Std.ExtTreeMap.getD_eq_getD_getElem?, hkey]
        rfl
      split
      . next h =>
        apply Verification.rejected hban hknown
        intro hvalid
        simp [hsigned.mp hvalid.signed] at h
      . next hsig =>
        split
        . next h =>
          apply Verification.rejected hban hknown
          intro hvalid
          simp [hvalid.chained] at h
        . next hchain =>
          split
          . next h =>
            apply Verification.rejected hban hknown
            intro hvalid
            simp [hvalid.continuous] at h
          . next hcont =>
            apply Verification.verified
            exact ⟨hban, hknown, hsigned.mpr (by simpa using hsig), by simpa using hchain,
              by simpa using hcont⟩

theorem verifyMessage_rule {P : PBFTConsensus C → Prop} {s : PBFTConsensus C} {now : Time} {msg : P2PMessage} (h : P s)
    (hrejected : P (s.recordFailure now msg.senderId)) (hverified : P (s.recordSuccess msg.senderId))
    : P (s.verifyMessage now msg).2 := by
  have hcases := s.verifyMessage_cases now msg
  generalize s.verifyMessage now msg = res at *
  cases hcases with
  | banned => exact h
  | unknown => exact h
  | rejected => exact hrejected
  | verified => exact hverified

theorem verifyMessage_eq_true_iff (s : PBFTConsensus C) (now : Time) (msg : P2PMessage)
    : (s.verifyMessage now msg).1 = true ↔ s.Verifies msg := by
  have h := s.verifyMessage_cases now msg
  generalize s.verifyMessage now msg = res at *
  cases h with
  | banned hban => simpa using fun h : s.Verifies msg => h.notBanned hban
  | unknown hban hkey => simpa using fun h : s.Verifies msg => hkey h.known
  | rejected hban hkey hinvalid => simpa using hinvalid
  | verified hvalid => simpa using hvalid

@[simp]
theorem rounds_recordFailure (s : PBFTConsensus C) (now : Time) (nodeId : Bytes)
    : (s.recordFailure now nodeId).rounds = s.rounds := by
  unfold recordFailure
  dsimp
  split <;> rfl

@[simp]
theorem rounds_verifyMessage (s : PBFTConsensus C) (now : Time) (msg : P2PMessage)
    : (s.verifyMessage now msg).2.rounds = s.rounds := by
  exact verifyMessage_rule (P := (·.rounds = s.rounds)) rfl (s.rounds_recordFailure now msg.senderId) rfl

end PBFTConsensus
end NeuroMesh
