import NeuroMesh.Consensus.PBFT.Lemmas.Frame

namespace NeuroMesh
namespace PBFTConsensus

variable {C : IdentityCore}

def Lapsed (T : Set Time) (lastActivity : Time) : Prop :=
  ∃ now ∈ T, ∃ since, (since = lastActivity ∨ since ∈ T) ∧ roundTtlSec < seconds (now - since)

structure Retains (nodeId : Bytes) (T : Set Time) (s t : PBFTConsensus C) : Prop where
  key : nodeId ∈ s.peerPublicKeys → nodeId ∈ t.peerPublicKeys
  ban : nodeId ∈ t.bannedPeers → nodeId ∈ s.bannedPeers
  votes : ∀ key stage, nodeId ∈ s.voters key stage →
    nodeId ∈ t.voters key stage ∨ Lapsed T (s.roundOf key).lastActivity
  activity : ∀ key,
    (t.roundOf key).lastActivity = (s.roundOf key).lastActivity
      ∨ (t.roundOf key).lastActivity ∈ T
      ∨ Lapsed T (s.roundOf key).lastActivity

namespace Retains

variable {nodeId : Bytes} {T : Set Time} {s t u : PBFTConsensus C}

theorem lapsed_of_activity (h : Retains nodeId T s t) {key : Bytes}
    (hlapsed : Lapsed T (t.roundOf key).lastActivity)
    : Lapsed T (s.roundOf key).lastActivity := by
  rcases h.activity key with hsame | hread | hdone
  . rwa [hsame] at hlapsed
  . obtain ⟨now, hnow, since, hsince, hlong⟩ := hlapsed
    refine ⟨now, hnow, since, .inr ?_, hlong⟩
    cases hsince with
    | inl heq => rwa [heq]
    | inr hmem => exact hmem
  . exact hdone

theorem trans (h₁ : Retains nodeId T s t) (h₂ : Retains nodeId T t u) : Retains nodeId T s u := by
  constructor
  . intro hkey
    exact h₂.key (h₁.key hkey)
  . intro hban
    exact h₁.ban (h₂.ban hban)
  . intro key stage hvote
    cases h₁.votes key stage hvote with
    | inr hlapsed => exact .inr hlapsed
    | inl hvote =>
      cases h₂.votes key stage hvote with
      | inl hvote => exact .inl hvote
      | inr hlapsed => exact .inr (h₁.lapsed_of_activity hlapsed)
  . intro key
    rcases h₂.activity key with hsame | hread | hlapsed
    . rw [hsame]
      exact h₁.activity key
    . exact .inr (.inl hread)
    . exact .inr (.inr (h₁.lapsed_of_activity hlapsed))

theorem of_registry_eq (h : t.registry = s.registry) : Retains nodeId T s t := by
  have hkeys : t.peerPublicKeys = s.peerPublicKeys := congrArg Registry.peerPublicKeys h
  have hbans : t.bannedPeers = s.bannedPeers := congrArg Registry.bannedPeers h
  constructor
  . rw [hkeys]
    exact id
  . rw [hbans]
    exact id
  . intro key stage hvote
    rw [voters_congr h]
    exact .inl hvote
  . intro key
    rw [roundOf_congr h]
    exact .inl rfl

theorem refl (nodeId : Bytes) (T : Set Time) (s : PBFTConsensus C) : Retains nodeId T s s := by
  exact .of_registry_eq rfl

end Retains

section Steps

variable {nodeId : Bytes} {T : Set Time} (s : PBFTConsensus C)

def BelowThreshold (nodeId : Bytes) : Prop :=
  (s.trustOf nodeId).consecutiveFailures + 1 < autoPruneFailures

theorem registry_recordFailure (now : Time) (h : s.BelowThreshold nodeId)
    : (s.recordFailure now nodeId).registry = s.registry := by
  unfold recordFailure
  dsimp
  split
  . next hban => exact absurd hban (Int.not_le.mpr h)
  . rfl

theorem mem_voters_recordFailure {other : Bytes} (h : other ≠ nodeId) (now : Time)
    {key stage : Bytes} (hvote : nodeId ∈ s.voters key stage)
    : nodeId ∈ (s.recordFailure now other).voters key stage := by
  unfold recordFailure
  dsimp
  split
  . rw [voters_prunePeerLocked, Finset.mem_erase]
    exact ⟨h.symm, hvote⟩
  . exact hvote

theorem retains_recordFailure (now : Time) {other : Bytes}
    (h : other ≠ nodeId ∨ s.BelowThreshold other)
    : Retains nodeId T s (s.recordFailure now other) := by
  cases h with
  | inl hne =>
    have hsame := s.sameAbout_recordFailure now hne
    constructor
    . exact hsame.mem_peerPublicKeys_iff.mpr
    . exact hsame.banned_iff.mp
    . intro key stage hvote
      exact .inl (s.mem_voters_recordFailure hne now hvote)
    . intro key
      rw [roundOf_recordFailure]
      exact .inl rfl
  | inr hbelow => exact .of_registry_eq (s.registry_recordFailure now hbelow)

theorem lapsed_of_any_expired {now : Time} {key : Bytes} (hnow : now ∈ T)
    (h : s.rounds[key]?.any (·.expired now) = true)
    : Lapsed T (s.roundOf key).lastActivity := by
  unfold roundOf
  rw [Std.ExtTreeMap.getD_eq_getD_getElem?]
  cases hround : s.rounds[key]? with
  | none => simp [hround] at h
  | some round =>
    rw [hround] at h
    exact ⟨now, hnow, round.lastActivity, .inl rfl, by simpa [ConsensusRound.expired] using h⟩

theorem retains_cleanupStaleRounds {now : Time} (hnow : now ∈ T)
    : Retains nodeId T s (s.cleanupStaleRounds now) := by
  constructor
  . exact id
  . exact id
  . intro key stage hvote
    rw [voters_cleanupStaleRounds]
    split
    . next hexpired => exact .inr (s.lapsed_of_any_expired hnow hexpired)
    . exact .inl hvote
  . intro key
    rw [roundOf_cleanupStaleRounds]
    split
    . next hexpired => exact .inr (.inr (s.lapsed_of_any_expired hnow hexpired))
    . exact .inl rfl

theorem voters_subset_castVote (now : Time) (msg : P2PMessage) (key msgHash key' stage : Bytes)
    : s.voters key' stage ⊆ (s.castVote now msg key msgHash).2.voters key' stage := by
  intro voter hvote
  have h := s.castVote_cases now msg key msgHash
  generalize s.castVote now msg key msgHash = res at *
  cases h with
  | repeated => exact hvote
  | rolledBack hcommit =>
    simp only [voters_setVoters, voters_setRound, withVote]
    grind [hcommit.stage_eq]
  | _ =>
    simp only [voters_setVoters, voters_setRound, withVote]
    grind

theorem lastActivity_castVote (now : Time) (msg : P2PMessage) (key msgHash key' : Bytes)
    : ((s.castVote now msg key msgHash).2.roundOf key').lastActivity = (s.roundOf key').lastActivity
        ∨
      ((s.castVote now msg key msgHash).2.roundOf key').lastActivity = now := by
  have h := s.castVote_cases now msg key msgHash
  generalize s.castVote now msg key msgHash = res at *
  cases h with
  | repeated => exact .inl rfl
  | _ =>
    simp only [roundOf_setVoters, roundOf_setRound, withVote]
    grind

theorem retains_castVote {now : Time} (hnow : now ∈ T) (msg : P2PMessage) (key msgHash : Bytes)
    : Retains nodeId T s (s.castVote now msg key msgHash).2 := by
  have hsame : SameAbout nodeId s (s.castVote now msg key msgHash).2 :=
    s.sameAbout_castVote now msg key msgHash
  constructor
  . exact hsame.mem_peerPublicKeys_iff.mpr
  . exact hsame.banned_iff.mp
  . intro key' stage hvote
    exact .inl (s.voters_subset_castVote now msg key msgHash key' stage hvote)
  . intro key'
    cases s.lastActivity_castVote now msg key msgHash key' with
    | inl hsame => exact .inl hsame
    | inr hread =>
      rw [hread]
      exact .inr (.inl hnow)

theorem retains_setRoundCommitSig (key sig : Bytes)
    : Retains nodeId T s (s.setRoundCommitSig key sig) := by
  constructor
  . exact id
  . exact id
  . intro key' stage hvote
    exact .inl hvote
  . intro key'
    simp only [setRoundCommitSig, roundOf_setRound]
    grind

theorem retains_verifyMessage (now : Time) {msg : P2PMessage}
    (h : msg.senderId ≠ nodeId ∨ s.BelowThreshold msg.senderId)
    : Retains nodeId T s (s.verifyMessage now msg).2 := by
  apply verifyMessage_rule (P := Retains nodeId T s) (.refl nodeId T s)
  . exact s.retains_recordFailure now h
  . exact .of_registry_eq (s.registry_recordSuccess msg.senderId)

theorem trustOf_checkRateLimit (now : Time) (senderId nodeId : Bytes)
    : (s.checkRateLimit now senderId).2.trustOf nodeId = s.trustOf nodeId := by
  exact (s.sameAbout_checkRateLimit now senderId).trust_eq

theorem retains_mayVote (a : Ambient) {msg : P2PMessage} (hnow : a.now ∈ T)
    (h : msg.senderId ≠ nodeId ∨ s.BelowThreshold msg.senderId)
    : Retains nodeId T s (s.mayVote a msg).2 := by
  have hlimit : Retains nodeId T s
      ((s.cleanupStaleRounds a.now).checkRateLimit a.now msg.senderId).2 :=
    (s.retains_cleanupStaleRounds hnow).trans (.of_registry_eq (registry_checkRateLimit _ _ _))
  have hcases := s.mayVote_cases a msg
  generalize s.mayVote a msg = res at *
  cases hcases with
  | banned => exact .refl nodeId T s
  | unknown => exact .refl nodeId T s
  | limited =>
    apply hlimit.trans
    apply retains_recordFailure
    apply h.imp id
    intro hbelow
    unfold BelowThreshold
    rw [trustOf_checkRateLimit]
    exact hbelow
  | seen => exact hlimit
  | admitted =>
    apply hlimit.trans
    apply Retains.of_registry_eq
    simp

theorem retains_advanceState (a : Ambient) {msg : P2PMessage} (hnow : a.now ∈ T)
    (h : msg.senderId ≠ nodeId ∨ s.BelowThreshold msg.senderId)
    : Retains nodeId T s (s.advanceState a msg).2 := by
  have hmay : Retains nodeId T s (s.mayVote a msg).2 := s.retains_mayVote a hnow h
  by_cases hadmits : s.Admits a msg
  . rw [advanceState_of_admits hadmits]
    exact hmay.trans (retains_castVote _ hnow msg _ _)
  . rw [advanceState_of_not_admits hadmits]
    exact hmay

theorem belowThreshold_recordSuccess (nodeId : Bytes)
    : (s.recordSuccess nodeId).BelowThreshold nodeId := by
  unfold BelowThreshold recordSuccess
  rw [trustOf_setTrust, if_pos rfl]
  dsimp [autoPruneFailures]
  split <;> omega

theorem retains_receive (now : Time) (a : Ambient) {msg : P2PMessage} (hnow : a.now ∈ T)
    (h : msg.senderId ≠ nodeId ∨ s.BelowThreshold msg.senderId)
    : Retains nodeId T s (s.receive now a msg).2 := by
  by_cases hvalid : s.Verifies msg
  . rw [receive_of_verifies hvalid]
    have hsuccess : Retains nodeId T s (s.recordSuccess msg.senderId) :=
      .of_registry_eq (s.registry_recordSuccess msg.senderId)
    apply hsuccess.trans
    exact retains_advanceState _ a hnow (.inr (s.belowThreshold_recordSuccess msg.senderId))
  . rw [receive_of_not_verifies hvalid]
    exact s.retains_verifyMessage now h

theorem consecutiveFailures_recordFailure (now : Time) (h : s.BelowThreshold nodeId)
    : ((s.recordFailure now nodeId).trustOf nodeId).consecutiveFailures
        =
      (s.trustOf nodeId).consecutiveFailures + 1 := by
  unfold recordFailure
  dsimp
  split
  . next hban => exact absurd hban (Int.not_le.mpr h)
  . rw [trustOf_setTrust, if_pos rfl]

theorem consecutiveFailures_detectEquivocation_le (now : Time) (msg : P2PMessage)
    (msgHash nodeId : Bytes)
    : ((s.detectEquivocation now msg msgHash).trustOf nodeId).consecutiveFailures
        ≤
      (s.trustOf nodeId).consecutiveFailures + 1 := by
  have hle : (s.trustOf nodeId).consecutiveFailures
      ≤ (s.trustOf nodeId).consecutiveFailures + 1 := by omega
  have hequiv : ((s.recordEquivocation now msg.senderId).trustOf nodeId).consecutiveFailures
      ≤ (s.trustOf nodeId).consecutiveFailures + 1 := by
    unfold recordEquivocation
    rw [trustOf_setTrust]
    split
    . next heq => rw [heq]
    . exact hle
  unfold detectEquivocation
  dsimp
  split
  . exact hle
  . split
    . exact hequiv
    . exact hle

theorem consecutiveFailures_advanceState_le (a : Ambient) {msg : P2PMessage}
    (h : s.BelowThreshold msg.senderId)
    : ((s.advanceState a msg).2.trustOf msg.senderId).consecutiveFailures
        ≤
      (s.trustOf msg.senderId).consecutiveFailures + 1 := by
  have hle : (s.trustOf msg.senderId).consecutiveFailures
      ≤ (s.trustOf msg.senderId).consecutiveFailures + 1 := by omega
  have hlimit : ((s.cleanupStaleRounds a.now).checkRateLimit a.now msg.senderId).2.trustOf
      msg.senderId = s.trustOf msg.senderId :=
    trustOf_checkRateLimit _ a.now msg.senderId msg.senderId
  have hadmits : ((s.mayVote a msg).2.trustOf msg.senderId).consecutiveFailures
      ≤ (s.trustOf msg.senderId).consecutiveFailures + 1 := by
    have hcases := s.mayVote_cases a msg
    generalize s.mayVote a msg = res at *
    cases hcases with
    | banned => exact hle
    | unknown => exact hle
    | limited =>
      have hbelow : ((s.cleanupStaleRounds a.now).checkRateLimit a.now
          msg.senderId).2.BelowThreshold msg.senderId := by
        unfold BelowThreshold
        rw [hlimit]
        exact h
      rw [consecutiveFailures_recordFailure _ a.now hbelow, hlimit]
    | seen =>
      rw [hlimit]
      exact hle
    | admitted =>
      apply Int.le_trans (consecutiveFailures_detectEquivocation_le _ _ _ _ _)
      rw [(sameAbout_rememberMessage _ a _).trust_eq, hlimit]
  unfold advanceState
  split
  . next heq => simpa only [heq] using hadmits
  . next heq =>
    rw [heq] at hadmits
    rw [(sameAbout_castVote _ a.now msg _ _).trust_eq]
    exact hadmits

theorem consecutiveFailures_receive_le (now : Time) (a : Ambient) {msg : P2PMessage}
    {next : PBFTStage} (h : (s.receive now a msg).1 = some next)
    : ((s.receive now a msg).2.trustOf msg.senderId).consecutiveFailures ≤ 1 := by
  by_cases hvalid : s.Verifies msg
  . rw [receive_of_verifies hvalid]
    have hbelow := s.belowThreshold_recordSuccess msg.senderId
    have hle := consecutiveFailures_advanceState_le _ a hbelow
    have hzero : ((s.recordSuccess msg.senderId).trustOf msg.senderId).consecutiveFailures ≤ 0 := by
      unfold recordSuccess
      rw [trustOf_setTrust, if_pos rfl]
      dsimp
      split <;> omega
    dsimp
    omega
  . simp [receive_of_not_verifies hvalid] at h

theorem belowThreshold_receive (now : Time) (a : Ambient) {msg : P2PMessage} {next : PBFTStage}
    (h : (s.receive now a msg).1 = some next)
    : (s.receive now a msg).2.BelowThreshold msg.senderId := by
  have hle := s.consecutiveFailures_receive_le now a h
  unfold BelowThreshold autoPruneFailures
  omega

end Steps

end PBFTConsensus
end NeuroMesh
