import NeuroMesh.Consensus.PBFT.Lemmas.Basic

/-!
This module contains the inversion lemmas of `advance_state`. `Admission` and `VoteOutcome` list every
way that its two halves can go, with the guards that lead there and the object that is left behind.
-/

namespace NeuroMesh
namespace PBFTConsensus

variable {C : IdentityCore}

inductive Admission (s : PBFTConsensus C) (a : Ambient) (msg : P2PMessage) :
    Bool × PBFTConsensus C → Prop where
  | banned (hban : msg.senderId ∈ s.bannedPeers) : Admission s a msg (false, s)
  | unknown (hban : msg.senderId ∉ s.bannedPeers) (hkey : msg.senderId ∉ s.peerPublicKeys) :
    Admission s a msg (false, s)
  | limited (hban : msg.senderId ∉ s.bannedPeers) (hkey : msg.senderId ∈ s.peerPublicKeys)
      (hrate : ((s.cleanupStaleRounds a.now).checkRateLimit a.now msg.senderId).1 = false) :
    Admission s a msg
      (
        false,
        ((s.cleanupStaleRounds a.now).checkRateLimit a.now msg.senderId).2.recordFailure a.now
          msg.senderId
      )
  | seen (hban : msg.senderId ∉ s.bannedPeers) (hkey : msg.senderId ∈ s.peerPublicKeys)
      (hrate : ((s.cleanupStaleRounds a.now).checkRateLimit a.now msg.senderId).1 = true)
      (hseen : computeMessageHash C msg ∈ s.seenMessages) :
    Admission s a msg (false, ((s.cleanupStaleRounds a.now).checkRateLimit a.now msg.senderId).2)
  | admitted (hban : msg.senderId ∉ s.bannedPeers) (hkey : msg.senderId ∈ s.peerPublicKeys)
      (hrate : ((s.cleanupStaleRounds a.now).checkRateLimit a.now msg.senderId).1 = true)
      (hseen : computeMessageHash C msg ∉ s.seenMessages) :
    Admission s a msg
      (
        true,
        (((s.cleanupStaleRounds a.now).checkRateLimit a.now msg.senderId).2.rememberMessage a
          (computeMessageHash C msg)).detectEquivocation a.now msg (computeMessageHash C msg)
      )

theorem seenMessages_checkRateLimit (s : PBFTConsensus C) (now : Time) (senderId : Bytes)
    : (s.checkRateLimit now senderId).2.seenMessages = s.seenMessages := by
  obtain ⟨_, heq⟩ := s.snd_checkRateLimit now senderId
  rw [heq]

theorem mayVote_cases (s : PBFTConsensus C) (a : Ambient) (msg : P2PMessage)
    : Admission s a msg (s.mayVote a msg) := by
  unfold mayVote
  split
  . next hban => exact .banned hban
  . next hban =>
    split
    . next hkey => exact .unknown hban hkey
    . next hkey =>
      rw [not_not] at hkey
      have hsame := seenMessages_checkRateLimit (s.cleanupStaleRounds a.now) a.now msg.senderId
      dsimp
      split
      . next s' hrate =>
        have := Admission.limited (a := a) hban hkey (by rw [hrate])
        rwa [hrate] at this
      . next s' hrate =>
        rw [hrate] at hsame
        split
        . next hseen =>
          have := Admission.seen (a := a) hban hkey (by rw [hrate]) (hsame ▸ hseen)
          rwa [hrate] at this
        . next hseen =>
          have := Admission.admitted (a := a) hban hkey (by rw [hrate]) (hsame ▸ hseen)
          rwa [hrate] at this

structure Admits (s : PBFTConsensus C) (a : Ambient) (msg : P2PMessage) : Prop where
  notBanned : msg.senderId ∉ s.bannedPeers
  known : msg.senderId ∈ s.peerPublicKeys
  withinRate : (s.checkRateLimit a.now msg.senderId).1 = true
  unseen : computeMessageHash C msg ∉ s.seenMessages

def recentMessages (s : PBFTConsensus C) (now : Time) (senderId : Bytes) : List Time :=
  (s.rateLimits.getD senderId []).filter fun ts => !(s.rateWindowSec ≤ seconds (now - ts))

theorem fst_checkRateLimit (s : PBFTConsensus C) (now : Time) (senderId : Bytes)
    : (s.checkRateLimit now senderId).1
        =
      decide ((s.recentMessages now senderId).length < sizeT s.rateMax) := by
  unfold checkRateLimit recentMessages
  dsimp
  split <;> simp_all

theorem checkRateLimit_cleanupStaleRounds (s : PBFTConsensus C) (now : Time) (senderId : Bytes)
    : ((s.cleanupStaleRounds now).checkRateLimit now senderId).1
        =
      (s.checkRateLimit now senderId).1 := by
  rw [fst_checkRateLimit, fst_checkRateLimit]
  rfl

theorem mayVote_eq_true_iff (s : PBFTConsensus C) (a : Ambient) (msg : P2PMessage)
    : (s.mayVote a msg).1 = true ↔ s.Admits a msg := by
  have hrate := s.checkRateLimit_cleanupStaleRounds a.now msg.senderId
  have h := s.mayVote_cases a msg
  generalize s.mayVote a msg = res at *
  cases h with
  | banned hban => simpa using fun h : s.Admits a msg => h.notBanned hban
  | unknown hban hkey => simpa using fun h : s.Admits a msg => hkey h.known
  | limited hban hkey hlimit =>
    rw [hrate] at hlimit
    simpa using fun h : s.Admits a msg => by simp [h.withinRate] at hlimit
  | seen hban hkey hlimit hseen => simpa using fun h : s.Admits a msg => h.unseen hseen
  | admitted hban hkey hlimit hseen =>
    rw [hrate] at hlimit
    simpa using Admits.mk hban hkey hlimit hseen

theorem snd_mayVote_of_admits {s : PBFTConsensus C} {a : Ambient} {msg : P2PMessage} (hadmits : s.Admits a msg)
    : (s.mayVote a msg).2
        =
      (((s.cleanupStaleRounds a.now).checkRateLimit a.now msg.senderId).2.rememberMessage a
        (computeMessageHash C msg)).detectEquivocation a.now msg (computeMessageHash C msg) := by
  rw [← mayVote_eq_true_iff] at hadmits
  have h := s.mayVote_cases a msg
  generalize s.mayVote a msg = res at *
  cases h with
  | admitted => rfl
  | _ => simp at hadmits

theorem registry_mayVote {s : PBFTConsensus C} {a : Ambient} {msg : P2PMessage}
    (hadmits : s.Admits a msg)
    : (s.mayVote a msg).2.registry = (s.cleanupStaleRounds a.now).registry := by
  rw [snd_mayVote_of_admits hadmits]
  simp

theorem quorumSize_mayVote {s : PBFTConsensus C} {a : Ambient} {msg : P2PMessage}
    (hadmits : s.Admits a msg)
    : (s.mayVote a msg).2.quorumSize = s.quorumSize := by
  rw [quorumSize_congr (registry_mayVote hadmits)]
  rfl

theorem roundOf_mayVote {s : PBFTConsensus C} {a : Ambient} {msg : P2PMessage}
    (hadmits : s.Admits a msg) (key : Bytes)
    : (s.mayVote a msg).2.roundOf key
        =
      if s.rounds[key]?.any (·.expired a.now) then {} else s.roundOf key := by
  rw [roundOf_congr (registry_mayVote hadmits)]
  rw [roundOf_cleanupStaleRounds]

theorem voters_mayVote {s : PBFTConsensus C} {a : Ambient} {msg : P2PMessage}
    (hadmits : s.Admits a msg) (key stage : Bytes)
    : (s.mayVote a msg).2.voters key stage
        =
      if s.rounds[key]?.any (·.expired a.now) then ∅ else s.voters key stage := by
  rw [voters_congr (registry_mayVote hadmits)]
  rw [voters_cleanupStaleRounds]

theorem advanceState_of_admits {s : PBFTConsensus C} {a : Ambient} {msg : P2PMessage}
    (hadmits : s.Admits a msg)
    : s.advanceState a msg
        =
      (s.mayVote a msg).2.castVote a.now msg (keyOf C msg) (computeMessageHash C msg) := by
  rw [← mayVote_eq_true_iff] at hadmits
  unfold advanceState
  split
  . next h => simp [h] at hadmits
  . next h => rw [h]

theorem advanceState_of_not_admits {s : PBFTConsensus C} {a : Ambient} {msg : P2PMessage}
    (hadmits : ¬s.Admits a msg)
    : s.advanceState a msg = (.idle, (s.mayVote a msg).2) := by
  rw [← mayVote_eq_true_iff] at hadmits
  unfold advanceState
  split
  . next h => rw [h]
  . next h => simp [h] at hadmits

section VoteOutcome

variable (s : PBFTConsensus C) (now : Time) (msg : P2PMessage) (key msgHash : Bytes)

def withVote : PBFTConsensus C :=
  s.setVoters key msg.stageStr (insert msg.senderId (s.voters key msg.stageStr))

structure CompletesCommit : Prop where
  stage_eq : msg.stageStr = Stage.commit
  sender_notMem : msg.senderId ∉ s.voters key Stage.commit
  view_eq : (s.roundOf key).view = msg.view
  state_eq : (s.roundOf key).state = .commit
  quorum_le : s.quorumSize ≤ (insert msg.senderId (s.voters key Stage.commit)).card

def Intersects : Prop :=
  (s.voters key Stage.prepare).card < s.quorumSize
    ∨ s.quorumSize
      ≤ (s.voters key Stage.prepare ∩ insert msg.senderId (s.voters key Stage.commit)).card

inductive VoteOutcome : PBFTStage × PBFTConsensus C → Prop where
  | repeated (hvoted : msg.senderId ∈ s.voters key msg.stageStr) : VoteOutcome (.idle, s)
  | otherView (hnew : msg.senderId ∉ s.voters key msg.stageStr)
      (hview : (s.roundOf key).view ≠ msg.view) (hstate : (s.roundOf key).state ≠ .idle) :
    VoteOutcome (.idle, (s.withVote msg key).setRound key (s.roundOf key))
  | prepared (hnew : msg.senderId ∉ s.voters key msg.stageStr)
      (hstage : msg.stageStr = Stage.prePrepare ∨ msg.stageStr = Stage.banPeer)
      (hstate : (s.roundOf key).state = .idle) :
    VoteOutcome
      (
        .prepare,
        (s.withVote msg key).setRound key
          { s.openRound now msg key msgHash with lastActivity := now, state := .prepare }
      )
  | committed (hnew : msg.senderId ∉ s.voters key msg.stageStr)
      (hview : (s.roundOf key).view = msg.view)
      (hstage : msg.stageStr = Stage.prepare) (hstate : (s.roundOf key).state = .prepare)
      (hquorum : s.quorumSize ≤ (insert msg.senderId (s.voters key Stage.prepare)).card) :
    VoteOutcome
      (
        .commit,
        (s.withVote msg key).setRound key
          { s.roundOf key with lastActivity := now, state := .commit }
      )
  | rolledBack (hcommit : s.CompletesCommit msg key) (hinter : ¬s.Intersects msg key) :
    VoteOutcome
      (
        .idle,
        ((s.withVote msg key).setRound key { s.roundOf key with lastActivity := now }).setVoters key
          Stage.commit (s.voters key Stage.commit)
      )
  | executed (hcommit : s.CompletesCommit msg key) (hinter : s.Intersects msg key) :
    VoteOutcome
      (
        .executed,
        (s.withVote msg key).setRound key
          { s.roundOf key with lastActivity := now, state := .executed }
      )
  | counted (hnew : msg.senderId ∉ s.voters key msg.stageStr)
      (hview : (s.roundOf key).state = .idle ∨ (s.roundOf key).view = msg.view)
      (hprepared : (s.roundOf key).state = .idle →
        msg.stageStr ≠ Stage.prePrepare ∧ msg.stageStr ≠ Stage.banPeer)
      (hcommitted : (s.roundOf key).state = .prepare → msg.stageStr = Stage.prepare →
        (insert msg.senderId (s.voters key Stage.prepare)).card < s.quorumSize)
      (hexecuted : ¬s.CompletesCommit msg key) :
    VoteOutcome
      (
        .idle,
        (s.withVote msg key).setRound key
          { s.openRound now msg key msgHash with lastActivity := now }
      )

@[simp]
theorem state_openRound
    : (s.openRound now msg key msgHash).state = (s.roundOf key).state := by
  unfold openRound
  dsimp
  split <;> rfl

theorem openRound_of_ne_idle (h : (s.roundOf key).state ≠ .idle)
    : s.openRound now msg key msgHash = s.roundOf key := by
  unfold openRound
  simp only [h, if_false]

theorem view_openRound_of_idle (h : (s.roundOf key).state = .idle)
    : (s.openRound now msg key msgHash).view = msg.view := by
  unfold openRound
  simp only [h, if_true]

theorem verifyQuorumIntersection_withVote (hstage : msg.stageStr = Stage.commit)
    : (s.withVote msg key).verifyQuorumIntersection key = true ↔ s.Intersects msg key := by
  unfold withVote Intersects
  rw [hstage]
  rw [verifyQuorumIntersection_setVoters]
  simp

theorem transition_cases (hnew : msg.senderId ∉ s.voters key msg.stageStr)
    (hview : (s.roundOf key).state = .idle ∨ (s.roundOf key).view = msg.view)
    : VoteOutcome s now msg key msgHash
        ((s.withVote msg key).transition msg key
          { s.openRound now msg key msgHash with lastActivity := now }
          (insert msg.senderId (s.voters key msg.stageStr))) := by
  have hsame := s.state_openRound now msg key msgHash
  unfold transition
  split
  . next h => exact .prepared hnew h.1 (hsame ▸ h.2)
  . next hprepared =>
    dsimp only at hprepared
    rw [hsame] at hprepared
    split
    . next h =>
      obtain ⟨hstage, hcard, hstate⟩ := h
      rw [hsame] at hstate
      have hopen := s.openRound_of_ne_idle now msg key msgHash (by simp [hstate])
      rw [hopen]
      rw [hstage] at hcard
      exact .committed hnew (hview.resolve_left (by simp [hstate])) hstage hstate hcard
    . next hcommitted =>
      dsimp only at hcommitted
      rw [hsame] at hcommitted
      split
      . next h =>
        obtain ⟨hstage, hcard, hstate⟩ := h
        rw [hsame] at hstate
        have hopen := s.openRound_of_ne_idle now msg key msgHash (by simp [hstate])
        have hcommit : s.CompletesCommit msg key :=
          {
            stage_eq := hstage
            sender_notMem := hstage ▸ hnew
            view_eq := hview.resolve_left (by simp [hstate])
            state_eq := hstate
            quorum_le := hstage ▸ hcard
          }
        have hinter := s.verifyQuorumIntersection_withVote msg key hstage
        rw [hopen]
        split
        . next h =>
          rw [Finset.erase_insert hnew]
          rw [hstage]
          apply VoteOutcome.rolledBack hcommit
          rw [← hinter]
          simpa using h
        . next h =>
          apply VoteOutcome.executed hcommit
          rw [← hinter]
          simpa using h
      . next hexecuted =>
        apply VoteOutcome.counted hnew hview
        . intro hstate
          simpa [hstate] using hprepared
        . intro hstate hstage
          rw [hstage] at hcommitted
          by_contra! hcard
          exact hcommitted ⟨rfl, hcard, hstate⟩
        . intro hcommit
          apply hexecuted
          refine ⟨hcommit.stage_eq, ?_, hsame.trans hcommit.state_eq⟩
          rw [hcommit.stage_eq]
          exact hcommit.quorum_le

theorem castVote_cases : VoteOutcome s now msg key msgHash (s.castVote now msg key msgHash) := by
  unfold castVote
  dsimp
  split
  . next hvoted => exact .repeated hvoted
  . next hnew =>
    change VoteOutcome s now msg key msgHash
      (if (s.openRound now msg key msgHash).view ≠ msg.view then
        (.idle, (s.withVote msg key).setRound key (s.openRound now msg key msgHash))
      else
        (s.withVote msg key).transition msg key
          { s.openRound now msg key msgHash with lastActivity := now }
          (insert msg.senderId (s.voters key msg.stageStr)))
    by_cases hstate : (s.roundOf key).state = .idle
    . have hview := s.view_openRound_of_idle now msg key msgHash hstate
      rw [if_neg (not_not.mpr hview)]
      exact s.transition_cases now msg key msgHash hnew (.inl hstate)
    . have hopen := s.openRound_of_ne_idle now msg key msgHash hstate
      split
      . next hview =>
        rw [hopen] at hview ⊢
        exact .otherView hnew hview hstate
      . next hview =>
        rw [hopen, not_not] at hview
        exact s.transition_cases now msg key msgHash hnew (.inr hview)

theorem snd_castVote
    : ∃ voteRegistry rounds, (s.castVote now msg key msgHash).2 = { s with voteRegistry, rounds } := by
  have h := s.castVote_cases now msg key msgHash
  generalize s.castVote now msg key msgHash = res at *
  cases h with
  | _ => exact ⟨_, _, rfl⟩

end VoteOutcome

theorem outcome_of_advanceState {s : PBFTConsensus C} {a : Ambient} {msg : P2PMessage}
    {next : PBFTStage} (h : (s.advanceState a msg).1 = next) (hne : next ≠ .idle)
    : s.Admits a msg
        ∧
      VoteOutcome (s.mayVote a msg).2 a.now msg (keyOf C msg) (computeMessageHash C msg)
        (s.advanceState a msg) := by
  by_cases hadmits : s.Admits a msg
  . rw [advanceState_of_admits hadmits]
    exact ⟨hadmits, castVote_cases _ _ _ _ _⟩
  . rw [advanceState_of_not_admits hadmits] at h
    exact absurd h.symm hne

def Triggers (stageStr : Bytes) (next : PBFTStage) : Prop :=
  match next with
  | .prepare => stageStr = Stage.prePrepare ∨ stageStr = Stage.banPeer
  | .commit => stageStr = Stage.prepare
  | .executed => stageStr = Stage.commit
  | .idle => True
  | _ => False

theorem triggers_advanceState (s : PBFTConsensus C) (a : Ambient) (msg : P2PMessage)
    : Triggers msg.stageStr (s.advanceState a msg).1 := by
  by_cases hidle : (s.advanceState a msg).1 = .idle
  . rw [hidle]
    trivial
  . have hcases := (outcome_of_advanceState rfl hidle).2
    generalize s.advanceState a msg = res at *
    cases hcases with
    | prepared _ hstage => exact hstage
    | committed _ _ hstage => exact hstage
    | executed hcommit => exact hcommit.stage_eq
    | _ => trivial

end PBFTConsensus
end NeuroMesh
