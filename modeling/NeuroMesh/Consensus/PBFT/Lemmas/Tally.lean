import NeuroMesh.Consensus.PBFT.Lemmas.Advance
import NeuroMesh.Consensus.PBFT.Tally.Basic

/-!
This module contains the proof that `PBFTConsensus` counts the votes of a round as `Tally` does.
-/

namespace NeuroMesh

def Ballot.stageStr (ballot : Ballot) : Bytes :=
  match ballot with
  | .prePrepare => Stage.prePrepare
  | .prepare => Stage.prepare
  | .commit => Stage.commit

theorem Ballot.stageStr_inj {b₁ b₂ : Ballot} : b₁.stageStr = b₂.stageStr ↔ b₁ = b₂ := by
  cases b₁ <;> cases b₂ <;> decide

theorem Ballot.stageStr_ne_banPeer (ballot : Ballot) : ballot.stageStr ≠ Stage.banPeer := by
  cases ballot <;> decide

namespace Tally

variable {α : Type} [DecidableEq α] {q : Nat} {t : Tally α} {voter : α}

theorem cast_commit_of_lt (hstate : t.state = .commit) (hnew : voter ∉ t.voters .commit)
    (hquorum : (insert voter (t.voters .commit)).card < q)
    : t.cast q .commit voter = (.idle, t.record .commit voter) := by
  unfold cast
  simp only [hnew, hstate, voters_record, Nat.not_le.mpr hquorum, if_true, if_false]

theorem cast_commit_of_intersects (hstate : t.state = .commit) (hnew : voter ∉ t.voters .commit)
    (hquorum : q ≤ (insert voter (t.voters .commit)).card)
    (hinter : (t.record .commit voter).Intersects q)
    : t.cast q .commit voter = (.executed, { t.record .commit voter with state := .executed }) := by
  unfold cast
  simp only [hnew, hstate, voters_record, hquorum, hinter, if_true, if_false]

theorem cast_commit_of_not_intersects (hstate : t.state = .commit) (hnew : voter ∉ t.voters .commit)
    (hquorum : q ≤ (insert voter (t.voters .commit)).card)
    (hinter : ¬(t.record .commit voter).Intersects q)
    : t.cast q .commit voter = (.idle, t) := by
  unfold cast
  simp only [hnew, hstate, voters_record, hquorum, hinter, if_true, if_false]

end Tally

namespace PBFTConsensus

variable {C : IdentityCore} {s : PBFTConsensus C} {key : Bytes} {view : Int} {t : Tally Bytes}

structure Tallies (s : PBFTConsensus C) (key : Bytes) (view : Int) (t : Tally Bytes) : Prop where
  state_eq : (s.roundOf key).state = t.state
  view_eq : t.state ≠ .idle → (s.roundOf key).view = view
  voters_eq : ∀ ballot, s.voters key (Ballot.stageStr ballot) = t.voters ballot

theorem Tallies.of_registry_eq {s' : PBFTConsensus C} (h : s.Tallies key view t)
    (hregistry : s'.registry = s.registry)
    : s'.Tallies key view t := by
  constructor
  . rw [roundOf_congr hregistry]
    exact h.state_eq
  . rw [roundOf_congr hregistry]
    exact h.view_eq
  . intro ballot
    rw [voters_congr hregistry]
    exact h.voters_eq ballot

theorem tallies_setRound (h : s.Tallies key view t) {msg : P2PMessage} {ballot : Ballot}
    (hstage : msg.stageStr = ballot.stageStr) {round : ConsensusRound} {state : PBFTStage}
    (hstate : round.state = state) (hview : round.view = view)
    : ((s.withVote msg key).setRound key round).Tallies key view
        { t.record ballot msg.senderId with state } := by
  constructor
  . simp [hstate]
  . simp [hview]
  . intro ballot'
    simp only [voters_setRound, withVote, voters_setVoters, Tally.voters_record, hstage,
      Ballot.stageStr_inj, true_and, h.voters_eq]
    split
    . next heq => rw [if_pos heq.symm]
    . next hne => rw [if_neg (Ne.symm hne)]

theorem intersects_iff (h : s.Tallies key view t) (msg : P2PMessage)
    : s.Intersects msg key ↔ (t.record .commit msg.senderId).Intersects s.quorumSize := by
  have hprepare := h.voters_eq .prepare
  have hcommit := h.voters_eq .commit
  unfold Intersects Tally.Intersects
  simp only [Ballot.stageStr] at hprepare hcommit
  simp only [Tally.voters_record, reduceCtorEq, if_true, if_false, hprepare, hcommit]

theorem completes_of_completesCommit (h : s.Tallies key view t) {msg : P2PMessage}
    (hcommit : s.CompletesCommit msg key)
    : t.state = .commit ∧ msg.senderId ∉ t.voters .commit
        ∧ s.quorumSize ≤ (insert msg.senderId (t.voters .commit)).card := by
  have hnew := hcommit.sender_notMem
  have hquorum := hcommit.quorum_le
  have hvoters : s.voters key Stage.commit = t.voters .commit := h.voters_eq .commit
  rw [hvoters] at hnew hquorum
  exact ⟨h.state_eq ▸ hcommit.state_eq, hnew, hquorum⟩

theorem cast_of_counted (h : s.Tallies key view t) {msg : P2PMessage} {ballot : Ballot}
    (hstage : msg.stageStr = ballot.stageStr) (hview : msg.view = view)
    (hnew : msg.senderId ∉ s.voters key msg.stageStr)
    (hprepared : (s.roundOf key).state = .idle →
      msg.stageStr ≠ Stage.prePrepare ∧ msg.stageStr ≠ Stage.banPeer)
    (hcommitted : (s.roundOf key).state = .prepare → msg.stageStr = Stage.prepare →
      (insert msg.senderId (s.voters key Stage.prepare)).card < s.quorumSize)
    (hexecuted : ¬s.CompletesCommit msg key)
    : t.cast s.quorumSize ballot msg.senderId = (.idle, t.record ballot msg.senderId) := by
  have hvoters := h.voters_eq ballot
  rw [hstage] at hnew
  rw [h.state_eq] at hprepared hcommitted
  cases ballot with
  | prePrepare =>
    apply Tally.cast_of_no_transition (hvoters ▸ hnew)
    . intro _ hstate
      exact (hprepared hstate).1 hstage
    . simp
    . simp
  | prepare =>
    by_cases hstate : t.state = .prepare
    . have hlt := hcommitted hstate hstage
      apply Tally.cast_prepare_of_lt hstate (hvoters ▸ hnew)
      rwa [← h.voters_eq .prepare]
    . apply Tally.cast_of_no_transition (hvoters ▸ hnew)
      . simp
      . intro _
        exact hstate
      . simp
  | commit =>
    by_cases hstate : t.state = .commit
    . apply Tally.cast_commit_of_lt hstate (hvoters ▸ hnew)
      rw [← h.voters_eq .commit]
      by_contra! hle
      apply hexecuted
      constructor
      . exact hstage
      . exact hnew
      . rw [h.view_eq (by simp [hstate]), hview]
      . rw [h.state_eq, hstate]
      . exact hle
    . apply Tally.cast_of_no_transition (hvoters ▸ hnew)
      . simp
      . simp
      . intro _
        exact hstate

theorem tallies_castVote (h : s.Tallies key view t) {msg : P2PMessage} {ballot : Ballot}
    (hstage : msg.stageStr = ballot.stageStr) (hview : msg.view = view) (now : Time) (msgHash : Bytes)
    : (s.castVote now msg key msgHash).1 = (t.cast s.quorumSize ballot msg.senderId).1
        ∧
      (s.castVote now msg key msgHash).2.Tallies key view
        (t.cast s.quorumSize ballot msg.senderId).2 := by
  have hvoters := h.voters_eq ballot
  rw [← hstage] at hvoters
  have hcases := s.castVote_cases now msg key msgHash
  generalize s.castVote now msg key msgHash = res at *
  cases hcases with
  | repeated hvoted =>
    rw [hvoters] at hvoted
    unfold Tally.cast
    rw [if_pos hvoted]
    exact ⟨rfl, h⟩
  | otherView _ hother hstate =>
    rw [h.state_eq] at hstate
    rw [h.view_eq hstate, hview] at hother
    contradiction
  | prepared hnew hpre hstate =>
    have hballot : ballot = .prePrepare := by
      rw [hstage] at hpre
      exact Ballot.stageStr_inj.mp (hpre.resolve_right ballot.stageStr_ne_banPeer)
    subst hballot
    rw [hvoters] at hnew
    rw [h.state_eq] at hstate
    rw [Tally.cast_prePrepare_idle hstate hnew]
    refine ⟨rfl, tallies_setRound h hstage rfl ?_⟩
    rw [← hview]
    apply view_openRound_of_idle
    rwa [h.state_eq]
  | committed hnew hsame hprepare hstate hquorum =>
    have hballot : ballot = .prepare := Ballot.stageStr_inj.mp (hstage.symm.trans hprepare)
    subst hballot
    rw [hvoters] at hnew
    rw [hprepare] at hvoters
    rw [hvoters] at hquorum
    rw [Tally.cast_prepare_of_le (h.state_eq ▸ hstate) hnew hquorum]
    exact ⟨rfl, tallies_setRound h hstage rfl (hsame.trans hview)⟩
  | rolledBack hcommit hinter =>
    have hballot : ballot = .commit := Ballot.stageStr_inj.mp (hstage.symm.trans hcommit.stage_eq)
    subst hballot
    obtain ⟨hstate, hnew, hquorum⟩ := completes_of_completesCommit h hcommit
    rw [intersects_iff h] at hinter
    rw [Tally.cast_commit_of_not_intersects hstate hnew hquorum hinter]
    refine ⟨rfl, ?_⟩
    constructor
    . simpa using h.state_eq
    . simpa using h.view_eq
    . intro ballot'
      rw [← h.voters_eq ballot']
      simp only [voters_setVoters, voters_setRound, withVote, hcommit.stage_eq, true_and]
      split
      . next heq => rw [heq]
      . rfl
  | executed hcommit hinter =>
    have hballot : ballot = .commit := Ballot.stageStr_inj.mp (hstage.symm.trans hcommit.stage_eq)
    subst hballot
    obtain ⟨hstate, hnew, hquorum⟩ := completes_of_completesCommit h hcommit
    rw [intersects_iff h] at hinter
    rw [Tally.cast_commit_of_intersects hstate hnew hquorum hinter]
    exact ⟨rfl, tallies_setRound h hstage rfl (hcommit.view_eq.trans hview)⟩
  | counted hnew hview' hprepared hcommitted hexecuted =>
    rw [cast_of_counted h hstage hview hnew hprepared hcommitted hexecuted]
    have hopen : (s.openRound now msg key msgHash).view = view := by
      by_cases hstate : (s.roundOf key).state = .idle
      . rw [view_openRound_of_idle _ _ _ _ _ hstate]
        exact hview
      . rw [openRound_of_ne_idle _ _ _ _ _ hstate]
        apply h.view_eq
        rwa [← h.state_eq]
    refine ⟨rfl, tallies_setRound h hstage ?_ hopen⟩
    rw [state_openRound]
    exact h.state_eq

end PBFTConsensus
end NeuroMesh
