import NeuroMesh.Consensus.PBFT.Lemmas.Message
import NeuroMesh.Consensus.PBFT.Lemmas.Retain
import NeuroMesh.Consensus.PBFT.Lemmas.Rounds
import NeuroMesh.Consensus.PBFT.Lemmas.Tally

/-!
This module contains the simulation of a round by its tally, as long as nothing but the votes of the round
happens: nobody joins, leaves or is banned, and there are neither timeouts nor rate limiting.
-/

namespace NeuroMesh
namespace PBFTConsensus

variable {C : IdentityCore}

section Rate

variable {s : PBFTConsensus C} {a : Ambient} {msg : P2PMessage}

theorem length_rateLimits_checkRateLimit_le (s : PBFTConsensus C) (now : Time)
    (senderId nodeId : Bytes)
    : ((s.checkRateLimit now senderId).2.rateLimits.getD nodeId []).length
        ≤
      (s.rateLimits.getD nodeId []).length + if senderId = nodeId then 1 else 0 := by
  have hle := List.length_filter_le (fun ts => !decide (s.rateWindowSec ≤ seconds (now - ts)))
    (s.rateLimits.getD senderId [])
  unfold checkRateLimit
  dsimp
  split
  . simp only [Std.ExtTreeMap.getD_insert, Std.compare_eq_iff_eq]
    split
    . next heq =>
      rw [← heq]
      omega
    . omega
  . simp only [Std.ExtTreeMap.getD_insert, Std.compare_eq_iff_eq]
    split
    . next heq =>
      rw [← heq, List.length_append, List.length_singleton]
      omega
    . omega

theorem rate_advanceState (hadmits : s.Admits a msg)
    : (s.advanceState a msg).2.rateMax = s.rateMax
        ∧
      ∀ nodeId, ((s.advanceState a msg).2.rateLimits.getD nodeId []).length
        ≤ (s.rateLimits.getD nodeId []).length + if msg.senderId = nodeId then 1 else 0 := by
  obtain ⟨_, _, hcast⟩ := snd_castVote (s.mayVote a msg).2 a.now msg (keyOf C msg)
    (computeMessageHash C msg)
  have hle := length_rateLimits_checkRateLimit_le (s.cleanupStaleRounds a.now) a.now msg.senderId
  obtain ⟨_, hlimit⟩ := (s.cleanupStaleRounds a.now).snd_checkRateLimit a.now msg.senderId
  rw [advanceState_of_admits hadmits, hcast, snd_mayVote_of_admits hadmits]
  rw [hlimit] at hle ⊢
  obtain ⟨_, hremember⟩ := rememberMessage_eq _ a (computeMessageHash C msg)
  rw [hremember]
  obtain ⟨_, _, _, hdetect⟩ := detectEquivocation_eq _ a.now msg (computeMessageHash C msg)
  rw [hdetect]
  exact ⟨rfl, hle⟩

end Rate

section Live

def Live (s : PBFTConsensus C) (key : Bytes) (T : Set Time) : Prop :=
  ∀ round, s.rounds[key]? = some round → ∀ now ∈ T, round.expired now = false

variable {s : PBFTConsensus C} {a : Ambient} {msg : P2PMessage} {key : Bytes} {T : Set Time}

theorem Live.any_expired_eq (h : s.Live key T) {now : Time} (hnow : now ∈ T)
    : s.rounds[key]?.any (·.expired now) = false := by
  cases hround : s.rounds[key]? with
  | none => rfl
  | some round => exact h round hround now hnow

theorem lastActivity_of_castVote {now : Time} {key' msgHash : Bytes} {round : ConsensusRound}
    (h : (s.castVote now msg key' msgHash).2.rounds[key]? = some round)
    : round.lastActivity = now
        ∨
      ∃ old, s.rounds[key]? = some old ∧ round.lastActivity = old.lastActivity := by
  have hcases := s.castVote_cases now msg key' msgHash
  generalize s.castVote now msg key' msgHash = res at *
  cases hcases with
  | repeated => exact .inr ⟨round, h, rfl⟩
  | otherView _ _ hstate =>
    simp only [setRound, withVote, setVoters, Std.ExtTreeMap.getElem?_insert, Std.compare_eq_iff_eq] at h
    split at h
    . next heq =>
      subst heq
      right
      unfold roundOf at hstate h
      rw [Std.ExtTreeMap.getD_eq_getD_getElem?] at hstate h
      cases hold : s.rounds[key']? with
      | none => simp [hold] at hstate
      | some old =>
        rw [hold] at h
        cases h
        exact ⟨old, rfl, rfl⟩
    . exact .inr ⟨round, h, rfl⟩
  | _ =>
    simp only [setRound, withVote, setVoters, Std.ExtTreeMap.getElem?_insert, Std.compare_eq_iff_eq] at h
    split at h
    . cases h
      exact .inl rfl
    . exact .inr ⟨round, h, rfl⟩

theorem advanceState_of_executed (hkey : keyOf C msg = key) (h : (s.roundOf key).state = .executed)
    (hlive : s.rounds[key]?.any (·.expired a.now) = false)
    : (s.advanceState a msg).1 = .idle
        ∧
      ((s.advanceState a msg).2.roundOf key).state = .executed := by
  subst hkey
  have hremoves : s.removes ⟨a, .advanceState msg⟩ (keyOf C msg) = false := by
    simp [removes, hlive]
  have hfound : s.found ⟨a, .advanceState msg⟩ (keyOf C msg) = s.roundOf (keyOf C msg) := by
    simp [found, hremoves]
  rcases (s.moves_advanceState a msg).state with ⟨hidle, hsame⟩ | ⟨hnext, _⟩
  . rw [hsame, hfound]
    exact ⟨hidle, h⟩
  . rw [hfound, h] at hnext
    contradiction

theorem live_advanceState (h : s.Live key T) (hnow : a.now ∈ T)
    (hclose : ∀ now ∈ T, ∀ since ∈ T, ¬roundTtlSec < seconds (now - since))
    : (s.advanceState a msg).2.Live key T := by
  have hmay : (s.mayVote a msg).2.Live key T := by
    intro round hround
    rw [getElem?_rounds_mayVote] at hround
    split at hround
    . contradiction
    . exact h round hround
  by_cases hadmits : s.Admits a msg
  . rw [advanceState_of_admits hadmits]
    intro round hround now hmem
    unfold ConsensusRound.expired
    rw [decide_eq_false_iff_not]
    rcases lastActivity_of_castVote hround with hlast | ⟨old, hold, hlast⟩
    . rw [hlast]
      exact hclose now hmem a.now hnow
    . have := hmay old hold now hmem
      unfold ConsensusRound.expired at this
      rw [hlast]
      rwa [decide_eq_false_iff_not] at this
  . rw [advanceState_of_not_admits hadmits]
    exact hmay

theorem live_setRoundCommitSig (h : s.Live key T) (hstate : (s.roundOf key).state ≠ .idle)
    (key' sig : Bytes)
    : (s.setRoundCommitSig key' sig).Live key T := by
  intro round hround
  simp only [setRoundCommitSig, setRound, Std.ExtTreeMap.getElem?_insert, Std.compare_eq_iff_eq]
    at hround
  split at hround
  . next heq =>
    subst heq
    unfold roundOf at hstate hround
    rw [Std.ExtTreeMap.getD_eq_getD_getElem?] at hstate hround
    cases hold : s.rounds[key']? with
    | none => simp [hold] at hstate
    | some old =>
      rw [hold] at hround
      cases hround
      exact h old hold
  . exact h round hround

theorem live_receive (h : s.Live key T) (now : Time) (hnow : a.now ∈ T)
    (hclose : ∀ now ∈ T, ∀ since ∈ T, ¬roundTtlSec < seconds (now - since))
    : (s.receive now a msg).2.Live key T := by
  have hverify : (s.verifyMessage now msg).2.Live key T := by
    unfold Live
    rw [rounds_verifyMessage]
    exact h
  unfold receive
  split
  . next heq => simpa only [heq] using hverify
  . next heq =>
    rw [heq] at hverify
    exact live_advanceState hverify hnow hclose

theorem receive_of_executed (hkey : keyOf C msg = key) (h : (s.roundOf key).state = .executed)
    (hlive : s.rounds[key]?.any (·.expired a.now) = false) (now : Time)
    : ((s.receive now a msg).1 = none ∨ (s.receive now a msg).1 = some .idle)
        ∧
      ((s.receive now a msg).2.roundOf key).state = .executed := by
  have hrounds := s.rounds_verifyMessage now msg
  have hround : (s.verifyMessage now msg).2.roundOf key = s.roundOf key := by
    unfold roundOf
    rw [hrounds]
  unfold receive
  split
  . next heq =>
    rw [heq] at hround
    exact ⟨.inl rfl, hround ▸ h⟩
  . next s' heq =>
    rw [heq] at hround hrounds
    have hstep := advanceState_of_executed hkey (hround ▸ h) (by rw [hrounds]; exact hlive)
    exact ⟨.inr (congrArg some hstep.1), hstep.2⟩

end Live

structure Carries (evidenceJson targetId : Bytes) (view : Int) (vote : Ballot × Bytes)
    (msg : P2PMessage) : Prop where
  stage_eq : msg.stageStr = vote.1.stageStr
  sender_eq : msg.senderId = vote.2
  evidence_eq : msg.evidenceJson = evidenceJson
  target_eq : msg.targetId = targetId
  view_eq : msg.view = view

structure Follows (s₀ : PBFTConsensus C) (evidenceJson targetId : Bytes) (view : Int)
    (handled : List (Ballot × Bytes)) (t : Tally Bytes) (s : PBFTConsensus C) : Prop where
  tallies : s.Tallies (roundKey C evidenceJson targetId) view t
  totalNodes_eq : s.totalNodes = s₀.totalNodes
  currentView_eq : s.currentView = s₀.currentView
  privateKey_eq : s.privateKey = s₀.privateKey
  keys_eq : s.peerPublicKeys = s₀.peerPublicKeys
  banned_eq : s.bannedPeers = s₀.bannedPeers
  rateMax_eq : s.rateMax = s₀.rateMax
  rate_le : ∀ nodeId, (s.rateLimits.getD nodeId []).length
    ≤ (s₀.rateLimits.getD nodeId []).length + handled.countP (·.2 = nodeId)
  seen : ∀ hash ∈ s.seenMessages, hash ∈ s₀.seenMessages
    ∨ ∃ vote ∈ handled, ∃ msg, Carries evidenceJson targetId view vote msg
      ∧ hash = computeMessageHash C msg

section Follows

variable {s₀ s : PBFTConsensus C} {evidenceJson targetId : Bytes} {view : Int}
  {handled : List (Ballot × Bytes)} {t : Tally Bytes} {vote : Ballot × Bytes} {msg : P2PMessage}

theorem pipe_notMem_stageStr (ballot : Ballot) : pipe ∉ ballot.stageStr := by
  cases ballot <;> decide

theorem Carries.vote_eq (hfree : C.CollisionFree) {vote' : Ballot × Bytes} {msg' : P2PMessage}
    (h : Carries evidenceJson targetId view vote msg)
    (h' : Carries evidenceJson targetId view vote' msg')
    (hsender : pipe ∉ vote.2) (hsender' : pipe ∉ vote'.2)
    (heq : computeMessageHash C msg = computeMessageHash C msg')
    : vote = vote' := by
  have hstage : pipe ∉ msg.stageStr := h.stage_eq ▸ pipe_notMem_stageStr vote.1
  have hstage' : pipe ∉ msg'.stageStr := h'.stage_eq ▸ pipe_notMem_stageStr vote'.1
  have hsenders := senderId_eq_of_computeMessageHash_eq hfree hstage hstage'
    (h.sender_eq ▸ hsender) (h'.sender_eq ▸ hsender') heq
  have hstages := stageStr_eq_of_computeMessageHash_eq hfree hstage hstage' heq
  rw [h.stage_eq, h'.stage_eq, Ballot.stageStr_inj] at hstages
  rw [h.sender_eq, h'.sender_eq] at hsenders
  exact Prod.ext hstages hsenders

theorem admits_of_follows (h : Follows s₀ evidenceJson targetId view handled t s)
    (hfree : C.CollisionFree) (hcarries : Carries evidenceJson targetId view vote msg)
    (hsender : ∀ v ∈ vote :: handled, pipe ∉ v.2) (hnew : vote ∉ handled)
    (hunseen : computeMessageHash C msg ∉ s₀.seenMessages)
    (hkey : vote.2 ∈ s₀.peerPublicKeys) (hban : vote.2 ∉ s₀.bannedPeers)
    (hrate : (s₀.rateLimits.getD vote.2 []).length + handled.countP (·.2 = vote.2)
      < sizeT s₀.rateMax) (a : Ambient)
    : s.Admits a msg := by
  constructor
  . rwa [hcarries.sender_eq, h.banned_eq]
  . rwa [hcarries.sender_eq, h.keys_eq]
  . rw [fst_checkRateLimit, decide_eq_true_eq, hcarries.sender_eq, h.rateMax_eq]
    apply Nat.lt_of_le_of_lt _ hrate
    apply Nat.le_trans (List.length_filter_le _ _)
    exact h.rate_le vote.2
  . intro hmem
    rcases h.seen _ hmem with hold | ⟨vote', hvote', msg', hcarries', heq⟩
    . contradiction
    . have := hcarries.vote_eq hfree hcarries' (hsender _ (by simp)) (hsender _ (by simp [hvote'])) heq
      rw [this] at hnew
      contradiction

theorem follows_advanceState (h : Follows s₀ evidenceJson targetId view handled t s) {a : Ambient}
    (hadmits : s.Admits a msg) (hcarries : Carries evidenceJson targetId view vote msg)
    (hlive : s.rounds[roundKey C evidenceJson targetId]?.any (·.expired a.now) = false)
    : (s.advanceState a msg).1 = (t.cast s₀.quorumSize vote.1 vote.2).1
        ∧
      Follows s₀ evidenceJson targetId view (vote :: handled) (t.cast s₀.quorumSize vote.1 vote.2).2
        (s.advanceState a msg).2 := by
  have hkey : keyOf C msg = roundKey C evidenceJson targetId := by
    unfold keyOf
    rw [hcarries.evidence_eq, hcarries.target_eq]
  have hquorum : (s.mayVote a msg).2.quorumSize = s₀.quorumSize := by
    rw [quorumSize_mayVote hadmits]
    unfold quorumSize
    rw [h.totalNodes_eq]
  have htallies : (s.mayVote a msg).2.Tallies (roundKey C evidenceJson targetId) view t := by
    have hround := roundOf_mayVote hadmits (roundKey C evidenceJson targetId)
    have hvoters := voters_mayVote hadmits (roundKey C evidenceJson targetId)
    simp only [hlive, Bool.false_eq_true, if_false] at hround hvoters
    constructor
    . rw [hround]
      exact h.tallies.state_eq
    . rw [hround]
      exact h.tallies.view_eq
    . intro ballot
      rw [hvoters]
      exact h.tallies.voters_eq ballot
  have hcast := tallies_castVote htallies hcarries.stage_eq hcarries.view_eq a.now
    (computeMessageHash C msg)
  rw [hquorum, hcarries.sender_eq, ← hkey, ← advanceState_of_admits hadmits] at hcast
  have hregistry := registry_advanceState hadmits
  have hrate := rate_advanceState hadmits
  refine ⟨hcast.1, ?_⟩
  constructor
  . rw [← hkey]
    exact hcast.2
  . exact (congrArg Registry.totalNodes hregistry).trans h.totalNodes_eq
  . exact (congrArg Registry.currentView hregistry).trans h.currentView_eq
  . exact (congrArg Registry.privateKey hregistry).trans h.privateKey_eq
  . exact (congrArg Registry.peerPublicKeys hregistry).trans h.keys_eq
  . exact (congrArg Registry.bannedPeers hregistry).trans h.banned_eq
  . exact hrate.1.trans h.rateMax_eq
  . intro nodeId
    have hle := h.rate_le nodeId
    have hstep := hrate.2 nodeId
    rw [hcarries.sender_eq] at hstep
    rw [List.countP_cons]
    simp only [decide_eq_true_eq]
    omega
  . intro hash hmem
    rcases mem_seenMessages_advanceState s a msg hmem with hold | heq
    . rcases h.seen hash hold with hold | ⟨vote', hvote', hmsg⟩
      . exact .inl hold
      . exact .inr ⟨vote', by simp [hvote'], hmsg⟩
    . exact .inr ⟨vote, by simp, msg, hcarries, heq⟩

theorem follows_recordSuccess (h : Follows s₀ evidenceJson targetId view handled t s)
    (nodeId : Bytes)
    : Follows s₀ evidenceJson targetId view handled t (s.recordSuccess nodeId) := by
  constructor
  . exact h.tallies.of_registry_eq (s.registry_recordSuccess nodeId)
  . exact h.totalNodes_eq
  . exact h.currentView_eq
  . exact h.privateKey_eq
  . exact h.keys_eq
  . exact h.banned_eq
  . exact h.rateMax_eq
  . exact h.rate_le
  . exact h.seen

theorem follows_setRoundCommitSig (h : Follows s₀ evidenceJson targetId view handled t s)
    (key sig : Bytes)
    : Follows s₀ evidenceJson targetId view handled t (s.setRoundCommitSig key sig) := by
  have hround : ∀ key', ((s.setRoundCommitSig key sig).roundOf key').state = (s.roundOf key').state
      ∧ ((s.setRoundCommitSig key sig).roundOf key').view = (s.roundOf key').view := by
    intro key'
    unfold setRoundCommitSig
    rw [roundOf_setRound]
    split
    . next heq =>
      rw [heq]
      exact ⟨rfl, rfl⟩
    . exact ⟨rfl, rfl⟩
  constructor
  . constructor
    . rw [(hround _).1]
      exact h.tallies.state_eq
    . rw [(hround _).2]
      exact h.tallies.view_eq
    . exact h.tallies.voters_eq
  . exact h.totalNodes_eq
  . exact h.currentView_eq
  . exact h.privateKey_eq
  . exact h.keys_eq
  . exact h.banned_eq
  . exact h.rateMax_eq
  . exact h.rate_le
  . exact h.seen

end Follows

end PBFTConsensus
end NeuroMesh
