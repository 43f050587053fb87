import NeuroMesh.Consensus.MeshNode.Lemmas.OwnVote
import NeuroMesh.Consensus.PBFT.Lemmas.Follow

/-!
This module contains the simulation of a node that takes part in a single round by the tally of the round.
-/

namespace NeuroMesh
namespace MeshNode

open PBFTConsensus (Carries Follows roundKey roundTtlSec)

variable {C : IdentityCore}

structure Starts (node : MeshNode C) (targetId evidenceJson : Bytes) (votes : List (Ballot × Bytes)) :
    Prop where
  collisionFree : C.CollisionFree
  canVote : node.CanVote
  chained : node.Chained
  numbers : node.sequenceNumber.toNat + votes.length + 100 < 2 ^ 64
  known : ∀ vote ∈ votes, vote.2 ∈ node.pbft.peerPublicKeys
  notBanned : ∀ vote ∈ votes, vote.2 ∉ node.pbft.bannedPeers
  pipeFree : ∀ vote ∈ votes, pipe ∉ vote.2
  withinRate : ∀ nodeId, (node.pbft.rateLimits.getD nodeId []).length + votes.countP (·.2 = nodeId)
    ≤ sizeT node.pbft.rateMax
  unseen : ∀ msg : P2PMessage, msg.evidenceJson = evidenceJson → msg.targetId = targetId →
    PBFTConsensus.computeMessageHash C msg ∉ node.pbft.seenMessages

structure Proceeds (node₀ : MeshNode C) (targetId evidenceJson : Bytes) (T : Set Time)
    (votes handled : List (Ballot × Bytes)) (t : Tally Bytes) (node : MeshNode C) : Prop where
  nodup : handled.Nodup
  subset : handled ⊆ votes
  nodeId_eq : node.nodeId = node₀.nodeId
  numbers_le : node.sequenceNumber.toNat ≤ node₀.sequenceNumber.toNat + handled.length
  chained : node.Chained
  follows : Follows node₀.pbft evidenceJson targetId node₀.pbft.currentView handled t node.pbft
  live : node.pbft.Live (roundKey C evidenceJson targetId) T

variable {node₀ node : MeshNode C} {targetId evidenceJson : Bytes} {T : Set Time}
  {votes handled : List (Ballot × Bytes)} {t : Tally Bytes}

namespace Proceeds

theorem canVote (h : Proceeds node₀ targetId evidenceJson T votes handled t node)
    (hcan : node₀.CanVote)
    : node.CanVote := by
  constructor
  . rw [h.nodeId_eq, h.follows.banned_eq]
    exact hcan.notBanned
  . rw [h.nodeId_eq, h.follows.keys_eq]
    exact hcan.known
  . rw [h.nodeId_eq, h.follows.keys_eq, h.follows.privateKey_eq]
    exact hcan.signs

theorem length_lt (h : Proceeds node₀ targetId evidenceJson T votes handled t node)
    {vote : Ballot × Bytes} (hmem : vote ∈ votes) (hnew : vote ∉ handled)
    : handled.length < votes.length := by
  have hsub : vote :: handled ⊆ votes := by
    simp [hmem, h.subset]
  have := (List.nodup_cons.mpr ⟨hnew, h.nodup⟩).length_le_of_subset hsub
  simpa using this

theorem countP_lt (h : Proceeds node₀ targetId evidenceJson T votes handled t node)
    {vote : Ballot × Bytes} (hmem : vote ∈ votes) (hnew : vote ∉ handled)
    : handled.countP (·.2 = vote.2) < votes.countP (·.2 = vote.2) := by
  have hsub : vote :: handled ⊆ votes := by
    simp [hmem, h.subset]
  have hsublist := (List.nodup_cons.mpr ⟨hnew, h.nodup⟩).subperm hsub
  have := hsublist.countP_le (·.2 = vote.2)
  simpa using this

theorem admits (h : Proceeds node₀ targetId evidenceJson T votes handled t node)
    (hstarts : Starts node₀ targetId evidenceJson votes) {vote : Ballot × Bytes} {msg : P2PMessage}
    (hmem : vote ∈ votes) (hnew : vote ∉ handled)
    (hcarries : Carries evidenceJson targetId node₀.pbft.currentView vote msg)
    {pbft : PBFTConsensus C}
    (hfollows : Follows node₀.pbft evidenceJson targetId node₀.pbft.currentView handled t pbft)
    (a : Ambient)
    : pbft.Admits a msg := by
  apply PBFTConsensus.admits_of_follows hfollows hstarts.collisionFree hcarries
  . intro v hv
    apply hstarts.pipeFree
    rcases List.mem_cons.mp hv with heq | hv
    . rwa [heq]
    . exact h.subset hv
  . exact hnew
  . exact hstarts.unseen msg hcarries.evidence_eq hcarries.target_eq
  . exact hstarts.known vote hmem
  . exact hstarts.notBanned vote hmem
  . have hlt := h.countP_lt hmem hnew
    have hle := hstarts.withinRate vote.2
    omega

end Proceeds

variable (hstarts : Starts node₀ targetId evidenceJson votes)
  (hclose : ∀ now ∈ T, ∀ since ∈ T, ¬roundTtlSec < seconds (now - since))
include hstarts hclose

theorem proceeds_advanceState (h : Proceeds node₀ targetId evidenceJson T votes handled t node)
    {vote : Ballot × Bytes} {msg : P2PMessage} (hmem : vote ∈ votes) (hnew : vote ∉ handled)
    (hcarries : Carries evidenceJson targetId node₀.pbft.currentView vote msg)
    (hforeign : vote.2 ≠ node₀.nodeId) {a : Ambient} (hnow : a.now ∈ T)
    : (node.pbft.advanceState a msg).1 = (t.cast node₀.pbft.quorumSize vote.1 vote.2).1
        ∧
      Proceeds node₀ targetId evidenceJson T votes (vote :: handled)
        (t.cast node₀.pbft.quorumSize vote.1 vote.2).2
        { node with pbft := (node.pbft.advanceState a msg).2 } := by
  have hadmits := h.admits hstarts hmem hnew hcarries h.follows a
  have hstep := PBFTConsensus.follows_advanceState h.follows hadmits hcarries
    (h.live.any_expired_eq hnow)
  have hne : msg.senderId ≠ node.nodeId := by
    rw [hcarries.sender_eq, h.nodeId_eq]
    exact hforeign
  refine ⟨hstep.1, ?_⟩
  constructor
  . exact List.nodup_cons.mpr ⟨hnew, h.nodup⟩
  . simp [hmem, h.subset]
  . exact h.nodeId_eq
  . have := h.numbers_le
    simp only [List.length_cons]
    omega
  . have hsame := (node.pbft.sameAbout_advanceState a hne).history_eq
    unfold Chained
    dsimp
    rw [hsame]
    exact h.chained
  . exact hstep.2
  . exact PBFTConsensus.live_advanceState h.live hnow hclose

omit hstarts hclose in
theorem proceeds_afterSend (h : Proceeds node₀ targetId evidenceJson T votes handled t node)
    {stageStr : Bytes} (hcommit : stageStr = Stage.commit → t.state ≠ .idle)
    : Follows node₀.pbft evidenceJson targetId node₀.pbft.currentView handled t
        (node.afterSend stageStr targetId evidenceJson).pbft
        ∧
      (node.afterSend stageStr targetId evidenceJson).pbft.Live (roundKey C evidenceJson targetId) T := by
  unfold afterSend
  dsimp
  split
  . next hstage =>
    refine ⟨PBFTConsensus.follows_setRoundCommitSig h.follows _ _, ?_⟩
    apply PBFTConsensus.live_setRoundCommitSig h.live
    rw [h.follows.tallies.state_eq]
    exact hcommit hstage
  . exact ⟨h.follows, h.live⟩

theorem proceeds_castOwnVote (h : Proceeds node₀ targetId evidenceJson T votes handled t node)
    {ballot : Ballot} (hmem : (ballot, node₀.nodeId) ∈ votes)
    (hnew : (ballot, node₀.nodeId) ∉ handled) (hcommit : ballot = .commit → t.state ≠ .idle)
    {env : Env} (henv : readings env ⊆ T)
    : (node.castOwnVote env ballot.stageStr targetId evidenceJson).1
        = some (t.cast node₀.pbft.quorumSize ballot node₀.nodeId).1
        ∧
      Proceeds node₀ targetId evidenceJson T votes ((ballot, node₀.nodeId) :: handled)
        (t.cast node₀.pbft.quorumSize ballot node₀.nodeId).2
        (node.castOwnVote env ballot.stageStr targetId evidenceJson).2 := by
  have hlength := h.length_lt hmem hnew
  have hnumbers := hstarts.numbers
  have hnumbers' := h.numbers_le
  have hnow : (env 1).now ∈ T := henv ⟨1, rfl⟩
  obtain ⟨hfollows, hlive⟩ := proceeds_afterSend h (fun hstage =>
    hcommit (Ballot.stageStr_inj.mp (hstage : ballot.stageStr = Ballot.stageStr .commit)))
  have hverifies := verifies_afterSend
    (verifies_ownMessage (h.canVote hstarts.canVote) h.chained (by omega) ballot.stageStr targetId
      evidenceJson)
  have hcarries : Carries evidenceJson targetId node₀.pbft.currentView (ballot, node₀.nodeId)
      (node.ownMessage ballot.stageStr targetId evidenceJson) := by
    exact ⟨rfl, h.nodeId_eq, rfl, rfl, h.follows.currentView_eq⟩
  have hsuccess := PBFTConsensus.follows_recordSuccess hfollows
    (node.ownMessage ballot.stageStr targetId evidenceJson).senderId
  have hlive' : ((node.afterSend ballot.stageStr targetId evidenceJson).pbft.recordSuccess
      (node.ownMessage ballot.stageStr targetId evidenceJson).senderId).Live
      (roundKey C evidenceJson targetId) T := hlive
  have hhistory : ((node.afterSend ballot.stageStr targetId evidenceJson).pbft.recordSuccess
      node.nodeId).historyOf node.nodeId = node.pbft.historyOf node.nodeId :=
    node.historyOf_afterSend ballot.stageStr targetId evidenceJson node.nodeId
  have hadmits := h.admits hstarts hmem hnew hcarries hsuccess (env 1)
  have hstep := PBFTConsensus.follows_advanceState hsuccess hadmits hcarries
    (hlive'.any_expired_eq hnow)
  have hreceive := PBFTConsensus.receive_of_verifies hverifies (env 0).now (env 1)
  rw [castOwnVote_eq]
  constructor
  . rw [fst_receive, hreceive]
    rw [hstep.1]
  . constructor
    . exact List.nodup_cons.mpr ⟨hnew, h.nodup⟩
    . simp [hmem, h.subset]
    . rw [nodeId_receive]
      exact h.nodeId_eq
    . rw [sequenceNumber_receive, List.length_cons]
      have hone := toNat_add_one node.sequenceNumber (by omega)
      change (node.sequenceNumber + 1).toNat ≤ _
      omega
    . right
      have hchained := h.chained
      unfold Chained at hchained
      rw [← hhistory] at hchained
      rw [nodeId_receive, pbft_receive, sequenceNumber_receive, hreceive]
      exact chained_of_admits hadmits (by omega) rfl hchained
    . rw [pbft_receive, hreceive]
      exact hstep.2
    . rw [pbft_receive]
      exact PBFTConsensus.live_receive hlive _ hnow hclose

omit hstarts hclose in
theorem proceeds_emit (h : Proceeds node₀ targetId evidenceJson T votes handled t node)
    (event : Event C)
    : Proceeds node₀ targetId evidenceJson T votes handled t (node.emit event) := by
  exact ⟨h.nodup, h.subset, h.nodeId_eq, h.numbers_le, h.chained, h.follows, h.live⟩

structure Answered (own : Bytes) (handled : List (Ballot × Bytes)) (t : Tally Bytes) : Prop where
  prepare : (.prepare, own) ∈ handled → t.state ≠ .idle
  commit : (.commit, own) ∈ handled → t.state ≠ .idle ∧ t.state ≠ .prepare

structure Executed (targetId evidenceJson : Bytes) (T : Set Time) (t : Tally Bytes)
    (node : MeshNode C) : Prop where
  tally_eq : t.state = .executed
  state_eq : (node.pbft.roundOf (roundKey C evidenceJson targetId)).state = .executed
  live : node.pbft.Live (roundKey C evidenceJson targetId) T

def Simulates (node₀ : MeshNode C) (targetId evidenceJson : Bytes) (T : Set Time)
    (votes done : List (Ballot × Bytes)) (t : Tally Bytes) (node : MeshNode C) : Prop :=
  Executed targetId evidenceJson T t node
    ∨ ∃ handled,
      Proceeds node₀ targetId evidenceJson T votes handled t node
        ∧ Answered node₀.nodeId handled t
        ∧ ∀ vote ∈ handled,
          vote ∈ done ∨ vote = (.prepare, node₀.nodeId) ∨ vote = (.commit, node₀.nodeId)

def Answers (own : Bytes) (handled : List (Ballot × Bytes)) (t : Tally Bytes) (next : PBFTStage) :
    Prop :=
  match next with
  | .prepare => t.state = .prepare ∧ (.prepare, own) ∉ handled ∧ (.commit, own) ∉ handled
  | .commit => t.state = .commit ∧ (.commit, own) ∉ handled
  | .executed => t.state = .executed
  | _ => Answered own handled t

omit hstarts hclose in
theorem executed_onExecuted {stageStr commitSig : Bytes}
    (h : Proceeds node₀ targetId evidenceJson T votes handled t node) (hstate : t.state = .executed)
    : Executed targetId evidenceJson T t (node.onExecuted stageStr targetId evidenceJson commitSig) := by
  have hround := h.follows.tallies.state_eq
  rw [hstate] at hround
  unfold onExecuted
  split
  . exact ⟨hstate, hround, h.live⟩
  . split
    . exact ⟨hstate, hround, h.live⟩
    . exact ⟨hstate, hround, h.live⟩

section Dispatch

variable {done : List (Ballot × Bytes)} (hprepareVote : (.prepare, node₀.nodeId) ∈ votes)
  (hcommitVote : (.commit, node₀.nodeId) ∈ votes)
include hcommitVote

theorem simulates_dispatch_commit
    (h : Proceeds node₀ targetId evidenceJson T votes handled t node)
    (hdone : ∀ vote ∈ handled,
      vote ∈ done ∨ vote = (.prepare, node₀.nodeId) ∨ vote = (.commit, node₀.nodeId))
    (hstate : t.state = .commit) (hnew : (.commit, node₀.nodeId) ∉ handled)
    {env : Env} (henv : readings env ⊆ T) (fuel : Nat) (stageStr commitSig : Bytes)
    : Simulates node₀ targetId evidenceJson T votes done
        (t.cast node₀.pbft.quorumSize .commit node₀.nodeId).2
        (node.dispatch (fuel + 2) env (some .commit) stageStr targetId evidenceJson commitSig) := by
  have hleft := (readings_left_subset env).trans henv
  have hemit := proceeds_emit h (.journal (bytes "COMMIT") targetId evidenceJson)
  obtain ⟨hnext, hproceeds⟩ := proceeds_castOwnVote hstarts hclose hemit hcommitVote hnew
    (by simp [hstate]) hleft
  unfold dispatch
  dsimp
  simp only [Ballot.stageStr] at hnext hproceeds
  rw [hnext]
  rcases t.cast_cases .commit with hidle | hpre | hprep | hexec
  . right
    rw [hidle.1]
    simp only [dispatch]
    refine ⟨_, hproceeds, ⟨?_, ?_⟩, ?_⟩
    . rw [hidle.2, hstate]
      simp
    . rw [hidle.2, hstate]
      simp
    . intro vote hvote
      rcases List.mem_cons.mp hvote with heq | hvote
      . exact .inr (.inr heq)
      . exact hdone vote hvote
  . simp at hpre
  . simp at hprep
  . left
    rw [hexec.2.2.1]
    simp only [dispatch]
    exact executed_onExecuted hproceeds hexec.2.2.2

include hprepareVote

theorem simulates_dispatch
    (h : Proceeds node₀ targetId evidenceJson T votes handled t node)
    (hdone : ∀ vote ∈ handled,
      vote ∈ done ∨ vote = (.prepare, node₀.nodeId) ∨ vote = (.commit, node₀.nodeId))
    {next : PBFTStage} (hnext : Answers node₀.nodeId handled t next)
    {env : Env} (henv : readings env ⊆ T) (stageStr commitSig : Bytes)
    : Simulates node₀ targetId evidenceJson T votes done
        (t.answer node₀.pbft.quorumSize node₀.nodeId next)
        (node.dispatch dispatchFuel env (some next) stageStr targetId evidenceJson commitSig) := by
  have hleft := (readings_left_subset env).trans henv
  have hright := (readings_right_subset env).trans henv
  match next with
  | .prepare =>
    obtain ⟨hstate, hprepare, hcommit⟩ := hnext
    obtain ⟨hcast, hproceeds⟩ := proceeds_castOwnVote hstarts hclose h hprepareVote hprepare
      (by simp) hleft
    have hdone' : ∀ vote ∈ (Ballot.prepare, node₀.nodeId) :: handled,
        vote ∈ done ∨ vote = (.prepare, node₀.nodeId) ∨ vote = (.commit, node₀.nodeId) := by
      intro vote hvote
      rcases List.mem_cons.mp hvote with heq | hvote
      . exact .inr (.inl heq)
      . exact hdone vote hvote
    simp only [Ballot.stageStr] at hcast hproceeds
    unfold dispatch dispatchFuel Tally.answer
    dsimp
    rw [hcast]
    rcases t.cast_cases .prepare with hidle | hpre | hprep | hexec
    . right
      rw [hidle.1]
      simp only [dispatch]
      refine ⟨_, hproceeds, ⟨?_, ?_⟩, hdone'⟩
      . rw [hidle.2, hstate]
        simp
      . simp [hcommit]
    . simp at hpre
    . rw [hprep.2.2.1]
      dsimp
      exact simulates_dispatch_commit hstarts hclose hcommitVote hproceeds hdone' hprep.2.2.2
        (by simp [hcommit]) hright 0 _ _
    . simp at hexec
  | .commit =>
    exact simulates_dispatch_commit hstarts hclose hcommitVote h hdone hnext.1 hnext.2 henv 1 _ _
  | .executed => exact .inl (executed_onExecuted h hnext)
  | .idle => exact .inr ⟨handled, h, hnext, hdone⟩
  | .prePrepare => exact .inr ⟨handled, h, hnext, hdone⟩
  | .banPeer => exact .inr ⟨handled, h, hnext, hdone⟩

end Dispatch

end MeshNode
end NeuroMesh
