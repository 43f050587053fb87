import NeuroMesh.Consensus.MeshNode.Lemmas.Discovery
import NeuroMesh.Consensus.MeshNode.Lemmas.Voting
import NeuroMesh.Consensus.PBFT.Lemmas.Roster
import NeuroMesh.Data.Run

/-!
This module contains the proof that the handlers of a node change its `PBFTConsensus` object through the
calls of the object only, so what holds along every run of the object holds along every run of a node.
-/

namespace NeuroMesh

variable {C : IdentityCore}

namespace PBFTConsensus

def Call.IsVoting (call : Call C) : Prop :=
  match call.op with
  | .verifyMessage _ | .advanceState _ | .setRoundCommitSig _ _ | .banPeerLocal _ _ => True
  | _ => False

def Call.IsLeaving (call : Call C) : Prop :=
  match call.op with
  | .prunePeer _ | .drainRecentBans | .advanceView => True
  | _ => call.IsVoting

theorem Call.isLeaving_of_isVoting (call : Call C) (h : call.IsVoting) : call.IsLeaving := by
  unfold IsLeaving
  split
  . trivial
  . trivial
  . trivial
  . exact h

abbrev Votes (s t : PBFTConsensus C) : Prop := Run.Reaches step Call.IsVoting s t

abbrev Leaves (s t : PBFTConsensus C) : Prop := Run.Reaches step Call.IsLeaving s t

theorem votes_single (s : PBFTConsensus C) (call : Call C) (h : call.IsVoting)
    : Votes s (s.step call) := by
  exact Run.Reaches.single h

theorem leaves_single (s : PBFTConsensus C) (call : Call C) (h : call.IsLeaving)
    : Leaves s (s.step call) := by
  exact Run.Reaches.single h

theorem Votes.leaves {s t : PBFTConsensus C} (h : Votes s t) : Leaves s t := by
  exact h.mono Call.isLeaving_of_isVoting

theorem votes_receive (s : PBFTConsensus C) (a₁ a₂ : Ambient) (msg : P2PMessage)
    : Votes s (s.receive a₁.now a₂ msg).2 := by
  have hverify : Votes s (s.verifyMessage a₁.now msg).2 :=
    s.votes_single ⟨a₁, .verifyMessage msg⟩ trivial
  unfold receive
  split
  . next pbft heq =>
    rw [heq] at hverify
    exact hverify
  . next pbft heq =>
    rw [heq] at hverify
    apply hverify.trans
    exact pbft.votes_single ⟨a₂, .advanceState msg⟩ trivial

theorem roster_step_of_isVoting (s : PBFTConsensus C) {call : Call C} (h : call.IsVoting)
    : (s.step call).quorumSize ≤ s.quorumSize ∧ (s.step call).currentView = s.currentView := by
  obtain ⟨a, op⟩ := call
  have hkept : ∀ t : PBFTConsensus C, ∀ nodeId,
      t.roster = s.roster ∨ t.roster = s.roster.expel nodeId →
        t.quorumSize ≤ s.quorumSize ∧ t.currentView = s.currentView := by
    intro t nodeId ht
    refine ⟨s.quorumSize_le_of_roster ht, ?_⟩
    rcases ht with hsame | hexpelled
    . exact congrArg Roster.currentView hsame
    . exact congrArg Roster.currentView hexpelled
  cases op with
  | verifyMessage msg =>
    apply hkept _ msg.senderId
    apply (s.roster_verifyMessage a.now msg).imp_right
    intro h
    exact h.2.roster_eq
  | advanceState msg =>
    apply hkept _ msg.senderId
    apply (s.roster_advanceState a msg).imp_right
    intro h
    exact h.2.roster_eq
  | setRoundCommitSig key sig => exact ⟨le_rfl, rfl⟩
  | banPeerLocal nodeId reason => exact ⟨le_rfl, rfl⟩
  | _ => exact h.elim

theorem quorumSize_le_of_votes {s t : PBFTConsensus C} (h : Votes s t)
    : t.quorumSize ≤ s.quorumSize := by
  apply h.invariant (I := fun t => t.quorumSize ≤ s.quorumSize)
  . intro t call hcall ht
    have := (t.roster_step_of_isVoting hcall).1
    omega
  . exact le_rfl

theorem currentView_of_votes {s t : PBFTConsensus C} (h : Votes s t)
    : t.currentView = s.currentView := by
  apply h.invariant (I := fun t => t.currentView = s.currentView)
  . intro t call hcall ht
    rw [(t.roster_step_of_isVoting hcall).2, ht]
  . rfl

end PBFTConsensus

namespace MeshNode

open PBFTConsensus (Votes Leaves)

theorem keptByVoting_votes : KeptByVoting fun node node' : MeshNode C => Votes node.pbft node'.pbft where
  refl _ := Run.Reaches.refl _
  trans := Run.Reaches.trans
  emit _ _ _ := Run.Reaches.refl _
  banPeerLocal node nodeId reason := node.pbft.votes_single ⟨default, .banPeerLocal nodeId reason⟩ trivial
  receive node env msg := by
    rw [pbft_receive]
    apply PBFTConsensus.votes_receive
  afterSend node stageStr _ targetId evidenceJson := by
    unfold afterSend
    dsimp only
    split
    . exact node.pbft.votes_single ⟨default, .setRoundCommitSig _ _⟩ trivial
    . exact Run.Reaches.refl _

variable (node : MeshNode C) (env : Env)

theorem leaves_pruneStalePeer (peerId : Bytes)
    : Leaves node.pbft (node.pruneStalePeer peerId).pbft := by
  unfold pruneStalePeer
  dsimp only
  split
  . exact node.pbft.leaves_single ⟨default, .prunePeer peerId⟩ trivial
  . apply Run.Reaches.refl

theorem leaves_pruneStalePeers : Leaves node.pbft (node.pruneStalePeers env).pbft := by
  unfold pruneStalePeers
  generalize node.peerManager.getStalePeers (env 0) = peerIds
  induction peerIds generalizing node with
  | nil => apply Run.Reaches.refl
  | cons peerId peerIds ih =>
    apply (leaves_pruneStalePeer node peerId).trans
    apply ih

theorem leaves_checkStalledRounds_go (peerIds : List Bytes)
    : Leaves node.pbft (checkStalledRounds.go node env peerIds).pbft := by
  induction peerIds generalizing node env with
  | nil => apply Run.Reaches.refl
  | cons peerId peerIds ih =>
    unfold checkStalledRounds.go
    apply Run.Reaches.trans _ (ih _ _)
    split
    . exact node.pbft.leaves_single ⟨env 0, .advanceView⟩ trivial
    . apply Run.Reaches.refl

end MeshNode
end NeuroMesh
