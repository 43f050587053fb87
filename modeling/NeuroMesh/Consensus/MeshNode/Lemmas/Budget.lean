import NeuroMesh.Consensus.MeshNode.Lemmas.Dispatch
import NeuroMesh.Consensus.MeshNode.Impl.Discovery

/-!
This module contains the rule for properties that hold as long as a node does not fail too often. An own
vote that is rejected costs one failure, and a handler stops at the first one.
-/

namespace NeuroMesh
namespace MeshNode

open PBFTConsensus (Triggers)

variable {C : IdentityCore}

/--
The votes of a node keep `P` as long as it can afford to fail, where `R n` says that it can afford `n`
failures. Bans of the ids in `B` keep it as well.
-/
structure Budget (nodeId : Bytes) (P : PBFTConsensus C → Prop) (R : Nat → PBFTConsensus C → Prop)
    (B : Bytes → Prop) : Prop where
  weaken : ∀ {n s}, R (n + 1) s → R n s
  sign : ∀ {s} key sig, P s → P (s.setRoundCommitSig key sig)
  sign_spare : ∀ {n s} key sig, R n s → R n (s.setRoundCommitSig key sig)
  vote : ∀ {n s msg} now a, msg.senderId = nodeId → P s → R (n + 1) s → P (s.receive now a msg).2
  vote_spare : ∀ {n s msg} now a, msg.senderId = nodeId → R (n + 1) s →
    R n (s.receive now a msg).2 ∧ ((s.receive now a msg).1 ≠ none → R (n + 1) (s.receive now a msg).2)
  ban : ∀ {s id} reason, B id → P s → P (s.banPeerLocal id reason)
  ban_spare : ∀ {n s} id reason, R n s → R n (s.banPeerLocal id reason)
  bannable : ∀ {id}, id ≠ nodeId → B id

structure Affords (nodeId : Bytes) (P : PBFTConsensus C → Prop) (R : Nat → PBFTConsensus C → Prop)
    (n : Nat) (next : Option PBFTStage) (node : MeshNode C) : Prop where
  nodeId_eq : node.nodeId = nodeId
  keeps : P node.pbft
  spare : n ≠ 0 → R n node.pbft
  spare_next : next ≠ none → R (n + 1) node.pbft

section

variable {nodeId : Bytes} {P : PBFTConsensus C → Prop} {R : Nat → PBFTConsensus C → Prop}
  {B : Bytes → Prop} (budget : Budget nodeId P R B) {node : MeshNode C} {n : Nat}
  {next : Option PBFTStage}
include budget

theorem affords_castOwnVote (env : Env) (hid : node.nodeId = nodeId) (h : P node.pbft)
    (hspare : R (n + 1) node.pbft) (stageStr targetId evidenceJson : Bytes)
    : Affords nodeId P R n (node.castOwnVote env stageStr targetId evidenceJson).1
        (node.castOwnVote env stageStr targetId evidenceJson).2 := by
  have hsend : P (node.afterSend stageStr targetId evidenceJson).pbft
      ∧ R (n + 1) (node.afterSend stageStr targetId evidenceJson).pbft := by
    unfold afterSend
    dsimp only
    split
    . exact ⟨budget.sign _ _ h, budget.sign_spare _ _ hspare⟩
    . exact ⟨h, hspare⟩
  have hsender : (node.ownMessage stageStr targetId evidenceJson).senderId = nodeId := hid
  have hself := budget.vote_spare (env 0).now (env 1) hsender hsend.2
  rw [castOwnVote_eq]
  constructor
  . simp [afterSend, hid]
  . rw [pbft_receive]
    exact budget.vote _ _ hsender hsend.1 hsend.2
  . intro _
    rw [pbft_receive]
    exact hself.1
  . intro hnext
    rw [fst_receive] at hnext
    rw [pbft_receive]
    exact hself.2 hnext

omit budget in
theorem affords_emit (h : Affords nodeId P R n next node) (event : Event C)
    : Affords nodeId P R n next (node.emit event) := by
  exact ⟨h.nodeId_eq, h.keeps, h.spare, h.spare_next⟩

omit budget in
theorem affords_none (h : Affords nodeId P R n next node) : Affords nodeId P R n none node := by
  exact ⟨h.nodeId_eq, h.keeps, h.spare, by simp⟩

theorem affords_banPeerLocal (h : Affords nodeId P R n next node) {targetId : Bytes} (hban : B targetId)
    (reason : Bytes)
    : Affords nodeId P R n next { node with pbft := node.pbft.banPeerLocal targetId reason } := by
  constructor
  . exact h.nodeId_eq
  . exact budget.ban reason hban h.keeps
  . intro hn
    exact budget.ban_spare targetId reason (h.spare hn)
  . intro hnext
    exact budget.ban_spare targetId reason (h.spare_next hnext)

theorem affords_dispatch {env : Env} {stageStr targetId evidenceJson commitSig : Bytes} (fuel : Nat)
    (hban : isBanRound evidenceJson → B targetId)
    (htriggers : ∀ stage, next = some stage → Triggers stageStr stage)
    (h : Affords nodeId P R n next node)
    : Affords nodeId P R n none
        (node.dispatch fuel env next stageStr targetId evidenceJson commitSig) := by
  apply dispatch_induction (E := fun _ => True) (F := Affords nodeId P R n none)
    (M := fun next stageStr node =>
      Affords nodeId P R n next node ∧ ∀ stage, next = some stage → Triggers stageStr stage)
  . intro _ _
    trivial
  . intro _ _
    trivial
  . intro next stageStr node h
    exact affords_none h.1
  . intro stageStr node env _ h
    refine ⟨?_, fun stage hnext => triggers_castOwnVote node env _ _ _ hnext⟩
    exact affords_castOwnVote budget env h.1.nodeId_eq h.1.keeps (h.1.spare_next (by simp)) _ _ _
  . intro stageStr node env _ h node
    have hemit : Affords nodeId P R n (some .commit) node := affords_emit h.1 _
    refine ⟨?_, fun stage hnext => triggers_castOwnVote node env _ _ _ hnext⟩
    exact affords_castOwnVote budget env hemit.nodeId_eq hemit.keeps (hemit.spare_next (by simp)) _ _ _
  . intro stageStr node commitSig h
    have hdone := affords_none h.1
    -- A round is executed by a `COMMIT` vote, never by a vote of the stage `BAN_PEER`.
    have hstage : stageStr ≠ Stage.banPeer := by
      rw [show stageStr = Stage.commit from h.2 .executed rfl]
      decide
    unfold onExecuted
    split
    . next hround =>
      apply affords_emit
      apply affords_banPeerLocal budget hdone
      exact hban (hround.resolve_right hstage)
    . split
      . exact hdone
      . exact affords_emit (affords_emit (affords_emit hdone _) _) _
  . trivial
  . exact ⟨h, htriggers⟩

theorem affords_broadcastPbftStage (node : MeshNode C) (env : Env) (hid : node.nodeId = nodeId)
    (h : P node.pbft) (hspare : R (n + 1) node.pbft) (stageStr targetId evidenceJson : Bytes)
    (hban : isBanRound evidenceJson → B targetId)
    : Affords nodeId P R n none (node.broadcastPbftStage env stageStr targetId evidenceJson) := by
  apply affords_dispatch budget _ hban
  . intro stage hnext
    exact triggers_castOwnVote node env.left _ _ _ hnext
  . exact affords_castOwnVote budget env.left hid h hspare stageStr targetId evidenceJson

theorem keeps_initiateConsensus (env : Env) (hid : node.nodeId = nodeId) (h : P node.pbft)
    (hspare : R 1 node.pbft) {targetId evidenceJson : Bytes} (hban : isBanRound evidenceJson → B targetId)
    : P (node.initiateConsensus env targetId evidenceJson).pbft := by
  unfold initiateConsensus
  dsimp only
  split
  . exact h
  . have hvote : ∀ start : MeshNode C, start.nodeId = node.nodeId → start.pbft = node.pbft →
        Affords nodeId P R 0 none
          (start.broadcastPbftStage env.right Stage.prePrepare targetId evidenceJson) := by
      intro start hstart hpbft
      rw [← hpbft] at h hspare
      exact affords_broadcastPbftStage budget start env.right (hstart.trans hid) h hspare _ _ _ hban
    exact (hvote { node.emit _ with peerManager := _ } rfl rfl).keeps

theorem affords_proposeBan (env : Env) (hid : node.nodeId = nodeId) (h : P node.pbft)
    (hspare : R (n + 1) node.pbft) (targetId reason : Bytes)
    : Affords nodeId P R n none (node.proposeBan env targetId reason).2 := by
  unfold proposeBan
  split
  . exact ⟨hid, h, fun _ => budget.weaken hspare, by simp⟩
  . next hself =>
    have hban : B targetId := budget.bannable (hid ▸ fun heq => hself (.inr heq))
    have hvote := affords_broadcastPbftStage budget (node.emit (.proposed targetId (banEvidence reason)))
      env hid h hspare Stage.prePrepare targetId (banEvidence reason) (fun _ => hban)
    dsimp only
    split
    . exact hvote
    . apply affords_emit
      exact affords_banPeerLocal budget hvote hban reason

theorem keeps_proposeRecentBans_go (env : Env) (hid : node.nodeId = nodeId) (bans : List Bytes)
    (h : P node.pbft) (hspare : bans ≠ [] → R bans.length node.pbft)
    : P (proposeRecentBans.go node env bans).pbft := by
  induction bans generalizing node env with
  | nil => exact h
  | cons banned bans ih =>
    have hnext := affords_proposeBan budget env.left hid h (hspare (by simp)) banned
      (bytes "local_auto_ban")
    unfold proposeRecentBans.go
    apply ih
    . exact hnext.nodeId_eq
    . exact hnext.keeps
    . intro hbans
      exact hnext.spare (by simpa using hbans)

theorem keeps_processVote (env : Env) {msg : P2PMessage} (hid : node.nodeId = nodeId) (h : P node.pbft)
    (hban : isBanRound msg.evidenceJson → B msg.targetId)
    (hreceive : msg.senderId ≠ nodeId → P (node.pbft.receive (env.left 0).now (env.left 1) msg).2)
    (hspare : msg.senderId ≠ nodeId → (node.pbft.receive (env.left 0).now (env.left 1) msg).1 ≠ none →
      R 1 (node.pbft.receive (env.left 0).now (env.left 1) msg).2)
    : P (node.processVote env msg).pbft := by
  unfold processVote
  split
  . exact h
  . next hne =>
    rw [hid] at hne
    extract_lets start
    have hstart : start.pbft = node.pbft ∧ start.nodeId = node.nodeId := by
      unfold start
      split <;> exact ⟨rfl, rfl⟩
    have haffords : Affords nodeId P R 0 (start.receive env.left msg).1
        (start.receive env.left msg).2 := by
      constructor
      . rw [nodeId_receive, hstart.2, hid]
      . rw [pbft_receive, hstart.1]
        exact hreceive hne
      . simp
      . rw [fst_receive, pbft_receive, hstart.1]
        exact hspare hne
    dsimp only
    apply (affords_dispatch budget _ hban _ haffords).keeps
    intro stage hnext
    rw [fst_receive] at hnext
    exact PBFTConsensus.triggers_receive hnext

end

end MeshNode
end NeuroMesh
