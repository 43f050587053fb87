import NeuroMesh.Consensus.MeshNode.Impl.Consensus
import NeuroMesh.Consensus.PBFT.Lemmas.Frame

/-!
This module contains the rules to reason about `dispatch`, the recursion between `advance_state` and
the votes that a node casts itself.
-/

namespace NeuroMesh
namespace MeshNode

open PBFTConsensus (Triggers)

def readings (env : Env) : Set Time :=
  Set.range fun i => (env i).now

theorem readings_left_subset (env : Env) : readings env.left ⊆ readings env := by
  rintro _ ⟨i, rfl⟩
  exact ⟨2 * i + 1, rfl⟩

theorem readings_right_subset (env : Env) : readings env.right ⊆ readings env := by
  rintro _ ⟨i, rfl⟩
  exact ⟨2 * i + 2, rfl⟩

variable {C : IdentityCore} (node : MeshNode C) (env : Env)

section Receive

variable (msg : P2PMessage)

@[simp]
theorem fst_receive
    : (node.receive env msg).1 = (node.pbft.receive (env 0).now (env 1) msg).1 := by
  unfold receive
  split
  . next heq => rw [heq]
  . next heq => rw [heq]

@[simp]
theorem pbft_receive
    : (node.receive env msg).2.pbft = (node.pbft.receive (env 0).now (env 1) msg).2 := by
  unfold receive
  split
  . next heq => rw [heq]
  . next heq => rw [heq]; rfl

theorem log_receive
    : (node.receive env msg).2.log
        =
      match (node.receive env msg).1 with
      | none => node.log
      | some stage => .advanced msg stage :: node.log := by
  unfold receive
  split <;> rfl

@[simp]
theorem nodeId_receive : (node.receive env msg).2.nodeId = node.nodeId := by
  unfold receive
  split <;> rfl

@[simp]
theorem peerManager_receive : (node.receive env msg).2.peerManager = node.peerManager := by
  unfold receive
  split <;> rfl

@[simp]
theorem sequenceNumber_receive
    : (node.receive env msg).2.sequenceNumber = node.sequenceNumber := by
  unfold receive
  split <;> rfl

theorem log_suffix_receive : node.log <:+ (node.receive env msg).2.log := by
  rw [log_receive]
  split
  . exact List.suffix_refl _
  . exact List.suffix_cons _ _

end Receive

section CastOwnVote

variable (stageStr targetId evidenceJson : Bytes)

def afterSend : MeshNode C :=
  let msg := node.ownMessage stageStr targetId evidenceJson
  let pbft :=
    if stageStr = Stage.commit then
      node.pbft.setRoundCommitSig (C.sha256Hex (joinPipe [evidenceJson, targetId])) msg.signature
    else
      node.pbft
  {
    node with
    sequenceNumber := node.sequenceNumber + 1
    pbft
    log := .broadcast msg pbft :: node.log
  }

theorem castOwnVote_eq
    : node.castOwnVote env stageStr targetId evidenceJson
        =
      (node.afterSend stageStr targetId evidenceJson).receive env
        (node.ownMessage stageStr targetId evidenceJson) := by
  unfold castOwnVote afterSend
  dsimp
  split <;> rfl

theorem historyOf_afterSend (senderId : Bytes)
    : (node.afterSend stageStr targetId evidenceJson).pbft.historyOf senderId
        =
      node.pbft.historyOf senderId := by
  unfold afterSend
  dsimp
  split <;> rfl

theorem triggers_castOwnVote {next : PBFTStage}
    (h : (node.castOwnVote env stageStr targetId evidenceJson).1 = some next)
    : Triggers stageStr next := by
  rw [castOwnVote_eq, fst_receive] at h
  exact PBFTConsensus.triggers_receive h

end CastOwnVote

section Dispatch

variable {node env} {stageStr targetId evidenceJson : Bytes}

/--
Reasoning about `dispatch`: `M` holds whenever the result of `advance_state` on a message of a certain
stage is dispatched, it is kept by the votes that the node casts itself, and `F` holds in the end. The
clock readings satisfy `E`.
-/
theorem dispatch_induction {M : Option PBFTStage → Bytes → MeshNode C → Prop}
    {F : MeshNode C → Prop} {E : Env → Prop}
    (hleft : ∀ env, E env → E env.left) (hright : ∀ env, E env → E env.right)
    (hstop : ∀ next stageStr node, M next stageStr node → F node)
    (hprepare : ∀ stageStr node env, E env → M (some .prepare) stageStr node →
      M (node.castOwnVote env Stage.prepare targetId evidenceJson).1 Stage.prepare
        (node.castOwnVote env Stage.prepare targetId evidenceJson).2)
    (hcommit : ∀ stageStr node env, E env → M (some .commit) stageStr node →
      let node := node.emit (.journal (bytes "COMMIT") targetId evidenceJson)
      M (node.castOwnVote env Stage.commit targetId evidenceJson).1 Stage.commit
        (node.castOwnVote env Stage.commit targetId evidenceJson).2)
    (hexecuted : ∀ stageStr node commitSig, M (some .executed) stageStr node →
      F (node.onExecuted stageStr targetId evidenceJson commitSig))
    (fuel : Nat) (node : MeshNode C) (env : Env) (next : Option PBFTStage)
    (stageStr commitSig : Bytes) (henv : E env) (h : M next stageStr node)
    : F (node.dispatch fuel env next stageStr targetId evidenceJson commitSig) := by
  induction fuel generalizing node env next stageStr commitSig with
  | zero => exact hstop next stageStr node h
  | succ fuel ih =>
    unfold dispatch
    split
    . exact ih _ _ _ _ _ (hright env henv) (hprepare stageStr node env.left (hleft env henv) h)
    . exact ih _ _ _ _ _ (hright env henv) (hcommit stageStr node env.left (hleft env henv) h)
    . exact hexecuted stageStr node commitSig h
    . exact hstop next stageStr node h

def rank (next : Option PBFTStage) : Nat :=
  match next with
  | some .prepare => 3
  | some .commit => 2
  | some .executed => 1
  | _ => 0

theorem rank_castOwnVote (hprePrepare : stageStr ≠ Stage.prePrepare) (hban : stageStr ≠ Stage.banPeer)
    : rank (node.castOwnVote env stageStr targetId evidenceJson).1 ≤ if stageStr = Stage.prepare then 2 else 1 := by
  have h := @triggers_castOwnVote C node env stageStr targetId evidenceJson
  generalize (node.castOwnVote env stageStr targetId evidenceJson).1 = next at *
  match next with
  | some .prepare => exact absurd (h rfl) (by simpa [Triggers] using ⟨hprePrepare, hban⟩)
  | some .commit =>
    have hprepare : stageStr = Stage.prepare := by simpa [Triggers] using h rfl
    simp [rank, hprepare]
  | some .executed =>
    dsimp only [rank]
    split <;> decide
  | some .idle => simp [rank]
  | some .prePrepare => simp [rank]
  | some .banPeer => simp [rank]
  | none => simp [rank]

theorem dispatch_eq_of_rank_le (fuel more : Nat) (node : MeshNode C) (env : Env)
    (next : Option PBFTStage) (stageStr commitSig : Bytes) (h : rank next ≤ fuel)
    : node.dispatch (fuel + more) env next stageStr targetId evidenceJson commitSig
        =
      node.dispatch fuel env next stageStr targetId evidenceJson commitSig := by
  induction fuel generalizing node env next stageStr commitSig with
  | zero =>
    match next with
    | some .prepare => simp [rank] at h
    | some .commit => simp [rank] at h
    | some .executed => simp [rank] at h
    | some .idle => cases more <;> rfl
    | some .prePrepare => cases more <;> rfl
    | some .banPeer => cases more <;> rfl
    | none => cases more <;> rfl
  | succ fuel ih =>
    have hadd : fuel + 1 + more = fuel + more + 1 := by omega
    rw [hadd]
    match next with
    | some .prepare =>
      simp only [rank] at h
      simp only [dispatch]
      apply ih
      have hrank := @rank_castOwnVote C node env.left Stage.prepare targetId evidenceJson (by decide) (by decide)
      rw [if_pos rfl] at hrank
      omega
    | some .commit =>
      simp only [rank] at h
      simp only [dispatch]
      apply ih
      have hrank := @rank_castOwnVote C (node.emit (.journal (bytes "COMMIT") targetId evidenceJson)) env.left
        Stage.commit targetId evidenceJson (by decide) (by decide)
      rw [if_neg (by decide)] at hrank
      omega
    | some .executed => rfl
    | some .idle => rfl
    | some .prePrepare => rfl
    | some .banPeer => rfl
    | none => rfl

theorem dispatch_dispatchFuel_add (more : Nat) (next : Option PBFTStage) (commitSig : Bytes)
    : node.dispatch (dispatchFuel + more) env next stageStr targetId evidenceJson commitSig
        =
      node.dispatch dispatchFuel env next stageStr targetId evidenceJson commitSig := by
  apply dispatch_eq_of_rank_le
  unfold rank dispatchFuel
  split <;> omega

end Dispatch

end MeshNode
end NeuroMesh
