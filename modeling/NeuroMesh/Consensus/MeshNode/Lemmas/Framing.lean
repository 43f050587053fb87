import NeuroMesh.Consensus.MeshNode.Lemmas.Discovery
import NeuroMesh.Consensus.MeshNode.Lemmas.Dispatch
import NeuroMesh.Consensus.PBFT.Lemmas.Retain
import NeuroMesh.Data.Run

namespace NeuroMesh
namespace MeshNode

open PBFTConsensus (Lapsed Retains)

variable {C : IdentityCore}

def ExecutesBan (peerId : Bytes) (node node' : MeshNode C) : Prop :=
  ∃ msg rest,
    msg.targetId = peerId
      ∧ isBanRound msg.evidenceJson
      ∧ node'.log
        = .journal (bytes "BAN_PEER_EXECUTED") peerId msg.evidenceJson
          :: .advanced msg .executed :: rest
      ∧ node.log <:+ rest

structure Untouched (peerId : Bytes) (T : Set Time) (node node' : MeshNode C) : Prop where
  key : peerId ∈ node.pbft.peerPublicKeys → peerId ∈ node'.pbft.peerPublicKeys
  ban : peerId ∈ node'.pbft.bannedPeers →
    peerId ∈ node.pbft.bannedPeers ∨ ExecutesBan peerId node node'
  votes : ∀ key stage, peerId ∈ node.pbft.voters key stage →
    peerId ∈ node'.pbft.voters key stage ∨ Lapsed T (node.pbft.roundOf key).lastActivity

namespace Untouched

variable {peerId : Bytes} {T : Set Time} {node node' : MeshNode C}

theorem of_retains (h : Retains peerId T node.pbft node'.pbft) : Untouched peerId T node node' := by
  exact ⟨h.key, fun hban => .inl (h.ban hban), h.votes⟩

end Untouched

structure Dispatching (peerId : Bytes) (T : Set Time) (start : MeshNode C)
    (targetId evidenceJson : Bytes) (next : Option PBFTStage) (stageStr : Bytes)
    (node : MeshNode C) : Prop where
  nodeId_eq : node.nodeId = start.nodeId
  retains : Retains peerId T start.pbft node.pbft
  below : next ≠ none → peerId = start.nodeId → node.pbft.BelowThreshold peerId
  log_suffix : start.log <:+ node.log
  executed : next = some .executed →
    stageStr = Stage.commit
      ∧ ∃ msg rest, msg.targetId = targetId ∧ msg.evidenceJson = evidenceJson
        ∧ node.log = .advanced msg .executed :: rest ∧ start.log <:+ rest

variable {peerId : Bytes} {T : Set Time} {start node : MeshNode C}
  {stageStr targetId evidenceJson : Bytes} {next : Option PBFTStage}

theorem dispatching_receive {env : Env} (henv : readings env ⊆ T) {msg : P2PMessage}
    (hid : node.nodeId = start.nodeId) (hretains : Retains peerId T start.pbft node.pbft)
    (hlog : start.log <:+ node.log)
    (hsender : msg.senderId = peerId → node.pbft.BelowThreshold peerId)
    (hself : peerId = start.nodeId → node.pbft.BelowThreshold peerId)
    : Dispatching peerId T start msg.targetId msg.evidenceJson (node.receive env msg).1 msg.stageStr
        (node.receive env msg).2 := by
  constructor
  . simp [hid]
  . rw [pbft_receive]
    apply hretains.trans
    apply node.pbft.retains_receive _ _ (henv ⟨1, rfl⟩)
    by_cases h : msg.senderId = peerId
    . rw [h]
      exact .inr (hsender h)
    . exact .inl h
  . intro hnext hpeer
    rw [pbft_receive]
    by_cases h : msg.senderId = peerId
    . obtain ⟨stage, hstage⟩ := Option.ne_none_iff_exists'.mp hnext
      rw [fst_receive] at hstage
      rw [← h]
      exact node.pbft.belowThreshold_receive _ _ hstage
    . unfold PBFTConsensus.BelowThreshold
      rw [(node.pbft.sameAbout_receive _ _ h).trust_eq]
      exact hself hpeer
  . exact hlog.trans (log_suffix_receive node env msg)
  . intro hnext
    refine ⟨?_, msg, node.log, rfl, rfl, ?_, hlog⟩
    . rw [fst_receive] at hnext
      exact PBFTConsensus.triggers_receive hnext
    . rw [log_receive, hnext]

theorem dispatching_castOwnVote {env : Env} (henv : readings env ⊆ T)
    (h : Dispatching peerId T start targetId evidenceJson next stageStr node) (hnext : next ≠ none)
    (stage : Bytes)
    : Dispatching peerId T start targetId evidenceJson
        (node.castOwnVote env stage targetId evidenceJson).1 stage
        (node.castOwnVote env stage targetId evidenceJson).2 := by
  have hretains : Retains peerId T start.pbft
      (node.afterSend stage targetId evidenceJson).pbft := by
    unfold afterSend
    dsimp
    split
    . exact h.retains.trans (node.pbft.retains_setRoundCommitSig _ _)
    . exact h.retains
  have hself : peerId = start.nodeId →
      (node.afterSend stage targetId evidenceJson).pbft.BelowThreshold peerId := by
    intro hpeer
    unfold afterSend
    dsimp
    split <;> exact h.below hnext hpeer
  have hown : (node.ownMessage stage targetId evidenceJson).senderId = peerId →
      (node.afterSend stage targetId evidenceJson).pbft.BelowThreshold peerId := by
    intro hsender
    apply hself
    rw [← hsender]
    exact h.nodeId_eq
  have hid : (node.afterSend stage targetId evidenceJson).nodeId = start.nodeId := h.nodeId_eq
  have hlog : start.log <:+ (node.afterSend stage targetId evidenceJson).log :=
    h.log_suffix.trans (List.suffix_cons _ _)
  rw [castOwnVote_eq]
  exact dispatching_receive henv hid hretains hlog hown hself

theorem dispatching_emit (h : Dispatching peerId T start targetId evidenceJson next stageStr node)
    (hnext : next ≠ some .executed) (event : Event C)
    : Dispatching peerId T start targetId evidenceJson next stageStr (node.emit event) := by
  exact ⟨h.nodeId_eq, h.retains, h.below, h.log_suffix.trans (List.suffix_cons _ _),
    fun hexecuted => absurd hexecuted hnext⟩

theorem untouched_dispatch {env : Env} (henv : readings env ⊆ T) (fuel : Nat) (commitSig : Bytes)
    (h : Dispatching peerId T start targetId evidenceJson next stageStr node)
    : Untouched peerId T start
        (node.dispatch fuel env next stageStr targetId evidenceJson commitSig) := by
  apply dispatch_induction (M := Dispatching peerId T start targetId evidenceJson)
    (E := fun env => readings env ⊆ T)
  . intro env henv
    exact (readings_left_subset env).trans henv
  . intro env henv
    exact (readings_right_subset env).trans henv
  . intro next stageStr node h
    exact .of_retains h.retains
  . intro stageStr node env henv h
    exact dispatching_castOwnVote henv h (by simp) Stage.prepare
  . intro stageStr node env henv h
    exact dispatching_castOwnVote henv (dispatching_emit h (by simp) _) (by simp) Stage.commit
  . intro stageStr node commitSig h
    obtain ⟨hstage, msg, rest, htarget, hevidence, hlog, hsuffix⟩ := h.executed rfl
    have hne : Stage.commit ≠ Stage.banPeer := by decide
    unfold onExecuted
    simp only [hstage, hne, or_false, if_false]
    split
    . next hban =>
      refine ⟨h.retains.key, ?_, h.retains.votes⟩
      intro hmem
      by_cases heq : peerId = targetId
      . right
        refine ⟨msg, rest, htarget.trans heq.symm, hevidence ▸ hban, ?_, hsuffix⟩
        rw [hevidence, heq]
        dsimp [emit]
        rw [hlog]
      . left
        apply h.retains.ban
        simpa [emit, PBFTConsensus.banPeerLocal, PBFTConsensus.banPeerLocked, heq] using hmem
    . split
      . exact .of_retains h.retains
      . exact .of_retains h.retains
  . exact henv
  . exact h

theorem untouched_processVote {env : Env} (henv : readings env ⊆ T) {msg : P2PMessage}
    (hsender : msg.senderId = peerId → node.pbft.BelowThreshold peerId)
    (hself : peerId = node.nodeId → node.pbft.BelowThreshold peerId)
    : Untouched peerId T node (node.processVote env msg) := by
  have hdispatching : ∀ lastTargetedAt,
      let start := { node with lastTargetedAt }
      Dispatching peerId T node msg.targetId msg.evidenceJson (start.receive env.left msg).1
        msg.stageStr (start.receive env.left msg).2 := by
    intro lastTargetedAt
    have hstart : Retains peerId T node.pbft { node with lastTargetedAt }.pbft := .refl _ _ _
    exact dispatching_receive ((readings_left_subset env).trans henv) rfl hstart
      (List.suffix_refl _) hsender hself
  have hright := (readings_right_subset env).trans henv
  unfold processVote
  split
  . exact .of_retains (.refl _ _ _)
  . dsimp
    split
    . exact untouched_dispatch hright _ _ (hdispatching _)
    . exact untouched_dispatch hright _ _ (hdispatching node.lastTargetedAt)

theorem untouched_of_joins {node' : MeshNode C} (h : Joins node.pbft node'.pbft)
    : Untouched peerId T node node' := by
  cases h with
  | inl heq => exact .of_retains (heq ▸ .refl _ _ _)
  | inr hnew =>
    obtain ⟨id, pem, -, heq⟩ := hnew
    constructor
    . intro hkey
      rw [heq]
      simp [PBFTConsensus.incrementPeers, PBFTConsensus.registerPeerKey, hkey]
    . intro hban
      rw [heq] at hban
      exact .inl hban
    . intro key stage hvote
      rw [heq]
      exact .inl hvote

structure Datagram where
  env : Env
  msg : Bytes
  senderIp : Bytes

def receiveDatagram (node : MeshNode C) (datagram : Datagram) : MeshNode C :=
  node.processMessage datagram.env datagram.msg datagram.senderIp

/--
The datagram may be the last failure that the automatic ban of the peer takes: it is a vote in the name
of the peer, or the peer is the node itself, which answers with votes of its own.
-/
def AtThreshold (node : MeshNode C) (peerId : Bytes) (datagram : Datagram) : Prop :=
  ¬node.pbft.BelowThreshold peerId
    ∧ (peerId = node.nodeId
      ∨ ∃ vote, node.incoming datagram.msg = some vote ∧ vote.senderId = peerId)

theorem untouched_receiveDatagram (datagram : Datagram) (h : ¬node.AtThreshold peerId datagram)
    : Untouched peerId (readings datagram.env) node (node.receiveDatagram datagram) := by
  unfold AtThreshold at h
  push Not at h
  have hself : peerId = node.nodeId → node.pbft.BelowThreshold peerId := by
    intro hpeer
    by_contra hbelow
    exact (h hbelow).1 hpeer
  unfold receiveDatagram
  refine processMessage_rule node datagram.env datagram.msg datagram.senderIp
    (fun _ => .of_retains (.refl _ _ _)) ?_ ?_
  . intro peerManager tokens
    apply untouched_of_joins
    exact joins_processAnnounce { node with peerManager } _ _ _
  . intro peerManager vote hvote
    have hsender : vote.senderId = peerId → node.pbft.BelowThreshold peerId := by
      intro hsender
      by_contra hbelow
      exact (h hbelow).2 vote hvote hsender
    have hstart : ∀ start : MeshNode C, start.pbft = node.pbft → start.nodeId = node.nodeId →
        Untouched peerId (readings datagram.env) start (start.processVote datagram.env.right vote) := by
      intro start hpbft hid
      apply untouched_processVote (readings_right_subset datagram.env)
      . rwa [hpbft]
      . rwa [hpbft, hid]
    have huntouched := hstart { node with peerManager } rfl rfl
    exact ⟨huntouched.key, huntouched.ban, huntouched.votes⟩

theorem along_atThreshold_or_untouched (node : MeshNode C) (peerId : Bytes)
    (datagrams : List Datagram)
    : Run.Along receiveDatagram
        (fun node datagram =>
          node.AtThreshold peerId datagram
            ∨ Untouched peerId (readings datagram.env) node (node.receiveDatagram datagram))
        node datagrams := by
  rw [Run.along_iff_forall]
  intro before datagram after _
  by_cases h : (before.foldl receiveDatagram node).AtThreshold peerId datagram
  . exact .inl h
  . exact .inr (untouched_receiveDatagram datagram h)

def Forged (peerId : Bytes) (node : MeshNode C) (datagram : Datagram) : Prop :=
  match node.incoming datagram.msg with
  | none => True
  | some vote =>
    C.verifyWith (node.pbft.peerPublicKeys.getD peerId none) vote.blob vote.signature = false

instance (peerId : Bytes) (node : MeshNode C) (datagram : Datagram) :
    Decidable (Forged peerId node datagram) := by
  unfold Forged
  split <;> infer_instance

def sampleNode : MeshNode .plain :=
  new .plain (bytes "A") (bytes "A") (bytes "A") { peerKeys := some (bytes "B:-----BEGIN") }

def forgedDatagram : Datagram :=
  {
    env := fun _ => { now := 0, bucketOrder := id, bucketOrder_perm := List.Perm.refl }
    msg := encodeVote {
      stageStr := Stage.prepare
      senderId := bytes "B"
      targetId := bytes "T"
      evidenceJson := bytes "\x7b\x7d"
      signature := bytes "x"
      prevMessageHash := []
      sequenceNumber := 1
      view := 0
    }
    senderIp := []
  }

/--
A hundred votes that anybody can send in the name of `B` ban it and take its key away.
-/
theorem not_forall_forged_untouched
    : ¬ ∀ (node : MeshNode .plain) (peerId : Bytes) (datagrams : List Datagram),
        peerId ∈ node.pbft.peerPublicKeys →
        Run.Along receiveDatagram (Forged peerId) node datagrams →
        let node' := datagrams.foldl receiveDatagram node
        (peerId ∈ node'.pbft.bannedPeers → peerId ∈ node.pbft.bannedPeers)
          ∧ peerId ∈ node'.pbft.peerPublicKeys
          ∧ ∀ key stage, peerId ∈ node.pbft.voters key stage →
            peerId ∈ node'.pbft.voters key stage := by
  intro h
  have hkey := (h sampleNode (bytes "B") (List.replicate 100 forgedDatagram)
    (by decide +kernel) (by decide +kernel)).2.1
  revert hkey
  decide +kernel

end MeshNode
end NeuroMesh
