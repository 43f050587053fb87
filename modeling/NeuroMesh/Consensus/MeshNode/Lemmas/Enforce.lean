import NeuroMesh.Consensus.MeshNode.Impl.Enforcement
import NeuroMesh.Consensus.MeshNode.Lemmas.Membership
import NeuroMesh.Consensus.MeshNode.Lemmas.Quiet

namespace NeuroMesh

variable {C : IdentityCore}

namespace PBFTConsensus

theorem quorum_of_receive_executed {s : PBFTConsensus C} {a : Ambient} {msg : P2PMessage} {now : Time}
    (h : (s.receive now a msg).1 = some .executed)
    : s.quorumSize ≤ ((s.receive now a msg).2.voters (keyOf C msg) Stage.commit).card := by
  by_cases hvalid : s.Verifies msg
  . rw [receive_of_verifies hvalid] at h ⊢
    exact (quorum_of_advanceState_executed (s := s.recordSuccess msg.senderId) (Option.some.inj h)).1
  . rw [receive_of_not_verifies hvalid] at h
    contradiction

end PBFTConsensus

namespace MeshNode

open PBFTConsensus (roundKey keyOf)

def EnforcedByTwo (node : MeshNode C) (step : Step) : Prop :=
  ∀ response ∈ node.responses step,
    2 ≤ ((node.act step).pbft.voters (roundKey C response.1 response.2) Stage.commit).card

def Passive (base node : MeshNode C) : Prop :=
  ∃ events, node.log = events ++ base.log
    ∧ ∀ evidenceJson targetId, .executeResponse evidenceJson targetId ∉ events

def Enforced (base node : MeshNode C) : Prop :=
  ∃ events, node.log = events ++ base.log
    ∧ ∀ evidenceJson targetId, .executeResponse evidenceJson targetId ∈ events →
      2 ≤ (node.pbft.voters (roundKey C evidenceJson targetId) Stage.commit).card

section Passive

variable {base node node' : MeshNode C}

theorem Passive.enforced (h : Passive base node) : Enforced base node := by
  obtain ⟨events, hlog, hnone⟩ := h
  refine ⟨events, hlog, ?_⟩
  intro evidenceJson targetId hmem
  exact absurd hmem (hnone evidenceJson targetId)

theorem passive_of_log_eq (h : node.log = base.log) : Passive base node := by
  exact ⟨[], h, by simp⟩

theorem Passive.trans (h₁ : Passive base node) (h₂ : Passive node node') : Passive base node' := by
  obtain ⟨first, hfirst, hnone₁⟩ := h₁
  obtain ⟨second, hsecond, hnone₂⟩ := h₂
  refine ⟨second ++ first, ?_, ?_⟩
  . rw [hsecond, hfirst, List.append_assoc]
  . intro evidenceJson targetId hmem
    rcases List.mem_append.mp hmem with hmem | hmem
    . exact hnone₂ evidenceJson targetId hmem
    . exact hnone₁ evidenceJson targetId hmem

theorem passive_emit (h : Passive base node) {event : Event C}
    (hevent : ∀ evidenceJson targetId, event ≠ .executeResponse evidenceJson targetId)
    : Passive base (node.emit event) := by
  apply h.trans
  refine ⟨[event], rfl, ?_⟩
  intro evidenceJson targetId hmem
  exact hevent evidenceJson targetId (List.mem_singleton.mp hmem).symm

theorem Quiet.passive (h : Quiet base node) : Passive base node := by
  obtain ⟨events, hlog, hannounced⟩ := h.log
  refine ⟨events, hlog, ?_⟩
  intro evidenceJson targetId hmem
  obtain ⟨payload, heq⟩ := hannounced _ hmem
  contradiction

theorem passive_receive (h : Passive base node) (env : Env) (msg : P2PMessage)
    : Passive base (node.receive env msg).2 := by
  unfold receive
  split
  . exact h
  . apply passive_emit
    . exact h
    . intro _ _
      nofun

theorem passive_castOwnVote (h : Passive base node) (env : Env) (stageStr targetId evidenceJson : Bytes)
    : Passive base (node.castOwnVote env stageStr targetId evidenceJson).2 := by
  rw [castOwnVote_eq]
  apply passive_receive
  apply h.trans
  refine ⟨[_], rfl, ?_⟩
  simp

end Passive

structure Backed (targetId evidenceJson : Bytes) (next : Option PBFTStage) (s : PBFTConsensus C) :
    Prop where
  quorum : next ≠ none → 2 ≤ s.quorumSize
  votes : next = some .executed → 2 ≤ (s.voters (roundKey C evidenceJson targetId) Stage.commit).card

theorem backed_receive {s : PBFTConsensus C} (h : 2 ≤ s.quorumSize) (now : Time) (a : Ambient)
    (msg : P2PMessage)
    : Backed msg.targetId msg.evidenceJson (s.receive now a msg).1 (s.receive now a msg).2 := by
  constructor
  . intro hnext
    obtain ⟨stage, hstage⟩ := Option.ne_none_iff_exists'.mp hnext
    have htotal := (PBFTConsensus.sameMembers_receive hstage).total_eq
    unfold PBFTConsensus.quorumSize at h ⊢
    rw [htotal]
    exact h
  . intro hnext
    exact h.trans (PBFTConsensus.quorum_of_receive_executed hnext)

theorem backed_castOwnVote {node : MeshNode C} (h : 2 ≤ node.pbft.quorumSize) (env : Env)
    (stageStr targetId evidenceJson : Bytes)
    : Backed targetId evidenceJson (node.castOwnVote env stageStr targetId evidenceJson).1
        (node.castOwnVote env stageStr targetId evidenceJson).2.pbft := by
  have hsend : (node.afterSend stageStr targetId evidenceJson).pbft.quorumSize
      = node.pbft.quorumSize := by
    unfold afterSend
    dsimp only
    split <;> rfl
  rw [← hsend] at h
  rw [castOwnVote_eq, fst_receive, pbft_receive]
  exact backed_receive h _ _ (node.ownMessage stageStr targetId evidenceJson)

section Dispatch

variable {base node : MeshNode C} {env : Env} {next : Option PBFTStage}
  {stageStr targetId evidenceJson commitSig : Bytes}

theorem enforced_onExecuted (h : Passive base node)
    (hvotes : 2 ≤ (node.pbft.voters (roundKey C evidenceJson targetId) Stage.commit).card)
    : Enforced base (node.onExecuted stageStr targetId evidenceJson commitSig) := by
  unfold onExecuted
  split
  . apply Passive.enforced
    apply passive_emit
    . exact h.trans (passive_of_log_eq rfl)
    . intro _ _
      nofun
  . split
    . exact h.enforced
    . obtain ⟨events, hlog, hnone⟩ := h
      refine ⟨.executeResponse evidenceJson targetId :: .consensusReached targetId evidenceJson commitSig
        :: .journal (bytes "EXECUTED") targetId evidenceJson :: events, ?_, ?_⟩
      . simp [emit, hlog]
      . intro evidenceJson' targetId' hmem
        simp only [List.mem_cons, reduceCtorEq, false_or, Event.executeResponse.injEq] at hmem
        rcases hmem with ⟨rfl, rfl⟩ | hmem
        . exact hvotes
        . exact absurd hmem (hnone evidenceJson' targetId')

theorem enforced_dispatch (fuel : Nat) (h : Passive base node)
    (hbacked : Backed targetId evidenceJson next node.pbft)
    : Enforced base (node.dispatch fuel env next stageStr targetId evidenceJson commitSig) := by
  apply dispatch_induction (E := fun _ => True) (F := Enforced base)
    (M := fun next _ node => Passive base node ∧ Backed targetId evidenceJson next node.pbft)
  . intro _ _
    trivial
  . intro _ _
    trivial
  . intro _ _ node h
    exact h.1.enforced
  . intro _ node env _ h
    exact ⟨passive_castOwnVote h.1 env _ _ _, backed_castOwnVote (h.2.quorum (by simp)) env _ _ _⟩
  . intro _ node env _ h node
    have hemit : Passive base node := passive_emit h.1 (by simp)
    have hquorum : 2 ≤ node.pbft.quorumSize := h.2.quorum (by simp)
    exact ⟨passive_castOwnVote hemit env _ _ _, backed_castOwnVote hquorum env _ _ _⟩
  . intro _ node commitSig h
    exact enforced_onExecuted h.1 (h.2.votes rfl)
  . trivial
  . exact ⟨h, hbacked⟩

theorem dispatch_of_passive {F : MeshNode C → Prop} (hstop : ∀ node, Passive base node → F node)
    (hexecuted : ∀ node stageStr commitSig, Passive base node →
      F (node.onExecuted stageStr targetId evidenceJson commitSig))
    (fuel : Nat) (h : Passive base node)
    : F (node.dispatch fuel env next stageStr targetId evidenceJson commitSig) := by
  apply dispatch_induction (E := fun _ => True) (M := fun _ _ => Passive base)
  . simp
  . simp
  . intro _ _
    exact hstop
  . intro _ node env _ h
    exact passive_castOwnVote h env _ _ _
  . intro _ node env _ h node
    exact passive_castOwnVote (passive_emit h (by simp)) env _ _ _
  . intro stageStr node commitSig
    exact hexecuted node stageStr commitSig
  . trivial
  . exact h

theorem passive_dispatch (fuel : Nat) (hban : isBanRound evidenceJson = true) (h : Passive base node)
    : Passive base (node.dispatch fuel env next stageStr targetId evidenceJson commitSig) := by
  apply dispatch_of_passive _ _ fuel h
  . intro node h
    exact h
  . intro node stageStr commitSig h
    unfold onExecuted
    rw [if_pos (.inl hban)]
    apply passive_emit
    . exact h.trans (passive_of_log_eq rfl)
    . intro _ _
      nofun

theorem passive_broadcastPbftStage (hban : isBanRound evidenceJson = true) (h : Passive base node)
    : Passive base (node.broadcastPbftStage env stageStr targetId evidenceJson) := by
  apply passive_dispatch _ hban
  exact passive_castOwnVote h env.left _ _ _

theorem enforced_broadcastPbftStage (h : Passive base node) (hquorum : 2 ≤ node.pbft.quorumSize)
    : Enforced base (node.broadcastPbftStage env stageStr targetId evidenceJson) := by
  apply enforced_dispatch
  . exact passive_castOwnVote h env.left _ _ _
  . exact backed_castOwnVote hquorum env.left _ _ _

end Dispatch

def EnoughMembers (node : MeshNode C) (step : Step) : Prop :=
  match step.action with
  | .message msg _ =>
    ∀ vote, node.incoming msg = some vote → isBanRound vote.evidenceJson ∨ 4 ≤ node.pbft.totalNodes
  | .initiateConsensus _ evidenceJson => isBanRound evidenceJson ∨ 4 ≤ node.pbft.totalNodes
  | _ => True

theorem two_le_quorumSize {s : PBFTConsensus C} (h : 4 ≤ s.totalNodes) : 2 ≤ s.quorumSize := by
  unfold PBFTConsensus.quorumSize
  omega

theorem isBanRound_banEvidence (reason : Bytes) : isBanRound (banEvidence reason) = true := by
  unfold isBanRound banEvidence
  rw [decide_eq_true_iff, List.append_assoc]
  have hkey : bytes "\"action\":\"ban\"" <:+: bytes "\x7b\"action\":\"ban\",\"reason\":\"" := by
    decide
  exact hkey.trans (List.prefix_append _ _).isInfix

section Act

variable (node : MeshNode C) (env : Env)

theorem enforced_processVote {vote : P2PMessage}
    (h : isBanRound vote.evidenceJson ∨ 4 ≤ node.pbft.totalNodes)
    : Enforced node (node.processVote env vote) := by
  unfold processVote
  split
  . exact (passive_of_log_eq rfl).enforced
  . extract_lets start
    have hstart : start.pbft = node.pbft ∧ start.log = node.log := by
      unfold start
      split <;> exact ⟨rfl, rfl⟩
    have hpassive := passive_receive (passive_of_log_eq hstart.2) env.left vote
    dsimp only
    rcases h with hban | htotal
    . apply Passive.enforced
      exact passive_dispatch _ hban hpassive
    . apply enforced_dispatch _ hpassive
      rw [fst_receive, pbft_receive, hstart.1]
      exact backed_receive (two_le_quorumSize htotal) _ _ vote

theorem enforced_initiateConsensus {targetId evidenceJson : Bytes}
    (h : isBanRound evidenceJson ∨ 4 ≤ node.pbft.totalNodes)
    : Enforced node (node.initiateConsensus env targetId evidenceJson) := by
  have hproposed : Passive node (node.emit (.proposed targetId evidenceJson)) :=
    passive_emit (passive_of_log_eq rfl) (by simp)
  unfold initiateConsensus
  dsimp only
  split
  . exact hproposed.enforced
  . have hstart : ∀ peerManager,
        Passive node { node.emit (.proposed targetId evidenceJson) with peerManager } :=
      fun _ => hproposed.trans (passive_of_log_eq rfl)
    rcases h with hban | htotal
    . apply Passive.enforced
      exact passive_broadcastPbftStage hban (hstart _)
    . exact enforced_broadcastPbftStage (hstart _) (two_le_quorumSize htotal)

theorem passive_proposeBan (targetId reason : Bytes)
    : Passive node (node.proposeBan env targetId reason).2 := by
  unfold proposeBan
  split
  . exact passive_of_log_eq rfl
  . have hvote : Passive node ((node.emit (.proposed targetId (banEvidence reason))).broadcastPbftStage env
        Stage.prePrepare targetId (banEvidence reason)) := by
      apply passive_broadcastPbftStage (isBanRound_banEvidence reason)
      exact passive_emit (passive_of_log_eq rfl) (by simp)
    dsimp only
    split
    . exact hvote
    . apply passive_emit
      . exact hvote.trans (passive_of_log_eq rfl)
      . intro _ _
        nofun

theorem passive_proposeRecentBans_go (bans : List Bytes)
    : Passive node (proposeRecentBans.go node env bans) := by
  induction bans generalizing node env with
  | nil => exact passive_of_log_eq rfl
  | cons banned bans ih =>
    unfold proposeRecentBans.go
    apply (node.passive_proposeBan env.left banned (bytes "local_auto_ban")).trans
    apply ih

end Act

theorem enforced_act {node : MeshNode C} {step : Step} (h : node.EnoughMembers step)
    : Enforced node (node.act step) := by
  by_cases hupkeep : step.action.isUpkeep
  . exact (keptByUpkeep_quiet.act node step hupkeep).passive.enforced
  . obtain ⟨env, dial, action⟩ := step
    unfold act
    cases action with
    | message msg senderIp =>
      dsimp only
      refine processMessage_rule node env msg senderIp (fun _ => (passive_of_log_eq rfl).enforced) ?_ ?_
      . intro peerManager tokens
        exact (keptByUpkeep_quiet.processAnnounce { node with peerManager } _ _ _).passive.enforced
      . intro peerManager vote hvote
        exact enforced_processVote { node with peerManager } env.right (h vote hvote)
    | proposeRecentBans =>
      exact (passive_proposeRecentBans_go { node with pbft := _ } env.right _).enforced
    | initiateConsensus targetId evidenceJson => exact node.enforced_initiateConsensus env h
    | proposeBan targetId reason => exact (node.passive_proposeBan env targetId reason).enforced
    | _ => exact absurd trivial hupkeep

theorem along_enforcedByTwo_of_enoughMembers (node : MeshNode C) (steps : List Step)
    (h : Run.Along act EnoughMembers node steps)
    : Run.Along act EnforcedByTwo node steps := by
  apply Run.along_mono _ h
  intro node step henough
  obtain ⟨events, hlog, hvotes⟩ := enforced_act henough
  have hnew : (node.act step).log.take ((node.act step).log.length - node.log.length) = events := by
    rw [hlog, List.length_append, Nat.add_sub_cancel]
    apply List.take_left
  intro response hmem
  unfold responses at hmem
  rw [hnew, List.mem_filterMap] at hmem
  obtain ⟨event, hevent, hresponse⟩ := hmem
  split at hresponse
  . cases hresponse
    exact hvotes _ _ hevent
  . contradiction

section Sample

def memberVote (peerId stageStr : String) (sequenceNumber : UInt64) : Step :=
  let vote : P2PMessage := {
    stageStr := bytes stageStr, senderId := bytes peerId, targetId := bytes "T", evidenceJson := bytes "\x7b\x7d"
    signature := [], prevMessageHash := [], sequenceNumber, view := 0
  }
  stepAt 0 (.message (encodeVote { vote with signature := bytes "-----BEGIN" ++ vote.blob }) (bytes "10.0.0.1"))

/--
`A` is the member that proposes, and `B` and `C` vote with it.
-/
def fourMembers : List Step := [
  stepAt 0 (.pex (bytes "PEX|X|1|B:10.0.0.1:9000")),
  stepAt 0 (.initiateConsensus (bytes "T") (bytes "\x7b\x7d")),
  memberVote "B" "PREPARE" 1, memberVote "C" "PREPARE" 1, memberVote "B" "COMMIT" 3, memberVote "C" "COMMIT" 3
]

theorem along_enforcedByTwo_fourMembers
    : let init := new .plain (bytes "A") (bytes "A") (bytes "A")
        { peerKeys := some (bytes "B:-----BEGIN,C:-----BEGIN,D:-----BEGIN") }
      ((fourMembers.take 5).foldl act init).responses (memberVote "C" "COMMIT" 3) = [(bytes "\x7b\x7d", bytes "T")]
        ∧ Run.Along act EnforcedByTwo init fourMembers := by
  intro init
  have htotal : Run.Along act (fun node _ => 4 ≤ node.pbft.totalNodes) init fourMembers := by
    decide +kernel
  refine ⟨by decide +kernel, ?_⟩
  apply along_enforcedByTwo_of_enoughMembers
  apply Run.along_mono _ htotal
  intro node step hle
  unfold EnoughMembers
  split
  . exact fun _ _ => .inr hle
  . exact .inr hle
  . trivial

end Sample

theorem not_forall_along_enforcedByTwo
    : ¬ ∀ (nodeId : Bytes) (key pbftKey : Bytes) (settings : Settings) (steps : List Step),
        let init := new .plain nodeId key pbftKey settings
        Run.Along act (fun node step => 1 ≤ node.peerManager.peerCount → node.EnforcedByTwo step)
          init steps := by
  intro h
  have hrun := h (bytes "A") (bytes "A") (bytes "A") { peerKeys := some (bytes "B:-----BEGIN") } [
    stepAt 0 (.pex (bytes "PEX|X|1|B:10.0.0.1:9000")),
    stepAt 0 (.initiateConsensus (bytes "T") (bytes "\x7b\x7d"))
  ]
  have hvotes := hrun.2.1 (by decide +kernel) (bytes "\x7b\x7d", bytes "T") (by decide +kernel)
  revert hvotes
  decide +kernel

end MeshNode
end NeuroMesh
