import NeuroMesh.Consensus.MeshNode.Lemmas.Admit

namespace NeuroMesh
namespace MeshNode

variable {C : IdentityCore}

structure Posture where
  nodeId : Bytes
  maxEvidenceSize : Nat
  lastTargetedAt : Time

def posture (node : MeshNode C) : Posture :=
  ⟨node.nodeId, node.maxEvidenceSize, node.lastTargetedAt⟩

theorem isTargetedRecently_congr {node node' : MeshNode C} (h : node.posture = node'.posture) (now : Time)
    : node.isTargetedRecently now = node'.isTargetedRecently now := by
  have htime : node.lastTargetedAt = node'.lastTargetedAt := congrArg Posture.lastTargetedAt h
  unfold isTargetedRecently
  rw [htime]

theorem keptByUpkeep_posture : KeptByUpkeep fun node node' : MeshNode C => node'.posture = node.posture where
  refl _ := rfl
  trans h₁ h₂ := h₂.trans h₁
  peerManager _ _ := rfl
  registerConfirmed node confirm peerId pem := by
    unfold registerConfirmed
    split <;> rfl
  lastAnnounceTime _ _ := rfl
  announceIdentity _ := rfl
  trustCert node confirm beacon := by
    unfold trustCert
    split <;> rfl
  prunePeer _ _ := rfl
  advanceView _ := rfl

section Consensus

variable (node : MeshNode C) (env : Env)

theorem posture_receive (msg : P2PMessage) : (node.receive env msg).2.posture = node.posture := by
  unfold receive
  split <;> rfl

theorem keptByVoting_posture : KeptByVoting fun node node' : MeshNode C => node'.posture = node.posture where
  refl _ := rfl
  trans h₁ h₂ := h₂.trans h₁
  emit _ _ _ := rfl
  banPeerLocal _ _ _ := rfl
  receive node env msg := node.posture_receive env msg
  afterSend _ _ _ _ _ := rfl

theorem posture_processVote (msg : P2PMessage)
    : (node.processVote env msg).posture
        =
      if msg.senderId ≠ node.nodeId ∧ msg.targetId = node.nodeId then
        { node.posture with lastTargetedAt := (env 0).now }
      else
        node.posture := by
  unfold processVote
  split
  . next hself => rw [if_neg (fun h => h.1 hself)]
  . next hother =>
    dsimp only
    rw [keptByVoting_posture.dispatch, posture_receive]
    split
    . next htarget =>
      rw [if_pos ⟨hother, htarget⟩]
      rfl
    . next htarget => rw [if_neg (fun h => htarget h.2)]

end Consensus

def targetedBy (node : MeshNode C) (step : Step) : Option P2PMessage :=
  match step.action with
  | .message msg senderIp =>
    if (node.peerManager.checkRateLimit (step.env 0) senderIp).1 && validateMessage msg then
      (node.incoming msg).filter fun vote => vote.senderId ≠ node.nodeId ∧ vote.targetId = node.nodeId
    else
      none
  | _ => none

theorem parseVote_of_length_lt (maxEvidenceSize : Nat) {tokens : List Bytes} (h : tokens.length < 3)
    : parseVote maxEvidenceSize tokens = none := by
  unfold parseVote
  split
  . simp only [List.length_cons] at h
    omega
  . rfl

theorem posture_readMessage (node : MeshNode C) (env : Env) (msg senderIp : Bytes)
    : (node.readMessage env msg senderIp).posture
        =
      match (node.incoming msg).filter fun vote => vote.senderId ≠ node.nodeId ∧ vote.targetId = node.nodeId with
      | none => node.posture
      | some _ => { node.posture with lastTargetedAt := (env 0).now } := by
  unfold readMessage incoming
  dsimp only
  generalize splitString msg pipe = tokens
  split
  . next hshort =>
    rw [parseVote_of_length_lt _ hshort, ite_self]
    rfl
  . split
    . next hannounce =>
      have hvote : tokens.head? ≠ some (bytes "VOTE") := by
        rw [hannounce]
        decide
      rw [if_neg hvote, keptByUpkeep_posture.processAnnounce]
      rfl
    . split
      . cases parseVote node.maxEvidenceSize tokens with
        | none => rfl
        | some vote =>
          dsimp only
          rw [posture_processVote, Option.filter_some]
          split
          . next htarget => rw [if_pos (decide_eq_true htarget)]
          . next htarget => rw [if_neg (by simpa using htarget)]
      . rfl

theorem posture_act (node : MeshNode C) (step : Step)
    : (node.act step).posture
        =
      match node.targetedBy step with
      | none => node.posture
      | some _ => { node.posture with lastTargetedAt := (step.env.right 0).now } := by
  by_cases hupkeep : step.action.isUpkeep
  . have hnone : node.targetedBy step = none := by
      unfold targetedBy
      split
      . next haction =>
        rw [haction] at hupkeep
        exact hupkeep.elim
      . rfl
    rw [hnone]
    exact keptByUpkeep_posture.act node step hupkeep
  . obtain ⟨env, dial, action⟩ := step
    unfold act targetedBy
    cases action with
    | message msg senderIp =>
      dsimp only
      rw [processMessage_eq]
      split
      . rw [posture_readMessage]
        rfl
      . rfl
    | proposeRecentBans => exact keptByVoting_posture.proposeRecentBans_go _ _ _
    | initiateConsensus targetId evidenceJson =>
      exact keptByVoting_posture.initiateConsensus node env (fun _ _ => rfl) targetId evidenceJson
    | proposeBan targetId reason => exact keptByVoting_posture.proposeBan node env targetId reason
    | _ => exact absurd trivial hupkeep

structure Compared (C : IdentityCore) where
  mixed : MeshNode C
  clean : MeshNode C

namespace Compared

def step (runs : Compared C) (input : Bool × Step) : Compared C :=
  {
    mixed := runs.mixed.act input.2
    clean := if input.1 then runs.clean else runs.clean.act input.2
  }

def InsertsForged (runs : Compared C) (input : Bool × Step) : Prop :=
  input.1 = true → ∃ msg senderIp vote, input.2.action = .message msg senderIp
    ∧ runs.mixed.incoming msg = some vote
    ∧ (vote.senderId ∉ runs.mixed.pbft.peerPublicKeys ∨ ¬runs.mixed.pbft.SignedBySender vote)

structure Genuine (runs : Compared C) (input : Bool × Step) : Prop where
  verified : ∀ vote now, runs.mixed.targetedBy input.2 = some vote →
    (runs.mixed.pbft.verifyMessage now vote).1 = true
  alike : input.1 = false → ∀ msg senderIp vote, input.2.action = .message msg senderIp →
    runs.mixed.incoming msg = some vote → vote.targetId = runs.mixed.nodeId →
      (runs.mixed.peerManager.checkRateLimit (input.2.env 0) senderIp).1
        = (runs.clean.peerManager.checkRateLimit (input.2.env 0) senderIp).1

def Agrees (runs : Compared C) : Prop :=
  ∀ now, runs.mixed.isTargetedRecently now = runs.clean.isTargetedRecently now

def ChangesByVote (runs : Compared C) (input : Bool × Step) : Prop :=
  (∃ now, (runs.mixed.act input.2).isTargetedRecently now ≠ runs.mixed.isTargetedRecently now) →
    ∃ msg senderIp vote, input.2.action = .message msg senderIp ∧ runs.mixed.incoming msg = some vote
      ∧ ∀ now, (runs.mixed.pbft.verifyMessage now vote).1 = true

variable {runs : Compared C} {input : Bool × Step}

theorem targetedBy_eq_some {node : MeshNode C} {step : Step} {vote : P2PMessage}
    (h : node.targetedBy step = some vote)
    : ∃ msg senderIp, step.action = .message msg senderIp ∧ node.incoming msg = some vote
        ∧ vote.targetId = node.nodeId := by
  unfold targetedBy at h
  split at h
  . next msg senderIp haction =>
    split at h
    . obtain ⟨hincoming, hvote⟩ := Option.filter_eq_some_iff.mp h
      rw [decide_eq_true_eq] at hvote
      exact ⟨msg, senderIp, haction, hincoming, hvote.2⟩
    . contradiction
  . contradiction

theorem changesByVote_of_genuine (h : runs.Genuine input) : runs.ChangesByVote input := by
  rintro ⟨now, hchanges⟩
  cases hvote : runs.mixed.targetedBy input.2 with
  | none =>
    have hposture := runs.mixed.posture_act input.2
    rw [hvote] at hposture
    exact absurd (isTargetedRecently_congr hposture now) hchanges
  | some vote =>
    obtain ⟨msg, senderIp, haction, hincoming, _⟩ := targetedBy_eq_some hvote
    exact ⟨msg, senderIp, vote, haction, hincoming, fun now => h.verified vote now hvote⟩

theorem targetedBy_of_forged (hforged : runs.InsertsForged input) (h : runs.Genuine input)
    (hinserted : input.1 = true)
    : runs.mixed.targetedBy input.2 = none := by
  obtain ⟨msg, senderIp, vote, haction, hincoming, hinvalid⟩ := hforged hinserted
  cases hvote : runs.mixed.targetedBy input.2 with
  | none => rfl
  | some vote' =>
    obtain ⟨msg', senderIp', haction', hincoming', _⟩ := targetedBy_eq_some hvote
    rw [haction] at haction'
    cases haction'
    rw [hincoming] at hincoming'
    cases hincoming'
    have hvalid := (PBFTConsensus.verifyMessage_eq_true_iff _ 0 _).mp (h.verified vote 0 hvote)
    exact absurd hinvalid (by simp [hvalid.known, hvalid.signed])

theorem targetedBy_eq_of_alike (hposture : runs.mixed.posture = runs.clean.posture) (h : runs.Genuine input)
    (hkept : input.1 = false)
    : runs.mixed.targetedBy input.2 = runs.clean.targetedBy input.2 := by
  have hid : runs.mixed.nodeId = runs.clean.nodeId := congrArg Posture.nodeId hposture
  have hincoming : ∀ msg, runs.mixed.incoming msg = runs.clean.incoming msg := by
    intro msg
    unfold incoming
    rw [show runs.mixed.maxEvidenceSize = runs.clean.maxEvidenceSize from
      congrArg Posture.maxEvidenceSize hposture]
  have halike := h.alike hkept
  unfold targetedBy
  split
  . next msg senderIp haction =>
    rw [← hincoming, ← hid]
    cases hvote : runs.mixed.incoming msg with
    | none =>
      rw [Option.filter_none, ite_self, ite_self]
    | some vote =>
      by_cases htarget : vote.targetId = runs.mixed.nodeId
      . rw [halike msg senderIp vote haction hvote htarget]
      . have hother : (some vote).filter
            (fun vote => decide (vote.senderId ≠ runs.mixed.nodeId ∧ vote.targetId = runs.mixed.nodeId)) = none := by
          simp [htarget]
        rw [hother, ite_self, ite_self]
  . rfl

theorem posture_step (hposture : runs.mixed.posture = runs.clean.posture)
    (hforged : runs.InsertsForged input) (h : runs.Genuine input)
    : (runs.step input).mixed.posture = (runs.step input).clean.posture := by
  obtain ⟨inserted, step⟩ := input
  change (runs.mixed.act step).posture = (if inserted then runs.clean else runs.clean.act step).posture
  cases inserted with
  | true =>
    rw [posture_act, targetedBy_of_forged hforged h rfl]
    exact hposture
  | false =>
    rw [if_neg Bool.false_ne_true, posture_act, posture_act, targetedBy_eq_of_alike hposture h rfl, hposture]

theorem agrees_of_genuine (node : MeshNode C) (inputs : List (Bool × Step))
    (hforged : Run.Along step InsertsForged ⟨node, node⟩ inputs)
    (hgenuine : Run.Along step Genuine ⟨node, node⟩ inputs)
    : Run.Always step Agrees ⟨node, node⟩ inputs ∧ Run.Along step ChangesByVote ⟨node, node⟩ inputs := by
  constructor
  . apply Run.always_of_invariant (I := fun runs => runs.mixed.posture = runs.clean.posture) _ _ rfl
      (Run.along_and hforged hgenuine)
    . intro runs input hposture hboth
      exact posture_step hposture hboth.1 hboth.2
    . intro runs hposture now
      exact isTargetedRecently_congr hposture now
  . apply Run.along_mono _ hgenuine
    intro runs input h
    exact changesByVote_of_genuine h

def voteAt (now : Time) (sender target signature : String) : Step where
  env := fun _ => { (default : Ambient) with now }
  dial := fun _ _ => none
  action := .message
    (encodeVote {
      stageStr := Stage.prePrepare
      senderId := bytes sender
      targetId := bytes target
      evidenceJson := bytes "\x7b\x7d"
      signature := bytes signature
      prevMessageHash := []
      sequenceNumber := 1
      view := 0
    })
    (bytes "10.0.0.2")

def acquainted : MeshNode .plain :=
  let node := new .plain (bytes "A") (bytes "A") (bytes "A") {}
  { node with pbft := node.pbft.registerPeerKey (bytes "B") (bytes "B") }

def forgedVote : Step := voteAt 1000000000 "X" "T" "x"

def genuineVote : Step := voteAt 2000000000 "B" "A" "BPRE_PREPARE|A|\x7b\x7d|1|0|"

theorem verifyMessage_of_verifyMessage {s : PBFTConsensus C} {vote : P2PMessage} {now : Time}
    (h : (s.verifyMessage now vote).1 = true) (now' : Time)
    : (s.verifyMessage now' vote).1 = true := by
  rw [PBFTConsensus.verifyMessage_eq_true_iff] at h ⊢
  exact h

theorem agrees_acquainted
    : let inputs := [(true, forgedVote), (false, genuineVote)]
      Run.Along step InsertsForged ⟨acquainted, acquainted⟩ inputs
        ∧ Run.Always step Agrees ⟨acquainted, acquainted⟩ inputs := by
  intro inputs
  have hforged : Run.Along step InsertsForged ⟨acquainted, acquainted⟩ inputs := by
    refine ⟨?_, nofun, trivial⟩
    intro _
    refine ⟨_, _, _, rfl, (show acquainted.incoming _ = some _ from rfl), .inl ?_⟩
    decide +kernel
  have hgenuine : Run.Along step Genuine ⟨acquainted, acquainted⟩ inputs := by
    refine ⟨⟨?_, nofun⟩, ⟨?_, ?_⟩, trivial⟩
    . have hnone : acquainted.targetedBy forgedVote = none := by decide +kernel
      intro vote now hvote
      rw [hnone] at hvote
      contradiction
    . have hsome : ((acquainted.act forgedVote).targetedBy genuineVote).all
          (fun vote => ((acquainted.act forgedVote).pbft.verifyMessage 0 vote).1) = true := by
        decide +kernel
      intro vote now hvote
      change (acquainted.act forgedVote).targetedBy genuineVote = some vote at hvote
      rw [hvote] at hsome
      exact verifyMessage_of_verifyMessage hsome now
    . rintro _ msg senderIp vote ⟨⟩ _ _
      decide +kernel
  exact ⟨hforged, (agrees_of_genuine _ _ hforged hgenuine).1⟩

/--
Anybody can make the node believe that it is under attack.
-/
theorem not_agrees_of_forged
    : ¬ ∀ (node : MeshNode .plain) (inputs : List (Bool × Step)),
        Run.Along step InsertsForged ⟨node, node⟩ inputs →
          Run.Always step Agrees ⟨node, node⟩ inputs := by
  intro hall
  have hagrees := hall acquainted [(true, voteAt 1000000000 "X" "A" "x")] ?_
  . have hnow := hagrees.2 1000000000
    revert hnow
    decide +kernel
  . refine ⟨?_, trivial⟩
    intro _
    refine ⟨_, _, _, rfl, (show acquainted.incoming _ = some _ from rfl), .inl ?_⟩
    decide +kernel

end Compared
end MeshNode
end NeuroMesh
