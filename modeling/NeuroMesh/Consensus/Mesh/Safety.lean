import NeuroMesh.Consensus.Mesh.Basic

namespace NeuroMesh
namespace Mesh

open PBFTConsensus (keyOf)

variable {C : IdentityCore} {members : Members C} {Allowed : Mesh C → P2PMessage → Prop}
  {Own : P2PMessage → Prop} {mesh : Mesh C}

def Hands (Allowed : Mesh C → P2PMessage → Prop) (mesh : Mesh C) (step : Step) : Prop :=
  ∀ vote ∈ (mesh step.nodeId).handed step.step, Allowed mesh vote

def Suggests (Own : P2PMessage → Prop) (mesh : Mesh C) (step : Step) : Prop :=
  ∀ msg : P2PMessage, (msg.targetId, msg.evidenceJson) ∈ (mesh step.nodeId).proposals step.step →
    msg.view = (mesh step.nodeId).pbft.currentView → Own msg

def IsProposal (vote : P2PMessage) : Prop :=
  vote.stageStr = Stage.prePrepare ∨ vote.stageStr = Stage.banPeer

instance (vote : P2PMessage) : Decidable (IsProposal vote) :=
  inferInstanceAs (Decidable (_ ∨ _))

theorem always_of_sound (Allowed : Mesh C → P2PMessage → Prop) (Own : P2PMessage → Prop)
    {J : Mesh C → Prop} (hJ : ∀ mesh, Sound members Allowed Own mesh → J mesh) (hhex : C.HexDigest)
    (hmono : ∀ mesh step vote, Allowed mesh vote → Allowed (mesh.act step) vote)
    (hstarts : mesh.Starts members) {steps : List Step}
    (hpermitted : Run.Along act (Permitted members) mesh steps)
    (hfixed : Run.Always act (Fixed members) mesh steps)
    (hhands : Run.Along act (Hands Allowed) mesh steps)
    (hsuggests : Run.Along act (Suggests Own) mesh steps)
    : Run.Always act J mesh steps := by
  have hsteps := Run.along_and (Run.along_and hpermitted (Run.along_of_always hfixed))
    (Run.along_and hhands hsuggests)
  apply Run.always_of_invariant _ hJ (sound_starts hhex hstarts) hsteps
  rintro mesh step h ⟨⟨hpermitted, hfixed, hfixed'⟩, hhands, hsuggests⟩
  exact sound_act hhex h (hmono mesh step) hfixed hfixed' hpermitted hhands hsuggests

section Sound

variable (h : mesh.Sound members Allowed Own) {nodeId : Bytes} (hnode : nodeId ∈ members.honest)
include h hnode

theorem pipe_notMem_of_broadcast {msg : P2PMessage} {pbft : PBFTConsensus C}
    (hmem : .broadcast msg pbft ∈ (mesh nodeId).log)
    : pipe ∉ msg.stageStr ∧ pipe ∉ msg.targetId ∧ pipe ∉ msg.prevMessageHash := by
  obtain ⟨hissued, hjustified⟩ := (h.ledger nodeId hnode).broadcasts msg pbft hmem
  refine ⟨?_, hissued.target, hissued.prev⟩
  rcases hjustified with ⟨hstage, _⟩ | hstage | ⟨hstage, _⟩
  all_goals
    rw [hstage]
    decide

theorem pipe_notMem_of_advanced {msg : P2PMessage} {next : PBFTStage}
    (hmem : .advanced msg next ∈ (mesh nodeId).log)
    : pipe ∉ msg.stageStr ∧ pipe ∉ msg.targetId ∧ pipe ∉ msg.prevMessageHash := by
  rcases (h.ledger nodeId hnode).origins msg next hmem with hauth | ⟨pbft, hsent⟩
  . exact ⟨hauth.framed.stage, hauth.framed.target, hauth.framed.prev⟩
  . exact pipe_notMem_of_broadcast h hnode hsent

theorem member_of_advanced {msg : P2PMessage} {next : PBFTStage}
    (hmem : .advanced msg next ∈ (mesh nodeId).log)
    : msg.senderId ∈ members.all := by
  rcases (h.ledger nodeId hnode).origins msg next hmem with hauth | ⟨pbft, hsent⟩
  . exact hauth.member
  . rw [((h.ledger nodeId hnode).broadcasts msg pbft hsent).1.sender, h.nodeId_eq nodeId hnode]
    exact Finset.mem_union_left _ hnode

theorem broadcast_of_advanced {msg : P2PMessage} {next : PBFTStage}
    (hmem : .advanced msg next ∈ (mesh nodeId).log) (hsender : msg.senderId ∈ members.honest)
    : ∃ sent pbft, .broadcast sent pbft ∈ (mesh msg.senderId).log
        ∧ sent.stageStr = msg.stageStr
        ∧ sent.targetId = msg.targetId
        ∧ sent.evidenceJson = msg.evidenceJson := by
  have hmsg := pipe_notMem_of_advanced h hnode hmem
  rcases (h.ledger nodeId hnode).origins msg next hmem with hauth | ⟨pbft, hsent⟩
  . obtain ⟨sent, pbft, hsent, hblob⟩ := mem_sentBlobs.mp (hauth.sent hsender)
    have hpipe := pipe_notMem_of_broadcast h hsender hsent
    obtain ⟨hstage, htarget, hevidence, _⟩ := PBFTConsensus.blob_inj hpipe.1 hmsg.1 hpipe.2.1 hmsg.2.1
      hpipe.2.2 hmsg.2.2 hblob
    exact ⟨sent, pbft, hsent, hstage, htarget, hevidence⟩
  . have hself := ((h.ledger nodeId hnode).broadcasts msg pbft hsent).1.sender
    rw [h.nodeId_eq nodeId hnode] at hself
    rw [hself]
    exact ⟨msg, pbft, hsent, rfl, rfl, rfl⟩

variable (hfree : C.CollisionFree) (hhex : C.HexDigest)
include hfree hhex

theorem round_inj {msg : P2PMessage} {next : PBFTStage} (hmem : .advanced msg next ∈ (mesh nodeId).log)
    {msg' : P2PMessage} {next' : PBFTStage} (hmem' : .advanced msg' next' ∈ (mesh nodeId).log)
    (hkey : keyOf C msg = keyOf C msg')
    : msg.evidenceJson = msg'.evidenceJson ∧ msg.targetId = msg'.targetId := by
  apply PBFTConsensus.roundKey_inj hfree hhex
  . exact (pipe_notMem_of_advanced h hnode hmem).2.1
  . exact (pipe_notMem_of_advanced h hnode hmem').2.1
  . exact hkey

end Sound

def Committed (node : MeshNode C) (evidenceJson targetId : Bytes) : Prop :=
  ∃ msg pbft, .broadcast msg pbft ∈ node.log
    ∧ msg.stageStr = Stage.commit
    ∧ msg.evidenceJson = evidenceJson
    ∧ msg.targetId = targetId
    ∧ msg.signature = pbft.signMessage msg
    ∧ pbft.quorumSize ≤ (pbft.voters (keyOf C msg) Stage.prepare).card

theorem committed_of_voted (hfree : C.CollisionFree) (hhex : C.HexDigest)
    (h : mesh.Sound members Allowed Own) {nodeId : Bytes} (hnode : nodeId ∈ members.honest)
    {msg : P2PMessage} (hmem : .advanced msg .executed ∈ (mesh nodeId).log) {voter : Bytes}
    (hvoter : voter ∈ members.honest)
    (hvoted : Voted (mesh nodeId).log (keyOf C msg) Stage.commit voter)
    : Committed (mesh voter) msg.evidenceJson msg.targetId := by
  obtain ⟨vote, next, hvote, rfl, hstage, hkey⟩ := hvoted
  obtain ⟨hevidence, htarget⟩ := round_inj h hnode hfree hhex hvote hmem hkey
  obtain ⟨sent, pbft, hsent, hstage', htarget', hevidence'⟩ :=
    broadcast_of_advanced h hnode hvote hvoter
  obtain ⟨hissued, hjustified⟩ := (h.ledger _ hvoter).broadcasts sent pbft hsent
  rw [hstage] at hstage'
  refine ⟨sent, pbft, hsent, hstage', ?_, ?_, hissued.signed, ?_⟩
  . rw [hevidence', hevidence]
  . rw [htarget', htarget]
  . rcases hjustified with ⟨hpre, _⟩ | hprepare | ⟨_, hquorum⟩
    . exact absurd (hstage'.symm.trans hpre) (by decide)
    . exact absurd (hstage'.symm.trans hprepare) (by decide)
    . exact hquorum

def Backed (members : Members C) (mesh : Mesh C) : Prop :=
  ∀ nodeId ∈ members.honest, ∀ msg, .advanced msg .executed ∈ (mesh nodeId).log →
    ∃ backers ⊆ members.honest, members.f + 1 ≤ backers.card
      ∧ ∀ backer ∈ backers, Committed (mesh backer) msg.evidenceJson msg.targetId

theorem backed_of_sound (hfree : C.CollisionFree) (hhex : C.HexDigest)
    (h : mesh.Sound members Allowed Own)
    : mesh.Backed members := by
  intro nodeId hnode msg hmem
  obtain ⟨_, voters, hcard, hvoted⟩ := (h.ledger nodeId hnode).executed msg hmem
  have hmember : ∀ voter ∈ voters, voter ∈ members.all := by
    intro voter hvoter
    obtain ⟨vote, next, hvote, rfl, _⟩ := hvoted voter hvoter
    exact member_of_advanced h hnode hvote
  have hhonest : ∀ voter ∈ voters \ members.byzantine, voter ∈ members.honest := by
    intro voter hvoter
    obtain ⟨hvoter, hnot⟩ := Finset.mem_sdiff.mp hvoter
    exact (Members.mem_honest_or_byzantine (hmember voter hvoter)).resolve_right hnot
  refine ⟨voters \ members.byzantine, hhonest, ?_, ?_⟩
  . have hfaults : members.byzantine.card ≤ members.f := members.card_byzantine_le
    have := Quorum.card_le_card_sdiff_add (A := voters) (F := members.byzantine)
    omega
  . intro voter hvoter
    have hin := (Finset.mem_sdiff.mp hvoter).1
    exact committed_of_voted hfree hhex h hnode hmem (hhonest voter hvoter) (hvoted voter hin)

theorem always_backed (hfree : C.CollisionFree) (hhex : C.HexDigest) (members : Members C)
    (mesh : Mesh C) (hstarts : mesh.Starts members) (steps : List Step)
    (hpermitted : Run.Along act (Permitted members) mesh steps)
    (hfixed : Run.Always act (Fixed members) mesh steps)
    : Run.Always act (Backed members) mesh steps := by
  apply always_of_sound (fun _ _ => True) (fun _ => True) _ hhex _ hstarts hpermitted
    hfixed
  . apply Run.along_of_forall
    intro _ _ _ _
    trivial
  . apply Run.along_of_forall
    intro _ _ _ _ _
    trivial
  . intro mesh h
    exact backed_of_sound hfree hhex h
  . intro _ _ _ h
    exact h

section Sample

/-
A mesh of `A`, `B`, `C` and `D`, where `D` is Byzantine. All votes are about the target `T`.
-/

def sampleMesh : Mesh .plain := fun nodeId =>
  let peerIds := [bytes "A", bytes "B", bytes "C", bytes "D"].filter (· ≠ nodeId)
  MeshNode.new .plain nodeId nodeId nodeId {
    pbftRateMax := some (bytes "100")
    peerKeys := some ([0x2c].intercalate (peerIds.map fun peerId => peerId ++ 0x3a :: peerId))
  }

def sampleMembers : Members .plain where
  honest := {bytes "A", bytes "B", bytes "C"}
  byzantine := {bytes "D"}
  disjoint := by decide
  pubKey := id
  card_byzantine_le := by decide

theorem starts_sampleMesh : sampleMesh.Starts sampleMembers := by
  intro nodeId _
  exact ⟨nodeId, nodeId, _, rfl⟩

def sampleVote (senderId stageStr evidenceJson : Bytes) (sequenceNumber : UInt64)
    (prevMessageHash : Bytes) : P2PMessage :=
  let msg : P2PMessage := {
    stageStr, senderId, evidenceJson, prevMessageHash, sequenceNumber
    targetId := bytes "T"
    signature := []
    view := 0
  }
  { msg with signature := IdentityCore.plain.signPayload senderId msg.blob }

def transcript (senderId : Bytes) (votes : List (Bytes × Bytes)) : List P2PMessage :=
  go votes 1 (IdentityCore.plain.sha256Hex (bytes "GENESIS"))
where
  go (votes : List (Bytes × Bytes)) (sequenceNumber : UInt64) (prevMessageHash : Bytes) :
      List P2PMessage :=
    match votes with
    | [] => []
    | (stageStr, evidenceJson) :: votes =>
      let msg := sampleVote senderId stageStr evidenceJson sequenceNumber prevMessageHash
      msg :: go votes (sequenceNumber + 1) (PBFTConsensus.computeMessageHash .plain msg)

def sampleStep (nodeId : Bytes) (action : MeshNode.Action) : Step :=
  {
    nodeId
    step := { env := fun _ => default, dial := fun _ _ => none, action }
  }

def deliver (nodeId : Bytes) (vote : P2PMessage) : Step :=
  sampleStep nodeId (.message (MeshNode.encodeVote vote) [])

def evidence₁ : Bytes := bytes "\x7b\x7d"

def evidence₂ : Bytes := bytes "\x7b1\x7d"

def oneProposal : List Step :=
  let a := transcript (bytes "A") [(Stage.prePrepare, evidence₁), (Stage.prepare, evidence₁)]
  let b := transcript (bytes "B") [(Stage.prepare, evidence₁), (Stage.commit, evidence₁)]
  let prepare := sampleVote (bytes "D") Stage.prepare evidence₁ 1 []
  let commit := sampleVote (bytes "D") Stage.commit evidence₁ 3 []
  sampleStep (bytes "A") (.initiateConsensus (bytes "T") evidence₁)
    :: (a ++ [prepare]).map (deliver (bytes "B"))
    ++ ([prepare] ++ b ++ [commit]).map (deliver (bytes "A"))

theorem oneProposal_permitted
    : Run.Along act (Permitted sampleMembers) sampleMesh oneProposal
        ∧
      Run.Always act (Fixed sampleMembers) sampleMesh oneProposal
        ∧
      Run.Along act
        (fun mesh step => ∀ vote ∈ (mesh step.nodeId).handed step.step, IsProposal vote →
          vote.senderId ∈ sampleMembers.honest ∧ vote.evidenceJson = evidence₁)
        sampleMesh oneProposal
        ∧
      Run.Along act
        (fun mesh step => ∀ proposal ∈ (mesh step.nodeId).proposals step.step,
          proposal.2 = evidence₁)
        sampleMesh oneProposal
        ∧
      (executions (oneProposal.foldl act sampleMesh (bytes "A"))).length = 1 := by
  decide +kernel

end Sample

theorem always_backed_oneProposal
    : Run.Always act (Backed sampleMembers) sampleMesh oneProposal := by
  exact always_backed IdentityCore.plain_collisionFree IdentityCore.plain_hexDigest sampleMembers
    sampleMesh starts_sampleMesh oneProposal oneProposal_permitted.1 oneProposal_permitted.2.1

def Proposed (members : Members C) (mesh : Mesh C) (evidenceJson targetId : Bytes) : Prop :=
  ∃ nodeId ∈ members.honest, .proposed targetId evidenceJson ∈ (mesh nodeId).log

def Valid (members : Members C) (mesh : Mesh C) : Prop :=
  ∀ nodeId ∈ members.honest, ∀ msg, .advanced msg .executed ∈ (mesh nodeId).log →
    Proposed members mesh msg.evidenceJson msg.targetId

def Repeats (members : Members C) (mesh : Mesh C) (vote : P2PMessage) : Prop :=
  IsProposal vote → vote.senderId ∈ members.byzantine →
    Proposed members mesh vote.evidenceJson vote.targetId

theorem proposed_act {evidenceJson targetId : Bytes} (step : Step)
    (h : Proposed members mesh evidenceJson targetId)
    : Proposed members (mesh.act step) evidenceJson targetId := by
  obtain ⟨nodeId, hnode, hmem⟩ := h
  exact ⟨nodeId, hnode, (mesh.extends_act step nodeId).log_subset hmem⟩

theorem opening_of_executed (hfree : C.CollisionFree) (hhex : C.HexDigest)
    (h : mesh.Sound members Allowed Own) {nodeId : Bytes} (hnode : nodeId ∈ members.honest)
    {msg : P2PMessage} (hmem : .advanced msg .executed ∈ (mesh nodeId).log)
    : ∃ opening, .advanced opening .prepare ∈ (mesh nodeId).log
        ∧ IsProposal opening
        ∧ opening.evidenceJson = msg.evidenceJson
        ∧ opening.targetId = msg.targetId
        ∧ opening.view = msg.view := by
  obtain ⟨⟨opening, hopening, hkey, hview⟩, _⟩ := (h.ledger nodeId hnode).executed msg hmem
  obtain ⟨hevidence, htarget⟩ := round_inj h hnode hfree hhex hopening hmem hkey
  have hstage := (h.ledger nodeId hnode).prepared opening hopening
  exact ⟨opening, hopening, hstage, hevidence, htarget, hview⟩

theorem justified_of_isProposal (h : mesh.Sound members Allowed Own) {nodeId : Bytes}
    (hnode : nodeId ∈ members.honest) {msg : P2PMessage} {pbft : PBFTConsensus C}
    (hmem : .broadcast msg pbft ∈ (mesh nodeId).log) (hproposal : IsProposal msg)
    : .proposed msg.targetId msg.evidenceJson ∈ (mesh nodeId).log ∧ Own msg := by
  rcases ((h.ledger nodeId hnode).broadcasts msg pbft hmem).2 with
    ⟨_, hproposed⟩ | hprepare | ⟨hcommit, _⟩
  . exact hproposed
  . unfold IsProposal at hproposal
    rw [hprepare] at hproposal
    exact absurd hproposal (by decide)
  . unfold IsProposal at hproposal
    rw [hcommit] at hproposal
    exact absurd hproposal (by decide)

theorem valid_of_sound (hfree : C.CollisionFree) (hhex : C.HexDigest)
    (h : mesh.Sound members (Repeats members) Own)
    : mesh.Valid members := by
  intro nodeId hnode msg hmem
  obtain ⟨opening, hopening, hproposal, hevidence, htarget, _⟩ :=
    opening_of_executed hfree hhex h hnode hmem
  rw [← hevidence, ← htarget]
  have hmember := member_of_advanced h hnode hopening
  rcases Members.mem_honest_or_byzantine hmember with hhonest | hbyzantine
  . obtain ⟨sent, pbft, hsent, hstage, htarget', hevidence'⟩ :=
      broadcast_of_advanced h hnode hopening hhonest
    have hsentProposal : IsProposal sent := by
      unfold IsProposal
      rw [hstage]
      exact hproposal
    have hproposed := (justified_of_isProposal h hhonest hsent hsentProposal).1
    rw [htarget', hevidence'] at hproposed
    exact ⟨opening.senderId, hhonest, hproposed⟩
  . rcases (h.ledger nodeId hnode).origins opening _ hopening with hauth | ⟨pbft, hsent⟩
    . exact hauth.allowed hproposal hbyzantine
    . exact ⟨nodeId, hnode, (justified_of_isProposal h hnode hsent hproposal).1⟩

theorem always_valid_of_repeats (hfree : C.CollisionFree) (hhex : C.HexDigest) (members : Members C)
    (mesh : Mesh C) (hstarts : mesh.Starts members) (steps : List Step)
    (hpermitted : Run.Along act (Permitted members) mesh steps)
    (hfixed : Run.Always act (Fixed members) mesh steps)
    (hrepeats : Run.Along act (Hands (Repeats members)) mesh steps)
    : Run.Always act (Valid members) mesh steps := by
  apply always_of_sound (Repeats members) (fun _ => True) _ hhex _ hstarts hpermitted hfixed hrepeats
  . apply Run.along_of_forall
    intro _ _ _ _ _
    trivial
  . intro mesh h
    exact valid_of_sound hfree hhex h
  . intro mesh step vote h hproposal hbyzantine
    exact proposed_act step (h hproposal hbyzantine)

theorem always_valid_oneProposal
    : Run.Always act (Valid sampleMembers) sampleMesh oneProposal := by
  apply always_valid_of_repeats IdentityCore.plain_collisionFree IdentityCore.plain_hexDigest
    sampleMembers sampleMesh starts_sampleMesh oneProposal oneProposal_permitted.1
    oneProposal_permitted.2.1
  apply Run.along_mono _ oneProposal_permitted.2.2.1
  intro mesh step hstep vote hvote hproposal hbyzantine
  have hhonest := (hstep vote hvote hproposal).1
  exact absurd hbyzantine (Finset.disjoint_left.mp sampleMembers.disjoint hhonest)

def byzantineProposal : List Step :=
  let a := transcript (bytes "A") [(Stage.prepare, evidence₁)]
  let b := transcript (bytes "B") [(Stage.prepare, evidence₁), (Stage.commit, evidence₁)]
  let propose := sampleVote (bytes "D") Stage.prePrepare evidence₁ 1 []
  let prepare := sampleVote (bytes "D") Stage.prepare evidence₁ 3 []
  let commit := sampleVote (bytes "D") Stage.commit evidence₁ 5 []
  [propose, prepare].map (deliver (bytes "A"))
    ++ ([propose, prepare] ++ a).map (deliver (bytes "B"))
    ++ (b ++ [commit]).map (deliver (bytes "A"))

theorem byzantineProposal_permitted
    : Run.Along act (Permitted sampleMembers) sampleMesh byzantineProposal
        ∧
      Run.Always act (Fixed sampleMembers) sampleMesh byzantineProposal
        ∧
      executions (byzantineProposal.foldl act sampleMesh (bytes "A"))
        = [sampleVote (bytes "D") Stage.commit evidence₁ 5 []]
        ∧
      ∀ nodeId ∈ sampleMembers.honest,
        (byzantineProposal.foldl act sampleMesh nodeId).log.all fun
          | .proposed _ _ => false
          | _ => true := by
  decide +kernel

theorem not_forall_valid
    : ¬ ∀ (members : Members .plain) (mesh : Mesh .plain) (steps : List Step),
        mesh.Starts members →
        Run.Along act (Permitted members) mesh steps →
        Run.Always act (Fixed members) mesh steps →
        Run.Always act (Valid members) mesh steps := by
  intro h
  obtain ⟨hpermitted, hfixed, hexecuted, hnone⟩ := byzantineProposal_permitted
  have hvalid := Run.foldl_of_always
    (h sampleMembers sampleMesh byzantineProposal starts_sampleMesh hpermitted hfixed)
  have hmem := mem_executions.mp (hexecuted ▸ List.mem_singleton_self _)
  obtain ⟨nodeId, hnode, hproposed⟩ := hvalid (bytes "A") (by decide) _ hmem
  have := List.all_eq_true.mp (hnone nodeId hnode) _ hproposed
  contradiction

def Agrees (members : Members C) (mesh : Mesh C) : Prop :=
  ∀ nodeId₁ ∈ members.honest, ∀ nodeId₂ ∈ members.honest, ∀ msg₁ msg₂,
    .advanced msg₁ .executed ∈ (mesh nodeId₁).log →
    .advanced msg₂ .executed ∈ (mesh nodeId₂).log →
    msg₁.view = msg₂.view → msg₁.targetId = msg₂.targetId → msg₁.evidenceJson = msg₂.evidenceJson

def Follows (decision : Int → Bytes → Bytes) (_mesh : Mesh C) (vote : P2PMessage) : Prop :=
  IsProposal vote → vote.evidenceJson = decision vote.view vote.targetId

def Keeps (decision : Int → Bytes → Bytes) (mesh : Mesh C) (step : Step) : Prop :=
  ∀ proposal ∈ (mesh step.nodeId).proposals step.step,
    proposal.2 = decision (mesh step.nodeId).pbft.currentView proposal.1

theorem evidence_of_executed (hfree : C.CollisionFree) (hhex : C.HexDigest)
    {decision : Int → Bytes → Bytes}
    (h : mesh.Sound members (Follows decision)
      fun msg => msg.evidenceJson = decision msg.view msg.targetId)
    {nodeId : Bytes} (hnode : nodeId ∈ members.honest) {msg : P2PMessage}
    (hmem : .advanced msg .executed ∈ (mesh nodeId).log)
    : msg.evidenceJson = decision msg.view msg.targetId := by
  obtain ⟨opening, hopening, hproposal, hevidence, htarget, hview⟩ :=
    opening_of_executed hfree hhex h hnode hmem
  rw [← hevidence, ← htarget, ← hview]
  rcases (h.ledger nodeId hnode).origins opening _ hopening with hauth | ⟨pbft, hsent⟩
  . exact hauth.allowed hproposal
  . exact (justified_of_isProposal h hnode hsent hproposal).2

theorem always_agrees_of_follows (hfree : C.CollisionFree) (hhex : C.HexDigest)
    (members : Members C) (mesh : Mesh C) (hstarts : mesh.Starts members) (steps : List Step)
    (hpermitted : Run.Along act (Permitted members) mesh steps)
    (hfixed : Run.Always act (Fixed members) mesh steps) (decision : Int → Bytes → Bytes)
    (hfollows : Run.Along act (Hands (Follows decision)) mesh steps)
    (hkeeps : Run.Along act (Keeps decision) mesh steps)
    : Run.Always act (Agrees members) mesh steps := by
  apply always_of_sound (Follows decision)
    (fun msg => msg.evidenceJson = decision msg.view msg.targetId) _ hhex _ hstarts hpermitted hfixed hfollows
  . apply Run.along_mono _ hkeeps
    intro mesh step hstep msg hmem hview
    rw [hview]
    exact hstep _ hmem
  . intro mesh h nodeId₁ hnode₁ nodeId₂ hnode₂ msg₁ msg₂ hmem₁ hmem₂ hview htarget
    have hevidence₁ := evidence_of_executed hfree hhex h hnode₁ hmem₁
    have hevidence₂ := evidence_of_executed hfree hhex h hnode₂ hmem₂
    rw [hevidence₁, hevidence₂, hview, htarget]
  . intro _ _ _ h
    exact h

theorem always_agrees_oneProposal
    : Run.Always act (Agrees sampleMembers) sampleMesh oneProposal := by
  apply always_agrees_of_follows IdentityCore.plain_collisionFree IdentityCore.plain_hexDigest
    sampleMembers sampleMesh starts_sampleMesh oneProposal oneProposal_permitted.1
    oneProposal_permitted.2.1 fun _ _ => evidence₁
  . apply Run.along_mono _ oneProposal_permitted.2.2.1
    intro mesh step hstep vote hvote hproposal
    exact (hstep vote hvote hproposal).2
  . exact oneProposal_permitted.2.2.2.1

def twoProposals : List Step :=
  let c := transcript (bytes "C") [(Stage.prePrepare, evidence₂), (Stage.prepare, evidence₂)]
  let b := transcript (bytes "B") [
    (Stage.prepare, evidence₁), (Stage.commit, evidence₁), (Stage.prepare, evidence₂),
    (Stage.commit, evidence₂)
  ]
  let prepare := sampleVote (bytes "D") Stage.prepare evidence₂ 5 []
  let commit := sampleVote (bytes "D") Stage.commit evidence₂ 7 []
  oneProposal
    ++ sampleStep (bytes "C") (.initiateConsensus (bytes "T") evidence₂)
    :: (c ++ [prepare]).map (deliver (bytes "B"))
    ++ ([prepare] ++ b.drop 2 ++ [commit]).map (deliver (bytes "C"))

theorem twoProposals_permitted
    : Run.Along act (Permitted sampleMembers) sampleMesh twoProposals
        ∧
      Run.Always act (Fixed sampleMembers) sampleMesh twoProposals
        ∧
      executions (twoProposals.foldl act sampleMesh (bytes "A"))
        = [sampleVote (bytes "D") Stage.commit evidence₁ 3 []]
        ∧
      executions (twoProposals.foldl act sampleMesh (bytes "C"))
        = [sampleVote (bytes "D") Stage.commit evidence₂ 7 []] := by
  decide +kernel

theorem not_forall_agrees
    : ¬ ∀ (members : Members .plain) (mesh : Mesh .plain) (steps : List Step),
        mesh.Starts members →
        Run.Along act (Permitted members) mesh steps →
        Run.Always act (Fixed members) mesh steps →
        Run.Always act (Agrees members) mesh steps := by
  intro h
  obtain ⟨hpermitted, hfixed, hexecuted₁, hexecuted₂⟩ := twoProposals_permitted
  have hagrees := Run.foldl_of_always
    (h sampleMembers sampleMesh twoProposals starts_sampleMesh hpermitted hfixed)
  have hmem₁ := mem_executions.mp (hexecuted₁ ▸ List.mem_singleton_self _)
  have hmem₂ := mem_executions.mp (hexecuted₂ ▸ List.mem_singleton_self _)
  have hevidence := hagrees (bytes "A") (by decide) (bytes "C") (by decide) _ _ hmem₁ hmem₂ rfl rfl
  revert hevidence
  decide

end Mesh
end NeuroMesh
