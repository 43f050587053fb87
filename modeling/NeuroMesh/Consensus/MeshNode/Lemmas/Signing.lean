import NeuroMesh.Consensus.MeshNode.Impl.Outgoing
import NeuroMesh.Consensus.MeshNode.Lemmas.Quiet
import NeuroMesh.Consensus.MeshNode.Lemmas.Voting
import NeuroMesh.Consensus.PBFT.Lemmas.Message
import NeuroMesh.Data.Run

namespace NeuroMesh

namespace P2PMessage

def hashInput (msg : P2PMessage) : Bytes :=
  joinPipe [
    msg.stageStr, msg.senderId, msg.targetId, msg.evidenceJson, msg.prevMessageHash,
    toDecimal msg.sequenceNumber.toNat, toDecimalInt msg.view
  ]

def roundInput (msg : P2PMessage) : Bytes :=
  joinPipe [msg.evidenceJson, msg.targetId]

end P2PMessage

variable {C : IdentityCore}

namespace MeshNode

structure WellSigned (node : MeshNode C) : Prop where
  genesis : pipe ∉ node.pbft.genesisHash
  history : ∀ (seq : UInt64) (hash : Bytes),
    (node.pbft.historyOf node.nodeId)[seq]? = some hash → pipe ∉ hash
  votes : ∀ msg pbft, .broadcast msg pbft ∈ node.log →
    msg.stageStr ∈ [Stage.prePrepare, Stage.prepare, Stage.commit] ∧ pipe ∉ msg.prevMessageHash

section WellSigned

variable {node node' : MeshNode C}

theorem wellSigned_of_continues (h : WellSigned node) (hid : node'.nodeId = node.nodeId)
    (hcontinues : PBFTConsensus.Continues node.nodeId node.pbft node'.pbft)
    (hlog : ∀ msg pbft, .broadcast msg pbft ∈ node'.log → .broadcast msg pbft ∈ node.log)
    : WellSigned node' := by
  constructor
  . rw [hcontinues.genesisHash_eq]
    exact h.genesis
  . intro seq hash hhash
    rw [hid] at hhash
    exact h.history seq hash (hcontinues.history seq hash hhash)
  . intro msg pbft hmem
    exact h.votes msg pbft (hlog msg pbft hmem)

theorem wellSigned_of_quiet (h : WellSigned node) (hquiet : Quiet node node') : WellSigned node' := by
  apply wellSigned_of_continues h hquiet.nodeId_eq hquiet.continues
  intro msg pbft hmem
  rcases hquiet.announced _ hmem with hold | ⟨payload, heq⟩
  . exact hold
  . contradiction

theorem wellSigned_emit (h : WellSigned node) {event : Event C}
    (hevent : ∀ msg pbft, event ≠ .broadcast msg pbft)
    : WellSigned (node.emit event) := by
  constructor
  . exact h.genesis
  . exact h.history
  . intro msg pbft hmem
    rcases List.mem_cons.mp hmem with heq | hold
    . exact absurd heq.symm (hevent msg pbft)
    . exact h.votes msg pbft hold

theorem broadcast_mem_of_receive {env : Env} {vote msg : P2PMessage} {pbft : PBFTConsensus C}
    (h : .broadcast msg pbft ∈ (node.receive env vote).2.log)
    : .broadcast msg pbft ∈ node.log := by
  rw [log_receive] at h
  split at h
  . exact h
  . simpa using h

theorem wellSigned_receive (hhex : C.HexDigest) (h : WellSigned node) (env : Env) (vote : P2PMessage)
    : WellSigned (node.receive env vote).2 := by
  constructor
  . rw [pbft_receive, PBFTConsensus.genesisHash_receive]
    exact h.genesis
  . intro seq hash hhash
    rw [pbft_receive, nodeId_receive] at hhash
    rcases node.pbft.history_receive node.nodeId hhash with hold | ⟨_, _, rfl⟩
    . exact h.history seq hash hold
    . exact PBFTConsensus.pipe_notMem_sha256Hex hhex _
  . intro msg pbft hmem
    exact h.votes msg pbft (broadcast_mem_of_receive hmem)

theorem wellSigned_afterSend (h : WellSigned node) {stageStr : Bytes}
    (hstage : stageStr ∈ [Stage.prePrepare, Stage.prepare, Stage.commit]) (targetId evidenceJson : Bytes)
    : WellSigned (node.afterSend stageStr targetId evidenceJson) := by
  have hprev : pipe ∉ (node.ownMessage stageStr targetId evidenceJson).prevMessageHash :=
    PBFTConsensus.pipe_notMem_getLastSentHash h.genesis h.history
  constructor
  . unfold afterSend
    dsimp only
    split <;> exact h.genesis
  . intro seq hash hhash
    rw [historyOf_afterSend] at hhash
    exact h.history seq hash hhash
  . intro msg pbft hmem
    rcases List.mem_cons.mp hmem with heq | hold
    . obtain ⟨rfl, rfl⟩ := Event.broadcast.inj heq
      exact ⟨hstage, hprev⟩
    . exact h.votes msg pbft hold

theorem keptByVoting_wellSigned (hhex : C.HexDigest)
    : KeptByVoting fun node node' : MeshNode C => WellSigned node → WellSigned node' where
  refl _ h := h
  trans h₁ h₂ h := h₂ (h₁ h)
  emit _ _ hevent h := wellSigned_emit h hevent
  banPeerLocal _ _ _ h := ⟨h.genesis, h.history, h.votes⟩
  receive _ env msg h := wellSigned_receive hhex h env msg
  afterSend _ _ hstage targetId evidenceJson h := wellSigned_afterSend h hstage targetId evidenceJson

theorem wellSigned_act (hhex : C.HexDigest) (h : WellSigned node) (step : Step)
    : WellSigned (node.act step) := by
  by_cases hupkeep : step.action.isUpkeep
  . exact wellSigned_of_quiet h (keptByUpkeep_quiet.act node step hupkeep)
  . obtain ⟨env, dial, action⟩ := step
    unfold act
    cases action with
    | message msg senderIp =>
      have hstart := fun peerManager => wellSigned_of_quiet h (node.quiet_peerManager peerManager)
      dsimp only
      refine processMessage_rule node env msg senderIp hstart ?_ ?_
      . intro peerManager tokens
        exact wellSigned_of_quiet (hstart peerManager) (keptByUpkeep_quiet.processAnnounce _ _ _ _)
      . intro peerManager vote _
        apply (keptByVoting_wellSigned hhex).processVote
        . intro time h
          exact ⟨h.genesis, h.history, h.votes⟩
        . exact hstart peerManager
    | proposeRecentBans =>
      apply (keptByVoting_wellSigned hhex).proposeRecentBans_go
      exact ⟨h.genesis, h.history, h.votes⟩
    | initiateConsensus targetId evidenceJson =>
      refine (keptByVoting_wellSigned hhex).initiateConsensus node env ?_ targetId evidenceJson h
      intro node peerManager h
      exact wellSigned_of_quiet h (node.quiet_peerManager peerManager)
    | proposeBan targetId reason => exact (keptByVoting_wellSigned hhex).proposeBan node env targetId reason h
    | _ => exact absurd trivial hupkeep

theorem wellSigned_new (hhex : C.HexDigest) (nodeId : Bytes) (key pbftKey : C.PrivKey) (settings : Settings)
    : WellSigned (new C nodeId key pbftKey settings) := by
  unfold new
  apply wellSigned_of_quiet _ (Quiet.of_foldl quiet_provisionPeer _ _)
  constructor
  . exact PBFTConsensus.pipe_notMem_sha256Hex hhex _
  . intro seq hash hhash
    simp [PBFTConsensus.historyOf, PBFTConsensus.setPrivateKey, PBFTConsensus.setMyIdentity,
      PBFTConsensus.registerPeerKey, PBFTConsensus.new] at hhash
  . simp

theorem wellSigned_run (hhex : C.HexDigest) (nodeId : Bytes) (key pbftKey : C.PrivKey) (settings : Settings)
    (steps : List Step)
    : WellSigned (steps.foldl act (new C nodeId key pbftKey settings)) := by
  apply Run.foldl_of_invariant (Q := fun _ _ => True)
  . intro node step h _
    exact wellSigned_act hhex h step
  . exact wellSigned_new hhex nodeId key pbftKey settings
  . exact Run.along_of_forall (fun _ _ => trivial)

end WellSigned

inductive SignedText where
  | vote (msg : P2PMessage)
  | announce (blob : Bytes)
  | beacon (blob : Bytes)
  | telemetry (blob : Bytes)

def SignedText.blob (text : SignedText) : Bytes :=
  match text with
  | .vote msg => msg.blob
  | .announce blob => blob
  | .beacon blob => blob
  | .telemetry blob => blob

inductive Signs (node : MeshNode C) : SignedText → Prop where
  | vote {msg : P2PMessage} {pbft : PBFTConsensus C} (hsent : .broadcast msg pbft ∈ node.log)
    (htarget : pipe ∉ msg.targetId) : Signs node (.vote msg)
  | announce (hid : pipe ∉ node.nodeId) (hpem : pipe ∉ node.publicKeyPem)
    : Signs node (.announce node.announceBlob)
  | beacon (hid : pipe ∉ node.nodeId) (endpoint : Endpoint) (us : Int)
    : Signs node (.beacon (node.beaconBlob endpoint us))
  | telemetry (json : Bytes) : Signs node (.telemetry (node.telemetryBlob json))

structure SameVote (msg vote : P2PMessage) : Prop where
  stage : msg.stageStr = vote.stageStr
  target : msg.targetId = vote.targetId
  evidence : msg.evidenceJson = vote.evidenceJson
  sequenceNumber : msg.sequenceNumber = vote.sequenceNumber
  view : msg.view = vote.view
  prev : msg.prevMessageHash = vote.prevMessageHash

section Separation

variable {node receiver : MeshNode C} {datagram : Bytes} {vote : P2PMessage}
  (hvote : receiver.incoming datagram = some vote)
include hvote

theorem evidence_of_incoming : ∃ rest, vote.evidenceJson = 0x7b :: rest := by
  obtain ⟨_, _, hbrace⟩ := tokens_of_parseVote (parseVote_of_incoming hvote)
  exact List.head?_eq_some_iff.mp hbrace

theorem beaconBlob_ne_blob (hid : pipe ∉ node.nodeId) (endpoint : Endpoint) (us : Int)
    : node.beaconBlob endpoint us ≠ vote.blob := by
  intro heq
  have hframed := framed_of_incoming hvote
  obtain ⟨rest, hbrace⟩ := evidence_of_incoming hvote
  obtain ⟨_, hrest⟩ := Delimited.intercalate_cons_inj hid hframed.stage (by simp) (by simp) heq
  obtain ⟨_, hrest⟩ := Delimited.intercalate_cons_inj (pipe_notMem_toDecimalInt endpoint.tcpPort)
    hframed.target (by simp) (by simp) hrest
  rw [Delimited.intercalate_cons (toDecimalInt endpoint.tlsPort) (by simp),
    Delimited.intercalate_cons vote.evidenceJson (by simp), hbrace] at hrest
  obtain ⟨c, cs, hnumber⟩ := List.exists_cons_of_ne_nil (toDecimalInt_ne_nil endpoint.tlsPort)
  have hmem : c ∈ toDecimalInt endpoint.tlsPort := by
    rw [hnumber]
    exact List.mem_cons_self
  have hdigit := isDigit_or_eq_of_mem_toDecimalInt hmem
  rw [hnumber, List.cons_append, List.cons_append, List.cons.injEq] at hrest
  rw [hrest.1] at hdigit
  revert hdigit
  decide

theorem announceBlob_ne_blob (hid : pipe ∉ node.nodeId) (hpem : pipe ∉ node.publicKeyPem)
    : node.announceBlob ≠ vote.blob := by
  intro heq
  have hframed := framed_of_incoming hvote
  obtain ⟨_, hrest⟩ := Delimited.intercalate_cons_inj hid hframed.stage (by simp) (by simp) heq
  apply hpem
  rw [List.intercalate_singleton] at hrest
  rw [hrest, Delimited.intercalate_cons _ (by simp)]
  simp

theorem telemetryBlob_ne_blob (json : Bytes) : node.telemetryBlob json ≠ vote.blob := by
  intro heq
  have hframed := framed_of_incoming hvote
  obtain ⟨_, hstage, _⟩ := tokens_of_parseVote (parseVote_of_incoming hvote)
  have hkind : pipe ∉ bytes "TELEMETRY" := by decide
  obtain ⟨hkind, _⟩ := Delimited.intercalate_cons_inj hkind hframed.stage (by simp) (by simp) heq
  rw [← hkind] at hstage
  revert hstage
  decide

theorem sameVote_of_blob_eq (h : WellSigned node) {text : SignedText} (hsigns : Signs node text)
    (heq : text.blob = vote.blob)
    : ∃ msg, text = .vote msg ∧ SameVote msg vote := by
  have hframed := framed_of_incoming hvote
  cases hsigns with
  | vote hsent htarget =>
    next msg pbft =>
    obtain ⟨hstage, hprev⟩ := h.votes msg pbft hsent
    have hpipe : ∀ stage ∈ [Stage.prePrepare, Stage.prepare, Stage.commit], pipe ∉ stage := by decide
    obtain ⟨h₁, h₂, h₃, h₄, h₅, h₆⟩ := PBFTConsensus.blob_inj (hpipe _ hstage) hframed.stage htarget
      hframed.target hprev hframed.prev heq
    exact ⟨msg, rfl, h₁, h₂, h₃, h₄, h₅, h₆⟩
  | announce hid hpem => exact absurd heq (announceBlob_ne_blob hvote hid hpem)
  | beacon hid endpoint us => exact absurd heq (beaconBlob_ne_blob hvote hid endpoint us)
  | telemetry json => exact absurd heq (telemetryBlob_ne_blob hvote json)

theorem sameVote_of_hashInput_eq {receiver' : MeshNode C} {datagram' : Bytes} {vote' : P2PMessage}
    (hvote' : receiver'.incoming datagram' = some vote') (heq : vote'.hashInput = vote.hashInput)
    : SameVote vote' vote ∧ vote'.senderId = vote.senderId := by
  have hframed := framed_of_incoming hvote
  have hframed' := framed_of_incoming hvote'
  obtain ⟨hstage, h⟩ := Delimited.intercalate_cons_inj hframed'.stage hframed.stage (by simp) (by simp) heq
  obtain ⟨hsender, h⟩ := Delimited.intercalate_cons_inj hframed'.sender hframed.sender (by simp) (by simp) h
  obtain ⟨htarget, h⟩ := Delimited.intercalate_cons_inj hframed'.target hframed.target (by simp) (by simp) h
  obtain ⟨hview, h⟩ := Delimited.intercalate_concat_inj
    (x := [vote'.evidenceJson, vote'.prevMessageHash, toDecimal vote'.sequenceNumber.toNat])
    (y := [vote.evidenceJson, vote.prevMessageHash, toDecimal vote.sequenceNumber.toNat])
    (pipe_notMem_toDecimalInt _) (pipe_notMem_toDecimalInt _) (by simp) (by simp) h
  obtain ⟨hseq, h⟩ := Delimited.intercalate_concat_inj
    (x := [vote'.evidenceJson, vote'.prevMessageHash]) (y := [vote.evidenceJson, vote.prevMessageHash])
    (pipe_notMem_toDecimal _) (pipe_notMem_toDecimal _) (by simp) (by simp) h
  obtain ⟨hprev, h⟩ := Delimited.intercalate_concat_inj (x := [vote'.evidenceJson])
    (y := [vote.evidenceJson]) hframed'.prev hframed.prev (by simp) (by simp) h
  refine ⟨⟨hstage, htarget, ?_, ?_, ?_, hprev⟩, hsender⟩
  . rwa [List.intercalate_singleton, List.intercalate_singleton] at h
  . exact UInt64.toNat.inj (toDecimal_injective hseq)
  . exact toDecimalInt_injective hview

theorem sameRound_of_roundInput_eq {receiver' : MeshNode C} {datagram' : Bytes} {vote' : P2PMessage}
    (hvote' : receiver'.incoming datagram' = some vote') (heq : vote'.roundInput = vote.roundInput)
    : vote'.evidenceJson = vote.evidenceJson ∧ vote'.targetId = vote.targetId := by
  obtain ⟨htarget, h⟩ := Delimited.intercalate_concat_inj (x := [vote'.evidenceJson])
    (y := [vote.evidenceJson]) (framed_of_incoming hvote').target (framed_of_incoming hvote).target
    (by simp) (by simp) heq
  rw [List.intercalate_singleton, List.intercalate_singleton] at h
  exact ⟨h, htarget⟩

end Separation

theorem signature_binds_vote (hhex : C.HexDigest) (nodeId : Bytes) (key pbftKey : C.PrivKey)
    (settings : Settings) (steps : List Step) (receiver : MeshNode C) (datagram : Bytes) (vote : P2PMessage)
    (hvote : receiver.incoming datagram = some vote)
    : (∀ text, Signs (steps.foldl act (new C nodeId key pbftKey settings)) text → text.blob = vote.blob →
        ∃ msg, text = .vote msg ∧ SameVote msg vote)
        ∧
      (∀ (receiver' : MeshNode C) datagram' vote', receiver'.incoming datagram' = some vote' →
        (vote'.hashInput = vote.hashInput → SameVote vote' vote ∧ vote'.senderId = vote.senderId)
          ∧ (vote'.roundInput = vote.roundInput →
            vote'.evidenceJson = vote.evidenceJson ∧ vote'.targetId = vote.targetId)) := by
  have hsigned := wellSigned_run hhex nodeId key pbftKey settings steps
  constructor
  . intro text hsigns heq
    exact sameVote_of_blob_eq hvote hsigned hsigns heq
  . intro receiver' datagram' vote' hvote'
    constructor
    . exact sameVote_of_hashInput_eq hvote hvote'
    . exact sameRound_of_roundInput_eq hvote hvote'

theorem signature_binds_proposal
    : let receiver := new .plain (bytes "A") (bytes "A") (bytes "A") {}
      let sender := new .plain (bytes "B") (bytes "B") (bytes "B") {}
      let vote := sender.ownMessage Stage.prePrepare (bytes "T") (bytes "\x7b|\x7d")
      receiver.incoming (encodeVote vote) = some vote
        ∧ ∀ text, Signs sender text → text.blob = vote.blob → ∃ msg, text = .vote msg ∧ SameVote msg vote := by
  intro receiver sender vote
  have hvote : receiver.incoming (encodeVote vote) = some vote := by
    decide +kernel
  exact ⟨hvote, (signature_binds_vote IdentityCore.plain_hexDigest _ _ _ _ [] _ _ _ hvote).1⟩

end MeshNode
end NeuroMesh
