import NeuroMesh.Consensus.MeshNode.Impl.Ipc
import NeuroMesh.Consensus.MeshNode.Lemmas.Exchange

namespace NeuroMesh
namespace MeshNode

variable {C : IdentityCore}

section Command

variable {cmd target evidence ack : Bytes}

structure Acknowledged (cmd target evidence : Bytes) : Prop where
  target_ne : target ≠ []
  target_le : target.length ≤ 64
  target_mem : ∀ c ∈ target, c ∈ cmd
  evidence_head : evidence.head? = some 0x7b

theorem acknowledged_of_ipcPropose {ack' payload : Bytes}
    (h : ipcPropose ack' payload = .initiate target evidence ack) (hpayload : ∀ c ∈ payload, c ∈ cmd)
    : Acknowledged cmd target evidence := by
  unfold ipcPropose at h
  dsimp only at h
  split at h
  . split at h
    . contradiction
    . split at h
      . contradiction
      . split at h
        . contradiction
        . next htarget _ hevidence =>
          cases h
          rw [not_or] at htarget hevidence
          refine ⟨htarget.1, by omega, ?_, not_not.mp hevidence.1⟩
          intro c hc
          exact hpayload c (List.takeWhile_subset _ hc)
  . contradiction

theorem acknowledged_of_ipcCommand (h : ipcCommand cmd = .initiate target evidence ack)
    : Acknowledged cmd target evidence := by
  unfold ipcCommand at h
  dsimp only at h
  split at h
  . exact acknowledged_of_ipcPropose h (fun _ => List.mem_of_mem_drop)
  . split at h
    . exact acknowledged_of_ipcPropose h (fun _ => List.mem_of_mem_drop)
    . split at h
      . contradiction
      . split at h <;> contradiction

end Command

section Receiver

variable {maxEvidenceSize : Nat} {msg : Bytes} {vote : P2PMessage}

theorem legible_of_validateMessage (h : validateMessage msg = true) : ∀ c ∈ msg, Legible c := by
  intro c hc
  unfold validateMessage at h
  split at h
  . contradiction
  . split at h
    . contradiction
    . have hbyte := List.all_eq_true.mp h c hc
      simp [Legible, UInt8.le_iff_toNat_le, UInt8.lt_iff_toNat_lt, ← UInt8.toNat_inj] at hbyte ⊢
      omega

structure Checked (maxEvidenceSize : Nat) (tokens : List Bytes) (vote : P2PMessage) : Prop where
  sender : tokens[2]? = some vote.senderId
  sender_ne : vote.senderId ≠ []
  sender_le : vote.senderId.length ≤ 64
  target : tokens[5]? = some vote.targetId
  evidence_le : vote.evidenceJson.length ≤ maxEvidenceSize

theorem checked_of_parseVote {tokens : List Bytes} (h : parseVote maxEvidenceSize tokens = some vote)
    : Checked maxEvidenceSize tokens vote := by
  unfold parseVote at h
  dsimp only at h
  split at h
  . split at h
    . contradiction
    . next hempty =>
      split at h
      . contradiction
      . next hlong =>
        split at h
        . contradiction
        . split at h
          . contradiction
          . next hevidence =>
            rw [not_or] at hlong hevidence
            repeat' split at h
            all_goals first | contradiction | cases h
            exact ⟨rfl, fun heq => hempty (.inr (.inl heq)), by simpa using hlong.1, rfl, by simpa using hevidence.2⟩
  . contradiction

theorem of_readVote_encodeVote {read : P2PMessage} (h : readVote maxEvidenceSize (encodeVote vote) = some read)
    (hstage : pipe ∉ vote.stageStr) (hsender : pipe ∉ vote.senderId) (hprev : pipe ∉ vote.prevMessageHash)
    (hsig : vote.signature ≠ []) (heq : read.targetId = vote.targetId)
    : (vote.senderId ≠ [] ∧ vote.senderId.length ≤ 64 ∧ ∀ c ∈ vote.senderId, Legible c)
        ∧ (pipe ∉ vote.targetId ∧ ∀ c ∈ vote.targetId, Legible c)
        ∧ read.evidenceJson.length ≤ maxEvidenceSize := by
  unfold readVote at h
  dsimp only at h
  split at h
  . next hread =>
    have hchecked := checked_of_parseVote h
    have hlegible : ∀ field ∈ voteFields vote, ∀ c ∈ field, Legible c := by
      intro field hfield c hc
      apply legible_of_validateMessage hread.1
      exact Delimited.mem_intercalate hfield hc
    -- no token has a separator in it, so that the target cannot have one
    have htarget : pipe ∉ vote.targetId := by
      rw [← heq]
      exact Delimited.notMem_of_mem_split (List.mem_of_getElem? hchecked.target)
    rw [splitString_encodeVote hstage hsender htarget hprev hsig] at hchecked
    have hsame : vote.senderId = read.senderId := Option.some.inj hchecked.sender
    refine ⟨⟨?_, ?_, ?_⟩, ⟨htarget, ?_⟩, hchecked.evidence_le⟩
    . rw [hsame]
      exact hchecked.sender_ne
    . rw [hsame]
      exact hchecked.sender_le
    . apply hlegible
      simp [voteFields]
    . apply hlegible
      simp [voteFields]
  . contradiction

theorem length_encodeVote_le {vote : P2PMessage} (hstage : vote.stageStr.length ≤ 64)
    (hsender : vote.senderId.length ≤ 64) (htarget : vote.targetId.length ≤ 64)
    (hevidence : vote.evidenceJson.length ≤ 4096) (hge : -(2 ^ 31) ≤ vote.view) (hlt : vote.view < 2 ^ 31)
    (hprev : vote.prevMessageHash.length ≤ 4096) (hsig : vote.signature.length ≤ 4096)
    : (encodeVote vote).length ≤ 65536 := by
  have hseq : (toDecimal vote.sequenceNumber.toNat).length ≤ 20 := by
    apply length_toDecimal_le (by decide)
    have := vote.sequenceNumber.toNat_lt
    omega
  have hview : (toDecimalInt vote.view).length ≤ 11 := by
    apply length_toDecimalInt_le (by decide)
    . omega
    . omega
  have hvote : (bytes "VOTE").length = 4 := by decide
  unfold encodeVote joinPipe
  simp only [Delimited.intercalate_cons _ (List.cons_ne_nil _ _), List.intercalate_singleton, List.length_append,
    List.length_cons, length_base64Encode]
  omega

theorem Deliverable.readVote_encodeVote (h : Deliverable maxEvidenceSize vote)
    : readVote maxEvidenceSize (encodeVote vote) = some vote := by
  unfold readVote
  dsimp only
  rw [h.splitString_encodeVote, validateMessage_encodeVote h]
  exact parseVote_voteFields h

end Receiver

section Proposal

variable {node : MeshNode C} {env : Env} {target evidence : Bytes}

theorem keptByVoting_log_suffix : KeptByVoting fun node node' : MeshNode C => node.log <:+ node'.log where
  refl _ := List.suffix_refl _
  trans := List.IsSuffix.trans
  emit _ _ _ := List.suffix_cons _ _
  banPeerLocal _ _ _ := List.suffix_refl _
  receive node env msg := node.log_suffix_receive env msg
  afterSend _ _ _ _ _ := List.suffix_cons _ _

theorem log_suffix_broadcastPbftStage (node : MeshNode C) (env : Env) (stageStr targetId evidenceJson : Bytes)
    : (node.afterSend stageStr targetId evidenceJson).log
        <:+
      (node.broadcastPbftStage env stageStr targetId evidenceJson).log := by
  unfold broadcastPbftStage
  rw [castOwnVote_eq]
  apply (log_suffix_receive _ env.left _).trans
  apply keptByVoting_log_suffix.dispatch

theorem log_initiateConsensus (evidence : Bytes) (h : node.peerManager.isOnCooldown (env 0).now target = false)
    : ∃ later pbft, (node.initiateConsensus env target evidence).log
        = later ++ .broadcast (node.ownMessage Stage.prePrepare target evidence) pbft
          :: .proposed target evidence :: node.log := by
  unfold initiateConsensus
  dsimp only
  rw [if_neg (by rw [Bool.not_eq_true]; exact h)]
  obtain ⟨later, hlog⟩ := log_suffix_broadcastPbftStage {
    node.emit (.proposed target evidence) with
    peerManager := node.peerManager.setCooldown (env 0).now target
  } env.right Stage.prePrepare target evidence
  exact ⟨later, _, hlog.symm⟩

def Joinable (node : MeshNode C) (env : Env) (target evidence : Bytes) : Prop :=
  ∃ later vote pbft,
    (node.initiateConsensus env target evidence).log
      = later ++ .broadcast vote pbft :: .proposed target evidence :: node.log
    ∧ ∃ read, readVote (evidenceMaxFromEnv none) (cStr (encodeVote vote)) = some read
      ∧ read.stageStr = Stage.prePrepare ∧ read.targetId = target ∧ read.evidenceJson = evidence

/--
What does not depend on the command: the id of the node comes from the command line, a digest is hexadecimal, the
signature of the proposal is short, and the view is an `int`.
-/
structure Speaks (node : MeshNode C) (target evidence : Bytes) : Prop where
  id : IsField node.nodeId
  view_ge : -(2 ^ 31) ≤ node.pbft.currentView
  view_lt : node.pbft.currentView < 2 ^ 31
  prevHash : IsHex (node.pbft.getLastSentHash node.nodeId)
  prevHash_le : (node.pbft.getLastSentHash node.nodeId).length ≤ 4096
  signature_ne : (node.ownMessage Stage.prePrepare target evidence).signature ≠ []
  signature_le : (node.ownMessage Stage.prePrepare target evidence).signature.length ≤ 4096

theorem joinable_iff_readVote (h : node.peerManager.isOnCooldown (env 0).now target = false)
    : node.Joinable env target evidence
        ↔
      ∃ read, readVote (evidenceMaxFromEnv none)
          (cStr (encodeVote (node.ownMessage Stage.prePrepare target evidence))) = some read
        ∧ read.stageStr = Stage.prePrepare ∧ read.targetId = target ∧ read.evidenceJson = evidence := by
  obtain ⟨later, pbft, hlog⟩ := log_initiateConsensus evidence h
  constructor
  . rintro ⟨later', vote, pbft', hlog', hread⟩
    rw [hlog] at hlog'
    have htail := List.append_inj_right' hlog' rfl
    cases htail
    exact hread
  . intro hread
    exact ⟨later, _, pbft, hlog, hread⟩

theorem zero_notMem_encodeVote {vote : P2PMessage} (hstage : 0 ∉ vote.stageStr) (hsender : 0 ∉ vote.senderId)
    (htarget : 0 ∉ vote.targetId) (hprev : IsHex vote.prevMessageHash)
    : 0 ∉ encodeVote vote := by
  intro hmem
  have hlegible : ¬ Legible 0 := by decide
  rcases Delimited.eq_or_mem_of_mem_intercalate hmem with heq | ⟨field, hfield, hc⟩
  . exact absurd heq (by decide)
  . simp only [List.mem_cons, List.not_mem_nil, or_false] at hfield
    rcases hfield with rfl | rfl | rfl | rfl | rfl | rfl | rfl | rfl | rfl
    . exact absurd hc (by decide)
    . exact hstage hc
    . exact hsender hc
    . exact hlegible (legible_of_mem_toDecimal hc)
    . exact hlegible (legible_of_mem_toDecimalInt hc)
    . exact htarget hc
    . exact hlegible (legible_of_mem_base64Encode hc)
    . exact hlegible (hprev.legible _ hc)
    . exact hlegible (legible_of_mem_base64Encode hc)

end Proposal

/--
The agent acknowledges more than its peers accept: evidence of more than 4096 bytes, and targets with a control
character, a byte outside of ASCII or a separator in them.
-/
theorem joinable_iff {cmd target evidence ack : Bytes} (hack : ipcCommand cmd = .initiate target evidence ack)
    (hcmd : 0 ∉ cmd) (node : MeshNode C) (hspeaks : node.Speaks target evidence) (env : Env)
    (hcooldown : node.peerManager.isOnCooldown (env 0).now target = false)
    : node.Joinable env target evidence
        ↔
      (node.nodeId ≠ [] ∧ node.nodeId.length ≤ 64 ∧ ∀ c ∈ node.nodeId, Legible c)
        ∧ (pipe ∉ target ∧ ∀ c ∈ target, Legible c)
        ∧ evidence.length ≤ 4096 := by
  have hcommand := acknowledged_of_ipcCommand hack
  have hzero : 0 ∉ encodeVote (node.ownMessage Stage.prePrepare target evidence) := by
    apply zero_notMem_encodeVote
    . show 0 ∉ Stage.prePrepare
      decide
    . exact hspeaks.id.zero_notMem
    . exact fun hmem => hcmd (hcommand.target_mem 0 hmem)
    . exact hspeaks.prevHash
  rw [joinable_iff_readVote hcooldown, cStr_of_notMem hzero]
  constructor
  . rintro ⟨read, hread, -, htarget, rfl⟩
    refine of_readVote_encodeVote hread ?_ hspeaks.id.pipe_notMem hspeaks.prevHash.pipe_notMem
      hspeaks.signature_ne htarget
    show pipe ∉ Stage.prePrepare
    decide
  . rintro ⟨hid, htarget, hevidence⟩
    have hvote : Deliverable 4096 (node.ownMessage Stage.prePrepare target evidence) := by
      constructor
      . exact List.mem_cons_self
      . exact ⟨hid.1, hid.2.1, hid.2.2, hspeaks.id.pipe_notMem⟩
      . exact ⟨hcommand.target_ne, hcommand.target_le, htarget.2, htarget.1⟩
      . exact hcommand.evidence_head
      . exact hevidence
      . exact hspeaks.view_ge
      . exact hspeaks.view_lt
      . exact hspeaks.prevHash
      . exact hspeaks.signature_ne
      . apply length_encodeVote_le _ hid.2.1 hcommand.target_le hevidence hspeaks.view_ge hspeaks.view_lt
          hspeaks.prevHash_le hspeaks.signature_le
        show Stage.prePrepare.length ≤ 64
        decide
    exact ⟨_, hvote.readVote_encodeVote, rfl, rfl, rfl⟩


theorem speaks_framed : ∀ target ∈ [bytes "T", bytes "T|U"], framed.Speaks target (bytes "\x7b\x7d") := by
  intro target htarget
  constructor
  . constructor <;> decide +kernel
  . decide +kernel
  . decide +kernel
  . decide +kernel
  . decide +kernel
  . revert target
    decide +kernel
  . revert target
    decide +kernel

theorem joinable_framed : framed.Joinable quietEnv (bytes "T") (bytes "\x7b\x7d") := by
  have hack : ipcCommand (bytes "CMD:INJECT T \x7b\x7d")
      = .initiate (bytes "T") (bytes "\x7b\x7d") (bytes "ACK:INJECT\n") := by
    decide +kernel
  rw [joinable_iff hack (by decide +kernel) framed (speaks_framed _ (by decide)) quietEnv (by decide +kernel)]
  decide +kernel

theorem not_forall_joinable
    : ¬ ∀ cmd target evidence ack : Bytes, ipcCommand cmd = .initiate target evidence ack → 0 ∉ cmd →
        ∀ node : MeshNode .plain, node.Speaks target evidence →
        ∀ env : Env, node.peerManager.isOnCooldown (env 0).now target = false →
        node.Joinable env target evidence := by
  intro h
  have hjoinable := h (bytes "CMD:INJECT T|U \x7b\x7d") (bytes "T|U") (bytes "\x7b\x7d") (bytes "ACK:INJECT\n")
    (by decide +kernel) (by decide +kernel) framed (speaks_framed _ (by decide)) quietEnv (by decide +kernel)
  rw [joinable_iff_readVote (by decide +kernel)] at hjoinable
  obtain ⟨read, hread, -, htarget, -⟩ := hjoinable
  have hother : (readVote (evidenceMaxFromEnv none) (cStr (encodeVote (framed.ownMessage Stage.prePrepare
      (bytes "T|U") (bytes "\x7b\x7d"))))).map (·.targetId) ≠ some (bytes "T|U") := by
    decide +kernel
  rw [hread] at hother
  exact hother (congrArg some htarget)

end MeshNode
end NeuroMesh
