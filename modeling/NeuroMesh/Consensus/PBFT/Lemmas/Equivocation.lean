import NeuroMesh.Consensus.PBFT.Lemmas.Continue
import NeuroMesh.Data.Run

namespace NeuroMesh
namespace PBFTConsensus

variable {C : IdentityCore} (s : PBFTConsensus C)

theorem equivocationHistory_recordFailure (now : Time) (nodeId : Bytes)
    : (s.recordFailure now nodeId).equivocationHistory = s.equivocationHistory := by
  unfold recordFailure
  dsimp only
  split <;> rfl

theorem equivocationHistory_verifyMessage (now : Time) (msg : P2PMessage)
    : (s.verifyMessage now msg).2.equivocationHistory = s.equivocationHistory := by
  exact verifyMessage_rule (P := (·.equivocationHistory = s.equivocationHistory)) rfl
    (s.equivocationHistory_recordFailure now msg.senderId) rfl

structure Accuses (s : PBFTConsensus C) (msg : P2PMessage) (msgHash : Bytes) (evidence : EquivocationEvidence) :
    Prop where
  nodeId_eq : evidence.nodeId = msg.senderId
  sequenceNumber_eq : evidence.sequenceNumber = msg.sequenceNumber
  recorded : (s.historyOf msg.senderId)[msg.sequenceNumber]? = some evidence.hash1
  hash2_eq : evidence.hash2 = msgHash
  hash_ne : evidence.hash1 ≠ evidence.hash2

variable {s} {nodeId : Bytes} {evidence : EquivocationEvidence}

theorem evidence_detectEquivocation {now : Time} {msg : P2PMessage} {msgHash : Bytes}
    (h : (s.detectEquivocation now msg msgHash).equivocationHistory[nodeId]? = some evidence)
    : s.equivocationHistory[nodeId]? = some evidence
        ∨
      msg.senderId = nodeId ∧ s.Accuses msg msgHash evidence := by
  unfold detectEquivocation at h
  dsimp only at h
  split at h
  . exact .inl h
  . next hash hhash =>
    split at h
    . next hne =>
      change (s.equivocationHistory.insert msg.senderId _)[nodeId]? = some evidence at h
      rw [Std.ExtTreeMap.getElem?_insert] at h
      simp only [Std.compare_eq_iff_eq] at h
      split at h
      . next hsender =>
        simp only [Option.some.injEq] at h
        subst h
        exact .inr ⟨hsender, rfl, rfl, hhash, rfl, hne⟩
      . exact .inl h
    . exact .inl h

theorem evidence_advanceState {a : Ambient} {msg : P2PMessage}
    (h : (s.advanceState a msg).2.equivocationHistory[nodeId]? = some evidence)
    : s.equivocationHistory[nodeId]? = some evidence
        ∨
      msg.senderId = nodeId ∧ s.Accuses msg (computeMessageHash C msg) evidence := by
  have hcases := s.mayVote_cases a msg
  have hrate : ((s.cleanupStaleRounds a.now).checkRateLimit a.now msg.senderId).2.equivocationHistory
      = s.equivocationHistory := by
    obtain ⟨_, heq⟩ := (s.cleanupStaleRounds a.now).snd_checkRateLimit a.now msg.senderId
    rw [heq]
    rfl
  unfold advanceState at h
  generalize s.mayVote a msg = res at *
  cases hcases with
  | banned => exact .inl h
  | unknown => exact .inl h
  | limited =>
    dsimp only at h
    rw [equivocationHistory_recordFailure, hrate] at h
    exact .inl h
  | seen =>
    dsimp only at h
    rw [hrate] at h
    exact .inl h
  | admitted =>
    dsimp only at h
    obtain ⟨_, _, hcast⟩ := snd_castVote _ a.now msg (keyOf C msg) (computeMessageHash C msg)
    rw [hcast] at h
    rcases evidence_detectEquivocation h with hold | ⟨hsender, haccuses⟩
    . obtain ⟨_, hremember⟩ := rememberMessage_eq _ a (computeMessageHash C msg)
      rw [hremember] at hold
      exact .inl (hrate ▸ hold)
    . refine .inr ⟨hsender, { haccuses with recorded := ?_ }⟩
      have hrecorded := haccuses.recorded
      rw [(sameAbout_rememberMessage _ a _).history_eq] at hrecorded
      exact (s.continues_checkRateLimit msg.senderId a.now msg.senderId).history _ _ hrecorded

theorem evidence_step {call : Call C} (h : (s.step call).equivocationHistory[nodeId]? = some evidence)
    : s.equivocationHistory[nodeId]? = some evidence
        ∨
      ∃ msg, call.op = .advanceState msg ∧ msg.senderId = nodeId
        ∧ s.Accuses msg (computeMessageHash C msg) evidence := by
  obtain ⟨a, op⟩ := call
  unfold step at h
  cases op with
  | verifyMessage msg =>
    dsimp only at h
    rw [equivocationHistory_verifyMessage] at h
    exact .inl h
  | advanceState msg =>
    rcases evidence_advanceState h with hold | hnew
    . exact .inl hold
    . exact .inr ⟨msg, rfl, hnew⟩
  | tryIncrementPeers id =>
    dsimp only at h
    unfold tryIncrementPeers at h
    split at h <;> exact .inl h
  | proposeBan targetId reason =>
    dsimp only at h
    unfold proposeBan at h
    split at h
    . exact .inl h
    . split at h <;> exact .inl h
  | _ => exact .inl h

theorem equivocation_step (call : Call C) (h : s.equivocationHistory[nodeId]? = none)
    (hsame : ∀ msg, call.op = .advanceState msg → msg.senderId = nodeId →
      ∀ hash, (s.historyOf nodeId)[msg.sequenceNumber]? = some hash → hash = computeMessageHash C msg)
    : (s.step call).equivocationHistory[nodeId]? = none := by
  rw [Option.eq_none_iff_forall_ne_some]
  intro evidence hevidence
  rcases evidence_step hevidence with hold | ⟨msg, hop, hsender, haccuses⟩
  . simp [h] at hold
  . have hrecorded := haccuses.recorded
    rw [hsender] at hrecorded
    apply haccuses.hash_ne
    rw [hsame msg hop hsender _ hrecorded, haccuses.hash2_eq]

theorem equivocation_advanceState {msg : P2PMessage} (a : Ambient) (h : s.equivocationHistory[nodeId]? = none)
    (hsame : msg.senderId = nodeId → ∀ hash, (s.historyOf nodeId)[msg.sequenceNumber]? = some hash →
      hash = computeMessageHash C msg)
    : (s.advanceState a msg).2.equivocationHistory[nodeId]? = none := by
  apply equivocation_step ⟨a, .advanceState msg⟩ h
  rintro _ ⟨⟩
  exact hsame

theorem history_step {call : Call C} {seq : UInt64} {hash : Bytes}
    (h : ((s.step call).historyOf nodeId)[seq]? = some hash)
    : (s.historyOf nodeId)[seq]? = some hash
        ∨
      ∃ msg, call.op = .advanceState msg ∧ msg.senderId = nodeId ∧ seq = msg.sequenceNumber
        ∧ hash = computeMessageHash C msg := by
  by_cases hvote : ∃ msg, call.op = .advanceState msg
  . obtain ⟨msg, hop⟩ := hvote
    simp only [step, hop] at h
    rcases history_advanceState s nodeId h with hold | hnew
    . exact .inl hold
    . exact .inr ⟨msg, hop, hnew⟩
  . left
    by_cases hkey : ∃ key, call.op = .setPrivateKey key
    . obtain ⟨key, hop⟩ := hkey
      simp only [step, hop] at h
      exact h
    . rw [not_exists] at hvote hkey
      exact (s.continues_step nodeId call hvote hkey).history seq hash h

structure Handed (C : IdentityCore) where
  pbft : PBFTConsensus C
  messages : List P2PMessage := []

namespace Handed

def step (l : Handed C) (call : Call C) : Handed C :=
  {
    pbft := l.pbft.step call
    messages :=
      match call.op with
      | .advanceState msg => msg :: l.messages
      | _ => l.messages
  }

def Hashes (l : Handed C) (nodeId : Bytes) (sequenceNumber : UInt64) (hash : Bytes) : Prop :=
  ∃ msg ∈ l.messages, msg.senderId = nodeId ∧ msg.sequenceNumber = sequenceNumber
    ∧ computeMessageHash C msg = hash

structure Genuine (l : Handed C) (evidence : EquivocationEvidence) : Prop where
  hash_ne : evidence.hash1 ≠ evidence.hash2
  hash1 : l.Hashes evidence.nodeId evidence.sequenceNumber evidence.hash1
  hash2 : l.Hashes evidence.nodeId evidence.sequenceNumber evidence.hash2

def AllGenuine (l : Handed C) : Prop :=
  ∀ nodeId evidence, l.pbft.equivocationHistory[nodeId]? = some evidence →
    evidence.nodeId = nodeId ∧ l.Genuine evidence

variable {l : Handed C} {call : Call C}

theorem Hashes.step {nodeId hash : Bytes} {seq : UInt64} (h : l.Hashes nodeId seq hash)
    : (l.step call).Hashes nodeId seq hash := by
  obtain ⟨msg, hmsg, hrest⟩ := h
  refine ⟨msg, ?_, hrest⟩
  unfold Handed.step
  dsimp only
  split
  . exact List.mem_cons_of_mem _ hmsg
  . exact hmsg

theorem mem_messages_step {msg : P2PMessage} (hop : call.op = .advanceState msg)
    : msg ∈ (l.step call).messages := by
  simp [Handed.step, hop]

structure Recorded (l : Handed C) : Prop where
  history : ∀ nodeId seq hash, (l.pbft.historyOf nodeId)[seq]? = some hash → l.Hashes nodeId seq hash
  evidence : l.AllGenuine

theorem Recorded.step (h : l.Recorded) (call : Call C) : (l.step call).Recorded := by
  constructor
  . intro nodeId seq hash hhash
    rcases history_step hhash with hold | ⟨msg, hop, hsender, hseq, rfl⟩
    . exact (h.history nodeId seq hash hold).step
    . exact ⟨msg, mem_messages_step hop, hsender, hseq.symm, rfl⟩
  . intro nodeId evidence hevidence
    rcases evidence_step hevidence with hold | ⟨msg, hop, hsender, haccuses⟩
    . obtain ⟨hnode, hgenuine⟩ := h.evidence nodeId evidence hold
      exact ⟨hnode, hgenuine.hash_ne, hgenuine.hash1.step, hgenuine.hash2.step⟩
    . refine ⟨haccuses.nodeId_eq.trans hsender, haccuses.hash_ne, ?_, ?_⟩
      . rw [haccuses.nodeId_eq, haccuses.sequenceNumber_eq]
        exact (h.history _ _ _ haccuses.recorded).step
      . refine ⟨msg, mem_messages_step hop, haccuses.nodeId_eq.symm, haccuses.sequenceNumber_eq.symm, ?_⟩
        exact haccuses.hash2_eq.symm

theorem always_allGenuine (C : IdentityCore) (totalNodes : Int) (windowEnv maxEnv : Option Bytes)
    (calls : List (Call C))
    : Run.Always step AllGenuine { pbft := new C totalNodes windowEnv maxEnv } calls := by
  refine Run.always_of_invariant (I := Recorded) (Q := fun _ _ => True) ?_ ?_ ?_ ?_
  . intro l call h _
    exact h.step call
  . intro l h
    exact h.evidence
  . constructor
    . intro nodeId seq hash h
      simp [new, historyOf] at h
    . intro nodeId evidence h
      simp [new] at h
  . apply Run.along_of_forall
    intros
    trivial

end Handed

end PBFTConsensus
end NeuroMesh
