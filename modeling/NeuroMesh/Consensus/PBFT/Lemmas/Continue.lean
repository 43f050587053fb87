import NeuroMesh.Consensus.PBFT.Lemmas.Frame

namespace NeuroMesh
namespace PBFTConsensus

variable {C : IdentityCore}

structure Continues (nodeId : Bytes) (s t : PBFTConsensus C) : Prop where
  privateKey_eq : t.privateKey = s.privateKey
  genesisHash_eq : t.genesisHash = s.genesisHash
  history : ∀ (seq : UInt64) (hash : Bytes),
    (t.historyOf nodeId)[seq]? = some hash → (s.historyOf nodeId)[seq]? = some hash

namespace Continues

variable {nodeId : Bytes} {s t u : PBFTConsensus C}

theorem of_eq (hregistry : t.registry = s.registry) (hhistory : t.historyOf nodeId = s.historyOf nodeId)
    : Continues nodeId s t := by
  constructor
  . exact congrArg Registry.privateKey hregistry
  . exact congrArg Registry.genesisHash hregistry
  . intro seq hash h
    rwa [hhistory] at h

theorem refl (nodeId : Bytes) (s : PBFTConsensus C) : Continues nodeId s s := by
  apply of_eq <;> rfl

theorem trans (h₁ : Continues nodeId s t) (h₂ : Continues nodeId t u) : Continues nodeId s u := by
  constructor
  . rw [h₂.privateKey_eq, h₁.privateKey_eq]
  . rw [h₂.genesisHash_eq, h₁.genesisHash_eq]
  . intro seq hash h
    apply h₁.history
    apply h₂.history _ _ h

end Continues

variable (s : PBFTConsensus C) (nodeId : Bytes)

theorem continues_prunePeerLocked (other : Bytes)
    : Continues nodeId s (s.prunePeerLocked other) := by
  constructor
  . rfl
  . rfl
  . intro seq hash h
    unfold historyOf prunePeerLocked at h
    dsimp at h
    rw [Std.ExtTreeMap.getD_erase] at h
    split at h
    . simp at h
    . exact h

theorem continues_recordFailure (now : Time) (other : Bytes)
    : Continues nodeId s (s.recordFailure now other) := by
  unfold recordFailure
  dsimp
  split
  . apply Continues.trans _ (continues_prunePeerLocked _ nodeId other)
    constructor
    . rfl
    . rfl
    . intro seq hash h
      exact h
  . apply Continues.of_eq <;> rfl

theorem continues_verifyMessage (now : Time) (msg : P2PMessage)
    : Continues nodeId s (s.verifyMessage now msg).2 := by
  apply verifyMessage_rule (P := Continues nodeId s) (.refl nodeId s)
  . apply continues_recordFailure
  . apply Continues.of_eq <;> rfl

theorem continues_checkRateLimit (now : Time) (senderId : Bytes)
    : Continues nodeId s ((s.cleanupStaleRounds now).checkRateLimit now senderId).2 := by
  have hsame : SameAbout nodeId s ((s.cleanupStaleRounds now).checkRateLimit now senderId).2 :=
    (s.sameAbout_cleanupStaleRounds now).trans (sameAbout_checkRateLimit _ now senderId)
  have hregistry := registry_checkRateLimit (s.cleanupStaleRounds now) now senderId
  constructor
  . exact congrArg Registry.privateKey hregistry
  . exact congrArg Registry.genesisHash hregistry
  . intro seq hash h
    rwa [hsame.history_eq] at h

theorem continues_advanceState_of_not_admits {a : Ambient} {msg : P2PMessage} (h : ¬s.Admits a msg)
    : Continues nodeId s (s.advanceState a msg).2 := by
  rw [advanceState_of_not_admits h]
  rw [← mayVote_eq_true_iff] at h
  have hcases := s.mayVote_cases a msg
  generalize s.mayVote a msg = res at *
  cases hcases with
  | banned => apply Continues.refl
  | unknown => apply Continues.refl
  | limited =>
    apply (s.continues_checkRateLimit nodeId a.now msg.senderId).trans
    apply continues_recordFailure
  | seen => apply continues_checkRateLimit
  | admitted => simp at h

theorem privateKey_advanceState (a : Ambient) (msg : P2PMessage)
    : (s.advanceState a msg).2.privateKey = s.privateKey := by
  by_cases h : s.Admits a msg
  . exact congrArg Registry.privateKey (registry_advanceState h)
  . exact (s.continues_advanceState_of_not_admits [] h).privateKey_eq

theorem genesisHash_advanceState (a : Ambient) (msg : P2PMessage)
    : (s.advanceState a msg).2.genesisHash = s.genesisHash := by
  by_cases h : s.Admits a msg
  . exact congrArg Registry.genesisHash (registry_advanceState h)
  . exact (s.continues_advanceState_of_not_admits [] h).genesisHash_eq

theorem history_advanceState {a : Ambient} {msg : P2PMessage} {seq : UInt64} {hash : Bytes}
    (h : ((s.advanceState a msg).2.historyOf nodeId)[seq]? = some hash)
    : (s.historyOf nodeId)[seq]? = some hash
        ∨
      msg.senderId = nodeId ∧ seq = msg.sequenceNumber ∧ hash = computeMessageHash C msg := by
  by_cases hadmits : s.Admits a msg
  . rw [historyOf_advanceState hadmits] at h
    split at h
    . next hsender =>
      have hinsert := getElem?_of_getElem?_evictHistory h
      rw [Std.ExtTreeMap.getElem?_insert] at hinsert
      simp only [Std.compare_eq_iff_eq] at hinsert
      split at hinsert
      . next hseq =>
        simp only [Option.some.injEq] at hinsert
        exact .inr ⟨hsender, hseq.symm, hinsert.symm⟩
      . exact .inl hinsert
    . exact .inl h
  . exact .inl ((s.continues_advanceState_of_not_admits nodeId hadmits).history _ _ h)

theorem snd_receive (now : Time) (a : Ambient) (msg : P2PMessage)
    : (s.receive now a msg).2 = (s.verifyMessage now msg).2
        ∨
      (s.receive now a msg).2 = ((s.verifyMessage now msg).2.advanceState a msg).2 := by
  unfold receive
  split
  . next heq =>
    rw [heq]
    exact .inl rfl
  . next heq =>
    rw [heq]
    exact .inr rfl

theorem genesisHash_receive (now : Time) (a : Ambient) (msg : P2PMessage)
    : (s.receive now a msg).2.genesisHash = s.genesisHash := by
  have hverify := (s.continues_verifyMessage [] now msg).genesisHash_eq
  rcases s.snd_receive now a msg with heq | heq
  . rw [heq, hverify]
  . rw [heq, genesisHash_advanceState, hverify]

theorem history_receive {now : Time} {a : Ambient} {msg : P2PMessage} {seq : UInt64} {hash : Bytes}
    (h : ((s.receive now a msg).2.historyOf nodeId)[seq]? = some hash)
    : (s.historyOf nodeId)[seq]? = some hash
        ∨
      msg.senderId = nodeId ∧ seq = msg.sequenceNumber ∧ hash = computeMessageHash C msg := by
  have hverify := (s.continues_verifyMessage nodeId now msg).history seq hash
  rcases s.snd_receive now a msg with heq | heq
  . rw [heq] at h
    exact .inl (hverify h)
  . rw [heq] at h
    rcases history_advanceState _ nodeId h with hold | hnew
    . exact .inl (hverify hold)
    . exact .inr hnew

theorem continues_setRoundCommitSig (key sig : Bytes)
    : Continues nodeId s (s.setRoundCommitSig key sig) := by
  constructor
  . rfl
  . rfl
  . intro seq hash h
    exact h

theorem continues_banPeerLocal (peerId reason : Bytes)
    : Continues nodeId s (s.banPeerLocal peerId reason) := by
  constructor
  . rfl
  . rfl
  . intro seq hash h
    exact h

theorem continues_step (call : Call C) (hvote : ∀ msg, call.op ≠ .advanceState msg)
    (hkey : ∀ key, call.op ≠ .setPrivateKey key)
    : Continues nodeId s (s.step call) := by
  unfold step
  cases hop : call.op with
  | advanceState msg => exact absurd hop (hvote msg)
  | setPrivateKey key => exact absurd hop (hkey key)
  | verifyMessage msg => apply continues_verifyMessage
  | prunePeer peerId => apply continues_prunePeerLocked
  | tryIncrementPeers peerId =>
    simp only [tryIncrementPeers]
    split
    . apply Continues.refl
    . exact ⟨rfl, rfl, fun _ _ h => h⟩
  | proposeBan targetId reason =>
    simp only [proposeBan]
    split
    . apply Continues.refl
    . split
      . apply Continues.refl
      . exact s.continues_banPeerLocal nodeId targetId reason
  | _ => exact ⟨rfl, rfl, fun _ _ h => h⟩

end PBFTConsensus
end NeuroMesh
