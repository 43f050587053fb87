import NeuroMesh.Consensus.PBFT.Lemmas.Chain

namespace NeuroMesh
namespace PBFTConsensus

variable {C : IdentityCore}

def predecessorHash (history : Map UInt64 Bytes) (sequenceNumber : UInt64) : Option Bytes :=
  if 1 ≤ sequenceNumber.toNat then history[sequenceNumber - 1]? else none

def exactMessageChaining (s : PBFTConsensus C) (msg : P2PMessage) : Bool :=
  let history := s.historyOf msg.senderId
  if history.isEmpty then
    true
  else
    match predecessorHash history msg.sequenceNumber with
    | none => msg.prevMessageHash == [] || msg.prevMessageHash == s.genesisHash
    | some prevHash => prevHash == msg.prevMessageHash

structure ExactSequence (s : PBFTConsensus C) (msg : P2PMessage) (maxSeq : UInt64) : Prop where
  continuity : s.verifySequenceContinuity msg = true
    ↔ msg.sequenceNumber.toNat ≤ maxSeq.toNat + maxSequenceGap.toNat
  chaining : s.verifyMessageChaining msg = s.exactMessageChaining msg

section EndsAt

variable {s : PBFTConsensus C} {msg : P2PMessage} {maxSeq : UInt64} {hash : Bytes}

theorem continuity_exact_iff (h : EndsAt (s.historyOf msg.senderId) maxSeq hash)
    : (s.verifySequenceContinuity msg = true
        ↔ msg.sequenceNumber.toNat ≤ maxSeq.toNat + maxSequenceGap.toNat)
        ↔
      (maxSeq.toNat + 100 < 2 ^ 64 ∨ msg.sequenceNumber.toNat + 2 ^ 64 ≤ maxSeq.toNat + 100) := by
  have hgap : maxSequenceGap.toNat = 100 := rfl
  have hseq := msg.sequenceNumber.toNat_lt
  have hmax := maxSeq.toNat_lt
  rw [verifySequenceContinuity_of_endsAt h]
  simp only [Bool.not_eq_true', decide_eq_false_iff_not, UInt64.lt_iff_toNat_lt, UInt64.toNat_add, hgap]
  omega

theorem chaining_exact_of_pos (hpos : 1 ≤ msg.sequenceNumber.toNat)
    : s.verifyMessageChaining msg = s.exactMessageChaining msg := by
  have hprev : predecessorHash (s.historyOf msg.senderId) msg.sequenceNumber
      = (s.historyOf msg.senderId)[msg.sequenceNumber - 1]? := if_pos hpos
  unfold verifyMessageChaining exactMessageChaining
  cases hentry : (s.historyOf msg.senderId)[msg.sequenceNumber - 1]? with
  | none => simp only [hprev, hentry]
  | some prev => simp only [hprev, hentry]

theorem exactMessageChaining_zero (h : EndsAt (s.historyOf msg.senderId) maxSeq hash)
    (hzero : msg.sequenceNumber = 0)
    : s.exactMessageChaining msg
        =
      (msg.prevMessageHash == [] || msg.prevMessageHash == s.genesisHash) := by
  unfold exactMessageChaining predecessorHash
  simp [h.isEmpty_eq, hzero]

theorem chaining_exact_iff (h : EndsAt (s.historyOf msg.senderId) maxSeq hash)
    : s.verifyMessageChaining msg = s.exactMessageChaining msg
        ↔
      (msg.sequenceNumber = 0 → maxSeq.toNat = 2 ^ 64 - 1 →
        (hash = msg.prevMessageHash
          ↔ msg.prevMessageHash = [] ∨ msg.prevMessageHash = s.genesisHash)) := by
  by_cases hzero : msg.sequenceNumber = 0
  . have hpred : (msg.sequenceNumber - 1).toNat = 2 ^ 64 - 1 := by
      rw [hzero]
      rfl
    rw [exactMessageChaining_zero h hzero]
    by_cases hlast : maxSeq.toNat = 2 ^ 64 - 1
    . have heq : msg.sequenceNumber - 1 = maxSeq := by
        apply UInt64.toNat.inj
        rw [hpred, hlast]
      rw [verifyMessageChaining_of_endsAt h heq, Bool.eq_iff_iff]
      simp [hzero, hlast]
    . have hlt : maxSeq < msg.sequenceNumber - 1 := by
        have := maxSeq.toNat_lt
        rw [UInt64.lt_iff_toNat_lt, hpred]
        omega
      rw [verifyMessageChaining_of_lt h hlt]
      exact ⟨fun _ _ hmax => absurd hmax hlast, fun _ => rfl⟩
  . have hpos : 1 ≤ msg.sequenceNumber.toNat := by
      have hne : msg.sequenceNumber.toNat ≠ 0 := fun h0 => hzero (UInt64.toNat.inj h0)
      omega
    simp [chaining_exact_of_pos hpos, hzero]

end EndsAt

theorem exactSequence_iff (s : PBFTConsensus C) (msg : P2PMessage) (maxSeq : UInt64) (hash : Bytes)
    (h : EndsAt (s.historyOf msg.senderId) maxSeq hash)
    : s.ExactSequence msg maxSeq
        ↔
      (maxSeq.toNat + 100 < 2 ^ 64 ∨ msg.sequenceNumber.toNat + 2 ^ 64 ≤ maxSeq.toNat + 100)
        ∧
      (msg.sequenceNumber = 0 → maxSeq.toNat = 2 ^ 64 - 1 →
        (hash = msg.prevMessageHash
          ↔ msg.prevMessageHash = [] ∨ msg.prevMessageHash = s.genesisHash)) := by
  rw [← continuity_exact_iff h, ← chaining_exact_iff h]
  exact ⟨fun hexact => ⟨hexact.continuity, hexact.chaining⟩, fun hboth => ⟨hboth.1, hboth.2⟩⟩

def receiverAt (k : Nat) : PBFTConsensus .plain :=
  (sampleReceiver.advanceState default (sampleMessage [] k)).2

theorem endsAt_receiverAt (k : Nat)
    : EndsAt ((receiverAt k).historyOf (bytes "B")) (UInt64.ofNat k)
        (computeMessageHash .plain (sampleMessage [] k)) := by
  have hadmits : sampleReceiver.Admits default (sampleMessage [] k) := by
    constructor
    . change bytes "B" ∉ sampleReceiver.bannedPeers
      decide
    . change bytes "B" ∈ sampleReceiver.peerPublicKeys
      decide +kernel
    . change (sampleReceiver.checkRateLimit 0 (bytes "B")).1 = true
      decide +kernel
    . change _ ∉ (∅ : KeySet)
      simp
  unfold receiverAt
  rw [historyOf_advanceState hadmits]
  change EndsAt (evictHistory ((sampleReceiver.historyOf (bytes "B")).insert (UInt64.ofNat k) _)) _ _
  apply endsAt_evictHistory
  apply endsAt_insert
  intro j hj
  have hempty : sampleReceiver.historyOf (bytes "B") = ∅ := rfl
  simp [hempty] at hj

theorem exactSequence_receiverAt : (receiverAt 7).ExactSequence (sampleMessage [] 107) 7 := by
  rw [exactSequence_iff _ _ _ _ (endsAt_receiverAt 7)]
  refine ⟨.inl (by decide), fun hzero => absurd hzero (by decide)⟩

/--
The largest recorded number is `2 ^ 64 - 50` and the next one is rejected, since the sum with
`MAX_SEQUENCE_GAP` is `50`.
-/
theorem not_forall_exactSequence
    : ¬ ∀ (s : PBFTConsensus .plain) (msg : P2PMessage) (maxSeq : UInt64) (hash : Bytes),
        EndsAt (s.historyOf msg.senderId) maxSeq hash → s.ExactSequence msg maxSeq := by
  intro h
  have hends := endsAt_receiverAt (2 ^ 64 - 50)
  have hexact := h _ (sampleMessage [] (2 ^ 64 - 49)) _ _ hends
  have haccepts := hexact.continuity.mpr (by decide)
  rw [verifySequenceContinuity_of_endsAt hends] at haccepts
  revert haccepts
  decide

end PBFTConsensus
end NeuroMesh
