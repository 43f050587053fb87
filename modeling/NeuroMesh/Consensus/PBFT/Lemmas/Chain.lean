import NeuroMesh.Consensus.PBFT.Lemmas.Frame
import NeuroMesh.Consensus.PBFT.Lemmas.Message
import NeuroMesh.Data.Run

namespace NeuroMesh
namespace PBFTConsensus

variable {C : IdentityCore}

structure HonestSender (C : IdentityCore) where
  id : Bytes
  key : Option C.PubKey
  first : Nat
  message : Nat → P2PMessage
  senderId_message : ∀ k, (message k).senderId = id
  sequenceNumber_message : ∀ k, (message k).sequenceNumber = UInt64.ofNat k
  prevMessageHash_message :
    ∀ k, first ≤ k → (message (k + 1)).prevMessageHash = computeMessageHash C (message k)
  signed : ∀ k, first ≤ k → C.verifyWith key (message k).blob (message k).signature = true
  pipe_notMem_id : pipe ∉ id
  pipe_notMem_stage : ∀ k, pipe ∉ (message k).stageStr

inductive Traffic (C : IdentityCore) where
  | deliver (now : Time) (a : Ambient) (k : Nat)
  | other (call : Call C)

def delivered (traffic : List (Traffic C)) : List Nat :=
  traffic.filterMap fun
    | .deliver _ _ k => some k
    | .other _ => none

namespace HonestSender

variable (S : HonestSender C)

def handle (s : PBFTConsensus C) (traffic : Traffic C) : PBFTConsensus C :=
  match traffic with
  | .deliver now a k => (s.receive now a (S.message k)).2
  | .other call => s.step call

def Accepted (s : PBFTConsensus C) (traffic : Traffic C) : Prop :=
  match traffic with
  | .deliver now _ k => (s.verifyMessage now (S.message k)).1 = true
  | .other _ => True

/--
Deliveries are within the rate limit. Everything else is not about the sender, and messages of others
have no separator in their first two fields, which is how `process_message` gets them.
-/
def Permitted (s : PBFTConsensus C) (traffic : Traffic C) : Prop :=
  match traffic with
  | .deliver _ a k => S.first ≤ k ∧ k < 2 ^ 64 ∧ (s.checkRateLimit a.now S.id).1 = true
  | .other call =>
    Foreign S.id call.op
      ∧ ∀ msg, call.op = .advanceState msg → pipe ∉ msg.stageStr ∧ pipe ∉ msg.senderId

structure Tracks (last : Option Nat) (s : PBFTConsensus C) : Prop where
  genesisHash_eq : s.genesisHash = C.sha256Hex (bytes "GENESIS")
  notBanned : S.id ∉ s.bannedPeers
  key_eq : s.peerPublicKeys[S.id]? = some S.key
  history : match last with
    | none => s.historyOf S.id = ∅
    | some i => EndsAt (s.historyOf S.id) (UInt64.ofNat i) (computeMessageHash C (S.message i))
  unseen : ∀ k, S.first ≤ k → k < 2 ^ 64 → (∀ i ∈ last, i < k) →
    computeMessageHash C (S.message k) ∉ s.seenMessages

variable {S} {s : PBFTConsensus C} {last : Option Nat}

namespace Tracks

theorem known (h : S.Tracks last s) : S.id ∈ s.peerPublicKeys := by
  rw [Std.ExtTreeMap.mem_iff_isSome_getElem?, h.key_eq]
  rfl

theorem signedBySender (h : S.Tracks last s) {k : Nat} (hk : S.first ≤ k)
    : s.SignedBySender (S.message k) := by
  unfold SignedBySender
  rw [S.senderId_message, Std.ExtTreeMap.getD_eq_getD_getElem?, h.key_eq]
  exact S.signed k hk

theorem verifies_iff (h : S.Tracks last s) {k : Nat} (hk : S.first ≤ k)
    : s.Verifies (S.message k)
        ↔
      s.verifyMessageChaining (S.message k) = true
        ∧
      s.verifySequenceContinuity (S.message k) = true := by
  constructor
  . intro hvalid
    exact ⟨hvalid.chained, hvalid.continuous⟩
  . intro hboth
    have hban := h.notBanned
    have hknown := h.known
    rw [← S.senderId_message k] at hban hknown
    exact ⟨hban, hknown, h.signedBySender hk, hboth.1, hboth.2⟩

theorem verifies_first (h : S.Tracks none s) {k : Nat} (hk : S.first ≤ k)
    : s.Verifies (S.message k) := by
  have hempty : s.historyOf S.id = ∅ := h.history
  rw [h.verifies_iff hk]
  unfold verifyMessageChaining verifySequenceContinuity
  simp [S.senderId_message, hempty]

theorem verifies_next_iff (hfree : C.CollisionFree) (hhex : C.HexDigest) {i j : Nat}
    (h : S.Tracks (some i) s) (hi : S.first ≤ i) (hij : i < j) (hj : j < 2 ^ 64)
    : s.Verifies (S.message j) ↔ j = i + 1 ∧ i + 100 < 2 ^ 64 := by
  obtain ⟨j, rfl⟩ : ∃ j', j = j' + 1 := ⟨j - 1, by omega⟩
  have hends : EndsAt (s.historyOf (S.message (j + 1)).senderId) (UInt64.ofNat i)
      (computeMessageHash C (S.message i)) := by
    rw [S.senderId_message]
    exact h.history
  have hpred : (S.message (j + 1)).sequenceNumber - 1 = UInt64.ofNat j := by
    rw [S.sequenceNumber_message]
    apply UInt64.toNat.inj
    simp
  have hprev : (S.message (j + 1)).prevMessageHash = computeMessageHash C (S.message j) :=
    S.prevMessageHash_message j (by omega)
  rw [h.verifies_iff (by omega), verifySequenceContinuity_of_endsAt hends]
  by_cases heq : j = i
  . subst heq
    rw [verifyMessageChaining_of_endsAt hends hpred, hprev, S.sequenceNumber_message]
    have hj' : (UInt64.ofNat (j + 1)).toNat = j + 1 := by simp; omega
    have hsum : (UInt64.ofNat j + maxSequenceGap).toNat = (j + 100) % 2 ^ 64 := by
      simp [maxSequenceGap]
    simp only [beq_self_eq_true, UInt64.lt_iff_toNat_lt, hj', hsum]
    simp
    omega
  . have hlt : UInt64.ofNat i < (S.message (j + 1)).sequenceNumber - 1 := by
      rw [hpred, UInt64.lt_iff_toNat_lt]
      simp
      omega
    rw [verifyMessageChaining_of_lt hends hlt, hprev, h.genesisHash_eq]
    have hnil : computeMessageHash C (S.message j) ≠ [] := (hhex _).1
    have hgenesis := computeMessageHash_ne_genesis hfree (S.message j)
    simp [hnil, hgenesis]
    omega

theorem other (hfree : C.CollisionFree) (h : S.Tracks last s) {call : Call C}
    (hcall : S.Permitted s (.other call))
    : S.Tracks last (s.step call) := by
  have hsame := s.sameAbout_step call hcall.1
  constructor
  . exact hsame.genesisHash_eq.trans h.genesisHash_eq
  . exact hsame.banned_iff.not.mpr h.notBanned
  . exact hsame.key_eq.trans h.key_eq
  . rw [hsame.history_eq]
    exact h.history
  . intro k hk hk' hlast hseen
    cases mem_seenMessages_step hseen with
    | inl hold => exact h.unseen k hk hk' hlast hold
    | inr hnew =>
      obtain ⟨msg, hop, hhash⟩ := hnew
      have hforeign := hcall.1
      rw [hop] at hforeign
      obtain ⟨hstage, hsender⟩ := hcall.2 msg hop
      have hsame := senderId_eq_of_computeMessageHash_eq hfree (S.pipe_notMem_stage k) hstage
        (S.senderId_message k ▸ S.pipe_notMem_id) hsender hhash
      exact hforeign (hsame.symm.trans (S.senderId_message k))

theorem le_of_mem_history (h : S.Tracks last s) {j : Nat} (hj : j < 2 ^ 64)
    (hlast : ∀ i ∈ last, i < j)
    : ∀ k ∈ s.historyOf S.id, k ≤ UInt64.ofNat j := by
  intro k hk
  cases last with
  | none =>
    have hempty : s.historyOf S.id = ∅ := h.history
    simp [hempty] at hk
  | some i =>
    have hij := hlast i rfl
    have hle := EndsAt.le_of_mem h.history k hk
    rw [UInt64.le_iff_toNat_le] at *
    simp at *
    omega

theorem deliver (hfree : C.CollisionFree) (h : S.Tracks last s) {now : Time} {a : Ambient} {j : Nat}
    (hj : S.Permitted s (.deliver now a j)) (hlast : ∀ i ∈ last, i < j)
    (hvalid : s.Verifies (S.message j))
    : S.Tracks (some j) (s.receive now a (S.message j)).2 := by
  obtain ⟨hfirst, hbound, hrate⟩ := hj
  have hadmits : s.Admits a (S.message j) :=
    ⟨hvalid.notBanned, hvalid.known, by rwa [S.senderId_message], h.unseen j hfirst hbound hlast⟩
  rw [receive_of_verifies hvalid]
  have hadmits' := (admits_recordSuccess_iff (S.message j).senderId).mpr hadmits
  have hregistry := registry_advanceState hadmits'
  have hbanned := congrArg Registry.bannedPeers hregistry
  have hkeys := congrArg Registry.peerPublicKeys hregistry
  dsimp [registry] at hbanned hkeys
  constructor
  . exact (congrArg Registry.genesisHash hregistry).trans h.genesisHash_eq
  . dsimp
    rw [hbanned]
    exact h.notBanned
  . dsimp
    rw [hkeys]
    exact h.key_eq
  . dsimp
    rw [historyOf_advanceState hadmits', if_pos (S.senderId_message j), S.sequenceNumber_message]
    apply endsAt_evictHistory
    apply endsAt_insert
    exact h.le_of_mem_history hbound hlast
  . intro k hk hk' hkj hseen
    have hkj' := hkj j rfl
    cases mem_seenMessages_advanceState _ a _ hseen with
    | inl hold =>
      apply h.unseen k hk hk' _ hold
      intro i hi
      have := hlast i hi
      omega
    | inr hnew =>
      have hseq := sequenceNumber_eq_of_computeMessageHash_eq hfree hnew
      rw [S.sequenceNumber_message, S.sequenceNumber_message] at hseq
      have hnat := congrArg UInt64.toNat hseq
      simp at hnat
      omega

end Tracks

def Consecutive (i j : Nat) : Prop :=
  j = i + 1 ∧ i + 100 < 2 ^ 64

theorem along_accepted_iff (hfree : C.CollisionFree) (hhex : C.HexDigest) (h : S.Tracks last s)
    (hfirst : ∀ i ∈ last, S.first ≤ i) (traffic : List (Traffic C))
    (henv : Run.Along S.handle S.Permitted s traffic)
    (horder : (last.toList ++ delivered traffic).IsChain (· < ·))
    : Run.Along S.handle S.Accepted s traffic
        ↔
      (last.toList ++ delivered traffic).IsChain Consecutive := by
  induction traffic generalizing s last with
  | nil => cases last <;> simp [Run.Along, delivered]
  | cons event traffic ih =>
    obtain ⟨hevent, henv⟩ := henv
    cases event with
    | other call =>
      have hrest := ih (h.other hfree hevent) hfirst henv horder
      exact (and_iff_right trivial).trans hrest
    | deliver now a j =>
      have hcons : delivered (.deliver now a j :: traffic) = j :: delivered traffic := rfl
      rw [hcons] at horder ⊢
      have hlast : ∀ i ∈ last, i < j := by
        intro i hi
        cases hi
        exact (List.isChain_cons_cons.mp horder).1
      have haccepted : S.Accepted s (.deliver now a j) ↔ s.Verifies (S.message j) :=
        s.verifyMessage_eq_true_iff now (S.message j)
      have hlater : (j :: delivered traffic).IsChain (· < ·) := by
        cases last with
        | none => exact horder
        | some i => exact (List.isChain_cons_cons.mp horder).2
      have hnext : s.Verifies (S.message j) →
          (Run.Along S.handle S.Accepted (S.handle s (.deliver now a j)) traffic
            ↔ (j :: delivered traffic).IsChain Consecutive) := by
        intro hvalid
        exact ih (h.deliver hfree hevent hlast hvalid) (by simpa using hevent.1) henv hlater
      simp only [Run.Along, haccepted]
      cases last with
      | none =>
        have hvalid := h.verifies_first hevent.1
        simpa [hvalid] using hnext hvalid
      | some i =>
        have hvalid := h.verifies_next_iff hfree hhex (hfirst i rfl) (hlast i rfl) hevent.2.1
        simp only [Option.toList_some, List.cons_append, List.nil_append, List.isChain_cons_cons]
        constructor
        . intro hboth
          exact ⟨hvalid.mp hboth.1, (hnext hboth.1).mp hboth.2⟩
        . intro hboth
          have hverifies := hvalid.mpr hboth.1
          exact ⟨hverifies, (hnext hverifies).mpr hboth.2⟩

end HonestSender

/--
A receiver that got no message of the sender before accepts all of the messages delivered to it in
order if and only if none is missing between them. The tolerance of `MAX_SEQUENCE_GAP` never applies.
-/
theorem accepts_delivered_iff (hfree : C.CollisionFree) (hhex : C.HexDigest) (S : HonestSender C)
    (s : PBFTConsensus C) (h : S.Tracks none s) (traffic : List (Traffic C))
    (henv : Run.Along S.handle S.Permitted s traffic)
    (horder : (delivered traffic).IsChain (· < ·))
    : Run.Along S.handle S.Accepted s traffic
        ↔
      (delivered traffic).IsChain HonestSender.Consecutive := by
  exact HonestSender.along_accepted_iff hfree hhex h (by simp) traffic henv horder

def sampleMessage (prev : Bytes) (k : Nat) : P2PMessage :=
  let msg : P2PMessage := {
    stageStr := Stage.prepare
    senderId := bytes "B"
    targetId := bytes "T"
    evidenceJson := bytes "\x7b\x7d"
    signature := []
    prevMessageHash := prev
    sequenceNumber := UInt64.ofNat k
    view := 0
  }
  { msg with signature := IdentityCore.plain.signPayload (bytes "B") msg.blob }

def sampleChain (k : Nat) : P2PMessage :=
  match k with
  | 0 => sampleMessage [] 0
  | k + 1 => sampleMessage (computeMessageHash .plain (sampleChain k)) (k + 1)

theorem sampleChain_eq (k : Nat) : ∃ prev, sampleChain k = sampleMessage prev k := by
  cases k with
  | zero => exact ⟨_, rfl⟩
  | succ k => exact ⟨_, rfl⟩

def sampleSender : HonestSender .plain where
  id := bytes "B"
  key := some (bytes "B")
  first := 1
  message := sampleChain
  senderId_message k := by
    obtain ⟨prev, h⟩ := sampleChain_eq k
    rw [h]
    rfl
  sequenceNumber_message k := by
    obtain ⟨prev, h⟩ := sampleChain_eq k
    rw [h]
    rfl
  prevMessageHash_message k _ := rfl
  signed k _ := by
    obtain ⟨prev, h⟩ := sampleChain_eq k
    rw [h]
    exact IdentityCore.plain_signatureCorrect (bytes "B") _
  pipe_notMem_id := by decide
  pipe_notMem_stage k := by
    obtain ⟨prev, h⟩ := sampleChain_eq k
    rw [h]
    change pipe ∉ Stage.prepare
    decide

def sampleReceiver : PBFTConsensus .plain :=
  (new .plain 4 none none).registerPeerKey (bytes "B") (bytes "B")

theorem sampleSender_tracks : sampleSender.Tracks none sampleReceiver := by
  constructor
  . rfl
  . decide
  . rfl
  . rfl
  . intro k _ _ _ hseen
    simp [sampleReceiver, registerPeerKey, new] at hseen

def sampleDelivery (k : Nat) : Traffic .plain :=
  .deliver 0 { now := 0, bucketOrder := id, bucketOrder_perm := List.Perm.refl } k

theorem accepts_delivered_sample
    : sampleSender.Tracks none sampleReceiver
        ∧
      Run.Along sampleSender.handle sampleSender.Permitted sampleReceiver
        [sampleDelivery 1, sampleDelivery 2]
        ∧
      Run.Along sampleSender.handle sampleSender.Accepted sampleReceiver
        [sampleDelivery 1, sampleDelivery 2] := by
  have henv : Run.Along sampleSender.handle sampleSender.Permitted sampleReceiver
      [sampleDelivery 1, sampleDelivery 2] := by
    refine ⟨⟨?_, ?_, ?_⟩, ⟨?_, ?_, ?_⟩, trivial⟩
    all_goals decide +kernel
  refine ⟨sampleSender_tracks, henv, ?_⟩
  rw [accepts_delivered_iff IdentityCore.plain_collisionFree IdentityCore.plain_hexDigest
    sampleSender sampleReceiver sampleSender_tracks _ henv (by decide)]
  simp [delivered, sampleDelivery, HonestSender.Consecutive]

theorem not_forall_accepts_delivered
    : ¬ ∀ (S : HonestSender .plain) (s : PBFTConsensus .plain) (traffic : List (Traffic .plain)),
        S.Tracks none s →
        Run.Along S.handle S.Permitted s traffic →
        (delivered traffic).IsChain (fun i j => i < j ∧ j ≤ i + maxSequenceGap.toNat) →
        Run.Along S.handle S.Accepted s traffic := by
  intro h
  have haccepted := h sampleSender sampleReceiver [sampleDelivery 1, sampleDelivery 3]
    sampleSender_tracks
    (by
      refine ⟨⟨?_, ?_, ?_⟩, ⟨?_, ?_, ?_⟩, trivial⟩
      all_goals decide +kernel)
    (by decide)
  have hthird := haccepted.2.1
  revert hthird
  unfold HonestSender.Accepted sampleDelivery
  decide +kernel

end PBFTConsensus
end NeuroMesh
