import NeuroMesh.Consensus.PBFT.Impl.Call
import NeuroMesh.Consensus.PBFT.Lemmas.Advance
import NeuroMesh.Consensus.PBFT.Lemmas.History
import NeuroMesh.Consensus.PBFT.Lemmas.Verify

/-!
This module contains the frame lemmas of `PBFTConsensus`: a call that is not about a peer leaves
everything alone that the object knows about this peer.
-/

namespace NeuroMesh
namespace PBFTConsensus

variable {C : IdentityCore}

structure SameAbout (nodeId : Bytes) (s t : PBFTConsensus C) : Prop where
  key_eq : t.peerPublicKeys[nodeId]? = s.peerPublicKeys[nodeId]?
  banned_iff : nodeId ∈ t.bannedPeers ↔ nodeId ∈ s.bannedPeers
  history_eq : t.historyOf nodeId = s.historyOf nodeId
  trust_eq : t.trustOf nodeId = s.trustOf nodeId
  genesisHash_eq : t.genesisHash = s.genesisHash

namespace SameAbout

variable {nodeId : Bytes} {s t u : PBFTConsensus C}

@[simp]
theorem refl (nodeId : Bytes) (s : PBFTConsensus C) : SameAbout nodeId s s := by
  constructor <;> simp

theorem trans (h₁ : SameAbout nodeId s t) (h₂ : SameAbout nodeId t u) : SameAbout nodeId s u := by
  constructor
  . exact h₂.key_eq.trans h₁.key_eq
  . exact h₂.banned_iff.trans h₁.banned_iff
  . exact h₂.history_eq.trans h₁.history_eq
  . exact h₂.trust_eq.trans h₁.trust_eq
  . exact h₂.genesisHash_eq.trans h₁.genesisHash_eq

theorem mem_peerPublicKeys_iff (h : SameAbout nodeId s t)
    : nodeId ∈ t.peerPublicKeys ↔ nodeId ∈ s.peerPublicKeys := by
  rw [Std.ExtTreeMap.mem_iff_isSome_getElem?, h.key_eq, ← Std.ExtTreeMap.mem_iff_isSome_getElem?]

end SameAbout

section Frame

variable (s : PBFTConsensus C) (now : Time) {nodeId other : Bytes}

theorem trustOf_setTrust (trust : NodeTrustScore)
    : (s.setTrust other trust).trustOf nodeId
        =
      if other = nodeId then trust else s.trustOf nodeId := by
  unfold trustOf setTrust
  simp only [Std.ExtTreeMap.getD_insert, Std.compare_eq_iff_eq]

theorem sameAbout_setTrust (h : other ≠ nodeId) (trust : NodeTrustScore)
    : SameAbout nodeId s (s.setTrust other trust) := by
  constructor
  case trust_eq =>
    rw [trustOf_setTrust]
    simp [h]
  all_goals rfl

theorem sameAbout_recordSuccess (h : other ≠ nodeId)
    : SameAbout nodeId s (s.recordSuccess other) := by
  exact s.sameAbout_setTrust h _

theorem sameAbout_recordEquivocation (h : other ≠ nodeId)
    : SameAbout nodeId s (s.recordEquivocation now other) := by
  exact s.sameAbout_setTrust h _

theorem sameAbout_banPeerLocked (h : other ≠ nodeId)
    : SameAbout nodeId s (s.banPeerLocked other) := by
  constructor
  case banned_iff => simp [banPeerLocked, h.symm]
  all_goals rfl

theorem sameAbout_prunePeerLocked (h : other ≠ nodeId)
    : SameAbout nodeId s (s.prunePeerLocked other) := by
  constructor
  case key_eq => simp [prunePeerLocked, Std.ExtTreeMap.getElem?_erase, h]
  case history_eq => simp [prunePeerLocked, historyOf, Std.ExtTreeMap.getD_erase, h]
  case trust_eq => simp [prunePeerLocked, trustOf, Std.ExtTreeMap.getD_erase, h]
  all_goals rfl

theorem sameAbout_recentBans (bans : KeySet)
    : SameAbout nodeId s { s with recentBans := bans } := by
  constructor <;> rfl

theorem sameAbout_recordFailure (h : other ≠ nodeId)
    : SameAbout nodeId s (s.recordFailure now other) := by
  unfold recordFailure
  dsimp
  split
  . refine .trans ?_ (sameAbout_prunePeerLocked _ h)
    refine .trans ?_ (sameAbout_recentBans _ _)
    refine .trans ?_ (sameAbout_banPeerLocked _ h)
    exact s.sameAbout_setTrust h _
  . exact s.sameAbout_setTrust h _

theorem sameAbout_cleanupStaleRounds : SameAbout nodeId s (s.cleanupStaleRounds now) := by
  constructor <;> rfl

theorem sameAbout_checkRateLimit (senderId : Bytes)
    : SameAbout nodeId s (s.checkRateLimit now senderId).2 := by
  obtain ⟨_, heq⟩ := s.snd_checkRateLimit now senderId
  rw [heq]
  constructor <;> rfl

theorem sameAbout_rememberMessage (a : Ambient) (msgHash : Bytes)
    : SameAbout nodeId s (s.rememberMessage a msgHash) := by
  obtain ⟨_, heq⟩ := s.rememberMessage_eq a msgHash
  rw [heq]
  constructor <;> rfl

theorem sameAbout_detectEquivocation {msg : P2PMessage} (h : msg.senderId ≠ nodeId) (msgHash : Bytes)
    : SameAbout nodeId s (s.detectEquivocation now msg msgHash) := by
  have hhistory := s.historyOf_detectEquivocation now msg msgHash nodeId
  rw [if_neg h] at hhistory
  have hequiv := s.sameAbout_recordEquivocation now h
  constructor
  case history_eq => exact hhistory
  case trust_eq =>
    unfold detectEquivocation
    dsimp
    split
    . rfl
    . split
      . exact hequiv.trust_eq
      . rfl
  all_goals
    obtain ⟨_, _, _, heq⟩ := s.detectEquivocation_eq now msg msgHash
    rw [heq]

theorem sameAbout_castVote (msg : P2PMessage) (key msgHash : Bytes)
    : SameAbout nodeId s (s.castVote now msg key msgHash).2 := by
  obtain ⟨_, _, heq⟩ := s.snd_castVote now msg key msgHash
  rw [heq]
  constructor <;> rfl

theorem sameAbout_verifyMessage {msg : P2PMessage} (h : msg.senderId ≠ nodeId)
    : SameAbout nodeId s (s.verifyMessage now msg).2 := by
  exact verifyMessage_rule (P := SameAbout nodeId s) (.refl nodeId s) (s.sameAbout_recordFailure now h) (s.sameAbout_recordSuccess h)

theorem sameAbout_mayVote (a : Ambient) {msg : P2PMessage} (h : msg.senderId ≠ nodeId)
    : SameAbout nodeId s (s.mayVote a msg).2 := by
  have hlimit : SameAbout nodeId s
      ((s.cleanupStaleRounds a.now).checkRateLimit a.now msg.senderId).2 :=
    (s.sameAbout_cleanupStaleRounds a.now).trans (sameAbout_checkRateLimit _ a.now _)
  have hcases := s.mayVote_cases a msg
  generalize s.mayVote a msg = res at *
  cases hcases with
  | banned => exact .refl nodeId s
  | unknown => exact .refl nodeId s
  | limited => exact hlimit.trans (sameAbout_recordFailure _ a.now h)
  | seen => exact hlimit
  | admitted =>
    exact (hlimit.trans (sameAbout_rememberMessage _ a _)).trans
      (sameAbout_detectEquivocation _ a.now h _)

theorem sameAbout_advanceState (a : Ambient) {msg : P2PMessage} (h : msg.senderId ≠ nodeId)
    : SameAbout nodeId s (s.advanceState a msg).2 := by
  have hmay := s.sameAbout_mayVote a h
  by_cases hadmits : s.Admits a msg
  . rw [advanceState_of_admits hadmits]
    exact hmay.trans (sameAbout_castVote _ a.now msg _ _)
  . rw [advanceState_of_not_admits hadmits]
    exact hmay

theorem sameAbout_receive (a : Ambient) {msg : P2PMessage} (h : msg.senderId ≠ nodeId)
    : SameAbout nodeId s (s.receive now a msg).2 := by
  have hverify := s.sameAbout_verifyMessage now h
  unfold receive
  split
  . next heq => simpa only [heq] using hverify
  . next heq =>
    rw [heq] at hverify
    exact hverify.trans (sameAbout_advanceState _ a h)

end Frame

/-
What an admitted message changes about its own sender, and what any message adds to the ones seen.
-/
section Admitted

variable {s : PBFTConsensus C} {a : Ambient} {msg : P2PMessage}

theorem historyOf_advanceState (hadmits : s.Admits a msg) (nodeId : Bytes)
    : (s.advanceState a msg).2.historyOf nodeId
        =
      if msg.senderId = nodeId then
        evictHistory ((s.historyOf nodeId).insert msg.sequenceNumber (computeMessageHash C msg))
      else
        s.historyOf nodeId := by
  have hsame : SameAbout nodeId s
      (((s.cleanupStaleRounds a.now).checkRateLimit a.now msg.senderId).2.rememberMessage a
        (computeMessageHash C msg)) :=
    ((s.sameAbout_cleanupStaleRounds a.now).trans (sameAbout_checkRateLimit _ a.now _)).trans
      (sameAbout_rememberMessage _ a _)
  rw [advanceState_of_admits hadmits, (sameAbout_castVote _ a.now msg _ _).history_eq,
    snd_mayVote_of_admits hadmits, historyOf_detectEquivocation, hsame.history_eq]

theorem registry_castVote (s : PBFTConsensus C) (now : Time) (msg : P2PMessage) (key msgHash : Bytes)
    : (s.castVote now msg key msgHash).2.registry
        =
      {
        s.registry with
        voteRegistry := (s.castVote now msg key msgHash).2.voteRegistry
        rounds := (s.castVote now msg key msgHash).2.rounds
      } := by
  obtain ⟨_, _, heq⟩ := s.snd_castVote now msg key msgHash
  rw [heq]
  rfl

theorem registry_advanceState (hadmits : s.Admits a msg)
    : (s.advanceState a msg).2.registry
        =
      {
        s.registry with
        voteRegistry := (s.advanceState a msg).2.voteRegistry
        rounds := (s.advanceState a msg).2.rounds
      } := by
  rw [advanceState_of_admits hadmits]
  rw [registry_castVote]
  rw [registry_mayVote hadmits]
  rfl

end Admitted

theorem verifyMessage_of_verifies {s : PBFTConsensus C} {msg : P2PMessage} (h : s.Verifies msg)
    (now : Time)
    : s.verifyMessage now msg = (true, s.recordSuccess msg.senderId) := by
  have hcases := s.verifyMessage_cases now msg
  generalize s.verifyMessage now msg = res at *
  cases hcases with
  | banned hban => exact absurd hban h.notBanned
  | unknown _ hkey => exact absurd h.known hkey
  | rejected _ _ hinvalid => exact absurd h hinvalid
  | verified => rfl

theorem receive_of_verifies {s : PBFTConsensus C} {msg : P2PMessage} (h : s.Verifies msg)
    (now : Time) (a : Ambient)
    : s.receive now a msg
        =
      (
        some ((s.recordSuccess msg.senderId).advanceState a msg).1,
        ((s.recordSuccess msg.senderId).advanceState a msg).2
      ) := by
  unfold receive
  rw [verifyMessage_of_verifies h]

theorem receive_of_not_verifies {s : PBFTConsensus C} {msg : P2PMessage} (h : ¬s.Verifies msg)
    (now : Time) (a : Ambient)
    : s.receive now a msg = (none, (s.verifyMessage now msg).2) := by
  rw [← verifyMessage_eq_true_iff s now] at h
  unfold receive
  split
  . next heq => rw [heq]
  . next heq => simp [heq] at h

theorem triggers_receive {s : PBFTConsensus C} {now : Time} {a : Ambient} {msg : P2PMessage}
    {next : PBFTStage} (h : (s.receive now a msg).1 = some next)
    : Triggers msg.stageStr next := by
  by_cases hvalid : s.Verifies msg
  . rw [receive_of_verifies hvalid] at h
    cases h
    exact triggers_advanceState _ a msg
  . simp [receive_of_not_verifies hvalid] at h

theorem admits_recordSuccess_iff {s : PBFTConsensus C} {a : Ambient} {msg : P2PMessage}
    (nodeId : Bytes)
    : (s.recordSuccess nodeId).Admits a msg ↔ s.Admits a msg := by
  have hrate : ((s.recordSuccess nodeId).checkRateLimit a.now msg.senderId).1
      = (s.checkRateLimit a.now msg.senderId).1 := by
    rw [fst_checkRateLimit, fst_checkRateLimit]
    rfl
  constructor
  . intro h
    exact ⟨h.notBanned, h.known, hrate ▸ h.withinRate, h.unseen⟩
  . intro h
    exact ⟨h.notBanned, h.known, hrate.trans h.withinRate, h.unseen⟩

section Seen

variable (s : PBFTConsensus C) (now : Time) (a : Ambient) (msg : P2PMessage)

theorem seenMessages_recordFailure (nodeId : Bytes)
    : (s.recordFailure now nodeId).seenMessages = s.seenMessages := by
  unfold recordFailure
  dsimp
  split <;> rfl

theorem seenMessages_verifyMessage
    : (s.verifyMessage now msg).2.seenMessages = s.seenMessages := by
  exact verifyMessage_rule (P := (·.seenMessages = s.seenMessages)) rfl
    (s.seenMessages_recordFailure now msg.senderId) rfl

theorem seenMessages_castVote (key msgHash : Bytes)
    : (s.castVote now msg key msgHash).2.seenMessages = s.seenMessages := by
  obtain ⟨_, _, heq⟩ := s.snd_castVote now msg key msgHash
  rw [heq]

theorem seenMessages_detectEquivocation (msgHash : Bytes)
    : (s.detectEquivocation now msg msgHash).seenMessages = s.seenMessages := by
  obtain ⟨_, _, _, heq⟩ := s.detectEquivocation_eq now msg msgHash
  rw [heq]

def seenWith (a : Ambient) (seen : KeySet) (msgHash : Bytes) : KeySet :=
  let seen := seen.insert msgHash
  if maxSeenMessages < seen.size then
    seen.filter fun hash => hash ∉ (a.bucketOrder seen.toList).take (seen.size / 2)
  else
    seen

theorem seenMessages_rememberMessage (msgHash : Bytes)
    : (s.rememberMessage a msgHash).seenMessages = seenWith a s.seenMessages msgHash := by
  unfold rememberMessage seenWith
  dsimp only
  split <;> rfl

theorem mem_of_mem_seenWith {a : Ambient} {seen : KeySet} {hash msgHash : Bytes} (h : hash ∈ seenWith a seen msgHash)
    : hash ∈ seen ∨ hash = msgHash := by
  have hinsert : hash ∈ seen.insert msgHash → hash ∈ seen ∨ hash = msgHash := by
    intro h
    rw [Std.ExtTreeSet.mem_insert, Std.compare_eq_iff_eq] at h
    exact h.symm.imp id Eq.symm
  unfold seenWith at h
  dsimp at h
  split at h
  . exact hinsert (Std.ExtTreeSet.mem_of_mem_filter h)
  . exact hinsert h

end Seen

section Seen

variable {s : PBFTConsensus C} {a : Ambient} {msg : P2PMessage} {call : Call C} {hash : Bytes}

theorem seenMessages_advanceState_of_admits (hadmits : s.Admits a msg)
    : (s.advanceState a msg).2.seenMessages = seenWith a s.seenMessages (computeMessageHash C msg) := by
  rw [advanceState_of_admits hadmits, seenMessages_castVote, snd_mayVote_of_admits hadmits,
    seenMessages_detectEquivocation, seenMessages_rememberMessage, seenMessages_checkRateLimit]
  rfl

theorem seenMessages_advanceState_of_not_admits (hadmits : ¬s.Admits a msg)
    : (s.advanceState a msg).2.seenMessages = s.seenMessages := by
  have hlimit := seenMessages_checkRateLimit (s.cleanupStaleRounds a.now) a.now msg.senderId
  rw [advanceState_of_not_admits hadmits]
  rw [← mayVote_eq_true_iff] at hadmits
  have h := s.mayVote_cases a msg
  generalize s.mayVote a msg = res at *
  cases h with
  | limited => rwa [seenMessages_recordFailure]
  | seen => exact hlimit
  | admitted => simp at hadmits
  | _ => rfl

theorem mem_seenMessages_advanceState (s : PBFTConsensus C) (a : Ambient) (msg : P2PMessage)
    (h : hash ∈ (s.advanceState a msg).2.seenMessages)
    : hash ∈ s.seenMessages ∨ hash = computeMessageHash C msg := by
  by_cases hadmits : s.Admits a msg
  . rw [seenMessages_advanceState_of_admits hadmits] at h
    exact mem_of_mem_seenWith h
  . rw [seenMessages_advanceState_of_not_admits hadmits] at h
    exact .inl h

theorem seenMessages_step_of_ne_advanceState (hop : ∀ msg, call.op ≠ .advanceState msg)
    : (s.step call).seenMessages = s.seenMessages := by
  obtain ⟨a, op⟩ := call
  cases op with
  | verifyMessage msg => exact s.seenMessages_verifyMessage a.now msg
  | advanceState msg => exact absurd rfl (hop msg)
  | proposeBan targetId reason =>
    change (s.proposeBan targetId reason).2.seenMessages = s.seenMessages
    rcases s.snd_proposeBan_cases targetId reason with heq | heq
    . rw [heq]
    . rw [heq]
      rfl
  | tryIncrementPeers nodeId =>
    unfold step tryIncrementPeers
    dsimp only
    split <;> rfl
  | _ => rfl

theorem mem_seenMessages_step (h : hash ∈ (s.step call).seenMessages)
    : hash ∈ s.seenMessages
        ∨
      ∃ msg, call.op = .advanceState msg ∧ hash = computeMessageHash C msg := by
  by_cases hop : ∀ msg, call.op ≠ .advanceState msg
  . rw [seenMessages_step_of_ne_advanceState hop] at h
    exact .inl h
  . push Not at hop
    obtain ⟨a, op⟩ := call
    obtain ⟨msg, rfl⟩ := hop
    exact (s.mem_seenMessages_advanceState a msg h).imp id (⟨msg, rfl, ·⟩)

end Seen

def Foreign (nodeId : Bytes) (op : Op C) : Prop :=
  match op with
  | .verifyMessage msg => msg.senderId ≠ nodeId
  | .advanceState msg => msg.senderId ≠ nodeId
  | .registerPeerKey peerId _ => peerId ≠ nodeId
  | .prunePeer peerId => peerId ≠ nodeId
  | .banPeerLocal peerId _ => peerId ≠ nodeId
  | .proposeBan peerId _ => peerId ≠ nodeId
  | _ => True

theorem sameAbout_step (s : PBFTConsensus C) (call : Call C) {nodeId : Bytes}
    (h : Foreign nodeId call.op)
    : SameAbout nodeId s (s.step call) := by
  unfold step
  cases hop : call.op with
  | verifyMessage msg =>
    rw [hop] at h
    exact s.sameAbout_verifyMessage call.ambient.now h
  | advanceState msg =>
    rw [hop] at h
    exact s.sameAbout_advanceState call.ambient h
  | registerPeerKey peerId pemKey =>
    rw [hop] at h
    have hne : peerId ≠ nodeId := h
    constructor
    case key_eq => simp [registerPeerKey, Std.ExtTreeMap.getElem?_insert, hne]
    case trust_eq => simp [registerPeerKey, trustOf, Std.ExtTreeMap.getD_insert, hne]
    all_goals rfl
  | prunePeer peerId =>
    rw [hop] at h
    exact s.sameAbout_prunePeerLocked h
  | banPeerLocal peerId reason =>
    rw [hop] at h
    exact s.sameAbout_banPeerLocked h
  | proposeBan targetId reason =>
    rw [hop] at h
    have hban := s.sameAbout_banPeerLocked h
    simp only [proposeBan]
    split
    . exact .refl nodeId s
    . split
      . exact .refl nodeId s
      . exact hban
  | tryIncrementPeers peerId =>
    simp only [tryIncrementPeers]
    split
    all_goals constructor <;> rfl
  | _ => constructor <;> rfl

end PBFTConsensus
end NeuroMesh
