import NeuroMesh.Consensus.PBFT.Lemmas.Retain
import NeuroMesh.Consensus.PBFT.Lemmas.Roster

namespace NeuroMesh
namespace PBFTConsensus

variable {C : IdentityCore}

structure Accounted (s : PBFTConsensus C) : Prop where
  total_eq : s.totalNodes = s.registeredPeers.card
  registered_of_key : ∀ nodeId ∈ s.peerPublicKeys, nodeId ∈ s.registeredPeers

def Slack (s : PBFTConsensus C) (nodeId : Bytes) (n : Nat) : Prop :=
  nodeId ∈ s.peerPublicKeys →
    2 ≤ s.registeredPeers.card
      ∨ max 1 (s.trustOf nodeId).consecutiveFailures + n < autoPruneFailures

structure SameMembers (s t : PBFTConsensus C) : Prop where
  total_eq : t.totalNodes = s.totalNodes
  registered_eq : t.registeredPeers = s.registeredPeers
  keys_eq : t.peerPublicKeys = s.peerPublicKeys

namespace SameMembers

variable {s t u : PBFTConsensus C}

theorem of_roster_eq (h : t.roster = s.roster) : SameMembers s t := by
  exact ⟨congrArg Roster.totalNodes h, congrArg Roster.registeredPeers h,
    congrArg Roster.peerPublicKeys h⟩

theorem of_registry_eq (h : t.registry = s.registry) : SameMembers s t := by
  exact .of_roster_eq (congrArg Registry.roster h)

theorem refl (s : PBFTConsensus C) : SameMembers s s := by
  exact .of_registry_eq rfl

theorem trans (h₁ : SameMembers s t) (h₂ : SameMembers t u) : SameMembers s u := by
  constructor
  . exact h₂.total_eq.trans h₁.total_eq
  . exact h₂.registered_eq.trans h₁.registered_eq
  . exact h₂.keys_eq.trans h₁.keys_eq

theorem accounted (h : SameMembers s t) (haccounted : s.Accounted) : t.Accounted := by
  constructor
  . rw [h.total_eq, h.registered_eq]
    exact haccounted.total_eq
  . rw [h.keys_eq, h.registered_eq]
    exact haccounted.registered_of_key

theorem slack {nodeId : Bytes} {m n : Nat} (h : SameMembers s t)
    (hfailures : max 1 (t.trustOf nodeId).consecutiveFailures + m
      ≤ max 1 (s.trustOf nodeId).consecutiveFailures + n)
    (hslack : s.Slack nodeId n)
    : t.Slack nodeId m := by
  intro hkey
  rw [h.keys_eq] at hkey
  rw [h.registered_eq]
  apply (hslack hkey).imp id
  intro hlt
  omega

end SameMembers

section Steps

variable {s : PBFTConsensus C}

theorem accounted_prunePeerLocked {nodeId : Bytes} (h : s.Accounted)
    (hmem : nodeId ∈ s.registeredPeers) (hcard : 2 ≤ s.registeredPeers.card)
    : (s.prunePeerLocked nodeId).Accounted := by
  constructor
  . simp only [prunePeerLocked, Finset.card_erase_of_mem hmem, h.total_eq]
    omega
  . intro other hkey
    simp only [prunePeerLocked, Std.ExtTreeMap.mem_erase, Std.compare_eq_iff_eq, ne_eq] at hkey
    simp only [prunePeerLocked, Finset.mem_erase]
    exact ⟨fun heq => hkey.1 heq.symm, h.registered_of_key other hkey.2⟩

theorem accounted_registerPeerKey {nodeId : Bytes} (h : s.Accounted)
    (hnew : nodeId ∉ s.registeredPeers) (pemKey : Bytes)
    : (s.registerPeerKey nodeId pemKey).incrementPeers.Accounted := by
  constructor
  . simp [registerPeerKey, incrementPeers, hnew, h.total_eq]
  . intro other hkey
    simp only [registerPeerKey, incrementPeers, Std.ExtTreeMap.mem_insert, Std.compare_eq_iff_eq]
      at hkey
    simp only [registerPeerKey, incrementPeers, Finset.mem_insert]
    exact hkey.imp Eq.symm (h.registered_of_key other)

theorem accounted_recordFailure {nodeId : Bytes} (h : s.Accounted)
    (hkey : nodeId ∈ s.peerPublicKeys) (hslack : s.Slack nodeId 1) (now : Time)
    : (s.recordFailure now nodeId).Accounted := by
  by_cases hbelow : s.BelowThreshold nodeId
  . have hsame : SameMembers s (s.recordFailure now nodeId) :=
      .of_registry_eq (s.registry_recordFailure now hbelow)
    exact hsame.accounted h
  . have hcard : 2 ≤ s.registeredPeers.card := by
      cases hslack hkey with
      | inl hcard => exact hcard
      | inr hlt =>
        unfold BelowThreshold at hbelow
        omega
    unfold recordFailure
    dsimp
    split
    . apply accounted_prunePeerLocked
      . exact ⟨h.total_eq, h.registered_of_key⟩
      . exact h.registered_of_key nodeId hkey
      . exact hcard
    . exact ⟨h.total_eq, h.registered_of_key⟩

theorem slack_recordFailure {nodeId : Bytes} {n : Nat} (hslack : s.Slack nodeId (n + 1)) (now : Time)
    : (s.recordFailure now nodeId).Slack nodeId n := by
  by_cases hbelow : s.BelowThreshold nodeId
  . have hsame : SameMembers s (s.recordFailure now nodeId) :=
      .of_registry_eq (s.registry_recordFailure now hbelow)
    apply hsame.slack _ hslack
    rw [consecutiveFailures_recordFailure s now hbelow]
    omega
  . intro hkey
    -- the ban took the key away
    unfold BelowThreshold at hbelow
    simp [recordFailure, Int.not_lt.mp hbelow, prunePeerLocked] at hkey

theorem sameMembers_advanceState {msg : P2PMessage} (hbelow : s.BelowThreshold msg.senderId)
    (a : Ambient)
    : SameMembers s (s.advanceState a msg).2 := by
  rcases s.roster_advanceState a msg with hsame | ⟨hbrink, _⟩
  . exact .of_roster_eq hsame
  . exact absurd hbrink.failures (Int.not_le.mpr hbelow)

theorem sameMembers_receive {now : Time} {a : Ambient} {msg : P2PMessage} {next : PBFTStage}
    (h : (s.receive now a msg).1 = some next)
    : SameMembers s (s.receive now a msg).2 := by
  by_cases hvalid : s.Verifies msg
  . rw [receive_of_verifies hvalid]
    have hsuccess : SameMembers s (s.recordSuccess msg.senderId) :=
      .of_registry_eq (s.registry_recordSuccess msg.senderId)
    apply hsuccess.trans
    exact sameMembers_advanceState (s.belowThreshold_recordSuccess msg.senderId) a
  . simp [receive_of_not_verifies hvalid] at h

theorem accounted_receive {msg : P2PMessage} (h : s.Accounted) (hslack : s.Slack msg.senderId 1)
    (now : Time) (a : Ambient)
    : (s.receive now a msg).2.Accounted := by
  cases hnext : (s.receive now a msg).1 with
  | some next => exact (sameMembers_receive hnext).accounted h
  | none =>
    by_cases hvalid : s.Verifies msg
    . simp [receive_of_verifies hvalid] at hnext
    . rw [receive_of_not_verifies hvalid]
      have hcases := s.verifyMessage_cases now msg
      generalize s.verifyMessage now msg = res at *
      cases hcases with
      | banned => exact h
      | unknown => exact h
      | rejected _ hkey => exact accounted_recordFailure h hkey hslack now
      | verified => contradiction

theorem slack_receive_other {msg : P2PMessage} {nodeId : Bytes} {n : Nat}
    (hne : msg.senderId ≠ nodeId) (hslack : s.Slack nodeId n) {now : Time} {a : Ambient}
    {next : PBFTStage} (h : (s.receive now a msg).1 = some next)
    : (s.receive now a msg).2.Slack nodeId n := by
  apply (sameMembers_receive h).slack _ hslack
  rw [(s.sameAbout_receive now a hne).trust_eq]

theorem slack_receive_self {msg : P2PMessage} {n : Nat} (hslack : s.Slack msg.senderId (n + 1))
    (now : Time) (a : Ambient)
    : (s.receive now a msg).2.Slack msg.senderId n
        ∧ ((s.receive now a msg).1 ≠ none → (s.receive now a msg).2.Slack msg.senderId (n + 1)) := by
  cases hnext : (s.receive now a msg).1 with
  | some next =>
    have hle := s.consecutiveFailures_receive_le now a hnext
    have hsame := sameMembers_receive hnext
    constructor
    . apply hsame.slack _ hslack
      omega
    . intro _
      apply hsame.slack _ hslack
      omega
  | none =>
    simp only [ne_eq, not_true_eq_false, IsEmpty.forall_iff, and_true]
    by_cases hvalid : s.Verifies msg
    . simp [receive_of_verifies hvalid] at hnext
    . rw [receive_of_not_verifies hvalid]
      have hcases := s.verifyMessage_cases now msg
      generalize s.verifyMessage now msg = res at *
      cases hcases with
      | banned =>
        apply (SameMembers.refl s).slack _ hslack
        omega
      | unknown =>
        apply (SameMembers.refl s).slack _ hslack
        omega
      | rejected => exact slack_recordFailure hslack now
      | verified => contradiction

end Steps

section Prune

variable (s : PBFTConsensus C) (nodeIds : List Bytes)

theorem registeredPeers_foldl_prunePeer
    : (nodeIds.foldl prunePeer s).registeredPeers = s.registeredPeers \ nodeIds.toFinset := by
  induction nodeIds generalizing s with
  | nil => simp
  | cons nodeId nodeIds ih =>
    rw [List.foldl_cons, ih]
    ext id
    simp only [prunePeer, prunePeerLocked, Finset.mem_sdiff, Finset.mem_erase, List.mem_toFinset,
      List.mem_cons]
    tauto

theorem totalNodes_foldl_prunePeer (h : 1 ≤ s.totalNodes)
    : (nodeIds.foldl prunePeer s).totalNodes = max 1 (s.totalNodes - nodeIds.length) := by
  induction nodeIds generalizing s with
  | nil => simp [h]
  | cons nodeId nodeIds ih =>
    rw [List.foldl_cons, ih]
    . simp only [prunePeer, prunePeerLocked, List.length_cons]
      omega
    . simp only [prunePeer, prunePeerLocked]
      omega

theorem mem_peerPublicKeys_foldl_prunePeer {nodeId : Bytes}
    : nodeId ∈ (nodeIds.foldl prunePeer s).peerPublicKeys
        ↔
      nodeId ∈ s.peerPublicKeys ∧ nodeId ∉ nodeIds := by
  induction nodeIds generalizing s with
  | nil => simp
  | cons other nodeIds ih =>
    rw [List.foldl_cons, ih]
    simp only [prunePeer, prunePeerLocked, Std.ExtTreeMap.mem_erase, Std.compare_eq_iff_eq, ne_eq,
      List.mem_cons]
    tauto

theorem accounted_foldl_prunePeer (h : s.Accounted) (hnodup : nodeIds.Nodup)
    (hpruned : (s.registeredPeers \ nodeIds.toFinset).card = 1
      ∨ (s.registeredPeers \ nodeIds.toFinset).Nonempty ∧ nodeIds.toFinset ⊆ s.registeredPeers)
    : (nodeIds.foldl prunePeer s).Accounted := by
  have htotal := h.total_eq
  have hle : (s.registeredPeers \ nodeIds.toFinset).card ≤ s.registeredPeers.card :=
    Finset.card_le_card Finset.sdiff_subset
  have hlength : nodeIds.toFinset.card = nodeIds.length := List.toFinset_card_of_nodup hnodup
  constructor
  . rw [registeredPeers_foldl_prunePeer]
    cases hpruned with
    | inl hone =>
      rw [totalNodes_foldl_prunePeer s nodeIds (by omega)]
      have := Finset.le_card_sdiff nodeIds.toFinset s.registeredPeers
      omega
    | inr hsome =>
      have hpos := Finset.card_pos.mpr hsome.1
      rw [totalNodes_foldl_prunePeer s nodeIds (by omega)]
      have := Finset.card_sdiff_add_card_eq_card hsome.2
      omega
  . intro nodeId hkey
    rw [mem_peerPublicKeys_foldl_prunePeer] at hkey
    rw [registeredPeers_foldl_prunePeer, Finset.mem_sdiff, List.mem_toFinset]
    exact ⟨h.registered_of_key nodeId hkey.1, hkey.2⟩

end Prune

end PBFTConsensus
end NeuroMesh
