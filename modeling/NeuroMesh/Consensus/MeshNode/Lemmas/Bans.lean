import NeuroMesh.Consensus.MeshNode.Lemmas.Admit
import NeuroMesh.Consensus.MeshNode.Lemmas.Membership
import NeuroMesh.Consensus.PBFT.Lemmas.Silent

namespace NeuroMesh

variable {C : IdentityCore}

namespace PBFTConsensus

structure AutoBanned (s : PBFTConsensus C) (peerId : Bytes) : Prop where
  banned : peerId ∈ s.bannedPeers
  unknown : peerId ∉ s.peerPublicKeys
  unregistered : peerId ∉ s.registeredPeers
  total_pos : 1 ≤ s.totalNodes

structure Shrinks (s t : PBFTConsensus C) : Prop where
  keys : ∀ peerId ∈ t.peerPublicKeys, peerId ∈ s.peerPublicKeys
  registered : t.registeredPeers ⊆ s.registeredPeers
  banned : s.bannedPeers ⊆ t.bannedPeers
  total : t.totalNodes ≤ s.totalNodes
  total_pos : 1 ≤ t.totalNodes

namespace Shrinks

variable {s t u : PBFTConsensus C}

theorem trans (h₁ : s.Shrinks t) (h₂ : t.Shrinks u) : s.Shrinks u := by
  constructor
  . intro peerId hmem
    exact h₁.keys peerId (h₂.keys peerId hmem)
  . exact h₂.registered.trans h₁.registered
  . exact h₁.banned.trans h₂.banned
  . exact h₂.total.trans h₁.total
  . exact h₂.total_pos

theorem autoBanned {peerId : Bytes} (h : s.Shrinks t) (hs : s.AutoBanned peerId)
    : t.AutoBanned peerId := by
  constructor
  . exact h.banned hs.banned
  . intro hmem
    exact hs.unknown (h.keys peerId hmem)
  . intro hmem
    exact hs.unregistered (h.registered hmem)
  . exact h.total_pos

end Shrinks

section Leaves

variable {s t : PBFTConsensus C} (hpos : 1 ≤ s.totalNodes)
include hpos

theorem shrinks_expel {nodeId : Bytes} (hkeys : t.peerPublicKeys = s.peerPublicKeys.erase nodeId)
    (hregistered : t.registeredPeers = s.registeredPeers.erase nodeId)
    (hbanned : s.bannedPeers ⊆ t.bannedPeers) (htotal : t.totalNodes = max 1 (s.totalNodes - 1))
    : s.Shrinks t := by
  constructor
  . intro peerId hmem
    rw [hkeys, Std.ExtTreeMap.mem_erase] at hmem
    exact hmem.2
  . rw [hregistered]
    apply Finset.erase_subset
  . exact hbanned
  . omega
  . omega

theorem shrinks_of_roster (nodeId : Bytes) (h : t.roster = s.roster ∨ s.Expelled t nodeId)
    : s.Shrinks t := by
  rcases h with hsame | hexpelled
  . have hkeys : t.peerPublicKeys = s.peerPublicKeys := congrArg Roster.peerPublicKeys hsame
    have hregistered : t.registeredPeers = s.registeredPeers := congrArg Roster.registeredPeers hsame
    have hbanned : t.bannedPeers = s.bannedPeers := congrArg Roster.bannedPeers hsame
    have htotal : t.totalNodes = s.totalNodes := congrArg Roster.totalNodes hsame
    constructor
    . rw [hkeys]
      exact fun _ => id
    . rw [hregistered]
    . rw [hbanned]
    . rw [htotal]
    . rwa [htotal]
  . have hroster := hexpelled.roster_eq
    apply shrinks_expel hpos
    . exact congrArg Roster.peerPublicKeys hroster
    . exact congrArg Roster.registeredPeers hroster
    . exact bannedPeers_subset_of_roster nodeId (.inr hroster)
    . exact congrArg Roster.totalNodes hroster

theorem shrinks_step {call : Call C} (h : call.IsLeaving) : s.Shrinks (s.step call) := by
  have hsame : s.Shrinks s := s.shrinks_of_roster hpos [] (.inl rfl)
  obtain ⟨a, op⟩ := call
  cases op with
  | verifyMessage msg =>
    apply shrinks_of_roster hpos msg.senderId
    exact (s.roster_verifyMessage a.now msg).imp_right And.right
  | advanceState msg =>
    apply shrinks_of_roster hpos msg.senderId
    exact (s.roster_advanceState a msg).imp_right And.right
  | prunePeer nodeId => exact shrinks_expel hpos rfl rfl (Finset.Subset.refl _) rfl
  | banPeerLocal nodeId reason => exact { hsame with banned := Finset.subset_insert _ _ }
  | setRoundCommitSig key sig => exact { hsame with }
  | drainRecentBans => exact { hsame with }
  | advanceView => exact { hsame with }
  | _ => exact h.elim

theorem shrinks_of_leaves (h : Leaves s t) : s.Shrinks t := by
  have hsame : s.Shrinks s := s.shrinks_of_roster hpos [] (.inl rfl)
  apply h.invariant (I := s.Shrinks) _ hsame
  intro t call hcall ht
  exact ht.trans (shrinks_step ht.total_pos hcall)

end Leaves

end PBFTConsensus

namespace MeshNode

open PBFTConsensus (AutoBanned)

section Finality

variable {node : MeshNode C} {step : Step} {peerId : Bytes}

structure KeepsOut (peerId : Bytes) (node : MeshNode C) (step : Step) : Prop where
  key : peerId ∉ (node.act step).pbft.peerPublicKeys
  count : (node.act step).pbft.totalNodes
    ≤ node.pbft.totalNodes
      + (((node.act step).pbft.registeredPeers \ node.pbft.registeredPeers).erase peerId).card

def readmits (peerId : Bytes) (node : MeshNode C) (step : Step) : Bool :=
  (node.introduction step).any fun intro => intro.peerId == peerId && node.completes intro

theorem readmits_iff
    : readmits peerId node step = true
        ↔
      ∃ intro, node.introduction step = some intro ∧ intro.peerId = peerId ∧ node.completes intro = true := by
  unfold readmits
  cases node.introduction step with
  | none => simp
  | some intro => simp

structure Admits (node : MeshNode C) (step : Step) (intro : Introduction) : Prop where
  introduced : node.introduction step = some intro
  completes : node.completes intro = true
  fresh : intro.peerId ∉ node.pbft.registeredPeers

theorem pbft_act_of_admits {intro : Introduction} (h : node.Admits step intro)
    : (node.act step).pbft = (node.pbft.registerPeerKey intro.peerId intro.pem).incrementPeers := by
  rw [pbft_act h.introduced]
  unfold welcome
  rw [h.completes]
  apply if_pos
  simp [PBFTConsensus.hasPeer, h.fresh]

theorem shrinks_or_admits (hpos : 1 ≤ node.pbft.totalNodes) (step : Step)
    : node.pbft.Shrinks (node.act step).pbft ∨ ∃ intro, node.Admits step intro := by
  cases hintro : node.introduction step with
  | none => exact .inl (PBFTConsensus.shrinks_of_leaves hpos (leaves_act hintro))
  | some intro =>
    by_cases hadmit : node.completes intro && !node.pbft.hasPeer intro.peerId
    . rw [Bool.and_eq_true] at hadmit
      right
      refine ⟨intro, hintro, hadmit.1, ?_⟩
      simpa [PBFTConsensus.hasPeer] using hadmit.2
    . left
      rw [pbft_act hintro]
      unfold welcome
      rw [if_neg hadmit]
      exact PBFTConsensus.shrinks_of_leaves hpos (Run.Reaches.refl _)

theorem ne_of_admits {intro : Introduction} (h : node.Admits step intro)
    (hnot : ¬readmits peerId node step = true)
    : intro.peerId ≠ peerId := by
  intro heq
  exact hnot (readmits_iff.mpr ⟨intro, h.introduced, heq, h.completes⟩)

theorem autoBanned_act (h : node.pbft.AutoBanned peerId) (hnot : ¬readmits peerId node step = true)
    : (node.act step).pbft.AutoBanned peerId := by
  rcases node.shrinks_or_admits h.total_pos step with hshrinks | ⟨intro, hadmits⟩
  . exact hshrinks.autoBanned h
  . have hne := ne_of_admits hadmits hnot
    rw [pbft_act_of_admits hadmits]
    constructor
    . exact h.banned
    . intro hmem
      rcases Std.ExtTreeMap.mem_insert.mp hmem with heq | hmem
      . exact hne (Std.compare_eq_iff_eq.mp heq)
      . exact h.unknown hmem
    . intro hmem
      rcases Finset.mem_insert.mp hmem with heq | hmem
      . exact hne heq.symm
      . exact h.unregistered hmem
    . have := h.total_pos
      change 1 ≤ node.pbft.totalNodes + 1
      omega

theorem count_of_admits {intro : Introduction} (h : node.Admits step intro) (hne : intro.peerId ≠ peerId)
    : (node.act step).pbft.totalNodes
        ≤
      node.pbft.totalNodes
        + (((node.act step).pbft.registeredPeers \ node.pbft.registeredPeers).erase peerId).card := by
  have hmem : intro.peerId
      ∈ ((node.act step).pbft.registeredPeers \ node.pbft.registeredPeers).erase peerId := by
    rw [Finset.mem_erase, Finset.mem_sdiff, pbft_act_of_admits h]
    exact ⟨hne, Finset.mem_insert_self _ _, h.fresh⟩
  have hcard := Finset.card_pos.mpr ⟨_, hmem⟩
  have htotal : (node.act step).pbft.totalNodes = node.pbft.totalNodes + 1 := by
    rw [pbft_act_of_admits h]
    rfl
  omega

theorem keepsOut_iff (h : node.pbft.AutoBanned peerId)
    : KeepsOut peerId node step ↔ ¬readmits peerId node step = true := by
  constructor
  . intro hkeeps hreadmits
    obtain ⟨intro, hintro, rfl, hcompletes⟩ := readmits_iff.mp hreadmits
    apply hkeeps.key
    rw [pbft_act_of_admits ⟨hintro, hcompletes, h.unregistered⟩]
    exact Std.ExtTreeMap.mem_insert_self
  . intro hnot
    constructor
    . exact (autoBanned_act h hnot).unknown
    . rcases node.shrinks_or_admits h.total_pos step with hshrinks | ⟨intro, hadmits⟩
      . have := hshrinks.total
        omega
      . exact count_of_admits hadmits (ne_of_admits hadmits hnot)

theorem along_keepsOut_iff (node : MeshNode C) (peerId : Bytes) (steps : List Step)
    (h : node.pbft.AutoBanned peerId)
    : Run.Along act (KeepsOut peerId) node steps
        ↔
      Run.Along act (fun node step => ¬readmits peerId node step = true) node steps := by
  apply Run.along_iff_of_invariant (I := fun node : MeshNode C => node.pbft.AutoBanned peerId) _ _ h
  . intro node step h
    exact keepsOut_iff h
  . intro node step h hnot
    exact autoBanned_act h hnot

def samplePem : Bytes :=
  bytes "-----BEGIN PUBLIC KEY-----"

def sampleAnnounce : Step :=
  stepAt 0 <| .message
    (joinPipe [
      bytes "ANNOUNCE", bytes "P", samplePem, base64Encode (samplePem ++ joinPipe [bytes "P", samplePem])
    ])
    (bytes "10.0.0.1")

def sampleBeacon : Step :=
  let fields := [bytes "P", bytes "9000", bytes "9001", bytes "0"]
  let signature := samplePem ++ joinPipe (fields ++ [bytes "f"])
  stepAt 0 <| .discovery
    (joinPipe <|
      [bytes "DISCOVERY"] ++ fields ++ [base64Encode samplePem, bytes "f", base64Encode signature])
    (bytes "10.0.0.1")

def sampleForgery : Step :=
  stepAt 0 <| .message
    (encodeVote {
      stageStr := Stage.prepare
      senderId := bytes "P"
      targetId := bytes "T"
      evidenceJson := bytes "\x7b\x7d"
      signature := bytes "x"
      prevMessageHash := []
      sequenceNumber := 1
      view := 0
    })
    (bytes "10.0.0.2")

def banRun : List Step :=
  [sampleAnnounce, sampleBeacon] ++ List.replicate 100 sampleForgery

def banned : MeshNode .plain :=
  banRun.foldl act (new .plain (bytes "A") (bytes "A") (bytes "A") {})

instance (s : PBFTConsensus C) (peerId : Bytes) : Decidable (s.AutoBanned peerId) :=
  decidable_of_iff
    (peerId ∈ s.bannedPeers ∧ peerId ∉ s.peerPublicKeys ∧ peerId ∉ s.registeredPeers ∧ 1 ≤ s.totalNodes)
    ⟨fun ⟨h₁, h₂, h₃, h₄⟩ => ⟨h₁, h₂, h₃, h₄⟩, fun h => ⟨h.banned, h.unknown, h.unregistered, h.total_pos⟩⟩

theorem autoBanned_banned : banned.pbft.AutoBanned (bytes "P") := by
  decide +kernel

theorem along_keepsOut_forgery
    : banned.pbft.AutoBanned (bytes "P")
        ∧
      Run.Along act (KeepsOut (bytes "P")) banned [sampleForgery] := by
  refine ⟨autoBanned_banned, ?_⟩
  rw [along_keepsOut_iff banned (bytes "P") [sampleForgery] autoBanned_banned]
  refine ⟨?_, trivial⟩
  decide +kernel

theorem not_forall_along_keepsOut
    : ¬ ∀ (before after : List Step) (peerId : Bytes),
        let node := before.foldl act (new .plain (bytes "A") (bytes "A") (bytes "A") {})
        node.pbft.AutoBanned peerId → Run.Along act (KeepsOut peerId) node after := by
  intro h
  have hkeeps := h banRun [sampleAnnounce] (bytes "P") autoBanned_banned
  apply hkeeps.1.key
  decide +kernel

end Finality

end MeshNode
end NeuroMesh
