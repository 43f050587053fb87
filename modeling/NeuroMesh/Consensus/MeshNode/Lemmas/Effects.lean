import NeuroMesh.Consensus.MeshNode.Impl.Effects
import NeuroMesh.Consensus.MeshNode.Lemmas.Contact

namespace NeuroMesh
namespace MeshNode

variable {C : IdentityCore}

section Telemetry

def namedPeer (msg : Bytes) : Option (Bytes × Bytes) := do
  let (_, msg) ← cutPipe msg
  cutPipe msg

def carriedSignature (msg : Bytes) : Option Bytes := do
  let (_, msg) ← namedPeer msg
  let (b64Sig, _) ← cutPipe msg
  let rawSig ← base64Decode b64Sig
  if rawSig = [] then none else some rawSig

variable (node : MeshNode C) (attached : Attached) (msg : Bytes)

def PassesOn (peerId json : Bytes) : Prop :=
  let effects := node.processTelemetryGossip attached msg
  .setPeerTelemetry peerId json ∈ effects
    ∨ (.pushTelemetry json ∈ effects ∧ ∃ rest, namedPeer msg = some (peerId, rest))

def Reportable (peerId : Bytes) : Prop :=
  peerId ≠ [] ∧ peerId ≠ node.nodeId ∧ peerId.length ≤ 64

variable {node attached msg}

theorem processTelemetryGossip_of_named {peerId rest : Bytes} (h : namedPeer msg = some (peerId, rest))
    : node.processTelemetryGossip attached msg
        =
      if peerId = [] ∨ peerId = node.nodeId then
        []
      else if 64 < peerId.length then
        []
      else
        let (b64Sig, json) := (cutPipe rest).getD ([], rest)
        if b64Sig ≠ [] ∧ !node.verifiesTelemetry peerId b64Sig json then
          []
        else
          .setPeerTelemetry peerId json :: attached.pushTelemetry json := by
  unfold namedPeer at h
  unfold processTelemetryGossip
  cases hfirst : cutPipe msg with
  | none => simp [hfirst] at h
  | some first =>
    simp only [hfirst, Option.bind_eq_bind, Option.bind_some] at h
    dsimp only
    rw [h]

theorem processTelemetryGossip_of_unnamed (h : namedPeer msg = none)
    : node.processTelemetryGossip attached msg = [] := by
  unfold namedPeer at h
  unfold processTelemetryGossip
  cases hfirst : cutPipe msg with
  | none => rfl
  | some first =>
    simp only [hfirst, Option.bind_eq_bind, Option.bind_some] at h
    dsimp only
    rw [h]

theorem setPeerTelemetry_mem_iff {peerId peerId' json json' : Bytes}
    : .setPeerTelemetry peerId' json' ∈ .setPeerTelemetry peerId json :: attached.pushTelemetry json
        ↔
      peerId' = peerId ∧ json' = json := by
  unfold Attached.pushTelemetry
  split <;> simp

theorem eq_of_pushTelemetry_mem {peerId json json' : Bytes}
    (h : .pushTelemetry json' ∈ .setPeerTelemetry peerId json :: attached.pushTelemetry json)
    : json' = json := by
  unfold Attached.pushTelemetry at h
  split at h
  . simpa using h
  . simp at h

theorem passesOn_iff {peerId rest json : Bytes} (h : namedPeer msg = some (peerId, rest))
    : node.PassesOn attached msg peerId json
        ↔
      node.Reportable peerId
        ∧ let (b64Sig, json') := (cutPipe rest).getD ([], rest)
          json = json' ∧ (b64Sig = [] ∨ node.verifiesTelemetry peerId b64Sig json') := by
  unfold PassesOn Reportable
  rw [processTelemetryGossip_of_named h, h]
  generalize (cutPipe rest).getD ([], rest) = layout
  obtain ⟨b64Sig, json'⟩ := layout
  dsimp only
  split
  . next hid =>
    simp
    tauto
  . next hid =>
    rw [not_or] at hid
    split
    . next hlength =>
      simp
      omega
    . next hlength =>
      split
      . next hverify =>
        simp at hverify
        simp [hverify]
      . next hverify =>
        have hpass : b64Sig = [] ∨ node.verifiesTelemetry peerId b64Sig json' = true := by
          simpa [← or_iff_not_imp_left] using hverify
        rw [setPeerTelemetry_mem_iff]
        constructor
        . rintro (⟨_, rfl⟩ | ⟨hpush, _⟩)
          . exact ⟨⟨hid.1, hid.2, by omega⟩, rfl, hpass⟩
          . exact ⟨⟨hid.1, hid.2, by omega⟩, eq_of_pushTelemetry_mem hpush, hpass⟩
        . rintro ⟨_, rfl, _⟩
          exact .inl ⟨rfl, rfl⟩

theorem named_of_passesOn {peerId json : Bytes} (h : node.PassesOn attached msg peerId json)
    : ∃ rest, namedPeer msg = some (peerId, rest) := by
  unfold PassesOn at h
  cases hnamed : namedPeer msg with
  | none => simp [processTelemetryGossip_of_unnamed hnamed] at h
  | some named =>
    obtain ⟨p, rest⟩ := named
    rcases h with hset | ⟨_, hrest⟩
    . rw [processTelemetryGossip_of_named hnamed] at hset
      generalize (cutPipe rest).getD ([], rest) = layout at hset
      obtain ⟨b64Sig, json'⟩ := layout
      dsimp only at hset
      split at hset
      . simp at hset
      . split at hset
        . simp at hset
        . split at hset
          . simp at hset
          . rw [setPeerTelemetry_mem_iff] at hset
            rw [hset.1]
            exact ⟨rest, rfl⟩
    . rwa [hnamed] at hrest

theorem carriedSignature_of_named {peerId rest : Bytes} (h : namedPeer msg = some (peerId, rest))
    : carriedSignature msg
        =
      match cutPipe rest with
      | none => none
      | some (b64Sig, _) =>
        let rawSig := (base64Decode b64Sig).getD []
        if rawSig = [] then none else some rawSig := by
  unfold carriedSignature
  rw [h]
  simp only [Option.bind_eq_bind, Option.bind_some]
  cases cutPipe rest with
  | none => rfl
  | some layout =>
    obtain ⟨b64Sig, json⟩ := layout
    simp only [Option.bind_some]
    cases base64Decode b64Sig with
    | none => rfl
    | some rawSig => rfl

theorem verifiesTelemetry_of_parses {peerId b64Sig json : Bytes} {pubkey : C.PubKey}
    (hkey : node.peerManager.getPeerKey peerId ≠ [])
    (hpubkey : C.getPubkeyFromPem (node.peerManager.getPeerKey peerId) = some pubkey)
    : node.verifiesTelemetry peerId b64Sig json
        =
      (decide ((base64Decode b64Sig).getD [] = [])
        || C.verifySignature pubkey (joinPipe [bytes "TELEMETRY", peerId, json])
          ((base64Decode b64Sig).getD [])) := by
  unfold verifiesTelemetry
  rw [if_neg hkey, hpubkey]

theorem telemetry_signed_iff (node : MeshNode C) (attached : Attached) (msg : Bytes)
    : (∀ peerId json pubkey,
        node.peerManager.getPeerKey peerId ≠ [] →
        C.getPubkeyFromPem (node.peerManager.getPeerKey peerId) = some pubkey →
        node.PassesOn attached msg peerId json →
          ∃ signature, carriedSignature msg = some signature
            ∧ C.verifySignature pubkey (joinPipe [bytes "TELEMETRY", peerId, json]) signature = true)
        ↔
      (∀ peerId rest, namedPeer msg = some (peerId, rest) → node.Reportable peerId →
        node.peerManager.getPeerKey peerId ≠ [] →
        (C.getPubkeyFromPem (node.peerManager.getPeerKey peerId)).isSome →
          (carriedSignature msg).isSome) := by
  constructor
  . intro h peerId rest hnamed hreportable hkey hparses
    obtain ⟨pubkey, hpubkey⟩ := Option.isSome_iff_exists.mp hparses
    by_contra hnone
    have hpasses : node.PassesOn attached msg peerId ((cutPipe rest).getD ([], rest)).2 := by
      -- there is nothing that could be checked
      rw [carriedSignature_of_named hnamed] at hnone
      rw [passesOn_iff hnamed]
      refine ⟨hreportable, ?_⟩
      cases hcut : cutPipe rest with
      | none => exact ⟨rfl, .inl rfl⟩
      | some layout =>
        simp only [hcut] at hnone
        refine ⟨rfl, .inr ?_⟩
        rw [verifiesTelemetry_of_parses hkey hpubkey]
        split at hnone
        . next hnil => simp [hnil]
        . simp at hnone
    obtain ⟨signature, hsignature, _⟩ := h peerId _ pubkey hkey hpubkey hpasses
    simp [hsignature] at hnone
  . intro h peerId json pubkey hkey hpubkey hpasses
    obtain ⟨rest, hnamed⟩ := named_of_passesOn hpasses
    obtain ⟨hreportable, hlayout⟩ := (passesOn_iff hnamed).mp hpasses
    have hcarried := h peerId rest hnamed hreportable hkey (by simp [hpubkey])
    rw [carriedSignature_of_named hnamed] at hcarried ⊢
    cases hcut : cutPipe rest with
    | none => simp [hcut] at hcarried
    | some layout =>
      obtain ⟨b64Sig, json'⟩ := layout
      simp only [hcut, Option.getD_some] at hlayout hcarried ⊢
      obtain ⟨rfl, hverify⟩ := hlayout
      split at hcarried
      . simp at hcarried
      . next hraw =>
        rw [if_neg hraw]
        rcases hverify with hnil | hverify
        . rw [hnil] at hraw
          exact absurd rfl hraw
        . rw [verifiesTelemetry_of_parses hkey hpubkey] at hverify
          simp only [hraw, decide_false, Bool.false_or] at hverify
          exact ⟨_, rfl, hverify⟩

theorem telemetry_unsigned
    : ¬ ∀ (node : MeshNode .plain) (attached : Attached) (msg peerId json : Bytes) (pubkey : Bytes),
        node.peerManager.getPeerKey peerId ≠ [] →
        IdentityCore.plain.getPubkeyFromPem (node.peerManager.getPeerKey peerId) = some pubkey →
        node.PassesOn attached msg peerId json →
          ∃ signature, carriedSignature msg = some signature
            ∧ IdentityCore.plain.verifySignature pubkey (joinPipe [bytes "TELEMETRY", peerId, json]) signature
              = true := by
  intro h
  let node : MeshNode .plain :=
    (new .plain (bytes "A") (bytes "A") (bytes "A") {}).act (announces (bytes "P") "1")
  have hkey : node.peerManager.getPeerKey (bytes "P") ≠ [] := by
    decide +kernel
  have hpasses : node.PassesOn ⟨true, [], none, true, true⟩ (bytes "TELEMETRY|P|!|\x7b\x7d") (bytes "P")
      (bytes "\x7b\x7d") := by
    left
    decide +kernel
  obtain ⟨signature, hsignature, _⟩ := h node _ _ _ _ _ hkey rfl hpasses
  have hnone : carriedSignature (bytes "TELEMETRY|P|!|\x7b\x7d") = none := by
    decide +kernel
  simp [hnone] at hsignature

end Telemetry

section Executed

variable (node : MeshNode C) (attached : Attached) (clock : Nat → Int)
variable (stageStr targetId evidenceJson : Bytes)

def Effect.event (effect : Effect) : Option (Event C) :=
  match effect with
  | .journal event targetId evidenceJson => some (.journal event targetId evidenceJson)
  | .appendProof targetId data sigHex => some (.consensusReached targetId data sigHex)
  | .executeResponse evidenceJson targetId => some (.executeResponse evidenceJson targetId)
  | _ => none

def recordedSig : Bytes :=
  node.pbft.getRoundCommitSig (C.sha256Hex (joinPipe [evidenceJson, targetId]))

theorem events_pushTelemetry (json : Bytes)
    : (attached.pushTelemetry json).filterMap (Effect.event (C := C)) = [] := by
  unfold Attached.pushTelemetry
  split <;> rfl

theorem log_onExecuted_of_remote (hchain : attached.proofChain.isSome) (hmitigation : attached.mitigation)
    : (node.onExecuted stageStr targetId evidenceJson (node.recordedSig targetId evidenceJson)).log
        =
      ((node.executedByRemoteVote attached clock stageStr targetId evidenceJson).filterMap
        Effect.event).reverse ++ node.log := by
  obtain ⟨chain, hchain⟩ := Option.isSome_iff_exists.mp hchain
  unfold onExecuted executedByRemoteVote
  split
  . rfl
  . split
    . rfl
    . simp only [hchain, Attached.executeResponse, hmitigation, List.filterMap_append,
        events_pushTelemetry]
      split <;> rfl

theorem log_onExecuted_of_own (hchain : attached.proofChain.isSome) (hmitigation : attached.mitigation)
    (signature : Bytes)
    : (node.onExecuted stageStr targetId evidenceJson signature).log
        =
      ((node.executedByOwnVote attached clock stageStr targetId evidenceJson signature).filterMap
        Effect.event).reverse ++ node.log := by
  obtain ⟨chain, hchain⟩ := Option.isSome_iff_exists.mp hchain
  unfold onExecuted executedByOwnVote
  split
  . rfl
  . split
    . rfl
    . simp only [hchain, Attached.executeResponse, hmitigation]
      rfl

/--
The handlers do the same if and only if the round bans a peer, there is no other node, or there is neither
a bridge nor a webhook and the chain gets the same signature.
-/
theorem executed_effects_eq_iff (node : MeshNode C) (attached : Attached) (clock : Nat → Int)
    (stageStr targetId evidenceJson signature : Bytes)
    : node.executedByRemoteVote attached clock stageStr targetId evidenceJson
          = node.executedByOwnVote attached clock stageStr targetId evidenceJson signature
        ↔
      (isBanRound evidenceJson ∨ stageStr = Stage.banPeer)
        ∨ node.peerManager.peerCount < 1
        ∨ (attached.bridge = false ∧ attached.webhookUrl = []
          ∧ (attached.proofChain = none ∨ node.recordedSig targetId evidenceJson = signature)) := by
  unfold executedByRemoteVote executedByOwnVote
  by_cases hban : isBanRound evidenceJson ∨ stageStr = Stage.banPeer
  . simp only [hban, if_true, true_or]
  . by_cases hcount : node.peerManager.peerCount < 1
    . simp only [hban, hcount, if_true, if_false, true_or, or_true]
    . simp only [hban, hcount, if_false, false_or]
      constructor
      . intro h
        -- the handler of the own vote has fewer effects unless there is neither a bridge nor a webhook
        have hlength := congrArg List.length h
        cases hbridge : attached.bridge with
        | true =>
          cases hchain : attached.proofChain <;>
            simp [Attached.pushTelemetry, hbridge, hchain] at hlength <;> omega
        | false =>
          by_cases hurl : attached.webhookUrl = []
          . refine ⟨rfl, hurl, ?_⟩
            cases hchain : attached.proofChain with
            | none => exact .inl rfl
            | some chain =>
              simp only [hchain, List.append_assoc, List.nil_append, List.cons_append, List.cons.injEq,
                Effect.appendProof.injEq] at h
              exact .inr h.2.1.2.2
          . cases hchain : attached.proofChain <;>
              simp [Attached.pushTelemetry, hbridge, hchain, hurl] at hlength
      . rintro ⟨hbridge, hurl, hchain⟩
        simp only [Attached.pushTelemetry, hbridge, hurl, ne_eq, not_true, if_false, List.append_nil,
          Bool.false_eq_true]
        rcases hchain with hchain | hsig
        . rw [hchain]
        . rw [← hsig]
          rfl

theorem executed_effects_differ
    : let init := new .plain (bytes "A") (bytes "A") (bytes "A") { peerKeys := some (bytes "B:-----BEGIN") }
      let steps := [
        stepAt 0 (.pex (bytes "PEX|X|1|B:10.0.0.1:9000")),
        stepAt 0 (.initiateConsensus (bytes "T") (bytes "\x7b\x7d"))
      ]
      let node := steps.foldl act init
      let attached := ⟨true, [], some { nodeId := bytes "A" }, true, true⟩
      let clock := fun _ => 0
      ((node.log.filterMap fun | .advanced vote stage => some (vote.senderId, stage) | _ => none).contains
          (bytes "A", .executed))
        ∧ node.executedByRemoteVote attached clock Stage.commit (bytes "T") (bytes "\x7b\x7d")
          ≠ node.executedByOwnVote attached clock Stage.commit (bytes "T") (bytes "\x7b\x7d")
              (node.recordedSig (bytes "T") (bytes "\x7b\x7d")) := by
  decide +kernel

end Executed

end MeshNode
end NeuroMesh
