import NeuroMesh.Consensus.MeshNode.Impl.Outgoing
import NeuroMesh.Crypto.ProofChain.Export

/-!
This module contains what a node does to the objects that it is attached to: the journal, the proof chain,
the telemetry bridge, the webhook and the mitigation engine. `MeshNode` itself keeps only the part of it
that the consensus is responsible for.
-/

namespace NeuroMesh
namespace MeshNode

variable {C : IdentityCore}

inductive Effect where
  | journal (event targetId evidenceJson : Bytes)
  | banPeerLocal (targetId reason : Bytes)
  | appendProof (targetId data sigHex : Bytes)
  | exportFile (text : Option Bytes)
  | notifyWebhook (url targetId evidenceJson : Bytes) (quorum timestampUs : Int)
  | setPeerTelemetry (peerId json : Bytes)
  | pushTelemetry (json : Bytes)
  | executeResponse (evidenceJson targetId : Bytes)
deriving DecidableEq

structure Attached where
  bridge : Bool
  webhookUrl : Bytes
  proofChain : Option ProofChain
  proofFile : Bool
  mitigation : Bool

def Attached.pushTelemetry (attached : Attached) (json : Bytes) : List Effect :=
  if attached.bridge then [.pushTelemetry json] else []

def Attached.executeResponse (attached : Attached) (evidenceJson targetId : Bytes) : List Effect :=
  if attached.mitigation then [.executeResponse evidenceJson targetId] else []

def entropySpikeJson (targetId : Bytes) (quorum : Int) : Bytes :=
  bytes "\x7b\"event\":\"entropy_spike\",\"value\":0.98,\"threshold\":0.65,"
    ++ bytes "\"target\":\"" ++ targetId ++ bytes "\","
    ++ bytes "\"quorum\":" ++ toDecimalInt quorum ++ bytes ","
    ++ bytes "\"mitre_attack\":[\"T1059\",\"T1021\",\"T1571\",\"T1090\"]\x7d"

def flaggedJson (targetId : Bytes) : Bytes :=
  bytes "\x7b\"event\":\"heartbeat\","
    ++ bytes "\"node\":\"" ++ targetId ++ bytes "\","
    ++ bytes "\"threat\":\"CRITICAL\","
    ++ bytes "\"status\":\"FLAGGED\","
    ++ bytes "\"entropy\":0.98,"
    ++ bytes "\"cpu\":85.5,"
    ++ bytes "\"mem_mb\":512,"
    ++ bytes "\"peers\":0,"
    ++ bytes "\"mitre_attack\":[\"T1059\",\"T1021\",\"T1571\"]\x7d"

section Executed

/-!
The two handlers of a round that has been executed. `clock` gives their readings of the clock in
microseconds: the one of `process_message` itself and the one of `ProofChain::append`.
-/

variable (node : MeshNode C) (attached : Attached) (clock : Nat → Int)
variable (stageStr targetId evidenceJson : Bytes)

def banExecuted : List Effect :=
  let reason :=
    if stageStr = Stage.banPeer then bytes "cross_node_bft: " ++ evidenceJson else evidenceJson
  [
    .banPeerLocal targetId reason,
    .journal (bytes "BAN_PEER_EXECUTED") targetId evidenceJson
  ]

def provenBy (chain : ProofChain) (commitSig : Bytes) : ProofChain :=
  chain.append C.sha256Hex (clock 1) .consensusReached targetId evidenceJson commitSig

def executedByRemoteVote : List Effect :=
  if isBanRound evidenceJson ∨ stageStr = Stage.banPeer then
    banExecuted stageStr targetId evidenceJson
  else if node.peerManager.peerCount < 1 then
    []
  else
    let commitSig := node.pbft.getRoundCommitSig (C.sha256Hex (joinPipe [evidenceJson, targetId]))
    let proof :=
      match attached.proofChain with
      | none => []
      | some chain =>
        let chain := provenBy (C := C) clock targetId evidenceJson chain commitSig
        [.appendProof targetId evidenceJson commitSig, .exportFile (chain.exportFile attached.proofFile)]
          ++ attached.pushTelemetry (bytes "\x7b\"proof_chain\":" ++ chain.getLatestJson ++ bytes "\x7d")
    let webhook :=
      if attached.webhookUrl ≠ [] then
        [.notifyWebhook attached.webhookUrl targetId evidenceJson node.pbft.quorumSize (clock 0)]
      else
        []
    [.journal (bytes "EXECUTED") targetId evidenceJson]
      ++ proof
      ++ webhook
      ++ attached.pushTelemetry (entropySpikeJson targetId node.pbft.quorumSize)
      ++ attached.pushTelemetry (flaggedJson targetId)
      ++ attached.executeResponse evidenceJson targetId

def executedByOwnVote (signature : Bytes) : List Effect :=
  if isBanRound evidenceJson ∨ stageStr = Stage.banPeer then
    banExecuted stageStr targetId evidenceJson
  else if node.peerManager.peerCount < 1 then
    []
  else
    let proof :=
      match attached.proofChain with
      | none => []
      | some chain =>
        let chain := provenBy (C := C) clock targetId evidenceJson chain signature
        [.appendProof targetId evidenceJson signature, .exportFile (chain.exportFile attached.proofFile)]
    [.journal (bytes "EXECUTED") targetId evidenceJson]
      ++ proof
      ++ attached.executeResponse evidenceJson targetId

end Executed

def cutPipe (s : Bytes) : Option (Bytes × Bytes) :=
  if pipe ∈ s then
    let field := s.takeWhile (· ≠ pipe)
    some (field, s.drop (field.length + 1))
  else
    none

/--
The checks of a telemetry message that comes with a signature. A key that cannot be parsed and a signature
that cannot be decoded are not checked.
-/
def verifiesTelemetry (node : MeshNode C) (peerId b64Sig json : Bytes) : Bool :=
  let peerPem := node.peerManager.getPeerKey peerId
  if peerPem = [] then
    false
  else
    match C.getPubkeyFromPem peerPem with
    | none => true
    | some pubkey =>
      let rawSig := (base64Decode b64Sig).getD []
      rawSig = []
        || C.verifySignature pubkey (joinPipe [bytes "TELEMETRY", peerId, json]) rawSig

def processTelemetryGossip (node : MeshNode C) (attached : Attached) (msg : Bytes) : List Effect :=
  match cutPipe msg with
  | none => []
  | some (_, msg) =>
    match cutPipe msg with
    | none => []
    | some (peerId, msg) =>
      if peerId = [] ∨ peerId = node.nodeId then
        []
      else if 64 < peerId.length then
        []
      else
        -- without a third delimiter it is the format without a signature
        let (b64Sig, json) := (cutPipe msg).getD ([], msg)
        if b64Sig ≠ [] ∧ !node.verifiesTelemetry peerId b64Sig json then
          []
        else
          .setPeerTelemetry peerId json :: attached.pushTelemetry json

end MeshNode
end NeuroMesh
