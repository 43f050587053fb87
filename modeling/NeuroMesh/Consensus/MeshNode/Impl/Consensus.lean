import NeuroMesh.Consensus.MeshNode.Basic

/-!
This module contains the part of `MeshNode` that takes part in the consensus: the node votes itself
whenever a vote makes a round proceed.
-/

namespace NeuroMesh
namespace MeshNode

variable {C : IdentityCore}

def receive (node : MeshNode C) (env : Env) (msg : P2PMessage) : Option PBFTStage × MeshNode C :=
  match node.pbft.receive (env 0).now (env 1) msg with
  | (none, pbft) => (none, { node with pbft })
  | (some stage, pbft) => (some stage, { node with pbft }.emit (.advanced msg stage))

def ownMessage (node : MeshNode C) (stageStr targetId evidenceJson : Bytes) : P2PMessage :=
  let msg : P2PMessage := {
    stageStr
    senderId := node.nodeId
    targetId, evidenceJson
    signature := []
    prevMessageHash := node.pbft.getLastSentHash node.nodeId
    sequenceNumber := node.sequenceNumber + 1
    view := node.pbft.currentView
  }
  { msg with signature := node.pbft.signMessage msg }

def castOwnVote (node : MeshNode C) (env : Env) (stageStr targetId evidenceJson : Bytes) :
    Option PBFTStage × MeshNode C :=
  let msg := node.ownMessage stageStr targetId evidenceJson
  let node := { node with sequenceNumber := node.sequenceNumber + 1 }
  let node :=
    if stageStr = Stage.commit then
      let key := C.sha256Hex (joinPipe [evidenceJson, targetId])
      { node with pbft := node.pbft.setRoundCommitSig key msg.signature }
    else
      node
  let node := node.emit (.broadcast msg node.pbft)
  node.receive env msg

def isBanRound (evidenceJson : Bytes) : Bool :=
  bytes "\"action\":\"ban\"" <:+: evidenceJson

def onExecuted (node : MeshNode C) (stageStr targetId evidenceJson commitSig : Bytes) : MeshNode C :=
  if isBanRound evidenceJson ∨ stageStr = Stage.banPeer then
    let reason :=
      if stageStr = Stage.banPeer then bytes "cross_node_bft: " ++ evidenceJson else evidenceJson
    let node := { node with pbft := node.pbft.banPeerLocal targetId reason }
    node.emit (.journal (bytes "BAN_PEER_EXECUTED") targetId evidenceJson)
  else if node.peerManager.peerCount < 1 then
    node
  else
    let node := node.emit (.journal (bytes "EXECUTED") targetId evidenceJson)
    let node := node.emit (.consensusReached targetId evidenceJson commitSig)
    node.emit (.executeResponse evidenceJson targetId)

/--
The dispatch on the result of `advance_state` in `process_message` and `broadcast_pbft_stage`. A vote
that the node casts here is dispatched in turn, `fuel` bounds the number of dispatches.
-/
def dispatch (fuel : Nat) (node : MeshNode C) (env : Env) (next : Option PBFTStage)
    (stageStr targetId evidenceJson commitSig : Bytes) : MeshNode C :=
  match fuel with
  | 0 => node
  | fuel + 1 =>
    match next with
    | some .prepare =>
      let signature := (node.ownMessage Stage.prepare targetId evidenceJson).signature
      let (next, node) := node.castOwnVote env.left Stage.prepare targetId evidenceJson
      dispatch fuel node env.right next Stage.prepare targetId evidenceJson signature
    | some .commit =>
      let node := node.emit (.journal (bytes "COMMIT") targetId evidenceJson)
      let signature := (node.ownMessage Stage.commit targetId evidenceJson).signature
      let (next, node) := node.castOwnVote env.left Stage.commit targetId evidenceJson
      dispatch fuel node env.right next Stage.commit targetId evidenceJson signature
    | some .executed => node.onExecuted stageStr targetId evidenceJson commitSig
    | _ => node

def dispatchFuel : Nat := 3

def broadcastPbftStage (node : MeshNode C) (env : Env) (stageStr targetId evidenceJson : Bytes) :
    MeshNode C :=
  let signature := (node.ownMessage stageStr targetId evidenceJson).signature
  let (next, node) := node.castOwnVote env.left stageStr targetId evidenceJson
  node.dispatch dispatchFuel env.right next stageStr targetId evidenceJson signature

def initiateConsensus (node : MeshNode C) (env : Env) (targetId evidenceJson : Bytes) : MeshNode C :=
  let node := node.emit (.proposed targetId evidenceJson)
  if node.peerManager.isOnCooldown (env 0).now targetId then
    node
  else
    let peerManager := node.peerManager.setCooldown (env 0).now targetId
    { node with peerManager }.broadcastPbftStage env.right Stage.prePrepare targetId evidenceJson

def banEvidence (reason : Bytes) : Bytes :=
  bytes "\x7b\"action\":\"ban\",\"reason\":\"" ++ reason ++ bytes "\"\x7d"

def proposeBan (node : MeshNode C) (env : Env) (targetId reason : Bytes) : Bool × MeshNode C :=
  if targetId = [] ∨ targetId = node.nodeId then
    (false, node)
  else
    let node := node.emit (.proposed targetId (banEvidence reason))
    let node := node.broadcastPbftStage env Stage.prePrepare targetId (banEvidence reason)
    if node.pbft.isBanned targetId then
      (true, node)
    else
      let node := { node with pbft := node.pbft.banPeerLocal targetId reason }
      (true, node.emit (.journal (bytes "BAN_PEER_LOCAL") targetId reason))

def processVote (node : MeshNode C) (env : Env) (msg : P2PMessage) : MeshNode C :=
  if msg.senderId = node.nodeId then
    node
  else
    let node :=
      if msg.targetId = node.nodeId then { node with lastTargetedAt := (env 0).now } else node
    let (next, node) := node.receive env.left msg
    let key := C.sha256Hex (joinPipe [msg.evidenceJson, msg.targetId])
    node.dispatch dispatchFuel env.right next msg.stageStr msg.targetId msg.evidenceJson
      (node.pbft.getRoundCommitSig key)

def isTargetedRecently (node : MeshNode C) (now : Time) : Bool :=
  if node.lastTargetedAt = 0 then false else seconds (now - node.lastTargetedAt) < 12

end MeshNode
end NeuroMesh
