import NeuroMesh.Consensus.MeshNode.Impl.Discovery
import NeuroMesh.Enforcer.MitigationEngine

/-!
This module contains a node together with its enforcer: the node registers the addresses of the peers that it
discovers, and it hands what the consensus decides to the `MitigationEngine`.
-/

namespace NeuroMesh

variable {C : IdentityCore}

namespace MeshNode

def announceRegistrations (node : MeshNode C) (env : Env) (tokens : List Bytes) (senderIp : Bytes) :
    List PolicyEnforcer.Call :=
  match node.parseAnnounce tokens with
  | none => []
  | some (peerId, pem) =>
    let met := meetAnnounce node.peerManager (env 0).now peerId pem senderIp
    if met.1.keyMismatch then [] else [.registerPeerIp peerId senderIp]

def beaconRegistrations (node : MeshNode C) (env : Env) (beacon : Beacon) (senderIp : Bytes) :
    List PolicyEnforcer.Call :=
  let met := meetBeacon node.peerManager (env 1).now beacon senderIp
  let isNew := (addBeacon node.peerManager (env 1).now beacon senderIp).1
  if !node.passesBeacon (env 0).now beacon || met.1.keyMismatch then
    []
  else if isNew || met.1.dualConfirmed then
    -- the port is an `int` here and a `uint16_t` there
    .registerPeerIp beacon.peerId senderIp
      :: if 0 < beacon.tcpPort then [.registerPeerPort beacon.peerId (UInt16.ofInt beacon.tcpPort)] else []
  else
    []

def registrations (node : MeshNode C) (step : Step) : List PolicyEnforcer.Call :=
  match step.action with
  | .message msg senderIp =>
    match node.peerManager.checkRateLimit (step.env 0) senderIp with
    | (false, _) => []
    | (true, peerManager) =>
      let tokens := splitString msg pipe
      if !validateMessage msg ∨ tokens.length < 3 ∨ tokens.head? ≠ some (bytes "ANNOUNCE") then
        []
      else
        { node with peerManager }.announceRegistrations step.env.right tokens senderIp
  | .discovery msg senderIp =>
    match node.peerManager.checkRateLimit (step.env 0) senderIp with
    | (false, _) => []
    | (true, peerManager) =>
      if bytes "TELEMETRY|" <+: msg then
        []
      else
        match parseBeacon (splitString msg pipe) with
        | none => []
        | some beacon => { node with peerManager }.beaconRegistrations step.env.right beacon senderIp
  | _ => []

def responses (node : MeshNode C) (step : Step) : List (Bytes × Bytes) :=
  ((node.act step).log.take ((node.act step).log.length - node.log.length)).filterMap fun
    | .executeResponse evidenceJson targetId => some (evidenceJson, targetId)
    | _ => none

end MeshNode

structure Agent (C : IdentityCore) where
  node : MeshNode C
  enforcer : PolicyEnforcer

namespace Agent

/--
Besides what happens to the node there are the calls of the interface of the enforcer that the node does not
make itself.
-/
inductive Input where
  | node (p : Platform) (step : MeshNode.Step)
  | addSafeNode (nodeId : Bytes)
  | isolateTarget (sys : System) (target : Bytes)
  | blockIpAddress (sys : System) (ip : Bytes)
  | releaseTarget (sys : System) (target : Bytes)

def calls (agent : Agent C) (input : Input) : List PolicyEnforcer.Call :=
  match input with
  | .node p step =>
    agent.node.registrations step
      ++ (agent.node.responses step).reverse.map fun (evidenceJson, targetId) =>
        .executeResponse p evidenceJson targetId
  | .addSafeNode nodeId => [.addSafeNode nodeId]
  | .isolateTarget sys target => [.isolateTarget sys target]
  | .blockIpAddress sys ip => [.blockIpAddress sys ip]
  | .releaseTarget sys target => [.releaseTarget sys target]

def act (agent : Agent C) (input : Input) : Agent C where
  node :=
    match input with
    | .node _ step => agent.node.act step
    | _ => agent.node
  enforcer := (agent.calls input).foldl PolicyEnforcer.step agent.enforcer

end Agent
end NeuroMesh
