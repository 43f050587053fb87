import NeuroMesh.Consensus.MeshNode.Impl.Discovery

/-!
This module contains what a node sends besides its votes, together with what it signs for it.
-/

namespace NeuroMesh
namespace MeshNode

variable {C : IdentityCore}

structure Endpoint where
  tcpPort : Int
  tlsPort : Int
  tlsCertFingerprint : Bytes
  tlsCertPem : Bytes

def announceBlob (node : MeshNode C) : Bytes :=
  joinPipe [node.nodeId, node.publicKeyPem]

def announcePayload (node : MeshNode C) : Bytes :=
  joinPipe [
    bytes "ANNOUNCE", node.nodeId, node.publicKeyPem,
    base64Encode (C.signPayload node.privateKey node.announceBlob)
  ]

def beaconBlob (node : MeshNode C) (endpoint : Endpoint) (us : Int) : Bytes :=
  joinPipe [
    node.nodeId, toDecimalInt endpoint.tcpPort, toDecimalInt endpoint.tlsPort, toDecimalInt us,
    endpoint.tlsCertFingerprint, base64Encode endpoint.tlsCertPem
  ]

def beaconPayload (node : MeshNode C) (endpoint : Endpoint) (us : Int) : Bytes :=
  joinPipe [
    bytes "DISCOVERY", node.nodeId, toDecimalInt endpoint.tcpPort, toDecimalInt endpoint.tlsPort,
    toDecimalInt us, base64Encode node.publicKeyPem, endpoint.tlsCertFingerprint,
    base64Encode endpoint.tlsCertPem,
    base64Encode (C.signPayload node.privateKey (node.beaconBlob endpoint us))
  ]

def telemetryBlob (node : MeshNode C) (json : Bytes) : Bytes :=
  joinPipe [bytes "TELEMETRY", node.nodeId, json]

def telemetryPayload (node : MeshNode C) (json : Bytes) : Bytes :=
  joinPipe [
    bytes "TELEMETRY", node.nodeId,
    base64Encode (C.signPayload node.privateKey (node.telemetryBlob json)), json
  ]

end MeshNode
end NeuroMesh
