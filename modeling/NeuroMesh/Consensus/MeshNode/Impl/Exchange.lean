import NeuroMesh.Common.Inet
import NeuroMesh.Consensus.MeshNode.Impl.Discovery

/-!
This module contains the PEX message that a node sends, as `perform_pex_handshake` and `tcp_listener_loop` build it.
-/

namespace NeuroMesh
namespace MeshNode

variable {C : IdentityCore}

def comma : UInt8 := 0x2c
def colon : UInt8 := 0x3a

def pexEntry (peer : Bytes × Bytes × Int) : Bytes :=
  [colon].intercalate [peer.1, peer.2.1, toDecimalInt peer.2.2]

def pexText (nodeId : Bytes) (peers : List (Bytes × Bytes × Int)) : Bytes :=
  joinPipe [bytes "PEX", nodeId, toDecimal peers.length, [comma].intercalate (peers.map pexEntry)]

def pexPeers (node : MeshNode C) (a : Ambient) : List (Bytes × Bytes × Int) :=
  (node.peerManager.getAllPeers a).map fun entry => (entry.nodeId, entry.ip, entry.tcpPort)

def pexMessage (node : MeshNode C) (a : Ambient) : Bytes :=
  pexText node.nodeId (node.pexPeers a)

def pexReadSize : Nat := 8191

def readPex (msg : Bytes) : List (Bytes × Bytes × Int) :=
  pexPeerList (cStr (msg.take pexReadSize))

end MeshNode
end NeuroMesh
