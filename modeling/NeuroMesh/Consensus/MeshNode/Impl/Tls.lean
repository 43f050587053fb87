import NeuroMesh.Consensus.PeerManager
import NeuroMesh.Net.TransportLayer

/-!
This module contains the TLS connections of a node in small steps. The acceptor, the worker, the liveness monitor and
every thread that broadcasts a vote use the registry and the transport at the same time, and only a single call to one of
the two objects is atomic.
-/

namespace NeuroMesh

inductive TlsFrame where
  | handshake
  | getConnectionInfo (fd : Int)
  | getOldFd (fd : Int) (peerId : Bytes)
  | closeOld (fd : Int) (peerId : Bytes) (oldFd : Int)
  | closeUnmatched (fd : Int)
  | connect (peerId : Bytes)
  | record (fd : Int) (peerId : Bytes)
  | send (peerId : Bytes) (fd : Int)
  | forget (peerId : Bytes)
  | closePeer (peerId : Bytes) (fd : Int)
  | closeStale (peerId : Bytes) (fd : Int)
  | remove (peerId : Bytes)
deriving DecidableEq

structure TlsAnswer where
  incoming : Incoming := .nothing
  complete : Bool := true
  ambient : Ambient

inductive TlsCall where
  | accept (now : Time)
  | connectTlsToPeer (peerId : Bytes)
  | send (peerId : Bytes)
  | disconnectTlsPeer (peerId : Bytes)
  | prune (peerId : Bytes)

inductive TlsAction (n : Nat) where
  | addPeer (now : Time) (peerId ip : Bytes) (tcpPort tlsPort : Int) (publicKeyPem : Bytes)
  | updatePeerHeartbeat (now : Time) (peerId ip : Bytes) (tcpPort tlsPort : Int) (publicKeyPem : Bytes)
  | start (thread : Fin n) (call : TlsCall)
  | resume (thread : Fin n) (answer : TlsAnswer)

/--
The registry and the transport of a node with `n` threads. `tlsFd` is the field `tls_fd` of the entries of the registry,
which is `-1` where there is none.
-/
structure TlsNode (n : Nat) where
  peerManager : PeerManager := {}
  tlsFd : Map Bytes Int := ∅
  transport : TransportConnections := {}
  frames : Fin n → Option TlsFrame := fun _ => none

namespace TlsNode

variable {n : Nat} (node : TlsNode n)

def goto (thread : Fin n) (frame : Option TlsFrame) : TlsNode n :=
  { node with frames := Function.update node.frames thread frame }

def getPeerTlsFd (peerId : Bytes) : Option Int :=
  if node.peerManager.hasPeer peerId then
    let fd := node.tlsFd.getD peerId (-1)
    if fd < 0 then none else some fd
  else
    none

def setPeerTlsFd (peerId : Bytes) (fd : Int) : TlsNode n :=
  if node.peerManager.hasPeer peerId then { node with tlsFd := node.tlsFd.insert peerId fd } else node

def removePeer (peerId : Bytes) : TlsNode n :=
  { node with peerManager := node.peerManager.removePeer peerId, tlsFd := node.tlsFd.erase peerId }

def addPeer (now : Time) (peerId ip : Bytes) (tcpPort tlsPort : Int) (publicKeyPem : Bytes) : TlsNode n :=
  if node.peerManager.hasPeer peerId then
    node
  else
    {
      node with
      peerManager := (node.peerManager.addPeer now peerId ip tcpPort tlsPort publicKeyPem).2
      tlsFd := node.tlsFd.erase peerId
    }

def matching (a : Ambient) (fd : Int) : Option Bytes :=
  match node.transport.getConnectionInfo fd with
  | none => none
  | some info =>
    if info.verified then
      ((node.peerManager.getAllPeers a).find? fun entry =>
        entry.ip == info.peerIp && entry.tlsPort == (info.peerPort.toNat : Int)).map PeerEntry.nodeId
    else
      none

def advance (thread : Fin n) (frame : TlsFrame) (answer : TlsAnswer) : TlsNode n :=
  match frame with
  | .handshake =>
    let node := { node with transport := node.transport.finishAccept answer.incoming }
    match answer.incoming with
    | .connection fd _ => node.goto thread (some (.getConnectionInfo fd))
    | _ => node.goto thread none
  | .getConnectionInfo fd =>
    match node.matching answer.ambient fd with
    | some peerId => node.goto thread (some (.getOldFd fd peerId))
    | none => node.goto thread (some (.closeUnmatched fd))
  | .getOldFd fd peerId =>
    match node.getPeerTlsFd peerId with
    | some oldFd => node.goto thread (some (.closeOld fd peerId oldFd))
    | none => node.goto thread (some (.record fd peerId))
  | .closeOld fd peerId oldFd =>
    { node with transport := node.transport.close oldFd }.goto thread (some (.record fd peerId))
  | .closeUnmatched fd => { node with transport := node.transport.close fd }.goto thread none
  | .connect peerId =>
    let node := { node with transport := node.transport.connect answer.incoming }
    match answer.incoming with
    | .connection fd _ => node.goto thread (some (.record fd peerId))
    | _ => node.goto thread none
  | .record fd peerId => (node.setPeerTlsFd peerId fd).goto thread none
  | .send peerId _ => node.goto thread (if answer.complete then none else some (.forget peerId))
  | .forget peerId => (node.setPeerTlsFd peerId (-1)).goto thread none
  | .closePeer peerId fd =>
    { node with transport := node.transport.close fd }.goto thread (some (.forget peerId))
  | .closeStale peerId fd =>
    { node with transport := node.transport.close fd }.goto thread (some (.remove peerId))
  | .remove peerId => (node.removePeer peerId).goto thread none

def start (thread : Fin n) (call : TlsCall) : TlsNode n :=
  match call with
  | .accept now =>
    let accept := node.transport.beginAccept now
    { node with transport := accept.2 }.goto thread (if accept.1 then some .handshake else none)
  | .connectTlsToPeer peerId =>
    match node.getPeerTlsFd peerId with
    | some _ => node
    | none => node.goto thread (some (.connect peerId))
  | .send peerId =>
    match node.getPeerTlsFd peerId with
    | some fd => node.goto thread (some (.send peerId fd))
    | none => node
  | .disconnectTlsPeer peerId =>
    match node.getPeerTlsFd peerId with
    | some fd => node.goto thread (some (.closePeer peerId fd))
    | none => node
  | .prune peerId =>
    match node.getPeerTlsFd peerId with
    | some fd => node.goto thread (some (.closeStale peerId fd))
    | none => node.goto thread (some (.remove peerId))

def step (action : TlsAction n) : TlsNode n :=
  match action with
  | .addPeer now peerId ip tcpPort tlsPort publicKeyPem =>
    node.addPeer now peerId ip tcpPort tlsPort publicKeyPem
  | .updatePeerHeartbeat now peerId ip tcpPort tlsPort publicKeyPem =>
    { node with peerManager := node.peerManager.updatePeerHeartbeat now peerId ip tcpPort tlsPort publicKeyPem }
  | .start thread call =>
    match node.frames thread with
    | some _ => node
    | none => node.start thread call
  | .resume thread answer =>
    match node.frames thread with
    | some frame => node.advance thread frame answer
    | none => node

end TlsNode
end NeuroMesh
