import NeuroMesh.Common.Base64
import NeuroMesh.Consensus.PBFT.Impl.Advance
import NeuroMesh.Consensus.PeerManager
import NeuroMesh.Data.Delimited

/-!
This module contains the state of a `MeshNode` and the text format of the messages that it exchanges.
-/

namespace NeuroMesh

/--
What the calls inside of a handler read from outside, see `Ambient`. Every call reads its own clock, so
a handler passes `left` and `right` on to the calls it makes.
-/
abbrev Env := Nat → Ambient

namespace Env

def left (env : Env) : Env := fun i => env (2 * i + 1)

def right (env : Env) : Env := fun i => env (2 * i + 2)

end Env

/--
What a node does that can be observed from outside of it. `proposed` and `advanced` record calls, with
the result of `advance_state`. A `broadcast` comes with the `PBFTConsensus` object at that time.
-/
inductive Event (C : IdentityCore) where
  | proposed (targetId evidenceJson : Bytes)
  | broadcast (msg : P2PMessage) (pbft : PBFTConsensus C)
  | advanced (msg : P2PMessage) (stage : PBFTStage)
  | journal (event targetId evidenceJson : Bytes)
  | consensusReached (targetId evidenceJson commitSignature : Bytes)
  | executeResponse (evidenceJson targetId : Bytes)
  | announce (payload : Bytes)

/--
What is modelled of the TLS transport: the certificates that it trusts.
-/
structure TransportLayer where
  readsCert : Bytes → Bool
  trustedCerts : Finset Bytes := ∅

def TransportLayer.trustPeerCert (transport : TransportLayer) (pemCert : Bytes) : TransportLayer :=
  if transport.readsCert pemCert then
    { transport with trustedCerts := insert pemCert transport.trustedCerts }
  else
    transport

/--
Sockets, TLS connections, telemetry and the webhook are not part of the node: they carry what it does to the
outside but do not influence it.
-/
structure MeshNode (C : IdentityCore) where
  nodeId : Bytes
  privateKey : C.PrivKey
  publicKeyPem : Bytes
  pbft : PBFTConsensus C
  sequenceNumber : UInt64 := 0
  maxEvidenceSize : Nat := 4096
  peerManager : PeerManager := {}
  lastAnnounceTime : Time := 0
  lastTargetedAt : Time := 0
  transport : Option TransportLayer := none
  log : List (Event C) := []

namespace MeshNode

def emit {C : IdentityCore} (node : MeshNode C) (event : Event C) : MeshNode C :=
  { node with log := event :: node.log }

def splitString (str : Bytes) (delimiter : UInt8) : List Bytes :=
  Delimited.split delimiter str

def tryParseInt (s : Bytes) : Option Int :=
  match stoi s with
  | some (val, pos) => if pos = s.length then some val else none
  | none => none

def tryParseLong (s : Bytes) : Option Int :=
  match stoll s with
  | some (val, pos) => if pos = s.length then some val else none
  | none => none

/--
A `char` is signed, so all of the bytes from `0x80` on are below `32` as well.
-/
def validateMessage (msg : Bytes) : Bool :=
  if msg = [] ∨ 65536 < msg.length then
    false
  else if 0 ∈ msg then
    false
  else
    msg.all fun c => !((c < 32 || 0x80 ≤ c) && c != 0x0a && c != 0x0d)

def parseVote (maxEvidenceSize : Nat) (tokens : List Bytes) : Option P2PMessage :=
  match tokens with
  | _ :: stageStr :: senderId :: seqStr :: viewStr :: targetId :: b64Evidence :: prevHash :: b64Sig
      :: _ =>
    if stageStr = [] ∨ senderId = [] ∨ targetId = [] then
      none
    else if 64 < senderId.length ∨ 64 < targetId.length then
      none
    else if maxEvidenceSize * 4 / 3 + 4 < b64Evidence.length then
      none
    else
      let evidenceJson := (base64Decode b64Evidence).getD []
      if evidenceJson = [] ∨ maxEvidenceSize < evidenceJson.length then
        none
      else if evidenceJson.head? ≠ some 0x7b then
        none
      else if stageStr ∉ [Stage.prePrepare, Stage.prepare, Stage.commit, Stage.banPeer] then
        none
      else
        match stoull seqStr, stoi viewStr with
        | some sequenceNumber, some (view, _) =>
          let signature := (base64Decode b64Sig).getD []
          if signature = [] then
            none
          else
            some {
              stageStr, senderId, targetId, evidenceJson, signature
              prevMessageHash := prevHash
              sequenceNumber, view
            }
        | _, _ => none
  | _ => none

def encodeVote (msg : P2PMessage) : Bytes :=
  joinPipe [
    bytes "VOTE", msg.stageStr, msg.senderId, toDecimal msg.sequenceNumber.toNat,
    toDecimalInt msg.view, msg.targetId, base64Encode msg.evidenceJson, msg.prevMessageHash,
    base64Encode msg.signature
  ]

end MeshNode
end NeuroMesh
