import NeuroMesh.Common.Bytes
import NeuroMesh.Data.Merkle

/-!
This module contains `ProofChain`, the audit trail of a node: a hash chain of events with a Merkle tree
over its links. The digest `ProofLink::sha256_hex` is a parameter.
-/

namespace NeuroMesh

inductive ProofEventType where
  | anomalyDetected
  | pbftPrePrepare
  | pbftPrepare
  | pbftCommit
  | consensusReached
  | isolationExecuted
  | telemetryGossip
  | recordingFrame

def ProofEventType.code (type : ProofEventType) : Nat :=
  match type with
  | .anomalyDetected => 0
  | .pbftPrePrepare => 1
  | .pbftPrepare => 2
  | .pbftCommit => 3
  | .consensusReached => 4
  | .isolationExecuted => 5
  | .telemetryGossip => 6
  | .recordingFrame => 7

structure ProofLink where
  sequence : UInt64
  eventType : ProofEventType
  nodeId : Bytes
  targetId : Bytes
  dataHash : Bytes
  parentHash : Bytes
  linkHash : Bytes
  timestampUs : Int
  signatureHex : Bytes

def ProofLink.toString (link : ProofLink) : Bytes :=
  joinPipe [
    toDecimal link.sequence.toNat, toDecimal link.eventType.code, link.nodeId, link.targetId,
    link.dataHash, link.parentHash
  ]

structure ProofChain where
  nodeId : Bytes
  links : List ProofLink := []
  seq : UInt64 := 0
  merkleDirty : Bool := false
  merkleRoot : Bytes := []

namespace ProofChain

def maxChain : Nat := 4096

variable (sha256Hex : Bytes → Bytes)

def newLink (chain : ProofChain) (nowUs : Int) (type : ProofEventType) (targetId data sigHex : Bytes) : ProofLink :=
  let link : ProofLink := {
    sequence := chain.seq
    eventType := type
    nodeId := chain.nodeId
    targetId
    dataHash := sha256Hex data
    parentHash := (chain.links.getLast?.map ProofLink.linkHash).getD []
    linkHash := []
    timestampUs := nowUs
    signatureHex := sigHex
  }
  { link with linkHash := sha256Hex link.toString }

def append (chain : ProofChain) (nowUs : Int) (type : ProofEventType)
    (targetId data sigHex : Bytes) : ProofChain :=
  let links := chain.links ++ [chain.newLink sha256Hex nowUs type targetId data sigHex]
  {
    chain with
    links := if maxChain < links.length then links.drop 1 else links
    seq := chain.seq + 1
    merkleDirty := true
  }

def leaves (chain : ProofChain) : List Bytes :=
  chain.links.map ProofLink.linkHash

def join (a b : Bytes) : Bytes :=
  sha256Hex (a ++ b)

def rebuildMerkle (chain : ProofChain) : ProofChain :=
  if !chain.merkleDirty || chain.links.isEmpty then
    chain
  else
    let layer := Merkle.collapse (join sha256Hex) sha256Hex chain.links.length chain.leaves
    { chain with merkleRoot := layer.headD [], merkleDirty := false }

structure SiblingPath where
  idx : Nat
  siblings : List Bytes
  next : List Bytes

def siblingAt (i idx : Nat) (a b : Bytes) : List Bytes :=
  if i = idx then
    [bytes "R" ++ b]
  else if i + 1 = idx then
    [bytes "L" ++ a]
  else
    []

def nextIdx (i idx : Nat) : Nat :=
  if i ≤ idx ∧ idx < i + 2 then i / 2 else idx

def siblingPass (layer : List Bytes) (i : Nat) (path : SiblingPath) : SiblingPath :=
  match layer with
  | a :: b :: layer =>
    siblingPass layer (i + 2) {
      idx := nextIdx i path.idx
      siblings := path.siblings ++ siblingAt i path.idx a b
      next := path.next ++ [sha256Hex (a ++ b)]
    }
  | [a] => { path with idx := nextIdx i path.idx, next := path.next ++ [sha256Hex a] }
  | [] => path

def computeSiblingPath (chain : ProofChain) (leafIdx : Nat) : List Bytes :=
  go chain.links.length chain.leaves leafIdx []
where
  go (fuel : Nat) (layer : List Bytes) (idx : Nat) (siblings : List Bytes) : List Bytes :=
    match fuel with
    | 0 => siblings
    | fuel + 1 =>
      if 1 < layer.length then
        let path := siblingPass sha256Hex layer 0 { idx, siblings, next := [] }
        go fuel path.next path.idx path.siblings
      else
        siblings

def getRootHash (chain : ProofChain) : Bytes × ProofChain :=
  if chain.links.isEmpty then
    ([], chain)
  else
    let chain := chain.rebuildMerkle sha256Hex
    (chain.merkleRoot, chain)

def getProofPath (chain : ProofChain) (seq : Nat) : List Bytes × ProofChain :=
  if chain.links.length ≤ seq then
    ([], chain)
  else
    let chain := chain.rebuildMerkle sha256Hex
    (chain.computeSiblingPath sha256Hex seq, chain)

def applySibling (cur s : Bytes) : Bytes :=
  match s with
  | 0x4c :: s => sha256Hex (s ++ cur)
  | 0x52 :: s => sha256Hex (cur ++ s)
  | s => sha256Hex (cur ++ s)

def verifyProof (rootHash leafHash : Bytes) (siblings : List Bytes) : Bool :=
  siblings.foldl (applySibling sha256Hex) leafHash == rootHash

inductive Op where
  | append (nowUs : Int) (type : ProofEventType) (targetId data sigHex : Bytes)
  | getRootHash
  | getProofPath (seq : Nat)

def step (chain : ProofChain) (op : Op) : ProofChain :=
  match op with
  | .append nowUs type targetId data sigHex => chain.append sha256Hex nowUs type targetId data sigHex
  | .getRootHash => (chain.getRootHash sha256Hex).2
  | .getProofPath seq => (chain.getProofPath sha256Hex seq).2

end ProofChain
end NeuroMesh
