import NeuroMesh.Crypto.ProofChain.Basic

namespace NeuroMesh

def ProofLink.toJson (link : ProofLink) : Bytes :=
  bytes "\x7b\"seq\":" ++ toDecimal link.sequence.toNat
    ++ bytes ",\"event\":" ++ toDecimal link.eventType.code
    ++ bytes ",\"node\":\"" ++ link.nodeId
    ++ bytes "\",\"target\":\"" ++ link.targetId
    ++ bytes "\",\"data_hash\":\"" ++ link.dataHash
    ++ bytes "\",\"link_hash\":\"" ++ link.linkHash
    ++ bytes "\",\"parent_hash\":\"" ++ link.parentHash
    ++ bytes "\",\"sig\":\"" ++ link.signatureHex
    ++ bytes "\",\"ts_us\":" ++ toDecimalInt link.timestampUs ++ bytes "\x7d"

namespace ProofChain

def getLatestJson (chain : ProofChain) : Bytes :=
  match chain.links.getLast? with
  | none => bytes "\x7b\x7d"
  | some link => link.toJson

def exportLinks (links : List ProofLink) : Bytes :=
  match links with
  | [] => []
  | [link] => bytes "    " ++ link.toJson ++ bytes "\n"
  | link :: links => bytes "    " ++ link.toJson ++ bytes "," ++ bytes "\n" ++ exportLinks links

def exportText (chain : ProofChain) : Bytes :=
  bytes "\x7b\n  \"node_id\": \"" ++ chain.nodeId ++ bytes "\",\n" ++ bytes "  \"links\": [\n"
    ++ exportLinks chain.links ++ bytes "  ]\n\x7d\n"

/--
`opened` is whether the file can be opened.
-/
def exportFile (chain : ProofChain) (opened : Bool) : Option Bytes :=
  if opened then some chain.exportText else none

def exportSiblings (siblings : List Bytes) : Bytes :=
  (bytes ",").intercalate (siblings.map fun s => bytes "\"" ++ s ++ bytes "\"")

def exportProof (nodeId : Bytes) (seq : Nat) (leafHash rootHash : Bytes) (siblings : List Bytes) : Bytes :=
  bytes "\x7b\"node_id\":\"" ++ nodeId ++ bytes "\",\"seq\":" ++ toDecimal seq
    ++ bytes ",\"leaf_hash\":\"" ++ leafHash ++ bytes "\",\"root_hash\":\"" ++ rootHash
    ++ bytes "\",\"siblings\":[" ++ exportSiblings siblings ++ bytes "]\x7d\n"

def exportProofToFile (sha256Hex : Bytes → Bytes) (chain : ProofChain) (opened : Bool) (seq : Nat)
    : Option Bytes × ProofChain :=
  if chain.links.length ≤ seq then
    (none, chain)
  else
    let chain := chain.rebuildMerkle sha256Hex
    let siblings := chain.computeSiblingPath sha256Hex seq
    let leafHash := (chain.links[seq]?.map ProofLink.linkHash).getD []
    (if opened then some (exportProof chain.nodeId seq leafHash chain.merkleRoot siblings) else none, chain)

end ProofChain
end NeuroMesh
