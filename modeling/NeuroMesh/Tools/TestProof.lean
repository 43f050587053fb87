import NeuroMesh.Common.Bytes
import NeuroMesh.Data.Json

/-!
This module contains `tools/test_proof.py`, the program that checks an exported proof chain. An exception
of the program is `none`. What it prints is left out.
-/

namespace NeuroMesh
namespace TestProof

def str (other : Json → Bytes) (json : Json) : Bytes :=
  match json with
  | .int z => toDecimalInt z
  | .str s => s
  | json => other json

def text (json : Json) : Option Bytes :=
  match json with
  | .str s => some s
  | _ => none

def isText (s : Bytes) (json : Json) : Bool :=
  match json with
  | .str t => t == s
  | _ => false

def isNumber (json : Json) : Bool :=
  match json with
  | .int _ => true
  | .bool _ => true
  | _ => false

def isSequence (json : Json) : Bool :=
  match json with
  | .str _ => true
  | .arr _ => true
  | _ => false

variable (sha256Hex : Bytes → Bytes) (other : Json → Bytes)

def checkLink (prev : Option Json) (link : Json) : Option Bool := do
  let seq ← link.get? (bytes "seq")
  let event ← link.get? (bytes "event")
  let node ← link.get? (bytes "node") >>= text
  let target ← link.get? (bytes "target") >>= text
  let dataHash ← link.get? (bytes "data_hash") >>= text
  let parentHash ← link.get? (bytes "parent_hash") >>= text
  let canonical := joinPipe [str other seq, str other event, node, target, dataHash, parentHash]
  -- the text cannot be encoded
  if !Utf8.valid canonical then
    none
  else
    let linkHash ← link.get? (bytes "link_hash")
    let intact := isText (sha256Hex canonical) linkHash
    let linked := prev.all (isText parentHash)
    if intact && linked then
      some true
    else if isNumber seq && (intact || isSequence linkHash) then
      some false
    else
      none

def checkLinks (prev : Option Json) (links : List Json) : Option Bool :=
  match links with
  | [] => some true
  | link :: links => do
    let ok ← checkLink sha256Hex other prev link
    let rest ← checkLinks (link.get? (bytes "link_hash")) links
    some (ok && rest)

def elements (json : Json) : Option (List Json) :=
  match json with
  | .arr elements => some elements
  | .str [] => some []
  | .obj [] => some []
  | _ => none

def verifyProofFile (content : Bytes) : Option Bool := do
  let data ← Json.parse true content
  match data with
  | .obj _ =>
    let links ← (data.get? (bytes "links")).elim (some []) elements
    checkLinks sha256Hex other none links
  | _ => none

end TestProof
end NeuroMesh
