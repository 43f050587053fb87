import NeuroMesh.Consensus.MeshNode.Impl.Discovery

/-!
This module contains the commands that `ipc_listener_loop` takes from the operator.
-/

namespace NeuroMesh
namespace MeshNode

inductive IpcOutcome where
  | ignored
  | reject (reply : Bytes)
  | initiate (targetId evidenceJson reply : Bytes)
  | reset
  | shutdown
deriving DecidableEq

def space : UInt8 := 0x20

def ipcPropose (ack payload : Bytes) : IpcOutcome :=
  if space ∈ payload then
    let targetId := payload.takeWhile (· ≠ space)
    let evidence := payload.drop (targetId.length + 1)
    if targetId = [] ∨ 64 < targetId.length then
      .reject (bytes "REJECT:INVALID_TARGET\n")
    else if evidence = [] ∨ 65536 < evidence.length then
      .reject (bytes "REJECT:EVIDENCE_TOO_LARGE\n")
    else if evidence.head? ≠ some 0x7b ∨ 0 ∈ evidence then
      .reject (bytes "REJECT:INVALID_EVIDENCE\n")
    else
      .initiate targetId evidence ack
  else
    .ignored

def ipcCommand (cmd : Bytes) : IpcOutcome :=
  let inject := bytes "CMD:INJECT "
  let isolate := bytes "CMD:ISOLATE "
  if inject <+: cmd then
    ipcPropose (bytes "ACK:INJECT\n") (cmd.drop inject.length)
  else if isolate <+: cmd then
    ipcPropose (bytes "ACK:ISOLATE\n") (cmd.drop isolate.length)
  else if cmd = bytes "CMD:RESET" then
    .reset
  else if cmd = bytes "CMD:SHUTDOWN" then
    .shutdown
  else
    .ignored

def readVote (maxEvidenceSize : Nat) (msg : Bytes) : Option P2PMessage :=
  let tokens := splitString msg pipe
  if validateMessage msg ∧ 3 ≤ tokens.length ∧ tokens.head? = some (bytes "VOTE") then
    parseVote maxEvidenceSize tokens
  else
    none

end MeshNode
end NeuroMesh
