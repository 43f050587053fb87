import NeuroMesh.Crypto.IdentityCore
import NeuroMesh.Data.Json
import NeuroMesh.Enforcer.PolicyEnforcer

/-!
This module contains `MitigationEngine`, which carries out what the consensus has decided. It is constructed
with a `PolicyEnforcer`, the one that it works on.
-/

namespace NeuroMesh

inductive Signal where
  | probe
  | sigkill
deriving DecidableEq

inductive KillResult where
  | delivered
  | esrch
  | failed
deriving DecidableEq

structure Kill where
  pid : Int
  signal : Signal
deriving DecidableEq

/--
What `execute_response` depends on: the JSON library, the hash, and the answers of the system.
-/
structure Platform where
  parse : Bytes → Option Json
  sha256Hex : Bytes → Bytes
  getpid : Int
  kill : Kill → KillResult
  block : System
  isolate : System

namespace MitigationEngine

variable (p : Platform)

def extractStr (json key : Bytes) : Bytes :=
  match (p.parse json).bind (Json.get? · key) with
  | some (.str s) => s
  | _ => []

def extractInt (json key : Bytes) : Int :=
  match (p.parse json).bind (Json.get? · key) with
  | some (.int z) => z.bmod (2 ^ 64)
  | _ => -1

def validFields : List Bytes :=
  ["event", "verdict", "src_ip", "pid", "node", "entropy", "source"].map bytes

def validateEvidenceSchema (json : Bytes) : Bool :=
  if json = [] ∨ 8192 < json.length then
    false
  else
    match p.parse json with
    | some (.obj members) => validFields.any fun field => (Json.get? (.obj members) field).isSome
    | _ => false

def pidT (pid : UInt32) : Int :=
  int32 pid.toNat

def validatePid (pid : UInt32) : Bool × List Kill :=
  if pid ≤ 1 then
    (false, [])
  else if pid = UInt32.ofInt p.getpid then
    (false, [])
  else
    let probe : Kill := { pid := pidT pid, signal := .probe }
    (p.kill probe = .delivered, [probe])

def terminateProcess (pid : UInt32) : Bool × List Kill :=
  match validatePid p pid with
  | (false, kills) => (false, kills)
  | (true, kills) =>
    let kill : Kill := { pid := pidT pid, signal := .sigkill }
    -- a process that has exited in the meantime is as good as terminated
    (p.kill kill ≠ .failed, kills ++ [kill])

def terminate (evidenceJson : Bytes) : Bool × List Kill :=
  let rawPid := extractInt p evidenceJson (bytes "pid")
  if extractStr p evidenceJson (bytes "event") = bytes "privilege_escalation" ∧ 0 < rawPid then
    terminateProcess p (UInt32.ofInt rawPid)
  else
    (false, [])

def blockSource (e : PolicyEnforcer) (evidenceJson : Bytes) : Bool × PolicyEnforcer :=
  let eventType := extractStr p evidenceJson (bytes "event")
  let verdict := extractStr p evidenceJson (bytes "verdict")
  let srcIp := extractStr p evidenceJson (bytes "src_ip")
  if srcIp ≠ []
      ∧ (eventType = bytes "lateral_movement" ∨ verdict = bytes "THREAT" ∨ verdict = bytes "CRITICAL") then
    if e.isIpSafe srcIp then (false, e) else e.blockIpAddress p.block srcIp
  else
    (false, e)

def isolateNode (e : PolicyEnforcer) (targetId : Bytes) : Bool × PolicyEnforcer :=
  if targetId ≠ [] then e.isolateTarget p.isolate targetId else (false, e)

def accepts (evidenceJson : Bytes) : Bool :=
  validateEvidenceSchema p evidenceJson && p.sha256Hex evidenceJson ≠ []

def executeResponse (e : PolicyEnforcer) (evidenceJson targetId : Bytes) :
    Bool × List Kill × PolicyEnforcer :=
  if accepts p evidenceJson then
    let (killed, kills) := terminate p evidenceJson
    let (blocked, e) := blockSource p e evidenceJson
    let (isolated, e) := isolateNode p e targetId
    (killed || blocked || isolated, kills, e)
  else
    (false, [], e)

end MitigationEngine

namespace PolicyEnforcer

/--
The calls that reach an enforcer. The ones of `execute_response` are those of a `MitigationEngine` that was
constructed with it.
-/
inductive Call where
  | addSafeNode (nodeId : Bytes)
  | registerPeerIp (nodeId ip : Bytes)
  | registerPeerPort (nodeId : Bytes) (port : UInt16)
  | executeResponse (p : Platform) (evidenceJson targetId : Bytes)
  | isolateTarget (sys : System) (target : Bytes)
  | blockIpAddress (sys : System) (ip : Bytes)
  | releaseTarget (sys : System) (target : Bytes)

def step (e : PolicyEnforcer) (call : Call) : PolicyEnforcer :=
  match call with
  | .addSafeNode nodeId => e.addSafeNode nodeId
  | .registerPeerIp nodeId ip => e.registerPeerIp nodeId ip
  | .registerPeerPort nodeId port => e.registerPeerPort nodeId port
  | .executeResponse p evidenceJson targetId => (MitigationEngine.executeResponse p e evidenceJson targetId).2.2
  | .isolateTarget sys target => (e.isolateTarget sys target).2
  | .blockIpAddress sys ip => (e.blockIpAddress sys ip).2
  | .releaseTarget sys target => e.releaseTarget sys target

end PolicyEnforcer
end NeuroMesh
