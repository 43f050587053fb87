import NeuroMesh.Enforcer.Firewall

/-!
This module contains `PolicyEnforcer`, which isolates nodes by blocking their addresses. The packet filters
that it works on are a part of its state.
-/

namespace NeuroMesh

def isValidIpv4 (ip : Bytes) : Bool :=
  (readIpv4 ip).isSome

def isValidIpv6 (ip : Bytes) : Bool :=
  (inetPton6 ip).isSome

def isValidIp (ip : Bytes) : Bool :=
  isValidIpv4 ip || isValidIpv6 ip

def isLoopback (ip : Bytes) : Bool :=
  match inetPton ip with
  | none => false
  | some addr => addr.a = 127

def isLoopbackIpv6 (ip : Bytes) : Bool :=
  match inetPton6 ip with
  | none => false
  | some addr =>
    addr = List.replicate 15 0 ++ [1]
      || List.replicate 10 0 ++ [0xff, 0xff] <+: addr && addr[12]? = some 127

def toUpper (s : Bytes) : Bytes :=
  s.map fun c => if 0x61 ≤ c ∧ c ≤ 0x7a then c - 0x20 else c

/--
What is left out: the id of the node, which is part of the path of the eBPF map, and the suspension of
processes.
-/
structure PolicyEnforcer where
  nftables : Bool
  iptables : Bool
  isolatedNodes : Finset Bytes := ∅
  safeList : Finset Bytes := ∅
  peerIpMap : Map Bytes Bytes := ∅
  peerPortMap : Map Bytes UInt16 := ∅
  lastEnforceTime : Time := 0
  firewall : Firewall := {}

namespace PolicyEnforcer

def enforceCooldownSec : Int := 5

variable (e : PolicyEnforcer)

def isSafe (targetId : Bytes) : Bool :=
  toUpper targetId ∈ e.safeList

def addSafeNode (nodeId : Bytes) : PolicyEnforcer :=
  { e with safeList := insert (toUpper nodeId) e.safeList, lastEnforceTime := 0 }

def isIpSafe (ip : Bytes) : Bool :=
  isValidIp ip && decide (∃ nodeId ∈ e.safeList, e.peerIpMap[nodeId]? = some ip)

def registerPeerIp (nodeId ip : Bytes) : PolicyEnforcer :=
  if nodeId = [] ∨ !isValidIp ip then
    e
  else
    { e with peerIpMap := e.peerIpMap.insert nodeId ip }

def registerPeerPort (nodeId : Bytes) (port : UInt16) : PolicyEnforcer :=
  if nodeId = [] ∨ port = 0 then
    e
  else
    { e with peerPortMap := e.peerPortMap.insert nodeId port }

def resolveTarget (target : Bytes) : Bytes :=
  if isValidIp target then target else e.peerIpMap.getD target []

def resolvePort (target : Bytes) : UInt16 :=
  e.peerPortMap.getD target 0

def cascade (sys : System) (ip : Bytes) : Bool × PolicyEnforcer :=
  let (ebpf, firewall) := e.firewall.applyEbpfDrop sys ip
  let e := { e with firewall }
  if ebpf then
    (true, e)
  else
    let (nft, firewall) := if e.nftables then e.firewall.applyNftablesDrop sys ip else (false, e.firewall)
    let e := { e with firewall }
    if nft then
      (true, e)
    else if e.iptables then
      let (ipt, firewall) := e.firewall.applyIptablesDrop sys ip
      (ipt, { e with firewall })
    else
      (false, e)

def blockIpAddress (sys : System) (ip : Bytes) : Bool × PolicyEnforcer :=
  if !isValidIp ip then
    (false, e)
  else if isLoopback ip || isLoopbackIpv6 ip then
    (false, e)
  else
    e.cascade sys ip

def recordIsolation (sys : System) (target : Bytes) (result : Bool × PolicyEnforcer) : Bool × PolicyEnforcer :=
  match result with
  | (false, e) => (false, e)
  | (true, e) =>
    (true, { e with isolatedNodes := insert target e.isolatedNodes, lastEnforceTime := sys.doneAt })

def enforce (sys : System) (target ip : Bytes) : Bool × PolicyEnforcer :=
  if isLoopback ip || isLoopbackIpv6 ip then
    if e.resolvePort target = 0 then
      (false, e)
    else if e.nftables then
      let (success, firewall) := e.firewall.applyNftablesPortDrop sys ip (e.resolvePort target)
      recordIsolation sys target (success, { e with firewall })
    else
      (false, e)
  else
    recordIsolation sys target (e.cascade sys ip)

def isolateTarget (sys : System) (target : Bytes) : Bool × PolicyEnforcer :=
  if seconds (sys.now - e.lastEnforceTime) < enforceCooldownSec ∧ e.isolatedNodes ≠ ∅ then
    (false, e)
  else if target ∈ e.isolatedNodes then
    (true, { e with lastEnforceTime := sys.now })
  else if e.isSafe target then
    (false, e)
  else
    let ip := e.resolveTarget target
    if ip = [] then
      (false, e)
    else
      e.enforce sys target ip

def releaseTarget (sys : System) (target : Bytes) : PolicyEnforcer :=
  if target ∉ e.isolatedNodes then
    e
  else
    let e := { e with isolatedNodes := e.isolatedNodes.erase target }
    let ip := e.resolveTarget target
    if ip = [] then
      e
    else if isLoopback ip || isLoopbackIpv6 ip then
      if 0 < e.resolvePort target then
        { e with firewall := (e.firewall.removeNftablesPortDrop sys ip (e.resolvePort target)).2 }
      else
        e
    else
      let firewall := (e.firewall.removeEbpfDrop sys ip).2
      let firewall := (firewall.removeNftablesDrop sys ip).2
      { e with firewall := (firewall.removeIptablesDrop sys ip).2 }

end PolicyEnforcer
end NeuroMesh
