import NeuroMesh.Enforcer.Firewall

/-!
This module contains the XDP program of `sensor.bpf.c`, which sees every packet before the network stack does.
-/

namespace NeuroMesh
namespace Kernel

inductive XdpAction where
  | drop
  | pass
deriving DecidableEq

def ethhdrBytes : Nat := 14

def iphdrBytes : Nat := 20

def saddr (iph : Bytes) : Ipv4 :=
  ⟨iph.getD 12 0, iph.getD 13 0, iph.getD 14 0, iph.getD 15 0⟩

def lockdownKey : UInt32 := 0xFFFFFFFF

def xdpNeuroMeshDropper (xdpBlacklist : Map UInt32 UInt8) (data : Bytes) : XdpAction :=
  if data.length < ethhdrBytes then
    .pass
  else if (data.drop 12).take 2 ≠ [0x08, 0x00] then
    .pass
  else
    let iph := data.drop ethhdrBytes
    if iph.length < iphdrBytes then
      .pass
    else if xdpBlacklist[(saddr iph).key]? = some 1 then
      .drop
    else if xdpBlacklist[lockdownKey]? = some 1 then
      .drop
    else
      .pass

end Kernel
end NeuroMesh
