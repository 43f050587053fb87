import NeuroMesh.Common.Inet
import NeuroMesh.Data.Delimited

/-!
This module contains the packet filters of the host: the blacklist of the XDP program, the chain `INPUT` of
the nftables table `neuro_mesh`, and the `INPUT` chain of iptables. A command that fails changes nothing.
-/

namespace NeuroMesh

def readIpv4 (ip : Bytes) : Option Ipv4 :=
  match inetPton ip with
  | none => none
  | some addr => if ip = addr.ntop then some addr else none

inductive Transport where
  | tcp
  | udp
deriving DecidableEq

def Transport.text (transport : Transport) : Bytes :=
  match transport with
  | .tcp => bytes "tcp"
  | .udp => bytes "udp"

structure NftSpec where
  lo : Bool
  saddr : Ipv4
  dport : Option (Transport × UInt16)
deriving DecidableEq

structure NftRule where
  handle : Nat
  spec : NftSpec
deriving DecidableEq

structure IptRule where
  number : Nat
  saddr : Ipv4
deriving DecidableEq

inductive DropRule where
  | ebpf (saddr : Ipv4)
  | nft (rule : NftRule)
  | ipt (rule : IptRule)
deriving DecidableEq

def DropRule.saddr (rule : DropRule) : Ipv4 :=
  match rule with
  | .ebpf saddr => saddr
  | .nft rule => rule.spec.saddr
  | .ipt rule => rule.saddr

structure Firewall where
  blacklist : Map UInt32 UInt8 := ∅
  rules : List NftRule := []
  nextHandle : Nat := 2
  input : List IptRule := []
  nextNumber : Nat := 0
  installed : List DropRule := []

inductive Command where
  | bpfUpdate (addr : Ipv4)
  | bpfDelete (addr : Ipv4)
  | nftAdd (spec : NftSpec)
  | nftList (matchSubstr : Bytes)
  | nftDelete (handle : Int)
  | iptablesAppend (addr : Ipv4)
  | iptablesDelete (addr : Ipv4)

/--
What a call of the enforcer reads from outside of it: the clock when it starts and when it is done, which
commands work, and the packets and bytes that nftables has counted for each rule.
-/
structure System where
  now : Time
  doneAt : Time
  succeeds : Command → Bool
  counted : (matchSubstr : Bytes) → (handle : Nat) → Nat × Nat

def Ipv4.key (addr : Ipv4) : UInt32 :=
  addr.a.toUInt32 ||| addr.b.toUInt32 <<< 8 ||| addr.c.toUInt32 <<< 16 ||| addr.d.toUInt32 <<< 24

namespace NftSpec

def dportText (dport : Option (Transport × UInt16)) : Bytes :=
  match dport with
  | none => []
  | some (transport, port) => transport.text ++ bytes " dport " ++ toDecimal port.toNat ++ bytes " "

def text (spec : NftSpec) (counted : Nat × Nat) : Bytes :=
  (if spec.lo then bytes "iif \"lo\" " else [])
    ++ bytes "ip saddr " ++ spec.saddr.ntop ++ bytes " " ++ dportText spec.dport
    ++ bytes "counter packets " ++ toDecimal counted.1 ++ bytes " bytes " ++ toDecimal counted.2
    ++ bytes " drop "

end NftSpec

def NftRule.line (rule : NftRule) (counted : Nat × Nat) : Bytes :=
  bytes "\t\t" ++ rule.spec.text counted ++ bytes "# handle " ++ toDecimal rule.handle

namespace Firewall

def lineBreak : UInt8 := 0x0a

def hash : UInt8 := 0x23

def listing (rules : List NftRule) (counted : Nat → Nat × Nat) : Bytes :=
  bytes "table ip neuro_mesh \x7b # handle 1\n\tchain INPUT \x7b # handle 1\n"
    ++ bytes "\t\ttype filter hook input priority filter; policy accept;\n"
    ++ rules.flatMap (fun rule => rule.line (counted rule.handle) ++ [lineBreak])
    ++ bytes "\t\x7d\n\x7d\n"

def captureBytes : Nat := 64 * 1024

variable (fw : Firewall) (sys : System)

def listNftablesRules (matchSubstr : Bytes) : Bytes :=
  if sys.succeeds (.nftList matchSubstr) then
    (listing fw.rules (sys.counted matchSubstr)).take captureBytes
  else
    []

/--
The digits at the end of a line that the pattern `^.*#\s*handle\s+(\d+)\s*$` matches. From the end of the line
each part of the pattern can match in one way only.
-/
def handleDigits (line : Bytes) : Option Bytes :=
  let rest := line.reverse.dropWhile isSpace
  let digits := rest.takeWhile isDigit
  let rest := rest.dropWhile isDigit
  let blanks := rest.takeWhile isSpace
  let rest := rest.dropWhile isSpace
  let word := (bytes "handle").reverse
  if digits = [] ∨ blanks = [] ∨ ¬word <+: rest then
    none
  else
    match (rest.drop word.length).dropWhile isSpace with
    | [] => none
    | c :: front =>
      -- the dot matches everything but a line break
      if c = hash ∧ 0x0d ∉ front ∧ 0x0a ∉ front then some digits.reverse else none

def findNftHandle (matchSubstr line : Bytes) : Option Int :=
  match handleDigits line with
  | none => none
  | some digits =>
    if matchSubstr <:+: line.takeWhile (· ≠ hash) then (stoi digits).map Prod.fst else none

def findNftHandles (listOutput matchSubstr : Bytes) : List Int :=
  (Delimited.split lineBreak listOutput).filterMap (findNftHandle matchSubstr)

def deleteNftHandle (handle : Int) : Bool × Firewall :=
  if sys.succeeds (.nftDelete handle) && fw.rules.any (fun rule => (rule.handle : Int) = handle) then
    (true, { fw with rules := fw.rules.filter fun rule => (rule.handle : Int) ≠ handle })
  else
    (false, fw)

def removeNftablesRulesMatching (matchSubstr : Bytes) : Bool × Firewall :=
  let output := fw.listNftablesRules sys matchSubstr
  if output = [] then
    (false, fw)
  else
    (findNftHandles output matchSubstr).foldl
      (fun (anyDeleted, fw) handle =>
        let (deleted, fw) := deleteNftHandle fw sys handle
        (anyDeleted || deleted, fw))
      (false, fw)

def install (rule : DropRule) : Firewall :=
  { fw with installed := rule :: fw.installed }

/--
`nft add rule ip neuro_mesh INPUT …`. Of the valid addresses that the callers pass only IPv4 addresses
can be the `saddr` of a rule in a table of the family `ip`.
-/
def addNftRule (lo : Bool) (ip : Bytes) (dport : Option (Transport × UInt16)) : Bool × Firewall :=
  match readIpv4 ip with
  | none => (false, fw)
  | some saddr =>
    let spec : NftSpec := { lo, saddr, dport }
    if sys.succeeds (.nftAdd spec) then
      let rule : NftRule := { handle := fw.nextHandle, spec }
      (true, { fw with rules := fw.rules ++ [rule], nextHandle := fw.nextHandle + 1 }.install (.nft rule))
    else
      (false, fw)

def applyNftablesDrop (ip : Bytes) : Bool × Firewall :=
  let (ipRule, fw) := fw.addNftRule sys false ip none
  let (_, fw) := fw.addNftRule sys true ip none
  (ipRule, fw)

def applyNftablesPortDrop (ip : Bytes) (port : UInt16) : Bool × Firewall :=
  if port = 0 then
    (false, fw)
  else
    let (tcpRule, fw) := fw.addNftRule sys true ip (some (.tcp, port))
    let (udpRule, fw) := fw.addNftRule sys true ip (some (.udp, port))
    (tcpRule || udpRule, fw)

def saddrMatch (ip : Bytes) : Bytes :=
  bytes "ip saddr " ++ ip

def removeNftablesDrop (ip : Bytes) : Bool × Firewall :=
  fw.removeNftablesRulesMatching sys (saddrMatch ip)

def dportMatch (ip : Bytes) (transport : Transport) (port : UInt16) : Bytes :=
  saddrMatch ip ++ bytes " " ++ transport.text ++ bytes " dport " ++ toDecimal port.toNat

def removeNftablesPortDrop (ip : Bytes) (port : UInt16) : Bool × Firewall :=
  if port = 0 then
    (false, fw)
  else
    let (tcpOk, fw) := fw.removeNftablesRulesMatching sys (dportMatch ip .tcp port)
    let (udpOk, fw) := fw.removeNftablesRulesMatching sys (dportMatch ip .udp port)
    (tcpOk || udpOk, fw)

/--
The path of the map depends on the id of the node, whether it can be opened and updated is for `System` to
say.
-/
def applyEbpfDrop (ip : Bytes) : Bool × Firewall :=
  match readIpv4 ip with
  | none => (false, fw)
  | some addr =>
    if sys.succeeds (.bpfUpdate addr) then
      (true, { fw with blacklist := fw.blacklist.insert addr.key 1 }.install (.ebpf addr))
    else
      (false, fw)

def removeEbpfDrop (ip : Bytes) : Bool × Firewall :=
  match readIpv4 ip with
  | none => (false, fw)
  | some addr =>
    if sys.succeeds (.bpfDelete addr) && addr.key ∈ fw.blacklist then
      (true, { fw with blacklist := fw.blacklist.erase addr.key })
    else
      (false, fw)

def applyIptablesDrop (ip : Bytes) : Bool × Firewall :=
  match readIpv4 ip with
  | none => (false, fw)
  | some saddr =>
    if sys.succeeds (.iptablesAppend saddr) then
      let rule : IptRule := { number := fw.nextNumber, saddr }
      (true, { fw with input := fw.input ++ [rule], nextNumber := fw.nextNumber + 1 }.install (.ipt rule))
    else
      (false, fw)

def removeIptablesDrop (ip : Bytes) : Bool × Firewall :=
  match readIpv4 ip with
  | none => (false, fw)
  | some saddr =>
    if sys.succeeds (.iptablesDelete saddr) && fw.input.any (fun rule => rule.saddr = saddr) then
      (true, { fw with input := fw.input.eraseP fun rule => rule.saddr = saddr })
    else
      (false, fw)

end Firewall
end NeuroMesh
