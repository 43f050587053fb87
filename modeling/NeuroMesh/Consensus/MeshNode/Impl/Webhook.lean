import NeuroMesh.Common.JsonEscape

/-!
This module contains `MeshNode::notify_webhook`: the body of the request, the guard that is to keep the request
away from the own network and the arguments of `curl`.
-/

namespace NeuroMesh
namespace Webhook

def payload (targetId evidenceJson : Bytes) (quorum timestampUs : Int) : Bytes :=
  bytes "\x7b"
    ++ bytes "\"event\":\"isolation\","
    ++ bytes "\"target\":\"" ++ targetId ++ bytes "\","
    ++ bytes "\"quorum\":" ++ toDecimalInt quorum ++ bytes ","
    ++ bytes "\"timestamp_us\":" ++ toDecimalInt timestampUs ++ bytes ","
    ++ bytes "\"evidence\":" ++ escape evidenceJson
    ++ bytes "\x7d"

inductive Address where
  | inet (addr : Ipv4)
  | inet6 (s6Addr : Fin 16 → UInt8)
  | other

def ntohl (addr : Ipv4) : UInt32 :=
  UInt32.ofNat (((addr.a.toNat * 256 + addr.b.toNat) * 256 + addr.c.toNat) * 256 + addr.d.toNat)

def isLoopback6 (p : Fin 16 → UInt8) : Bool :=
  (List.finRange 16).all fun i => p i == if i = 15 then 1 else 0

def Address.isBlocked (address : Address) : Bool :=
  match address with
  | .inet addr =>
    let ipv4 := ntohl addr
    ipv4 &&& 0xFF000000 == 0x7F000000
      || ipv4 &&& 0xFF000000 == 0x0A000000
      || ipv4 &&& 0xFFF00000 == 0xAC100000
      || ipv4 &&& 0xFFFF0000 == 0xC0A80000
      || ipv4 &&& 0xFFFF0000 == 0xA9FE0000
      || ipv4 &&& 0xFFC00000 == 0x64400000
  | .inet6 p =>
    isLoopback6 p || (p 0 == 0xFE && p 1 &&& 0xC0 == 0x80) || (p 0 == 0xFC || p 0 == 0xFD)
  | .other => false

def Internal4 (addr : Ipv4) : Prop :=
  addr.a = 10
    ∨ (addr.a = 172 ∧ 16 ≤ addr.b ∧ addr.b ≤ 31)
    ∨ (addr.a = 192 ∧ addr.b = 168)
    ∨ addr.a = 127
    ∨ (addr.a = 169 ∧ addr.b = 254)

/--
An address of `::ffff:0:0/96` that stands for an internal one.
-/
def MapsInternal (p : Fin 16 → UInt8) : Prop :=
  (∀ i < 10, p i = 0) ∧ p 10 = 0xff ∧ p 11 = 0xff ∧ Internal4 ⟨p 12, p 13, p 14, p 15⟩

def Address.Internal (address : Address) : Prop :=
  match address with
  | .inet addr => Internal4 addr
  | .inet6 p =>
    (p 0 = 0xfc ∨ p 0 = 0xfd)
      ∨ (∀ i, p i = if i = 15 then 1 else 0)
      ∨ (p 0 = 0xfe ∧ 0x80 ≤ p 1 ∧ p 1 ≤ 0xbf)
      ∨ MapsInternal p
  | .other => False

def find (s : Bytes) (c : UInt8) (pos : Nat) : Option Nat :=
  ((s.drop pos).idxOf? c).map (pos + ·)

section Url

variable (url : Bytes)

def isInvalid : Bool :=
  url.isEmpty || url.contains 0x20
    || !(bytes "http://").isPrefixOf url && !(bytes "https://").isPrefixOf url

def urlHostStart : Nat :=
  if (bytes "https://").isPrefixOf url then 8 else 7

def host : Bytes :=
  let slash := find url 0x2f (urlHostStart url)
  let colon := find url 0x3a (urlHostStart url)
  let stop := slash.getD url.length
  let stop :=
    match colon with
    | some colon => if colon < stop then colon else stop
    | none => stop
  (url.drop (urlHostStart url)).take (stop - urlHostStart url)

def port : Int :=
  let default := if (bytes "https://").isPrefixOf url then 443 else 80
  let parse (s : Bytes) : Int := ((stoi s).map Prod.fst).getD default
  match find url 0x3a (urlHostStart url), find url 0x2f (urlHostStart url) with
  | some colon, none => parse (url.drop (colon + 1))
  | some colon, some slash =>
    if colon < slash then parse ((url.drop (colon + 1)).take (slash - colon - 1)) else default
  | none, _ => default

end Url

structure Outcome where
  lookup : Option Bytes := none
  curl : Option (List Bytes) := none

section Call

variable (getaddrinfo : Bytes → Option (List Address)) (inetNtop6 : (Fin 16 → UInt8) → Bytes)
  (dangling : Bytes → Option Bytes)

def resolvedIp (addresses : List Address) : Bytes :=
  let text (address : Address) : Option Bytes :=
    match address with
    | .inet addr => some addr.ntop
    | .inet6 p => some (bytes "[" ++ inetNtop6 p ++ bytes "]")
    | .other => none
  (addresses.findSome? text).getD []

/--
The guard: `none` if the URL is rejected, and otherwise the address that `curl` is to be pinned to. It is empty if
the name could not be resolved, and then the URL is not rejected.
-/
def resolvedIpForCurl (host : Bytes) : Option Bytes :=
  match getaddrinfo (cStr host) with
  | none => some []
  | some [] => some []
  | some (first :: rest) =>
    if (first :: rest).any Address.isBlocked then none else some (resolvedIp inetNtop6 (first :: rest))

def resolveArg (url resolvedIp : Bytes) : Bytes :=
  host url ++ bytes ":" ++ toDecimalInt (port url) ++ bytes ":" ++ resolvedIp

/--
`resolve_arg` is destroyed at the end of its block, before `execv` reads the arguments. `dangling` is what the
pointer into the destroyed string gives then, and `none` if `execv` fails because of it.
-/
def curlArgs (url resolvedIp payload : Bytes) : Option (List Bytes) :=
  let resolve :=
    if resolvedIp = [] then
      some []
    else
      (dangling (resolveArg url resolvedIp)).map fun stale => [bytes "--resolve", cStr stale]
  resolve.map fun resolve =>
    [bytes "/usr/bin/curl", bytes "-s", bytes "-X", bytes "POST", bytes "-H",
      bytes "Content-Type: application/json"]
      ++ resolve
      ++ [bytes "-d", cStr payload, cStr url]

def notifyWebhook (url targetId evidenceJson : Bytes) (quorum timestampUs : Int) : Outcome :=
  if isInvalid url then
    {}
  else
    {
      lookup := some (cStr (host url))
      curl := (resolvedIpForCurl getaddrinfo inetNtop6 (host url)).bind fun resolvedIp =>
        curlArgs dangling url resolvedIp (payload targetId evidenceJson quorum timestampUs)
    }

end Call

end Webhook
end NeuroMesh
