import NeuroMesh.Common.Bytes

/-!
This module contains the text forms of network addresses, as `inet_pton` and `inet_ntop` define them.
-/

namespace NeuroMesh

structure Ipv4 where
  a : UInt8
  b : UInt8
  c : UInt8
  d : UInt8
deriving DecidableEq

namespace Ipv4

def dot : UInt8 := 0x2e

def ntop (addr : Ipv4) : Bytes :=
  [dot].intercalate [
    toDecimal addr.a.toNat, toDecimal addr.b.toNat, toDecimal addr.c.toNat, toDecimal addr.d.toNat
  ]

def pton (s : Bytes) (octets : List UInt8) (octet : Option Nat) : Option Ipv4 :=
  match s with
  | [] =>
    match octets, octet with
    | [a, b, c], some d => some ⟨a, b, c, UInt8.ofNat d⟩
    | _, _ => none
  | ch :: rest =>
    if isDigit ch then
      match octet with
      | none => pton rest octets (some (ch.toNat - 0x30))
      | some val =>
        -- no leading zeros
        if val = 0 then
          none
        else if 255 < val * 10 + (ch.toNat - 0x30) then
          none
        else
          pton rest octets (some (val * 10 + (ch.toNat - 0x30)))
    else if ch = dot then
      match octet with
      | none => none
      | some val => if octets.length = 3 then none else pton rest (octets ++ [UInt8.ofNat val]) none
    else
      none

end Ipv4

/--
The part of a `std::string` that a C function gets to see.
-/
def cStr (s : Bytes) : Bytes :=
  s.takeWhile (· ≠ 0)

theorem cStr_append {s t : Bytes} (h : 0 ∉ s) : cStr (s ++ t) = s ++ cStr t := by
  unfold cStr
  apply List.takeWhile_append_of_pos
  intro c hc
  have hne : c ≠ 0 := fun heq => h (heq ▸ hc)
  simp [hne]

theorem cStr_of_notMem {s : Bytes} (h : 0 ∉ s) : cStr s = s := by
  have happend := cStr_append (t := []) h
  simpa [cStr] using happend

theorem cStr_append_of_mem {s : Bytes} (t : Bytes) (h : 0 ∈ s) : cStr (s ++ t) = cStr s := by
  obtain ⟨before, after, rfl, hbefore⟩ := List.eq_append_cons_of_mem h
  rw [List.append_assoc, cStr_append hbefore, cStr_append hbefore]
  rfl

def inetPton (s : Bytes) : Option Ipv4 :=
  Ipv4.pton (cStr s) [] none

namespace Ipv6

def colon : UInt8 := 0x3a

structure Scan where
  written : Bytes := []
  gap : Option Nat := none
  token : Bytes
  val : Nat := 0
  digits : Nat := 0

def Scan.put (scan : Scan) : Scan :=
  {
    scan with
    written := scan.written ++ [UInt8.ofNat (scan.val / 256), UInt8.ofNat scan.val]
    val := 0
    digits := 0
  }

def finish (scan : Scan) : Option Bytes :=
  if 0 < scan.digits ∧ 14 < scan.written.length then
    none
  else
    let written := if 0 < scan.digits then scan.put.written else scan.written
    match scan.gap with
    | none => if written.length = 16 then some written else none
    | some gap =>
      if written.length = 16 then
        none
      else
        some (written.take gap ++ List.replicate (16 - written.length) 0 ++ written.drop gap)

def loop (s : Bytes) (scan : Scan) : Option Bytes :=
  match s with
  | [] => finish scan
  | ch :: rest =>
    match hexValue ch with
    | some digit =>
      if scan.digits = 4 then
        none
      else
        loop rest { scan with val := scan.val * 16 + digit, digits := scan.digits + 1 }
    | none =>
      if ch = colon then
        let scan := { scan with token := rest }
        if scan.digits = 0 then
          if scan.gap.isSome then none else loop rest { scan with gap := some scan.written.length }
        else if rest = [] ∨ 14 < scan.written.length then
          none
        else
          loop rest scan.put
      else if ch = Ipv4.dot ∧ scan.written.length ≤ 12 then
        match Ipv4.pton scan.token [] none with
        | none => none
        | some addr =>
          finish { scan with written := scan.written ++ [addr.a, addr.b, addr.c, addr.d], digits := 0 }
      else
        none

end Ipv6

def inetPton6 (s : Bytes) : Option Bytes :=
  match cStr s with
  | [] => none
  | ch :: rest =>
    if ch = Ipv6.colon then
      if rest.head? = some Ipv6.colon then Ipv6.loop rest { token := rest } else none
    else
      Ipv6.loop (ch :: rest) { token := ch :: rest }

end NeuroMesh
