import Mathlib

/-!
This module contains the decimal and hexadecimal digits of ASCII.
-/

namespace Ascii

def isDigit (c : UInt8) : Bool :=
  0x30 ≤ c && c ≤ 0x39

def hexDigit (n : Nat) : UInt8 :=
  if n < 10 then UInt8.ofNat (0x30 + n) else UInt8.ofNat (0x61 + n - 10)

def hexValue (c : UInt8) : Option Nat :=
  if isDigit c then
    some (c.toNat - 0x30)
  else if 0x61 ≤ c ∧ c ≤ 0x66 then
    some (c.toNat - 0x61 + 10)
  else if 0x41 ≤ c ∧ c ≤ 0x46 then
    some (c.toNat - 0x41 + 10)
  else
    none

theorem hexValue_hexDigit {n : Nat} (h : n < 16) : hexValue (hexDigit n) = some n := by
  interval_cases n <;> rfl

theorem hexDigit_hex {n : Nat} (h : n < 16)
    : isDigit (hexDigit n) ∨ (0x61 ≤ hexDigit n ∧ hexDigit n ≤ 0x66) := by
  interval_cases n <;> decide

end Ascii
