import NeuroMesh.Data.Ascii

/-!
This module contains the byte strings, clock readings and maps that the rest of the model is
written in, together with the text conversions of the C++ standard library that the mesh uses.
-/

namespace NeuroMesh

export Ascii (isDigit hexDigit hexValue)

/--
A `std::string`, that is a sequence of bytes without any encoding.
-/
abbrev Bytes := List UInt8

instance : LawfulBEq Bytes := inferInstance

/--
A `std::chrono::steady_clock::time_point` in nanoseconds, the default constructed one is `0`.
-/
abbrev Time := Int

/--
A `std::map` or `std::unordered_map`. Iteration is in key order, as for `std::map`.
-/
abbrev Map (α β : Type) [Ord α] := Std.ExtTreeMap α β compare

/--
A `std::unordered_set` of strings that some code enumerates. Sets that are only counted and tested
for membership are a `Finset`.
-/
abbrev KeySet := Std.ExtTreeSet Bytes compare

def seconds (d : Int) : Int :=
  d.tdiv 1000000000

def milliseconds (d : Int) : Int :=
  d.tdiv 1000000

def microseconds (d : Int) : Int :=
  d.tdiv 1000

def sizeT (i : Int) : Nat :=
  (i % 2 ^ 64).toNat

def int32 (i : Int) : Int :=
  i.bmod (2 ^ 32)

def bytes (s : String) : Bytes :=
  s.toList.map Char.toUInt8

def pipe : UInt8 := 0x7c

def newline : UInt8 := 0x0a

def joinPipe (fields : List Bytes) : Bytes :=
  [pipe].intercalate fields

def toDecimal (n : Nat) : Bytes :=
  (Nat.toDigits 10 n).map Char.toUInt8

def toDecimalInt (i : Int) : Bytes :=
  match i with
  | .ofNat n => toDecimal n
  | .negSucc n => 0x2d :: toDecimal (n + 1)

/--
What `snprintf` writes for `\\u%04x`.
-/
def unicodeEscape (c : UInt8) : Bytes :=
  bytes "\\u" ++ [
    hexDigit (c.toNat / 4096), hexDigit (c.toNat / 256 % 16), hexDigit (c.toNat / 16 % 16),
    hexDigit (c.toNat % 16)
  ]

def isSpace (c : UInt8) : Bool :=
  c == 0x20 || (0x09 ≤ c && c ≤ 0x0d)

/--
What the `strto*` functions read off the front of a string: optional white space, an optional sign
and a run of decimal digits.
-/
structure Numeral where
  negative : Bool
  magnitude : Nat
  digits : Nat
  consumed : Nat

def readNumeral (s : Bytes) : Numeral :=
  let blanks := s.takeWhile isSpace
  let rest := s.drop blanks.length
  let sign :=
    match rest with
    | c :: _ => if c == 0x2b || c == 0x2d then 1 else 0
    | [] => 0
  let run := (rest.drop sign).takeWhile isDigit
  {
    negative := rest.head? == some 0x2d
    magnitude := run.foldl (fun acc c => acc * 10 + (c.toNat - 0x30)) 0
    digits := run.length
    consumed := if run.length = 0 then 0 else blanks.length + sign + run.length
  }

namespace Numeral

def value (n : Numeral) : Int :=
  if n.negative then -(n.magnitude : Int) else n.magnitude

end Numeral

def strtol (s : Bytes) : Int × Nat :=
  let n := readNumeral s
  let val := max (-(2 ^ 63)) (min (2 ^ 63 - 1) n.value)
  (if n.digits = 0 then 0 else val, n.consumed)

def stoi (s : Bytes) : Option (Int × Nat) :=
  let n := readNumeral s
  if n.digits = 0 then
    none
  else if -(2 ^ 31) ≤ n.value ∧ n.value ≤ 2 ^ 31 - 1 then
    some (n.value, n.consumed)
  else
    none

def stoll (s : Bytes) : Option (Int × Nat) :=
  let n := readNumeral s
  if n.digits = 0 then
    none
  else if -(2 ^ 63) ≤ n.value ∧ n.value ≤ 2 ^ 63 - 1 then
    some (n.value, n.consumed)
  else
    none

/--
`std::stoull(s)`, or `none` where it throws. A leading minus sign negates the magnitude modulo
`2 ^ 64`, only the magnitude itself has to be in range.
-/
def stoull (s : Bytes) : Option UInt64 :=
  let n := readNumeral s
  if n.digits = 0 then
    none
  else if n.magnitude < 2 ^ 64 then
    let val := UInt64.ofNat n.magnitude
    some (if n.negative then 0 - val else val)
  else
    none

end NeuroMesh
