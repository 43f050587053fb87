import NeuroMesh.Data.Ascii
import NeuroMesh.Data.Utf8

/-!
This module contains the documents of RFC 8259 and a parser for them. It works on bytes and does not depend
on any order of the members of an object.
-/

inductive Json where
  | null
  | bool (b : Bool)
  | int (z : Int)
  | real (text : List UInt8)
  | str (s : List UInt8)
  | arr (elements : List Json)
  | obj (members : List (List UInt8 × Json))

namespace Json

export Ascii (isDigit hexValue)

def get? (json : Json) (key : List UInt8) : Option Json :=
  match json with
  | .obj members => members.reverse.lookup key
  | _ => none

def isSpace (c : UInt8) : Bool :=
  c == 0x20 || c == 0x09 || c == 0x0a || c == 0x0d

def skip (s : List UInt8) : List UInt8 :=
  s.dropWhile isSpace

inductive Piece where
  | byte (c : UInt8)
  | unit (n : Nat)

namespace Parser

def escape (c : UInt8) : Option UInt8 :=
  if c = 0x22 ∨ c = 0x5c ∨ c = 0x2f then
    some c
  else if c = 0x62 then
    some 0x08
  else if c = 0x66 then
    some 0x0c
  else if c = 0x6e then
    some 0x0a
  else if c = 0x72 then
    some 0x0d
  else if c = 0x74 then
    some 0x09
  else
    none

def pieces (s : List UInt8) : Option (List Piece × List UInt8) :=
  match s with
  | [] => none
  | c :: s =>
    if c = 0x22 then
      some ([], s)
    else if c = 0x5c then
      match s with
      | [] => none
      | e :: s =>
        if e = 0x75 then
          match s with
          | h3 :: h2 :: h1 :: h0 :: s => do
            let n3 ← hexValue h3
            let n2 ← hexValue h2
            let n1 ← hexValue h1
            let n0 ← hexValue h0
            let (rest, s) ← pieces s
            some (.unit (n3 * 4096 + n2 * 256 + n1 * 16 + n0) :: rest, s)
          | _ => none
        else do
          let c ← escape e
          let (rest, s) ← pieces s
          some (.byte c :: rest, s)
    else if c < 0x20 then
      none
    else do
      let (rest, s) ← pieces s
      some (.byte c :: rest, s)

def isHigh (n : Nat) : Bool :=
  0xd800 ≤ n && n < 0xdc00

def isLow (n : Nat) : Bool :=
  0xdc00 ≤ n && n < 0xe000

def assemble (pieces : List Piece) : List UInt8 :=
  go pieces none
where
  go (pieces : List Piece) (high : Option Nat) : List UInt8 :=
    let half := high.elim [] Utf8.encode
    match pieces with
    | [] => half
    | .byte c :: rest => half ++ c :: go rest none
    | .unit n :: rest =>
      if isHigh n then
        half ++ go rest (some n)
      else
        match high with
        | none => Utf8.encode n ++ go rest none
        | some m =>
          if isLow n then
            Utf8.encode (0x10000 + (m - 0xd800) * 0x400 + (n - 0xdc00)) ++ go rest none
          else
            half ++ Utf8.encode n ++ go rest none

def string (half : Bool) (s : List UInt8) : Option (List UInt8 × List UInt8) := do
  let (pieces, s) ← pieces s
  let text := assemble pieces
  if half || Utf8.valid text then some (text, s) else none

def fraction (s : List UInt8) : Option (List UInt8) :=
  match s with
  | 0x2e :: s => if s.takeWhile isDigit = [] then none else some (s.dropWhile isDigit)
  | _ => some s

def exponent (s : List UInt8) : Option (List UInt8) :=
  match s with
  | [] => some s
  | c :: cs =>
    if c = 0x65 ∨ c = 0x45 then
      let digits :=
        match cs with
        | sign :: ds => if sign = 0x2b ∨ sign = 0x2d then ds else cs
        | [] => cs
      if digits.takeWhile isDigit = [] then none else some (digits.dropWhile isDigit)
    else
      some s

def natural (digits : List UInt8) : Nat :=
  digits.foldl (fun acc c => acc * 10 + (c.toNat - 0x30)) 0

def magnitude (negative : Bool) (s : List UInt8) : Option (Json × List UInt8) :=
  let digits := s.takeWhile isDigit
  if digits = [] ∨ (digits.head? = some 0x30 ∧ 1 < digits.length) then
    none
  else do
    let rest ← fraction (s.dropWhile isDigit)
    let rest ← exponent rest
    let text := s.take (s.length - rest.length)
    if text = digits then
      some (.int (if negative then -natural digits else natural digits), rest)
    else
      some (.real (if negative then 0x2d :: text else text), rest)

def number (s : List UInt8) : Option (Json × List UInt8) :=
  match s with
  | [] => none
  | c :: cs => if c = 0x2d then magnitude true cs else magnitude false s

def literal (word : List UInt8) (json : Json) (s : List UInt8) : Option (Json × List UInt8) :=
  if word.isPrefixOf s then some (json, s.drop word.length) else none

variable (half : Bool)

mutual

def value (fuel : Nat) (s : List UInt8) : Option (Json × List UInt8) :=
  match fuel with
  | 0 => none
  | fuel + 1 =>
    match skip s with
    | [] => none
    | c :: s =>
      if c = 0x7b then
        if (skip s).head? = some 0x7d then
          some (.obj [], (skip s).drop 1)
        else do
          let (members, s) ← members fuel s
          some (.obj members, s)
      else if c = 0x5b then
        if (skip s).head? = some 0x5d then
          some (.arr [], (skip s).drop 1)
        else do
          let (elements, s) ← elements fuel s
          some (.arr elements, s)
      else if c = 0x22 then do
        let (text, s) ← string half s
        some (.str text, s)
      else if c = 0x6e then
        literal [0x75, 0x6c, 0x6c] .null s
      else if c = 0x74 then
        literal [0x72, 0x75, 0x65] (.bool true) s
      else if c = 0x66 then
        literal [0x61, 0x6c, 0x73, 0x65] (.bool false) s
      else
        number (c :: s)

def elements (fuel : Nat) (s : List UInt8) : Option (List Json × List UInt8) :=
  match fuel with
  | 0 => none
  | fuel + 1 => do
    let (element, s) ← value fuel s
    match skip s with
    | [] => none
    | c :: s =>
      if c = 0x2c then do
        let (rest, s) ← elements fuel s
        some (element :: rest, s)
      else if c = 0x5d then
        some ([element], s)
      else
        none

def members (fuel : Nat) (s : List UInt8) : Option (List (List UInt8 × Json) × List UInt8) :=
  match fuel with
  | 0 => none
  | fuel + 1 =>
    match skip s with
    | [] => none
    | c :: s =>
      if c = 0x22 then do
        let (key, s) ← string half s
        match skip s with
        | [] => none
        | c :: s =>
          if c = 0x3a then do
            let (json, s) ← value fuel s
            match skip s with
            | [] => none
            | c :: s =>
              if c = 0x2c then do
                let (rest, s) ← members fuel s
                some ((key, json) :: rest, s)
              else if c = 0x7d then
                some ([(key, json)], s)
              else
                none
          else
            none
      else
        none

end

end Parser

def parse (half : Bool) (s : List UInt8) : Option Json :=
  if Utf8.valid s then do
    let (json, rest) ← Parser.value half (2 * s.length + 2) s
    if skip rest = [] then some json else none
  else
    none

def parseBytes (s : List UInt8) : Option Json := do
  let (json, rest) ← Parser.value true (2 * s.length + 2) s
  if skip rest = [] then some json else none

end Json
