import NeuroMesh.Common.Bytes

/-!
This module contains the Base64 codec of `common/Base64.hpp`.
-/

namespace NeuroMesh

def base64Chars : Bytes :=
  bytes "ABCDEFGHIJKLMNOPQRSTUVWXYZabcdefghijklmnopqrstuvwxyz0123456789+/"

def base64Pad : UInt8 := 0x3d

def base64Char (i : Nat) : UInt8 :=
  base64Chars.getD i 0

def base64Encode (data : Bytes) : Bytes :=
  match data with
  | [] => []
  | [a] => [base64Char (a.toNat / 4), base64Char (a.toNat % 4 * 16), base64Pad, base64Pad]
  | [a, b] =>
    [
      base64Char (a.toNat / 4), base64Char (a.toNat % 4 * 16 + b.toNat / 16),
      base64Char (b.toNat % 16 * 4), base64Pad
    ]
  | a :: b :: c :: data =>
    [
      base64Char (a.toNat / 4), base64Char (a.toNat % 4 * 16 + b.toNat / 16),
      base64Char (b.toNat % 16 * 4 + c.toNat / 64), base64Char (c.toNat % 64)
    ] ++ base64Encode data

def base64Lookup : List Int := [
  -1, -1, -1, -1, -1, -1, -1, -1, -1, -1, -1, -1, -1, -1, -1, -1,
  -1, -1, -1, -1, -1, -1, -1, -1, -1, -1, -1, -1, -1, -1, -1, -1,
  -1, -1, -1, -1, -1, -1, -1, -1, -1, -1, -1, 62, -1, -1, -1, 63,
  52, 53, 54, 55, 56, 57, 58, 59, 60, 61, -1, -1, -1, -1, -1, -1,
  -1, 0, 1, 2, 3, 4, 5, 6, 7, 8, 9, 10, 11, 12, 13, 14,
  15, 16, 17, 18, 19, 20, 21, 22, 23, 24, 25, -1, -1, -1, -1, -1,
  -1, 26, 27, 28, 29, 30, 31, 32, 33, 34, 35, 36, 37, 38, 39, 40,
  41, 42, 43, 44, 45, 46, 47, 48, 49, 50, 51, -1, -1, -1, -1, -1
]

def base64Digit (c : UInt8) : Option Int :=
  base64Lookup[c.toNat]?.filter (· ≠ -1)

/--
The decoder returns `none` where it returns `std::nullopt`. Everything after the first `=` is ignored.
-/
def base64Decode (data : Bytes) : Option Bytes :=
  if data.length % 4 ≠ 0 then
    none
  else
    go data 0 (-8)
where
  go (data : Bytes) (val valb : Int) : Option Bytes :=
    match data with
    | [] => some []
    | c :: cs =>
      if c = base64Pad then
        some []
      else
        match base64Digit c with
        | none => none
        | some digit =>
          -- `val` is an `int`, the bits shifted out of it are never read again
          let val := int32 (val * 64) + digit
          let valb := valb + 6
          if 0 ≤ valb then
            let byte := UInt8.ofNat ((val >>> valb.toNat) % 256).toNat
            (go cs val (valb - 8)).map (byte :: ·)
          else
            go cs val valb

end NeuroMesh
