import Mathlib

/-!
This module contains the encoding of text in bytes according to RFC 3629.
-/

namespace Utf8

def isTail (b : UInt8) : Bool :=
  0x80 ≤ b && b ≤ 0xbf

def isLead3 (a b : UInt8) : Bool :=
  if a = 0xe0 then
    0xa0 ≤ b && b ≤ 0xbf
  else if a = 0xed then
    0x80 ≤ b && b ≤ 0x9f
  else
    0xe1 ≤ a && a ≤ 0xef && isTail b

def isLead4 (a b : UInt8) : Bool :=
  if a = 0xf0 then
    0x90 ≤ b && b ≤ 0xbf
  else if a = 0xf4 then
    0x80 ≤ b && b ≤ 0x8f
  else
    0xf1 ≤ a && a ≤ 0xf3 && isTail b

def valid (s : List UInt8) : Bool :=
  match s with
  | [] => true
  | a :: s =>
    if a < 0x80 then
      valid s
    else
      match s with
      | [] => false
      | b :: s =>
        if 0xc2 ≤ a && a ≤ 0xdf then
          isTail b && valid s
        else
          match s with
          | [] => false
          | c :: s =>
            if isLead3 a b then
              isTail c && valid s
            else
              match s with
              | [] => false
              | d :: s => isLead4 a b && isTail c && isTail d && valid s

def encode (n : Nat) : List UInt8 :=
  if n < 0x80 then
    [UInt8.ofNat n]
  else if n < 0x800 then
    [UInt8.ofNat (0xc0 + n / 64), UInt8.ofNat (0x80 + n % 64)]
  else if n < 0x10000 then
    [UInt8.ofNat (0xe0 + n / 4096), UInt8.ofNat (0x80 + n / 64 % 64), UInt8.ofNat (0x80 + n % 64)]
  else
    [
      UInt8.ofNat (0xf0 + n / 262144), UInt8.ofNat (0x80 + n / 4096 % 64), UInt8.ofNat (0x80 + n / 64 % 64),
      UInt8.ofNat (0x80 + n % 64)
    ]

theorem forall_byte {P : UInt8 → Prop} (h : ∀ k < 256, P (UInt8.ofNat k)) (c : UInt8) : P c := by
  have hc := h c.toNat c.toNat_lt
  rwa [UInt8.ofNat_toNat] at hc

theorem valid_append {s t : List UInt8} (hs : valid s) (ht : valid t) : valid (s ++ t) := by
  fun_induction valid s with
  | case1 => exact ht
  | case2 a s ha ih =>
    rw [List.cons_append, valid.eq_def]
    simp only [ha, if_true]
    exact ih hs
  | case3 => contradiction
  | case4 a ha b s hlead ih =>
    rw [Bool.and_eq_true] at hs
    rw [List.cons_append, List.cons_append, valid.eq_def]
    simp [ha, hlead, hs.1, ih hs.2]
  | case5 => contradiction
  | case6 a ha b hlead c s hlead3 ih =>
    rw [Bool.and_eq_true] at hs
    simp only [List.cons_append]
    rw [valid.eq_def]
    simp [ha, hlead, hlead3, hs.1, ih hs.2]
  | case7 => contradiction
  | case8 a ha b hlead c hlead3 d s ih =>
    simp only [Bool.and_eq_true] at hs
    simp only [List.cons_append]
    rw [valid.eq_def]
    simp [ha, hlead, hlead3, hs.1, ih hs.2]

theorem valid_flatten {parts : List (List UInt8)} (h : ∀ part ∈ parts, valid part) : valid parts.flatten := by
  induction parts with
  | nil => rfl
  | cons part parts ih =>
    rw [List.forall_mem_cons] at h
    exact valid_append h.1 (ih h.2)

theorem valid_of_ascii {s : List UInt8} (h : ∀ c ∈ s, c < 0x80) : valid s := by
  induction s with
  | nil => rfl
  | cons c cs ih =>
    rw [List.forall_mem_cons] at h
    rw [valid.eq_def]
    simp only [h.1, if_true]
    exact ih h.2

end Utf8
