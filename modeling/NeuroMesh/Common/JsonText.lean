import NeuroMesh.Common.Text
import NeuroMesh.Data.Json.Lemmas

/-!
This module contains the lemmas about numbers and strings in JSON texts that are put together by hand.
-/

namespace NeuroMesh

theorem isNatural_toDecimal (n : Nat) : Json.Parser.IsNatural (toDecimal n) := by
  constructor
  . intro c hc
    exact isDigit_of_mem_toDecimal hc
  . exact toDecimal_ne_nil n
  . intro h
    rw [eq_zero_of_head_toDecimal n h]
    decide

variable {half : Bool}

theorem reads_toDecimal (n : Nat) : Json.Reads half (toDecimal n) (.int n) := by
  have h : Json.Reads half (toDecimal n) _ := Json.reads_natural (isNatural_toDecimal n)
  unfold Json.Parser.natural at h
  rwa [foldl_toDecimal] at h

theorem reads_toDecimalInt (i : Int) : Json.Reads half (toDecimalInt i) (.int i) := by
  cases i with
  | ofNat n => exact reads_toDecimal n
  | negSucc n =>
    have h : Json.Reads half (0x2d :: toDecimal (n + 1)) _ := Json.reads_neg (isNatural_toDecimal (n + 1))
    unfold Json.Parser.natural at h
    rwa [foldl_toDecimal] at h

theorem valid_toDecimal (n : Nat) : Utf8.valid (toDecimal n) := by
  apply Utf8.valid_of_ascii
  intro c hc
  have hbounds := bounds_of_isDigit (isDigit_of_mem_toDecimal hc)
  rw [UInt8.lt_iff_toNat_lt]
  show c.toNat < 128
  omega

theorem valid_toDecimalInt (i : Int) : Utf8.valid (toDecimalInt i) := by
  cases i with
  | ofNat n => exact valid_toDecimal n
  | negSucc n =>
    show Utf8.valid ([0x2d] ++ toDecimal (n + 1))
    apply Utf8.valid_append
    . decide
    . exact valid_toDecimal (n + 1)

end NeuroMesh
