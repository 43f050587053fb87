import NeuroMesh.Common.Base64.Lemmas
import NeuroMesh.Data.Utf8

namespace NeuroMesh
namespace Base64

variable {s : Bytes}

theorem base64Digit_eq (c : UInt8) : base64Digit c = (base64Chars.idxOf? c).map Nat.cast := by
  have hall : ∀ c, base64Digit c = (base64Chars.idxOf? c).map Nat.cast := by
    exact Utf8.forall_byte (by decide +kernel)
  exact hall c

def digits (s : Bytes) : Bytes :=
  s.takeWhile (· ≠ base64Pad)

def padding (s : Bytes) : Bytes :=
  s.dropWhile (· ≠ base64Pad)

def Accepted (s : Bytes) : Prop :=
  s.length % 4 = 0 ∧ ∀ c ∈ digits s, c ∈ base64Chars

structure WellFormed (s : Bytes) : Prop where
  length : s.length % 4 = 0
  alphabet : ∀ c ∈ digits s, c ∈ base64Chars
  padding_le : (padding s).length ≤ 2
  eq_pad : ∀ c ∈ padding s, c = base64Pad
  -- every `=` stands for two bits of the last digit that are not used
  unused : ∀ c ∈ (digits s).getLast?, base64Chars.idxOf c % 4 ^ (padding s).length = 0

section Accepted

theorem digits_cons {c : UInt8} (h : c ≠ base64Pad) : digits (c :: s) = c :: digits s := by
  exact List.takeWhile_cons_of_pos (by simpa using h)

theorem digits_pad (s : Bytes) : digits (base64Pad :: s) = [] := by
  exact List.takeWhile_cons_of_neg (by simp)

theorem isSome_go_iff (val valb : Int)
    : (base64Decode.go s val valb).isSome ↔ ∀ c ∈ digits s, c ∈ base64Chars := by
  induction s generalizing val valb with
  | nil => simp [base64Decode.go, digits]
  | cons c s ih =>
    by_cases hc : c = base64Pad
    . subst hc
      rw [base64Decode.go_pad, digits_pad]
      simp
    . rw [digits_cons hc, List.forall_mem_cons, base64Decode.go, if_neg hc, base64Digit_eq]
      cases hdigit : base64Chars.idxOf? c with
      | none =>
        have hnot := List.idxOf?_eq_none_iff.mp hdigit
        simp [hnot]
      | some digit =>
        have hmem : c ∈ base64Chars := by
          by_contra hnot
          rw [List.idxOf?_eq_none_iff.mpr hnot] at hdigit
          contradiction
        dsimp only [Option.map_some]
        split
        . rw [Option.isSome_map, ih]
          simp [hmem]
        . rw [ih]
          simp [hmem]

theorem isSome_base64Decode_iff : (base64Decode s).isSome ↔ Accepted s := by
  unfold base64Decode Accepted
  split
  . next h => simp [h]
  . next h =>
    rw [isSome_go_iff]
    simp only [not_not] at h
    simp [h]

end Accepted

section Sextets

structure Sextets where
  digits : List Nat
  pads : Nat
  digits_lt : ∀ d ∈ digits, d < 64
  pads_le : pads ≤ 2
  length : (digits.length + pads) % 4 = 0
  unused : ∀ d ∈ digits.getLast?, d % 4 ^ pads = 0

theorem mem_base64Chars_iff {c : UInt8} : c ∈ base64Chars ↔ ∃ d < 64, base64Char d = c := by
  constructor
  . intro h
    have hlt := List.idxOf_lt_length_iff.mpr h
    refine ⟨base64Chars.idxOf c, hlt, ?_⟩
    unfold base64Char
    rw [List.getD_eq_getElem _ _ hlt, List.getElem_idxOf]
  . rintro ⟨d, hd, rfl⟩
    by_contra hnot
    have hspec := (base64Char_spec d hd).1
    rw [base64Digit_eq, List.idxOf?_eq_none_iff.mpr hnot] at hspec
    contradiction

theorem idxOf_base64Char {d : Nat} (h : d < 64) : base64Chars.idxOf (base64Char d) = d := by
  obtain ⟨i, hi, heq⟩ := Option.map_eq_some_iff.mp ((base64Digit_eq _).symm.trans (base64Char_spec d h).1)
  rw [List.idxOf_eq_getD_idxOf?, hi, Int.ofNat_inj.mp heq]
  rfl

theorem base64Char_idxOf {c : UInt8} (h : c ∈ base64Chars) : base64Char (base64Chars.idxOf c) = c := by
  obtain ⟨d, hd, rfl⟩ := mem_base64Chars_iff.mp h
  rw [idxOf_base64Char hd]

namespace Sextets

variable (t : Sextets)

def text : Bytes :=
  t.digits.map base64Char ++ List.replicate t.pads base64Pad

theorem digits_text : Base64.digits t.text = t.digits.map base64Char := by
  unfold Base64.digits text
  rw [List.takeWhile_append_of_pos]
  . cases t.pads <;> simp [List.replicate_succ]
  . intro c hc
    obtain ⟨d, hd, rfl⟩ := List.mem_map.mp hc
    simpa using (base64Char_spec d (t.digits_lt d hd)).2.1

theorem padding_text : padding t.text = List.replicate t.pads base64Pad := by
  have happend : Base64.digits t.text ++ padding t.text = t.text := List.takeWhile_append_dropWhile
  rw [digits_text] at happend
  exact List.append_cancel_left happend

theorem wellFormed_text : WellFormed t.text := by
  constructor
  . unfold text
    rw [List.length_append, List.length_map, List.length_replicate]
    exact t.length
  . rw [digits_text]
    intro c hc
    obtain ⟨d, hd, rfl⟩ := List.mem_map.mp hc
    exact mem_base64Chars_iff.mpr ⟨d, t.digits_lt d hd, rfl⟩
  . rw [padding_text, List.length_replicate]
    exact t.pads_le
  . rw [padding_text]
    intro c hc
    exact List.eq_of_mem_replicate hc
  . rw [digits_text, padding_text, List.getLast?_map, List.length_replicate]
    intro c hc
    obtain ⟨d, hd, rfl⟩ := Option.mem_map.mp hc
    rw [idxOf_base64Char (t.digits_lt d (List.mem_of_getLast? hd))]
    exact t.unused d hd

end Sextets

theorem exists_sextets_of_wellFormed (h : WellFormed s) : ∃ t : Sextets, s = t.text := by
  have hpadding : padding s = List.replicate (padding s).length base64Pad :=
    List.eq_replicate_of_mem h.eq_pad
  have happend : digits s ++ padding s = s := List.takeWhile_append_dropWhile
  refine ⟨⟨(digits s).map fun c => base64Chars.idxOf c, (padding s).length, ?_, h.padding_le, ?_, ?_⟩, ?_⟩
  . intro d hd
    obtain ⟨c, hc, rfl⟩ := List.mem_map.mp hd
    exact List.idxOf_lt_length_iff.mpr (h.alphabet c hc)
  . rw [List.length_map, ← List.length_append, happend]
    exact h.length
  . intro d hd
    rw [List.getLast?_map] at hd
    obtain ⟨c, hc, rfl⟩ := Option.mem_map.mp hd
    exact h.unused c hc
  . unfold Sextets.text
    dsimp only
    rw [List.map_map, ← hpadding]
    nth_rewrite 1 [← happend]
    apply congrArg (· ++ padding s)
    have hmap := List.map_congr_left fun c hc => base64Char_idxOf (h.alphabet c hc)
    exact (hmap.trans (List.map_id _)).symm

theorem exists_base64Encode_eq (digits : List Nat) (pads : Nat) (hlt : ∀ d ∈ digits, d < 64) (hpads : pads ≤ 2)
    (hlength : (digits.length + pads) % 4 = 0) (hunused : ∀ d ∈ digits.getLast?, d % 4 ^ pads = 0)
    : ∃ data, digits.map base64Char ++ List.replicate pads base64Pad = base64Encode data := by
  have hbyte (n : Nat) (h : n < 256) : (UInt8.ofNat n).toNat = n := UInt8.toNat_ofNat_of_lt' h
  match digits with
  | [] =>
    obtain rfl : pads = 0 := by
      rw [List.length_nil] at hlength
      omega
    exact ⟨[], rfl⟩
  | [i] =>
    rw [List.length_singleton] at hlength
    omega
  | [i, j] =>
    obtain rfl : pads = 2 := by
      simp only [List.length_cons, List.length_nil] at hlength
      omega
    simp only [List.forall_mem_cons] at hlt
    have hj := hunused j rfl
    refine ⟨[UInt8.ofNat (i * 4 + j / 16)], ?_⟩
    rw [base64Encode, hbyte _ (by omega), show (i * 4 + j / 16) / 4 = i by omega,
      show (i * 4 + j / 16) % 4 * 16 = j by omega]
    rfl
  | [i, j, k] =>
    obtain rfl : pads = 1 := by
      simp only [List.length_cons, List.length_nil] at hlength
      omega
    simp only [List.forall_mem_cons] at hlt
    have hk := hunused k rfl
    refine ⟨[UInt8.ofNat (i * 4 + j / 16), UInt8.ofNat (j % 16 * 16 + k / 4)], ?_⟩
    rw [base64Encode, hbyte _ (by omega), hbyte _ (by omega), show (i * 4 + j / 16) / 4 = i by omega,
      show (i * 4 + j / 16) % 4 * 16 + (j % 16 * 16 + k / 4) / 16 = j by omega,
      show (j % 16 * 16 + k / 4) % 16 * 4 = k by omega]
    rfl
  | i :: j :: k :: l :: digits =>
    simp only [List.length_cons] at hlength
    simp only [List.forall_mem_cons] at hlt
    obtain ⟨data, hdata⟩ := exists_base64Encode_eq digits pads hlt.2.2.2.2 hpads (by omega) (by
      intro d hd
      apply hunused
      simp [List.getLast?_cons, Option.mem_def.mp hd])
    refine ⟨UInt8.ofNat (i * 4 + j / 16) :: UInt8.ofNat (j % 16 * 16 + k / 4) :: UInt8.ofNat (k % 4 * 64 + l)
      :: data, ?_⟩
    rw [base64Encode, hbyte _ (by omega), hbyte _ (by omega), hbyte _ (by omega),
      show (i * 4 + j / 16) / 4 = i by omega,
      show (i * 4 + j / 16) % 4 * 16 + (j % 16 * 16 + k / 4) / 16 = j by omega,
      show (j % 16 * 16 + k / 4) % 16 * 4 + (k % 4 * 64 + l) / 64 = k by omega,
      show (k % 4 * 64 + l) % 64 = l by omega, ← hdata]
    rfl

theorem exists_sextets_base64Encode (data : Bytes) : ∃ t : Sextets, base64Encode data = t.text := by
  fun_induction base64Encode data with
  | case1 => exact ⟨⟨[], 0, by simp, by decide, rfl, by simp⟩, rfl⟩
  | case2 a =>
    have ha := a.toNat_lt
    refine ⟨⟨[a.toNat / 4, a.toNat % 4 * 16], 2, ?_, by decide, by simp, ?_⟩, rfl⟩
    . simp only [List.forall_mem_cons, List.not_mem_nil, false_implies, implies_true, and_true]
      omega
    . intro d hd
      cases hd
      dsimp only [List.getLast]
      omega
  | case3 a b =>
    have ha := a.toNat_lt
    have hb := b.toNat_lt
    refine ⟨⟨[a.toNat / 4, a.toNat % 4 * 16 + b.toNat / 16, b.toNat % 16 * 4], 1, ?_, by decide, by simp, ?_⟩, rfl⟩
    . simp only [List.forall_mem_cons, List.not_mem_nil, false_implies, implies_true, and_true]
      omega
    . intro d hd
      cases hd
      dsimp only [List.getLast]
      omega
  | case4 a b c data ih =>
    have ha := a.toNat_lt
    have hb := b.toNat_lt
    have hc := c.toNat_lt
    obtain ⟨t, ht⟩ := ih
    refine ⟨⟨[a.toNat / 4, a.toNat % 4 * 16 + b.toNat / 16, b.toNat % 16 * 4 + c.toNat / 64, c.toNat % 64]
      ++ t.digits, t.pads, ?_, t.pads_le, ?_, ?_⟩, ?_⟩
    . rw [List.forall_mem_append]
      refine ⟨?_, t.digits_lt⟩
      simp only [List.forall_mem_cons, List.not_mem_nil, false_implies, implies_true, and_true]
      omega
    . have hlength := t.length
      rw [List.length_append]
      simp only [List.length_cons, List.length_nil]
      omega
    . intro d hd
      rw [List.getLast?_append] at hd
      cases hlast : t.digits.getLast? with
      | none =>
        -- without another group there is no `=` either
        have hlength := t.length
        have hpads := t.pads_le
        rw [List.getLast?_eq_none_iff.mp hlast, List.length_nil] at hlength
        rw [show t.pads = 0 by omega, pow_zero, Nat.mod_one]
      | some last =>
        rw [hlast] at hd
        cases hd
        exact t.unused d hlast
    . rw [ht]
      unfold Sextets.text
      rw [List.map_append, List.append_assoc]
      rfl

theorem mem_of_mem_base64Encode {data : Bytes} {c : UInt8} (h : c ∈ base64Encode data)
    : c ∈ base64Pad :: base64Chars := by
  obtain ⟨t, ht⟩ := exists_sextets_base64Encode data
  rw [ht, Sextets.text, List.mem_append] at h
  rcases h with h | h
  . obtain ⟨d, hd, rfl⟩ := List.mem_map.mp h
    exact List.mem_cons_of_mem _ (mem_base64Chars_iff.mpr ⟨d, t.digits_lt d hd, rfl⟩)
  . rw [List.eq_of_mem_replicate h]
    exact List.mem_cons_self

end Sextets

theorem wellFormed_iff : WellFormed s ↔ ∃ data, s = base64Encode data := by
  constructor
  . intro h
    obtain ⟨t, rfl⟩ := exists_sextets_of_wellFormed h
    exact exists_base64Encode_eq t.digits t.pads t.digits_lt t.pads_le t.length t.unused
  . rintro ⟨data, rfl⟩
    obtain ⟨t, ht⟩ := exists_sextets_base64Encode data
    rw [ht]
    exact t.wellFormed_text

/--
The accumulator of the decoder overflows in every longer text, but the bits that get lost are those of bytes
that have been written already.
-/
theorem base64_roundTrip (data : Bytes)
    : base64Decode (base64Encode data) = some data
        ∧ (base64Encode data).length = 4 * (data.length ⌈/⌉ 3)
        ∧ ∃ digits pads, base64Encode data = digits ++ List.replicate pads base64Pad
          ∧ pads ≤ 2 ∧ ∀ c ∈ digits, c ∈ base64Chars := by
  refine ⟨base64Decode_base64Encode data, ?_, ?_⟩
  . rw [length_base64Encode, Nat.ceilDiv_eq_add_pred_div, Nat.mul_comm]
    rfl
  . obtain ⟨t, ht⟩ := exists_sextets_base64Encode data
    refine ⟨_, t.pads, ht, t.pads_le, ?_⟩
    intro c hc
    obtain ⟨d, hd, rfl⟩ := List.mem_map.mp hc
    exact mem_base64Chars_iff.mpr ⟨d, t.digits_lt d hd, rfl⟩

theorem canonical_iff (s : Bytes)
    : ((∀ data, base64Decode s = some data → s = base64Encode data)
        ∧ (¬WellFormed s → base64Decode s = none))
        ↔
      (Accepted s → WellFormed s) := by
  constructor
  . intro h haccepted
    by_contra hmalformed
    rw [← isSome_base64Decode_iff, h.2 hmalformed] at haccepted
    contradiction
  . intro h
    constructor
    . intro data hdata
      have haccepted : Accepted s := by
        rw [← isSome_base64Decode_iff, hdata]
        rfl
      obtain ⟨data', rfl⟩ := wellFormed_iff.mp (h haccepted)
      rw [base64Decode_base64Encode, Option.some.injEq] at hdata
      rw [hdata]
    . intro hmalformed
      rw [← Option.not_isSome_iff_eq_none, isSome_base64Decode_iff]
      exact fun haccepted => hmalformed (h haccepted)

theorem base64Decode_malformed
    : ∀ s ∈ [bytes "TR==", bytes "TQ=!", bytes "TQ======"],
        base64Decode s = some (bytes "M") ∧ s ≠ base64Encode (bytes "M") := by
  decide +kernel

theorem not_forall_canonical : ¬ ∀ s data, base64Decode s = some data → s = base64Encode data := by
  intro h
  obtain ⟨hdecode, hne⟩ := base64Decode_malformed (bytes "TR==") List.mem_cons_self
  exact hne (h _ _ hdecode)

end Base64
end NeuroMesh
