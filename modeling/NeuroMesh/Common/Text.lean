import NeuroMesh.Crypto.IdentityCore
import NeuroMesh.Data.Delimited

/-!
This module contains the lemmas about the fields of a message: which of them are free of the
separator and can be read back from the concatenation.
-/

namespace NeuroMesh

theorem toNat_toUInt8_of_isDigit {c : Char} (h : c.isDigit)
    : 48 ≤ c.toUInt8.toNat ∧ c.toUInt8.toNat ≤ 57 ∧ c.toUInt8.toNat = c.toNat := by
  simp only [Char.isDigit, Bool.and_eq_true, decide_eq_true_eq] at h
  have hlow : 48 ≤ c.val.toNat := h.1
  have hhigh : c.val.toNat ≤ 57 := h.2
  have hnat : c.toUInt8.toNat = c.val.toNat := by
    simp only [Char.toUInt8, UInt32.toNat_toUInt8]
    omega
  exact ⟨by omega, by omega, hnat⟩

theorem isDigit_of_mem_toDecimal {n : Nat} {c : UInt8} (h : c ∈ toDecimal n) : isDigit c := by
  obtain ⟨d, hd, rfl⟩ := List.mem_map.mp h
  have hbounds :=
    toNat_toUInt8_of_isDigit (Nat.isDigit_of_mem_toDigits (by decide) (by decide) hd)
  simp only [isDigit, Bool.and_eq_true, decide_eq_true_eq, UInt8.le_iff_toNat_le]
  exact ⟨hbounds.1, hbounds.2.1⟩

theorem map_toDecimal (n : Nat)
    : (toDecimal n).map (fun c => Char.ofNat c.toNat) = Nat.toDigits 10 n := by
  unfold toDecimal
  rw [List.map_map]
  nth_rewrite 2 [← List.map_id (Nat.toDigits 10 n)]
  apply List.map_congr_left
  intro c hc
  have hdigit := Nat.isDigit_of_mem_toDigits (by decide) (by decide) hc
  simp [(toNat_toUInt8_of_isDigit hdigit).2.2]

theorem toDecimal_injective : Function.Injective toDecimal := by
  intro m n h
  rw [← Nat.ofDigitChars_ten_toDigits (n := m), ← map_toDecimal, h, map_toDecimal]
  exact Nat.ofDigitChars_ten_toDigits

theorem length_toDecimal_le {n e : Nat} (he : 0 < e) (h : n < 10 ^ e) : (toDecimal n).length ≤ e := by
  unfold toDecimal
  rw [List.length_map]
  exact (Nat.length_toDigits_le_iff (by decide) he).mpr h

theorem length_toDecimalInt_le {i : Int} {e : Nat} (he : 0 < e) (hge : -(10 ^ e) < i) (hlt : i < 10 ^ e)
    : (toDecimalInt i).length ≤ e + 1 := by
  cases i with
  | ofNat n =>
    have hn : n < 10 ^ e := by
      rw [← Int.ofNat_lt]
      push_cast
      exact hlt
    exact Nat.le_succ_of_le (length_toDecimal_le he hn)
  | negSucc n =>
    have hn : n + 1 < 10 ^ e := by
      rw [← Int.ofNat_lt]
      push_cast
      omega
    exact Nat.succ_le_succ (length_toDecimal_le he hn)

theorem pipe_notMem_toDecimal (n : Nat) : pipe ∉ toDecimal n := by
  intro h
  have := isDigit_of_mem_toDecimal h
  contradiction

theorem pipe_notMem_toDecimalInt (i : Int) : pipe ∉ toDecimalInt i := by
  cases i with
  | ofNat n => exact pipe_notMem_toDecimal n
  | negSucc n => simpa [toDecimalInt, pipe] using pipe_notMem_toDecimal (n + 1)

theorem isDigit_or_eq_of_mem_toDecimalInt {i : Int} {c : UInt8} (h : c ∈ toDecimalInt i)
    : isDigit c ∨ c = 0x2d := by
  cases i with
  | ofNat n => exact .inl (isDigit_of_mem_toDecimal h)
  | negSucc n =>
    rcases List.mem_cons.mp h with heq | hmem
    . exact .inr heq
    . exact .inl (isDigit_of_mem_toDecimal hmem)

theorem toDecimalInt_injective : Function.Injective toDecimalInt := by
  have hsign : ∀ n x, toDecimal n ≠ 0x2d :: x := by
    intro n x h
    have : isDigit 0x2d := isDigit_of_mem_toDecimal (n := n) (by simp [h])
    contradiction
  intro i j h
  cases i with
  | ofNat m =>
    cases j with
    | ofNat n => rw [toDecimal_injective h]
    | negSucc n => exact absurd h (hsign m _)
  | negSucc m =>
    cases j with
    | ofNat n => exact absurd h.symm (hsign n _)
    | negSucc n =>
      have := toDecimal_injective (List.cons_inj_right _ |>.mp h)
      simpa using this

theorem toDecimal_ne_nil (n : Nat) : toDecimal n ≠ [] := by
  unfold toDecimal
  rw [Ne, List.map_eq_nil_iff]
  exact Nat.toDigits_ne_nil

theorem eq_zero_of_head_toDecimal (n : Nat) (h : (toDecimal n).head? = some 0x30) : n = 0 := by
  induction n using Nat.strongRecOn with
  | ind n ih =>
    by_cases hlt : n < 10
    . unfold toDecimal at h
      rw [Nat.toDigits_of_lt_base hlt] at h
      interval_cases n <;> simp_all +decide
    . -- the first digit is the one of `n / 10`
      have hhead : (toDecimal n).head? = (toDecimal (n / 10)).head? := by
        unfold toDecimal
        rw [Nat.toDigits_of_base_le (by decide) (Nat.le_of_not_lt hlt), List.map_append,
          List.head?_append_of_ne_nil]
        exact toDecimal_ne_nil (n / 10)
      have := ih (n / 10) (by omega) (hhead ▸ h)
      omega

theorem foldl_toDecimal (n : Nat)
    : (toDecimal n).foldl (fun acc c => acc * 10 + (c.toNat - 0x30)) 0 = n := by
  have hfold (cs : List Char) (hdigits : ∀ c ∈ cs, c.isDigit) (acc : Nat)
      : (cs.map Char.toUInt8).foldl (fun acc c => acc * 10 + (c.toNat - 0x30)) acc
          = Nat.ofDigitChars 10 cs acc := by
    induction cs generalizing acc with
    | nil => rfl
    | cons c cs ih =>
      rw [List.forall_mem_cons] at hdigits
      rw [List.map_cons, List.foldl_cons, ih hdigits.2, (toNat_toUInt8_of_isDigit hdigits.1).2.2,
        Nat.mul_comm acc 10]
      rfl
  unfold toDecimal
  rw [hfold _ (fun c hc => Nat.isDigit_of_mem_toDigits (by decide) (by decide) hc)]
  exact Nat.ofDigitChars_ten_toDigits

theorem takeWhile_isDigit_toDecimal (n : Nat) : (toDecimal n).takeWhile isDigit = toDecimal n := by
  rw [List.takeWhile_eq_self_iff]
  intro c hc
  exact isDigit_of_mem_toDecimal hc

theorem exists_toDecimal_eq_cons (n : Nat) : ∃ c cs, toDecimal n = c :: cs ∧ isDigit c := by
  obtain ⟨c, cs, heq⟩ := List.exists_cons_of_ne_nil (toDecimal_ne_nil n)
  refine ⟨c, cs, heq, ?_⟩
  apply isDigit_of_mem_toDecimal (n := n)
  rw [heq]
  exact List.mem_cons_self

theorem bounds_of_isDigit {c : UInt8} (h : isDigit c) : 0x30 ≤ c.toNat ∧ c.toNat ≤ 0x39 := by
  simp only [isDigit, Bool.and_eq_true, decide_eq_true_eq, UInt8.le_iff_toNat_le] at h
  exact h

theorem isSpace_of_isDigit {c : UInt8} (h : isDigit c) : isSpace c = false := by
  have hbounds := bounds_of_isDigit h
  rw [Bool.eq_false_iff]
  intro hspace
  simp only [isSpace, Bool.or_eq_true, beq_iff_eq, Bool.and_eq_true, decide_eq_true_eq,
    UInt8.le_iff_toNat_le] at hspace
  rcases hspace with rfl | ⟨_, hle⟩
  . revert hbounds
    decide
  . have hle : c.toNat ≤ 13 := hle
    omega

theorem readNumeral_toDecimal (n : Nat)
    : readNumeral (toDecimal n) = ⟨false, n, (toDecimal n).length, (toDecimal n).length⟩ := by
  obtain ⟨c, cs, heq, hdigit⟩ := exists_toDecimal_eq_cons n
  have hrun := takeWhile_isDigit_toDecimal n
  have hfold := foldl_toDecimal n
  rw [heq] at hrun hfold ⊢
  have hsign : c ≠ 0x2b ∧ c ≠ 0x2d := by
    constructor <;> (rintro rfl; contradiction)
  simp [readNumeral, isSpace_of_isDigit hdigit, hsign, hrun, hfold]

theorem readNumeral_neg_toDecimal (n : Nat)
    : readNumeral (0x2d :: toDecimal n)
        =
      ⟨true, n, (toDecimal n).length, (toDecimal n).length + 1⟩ := by
  have hspace : isSpace 0x2d = false := rfl
  simp only [readNumeral, List.takeWhile_cons, hspace]
  simp [takeWhile_isDigit_toDecimal, foldl_toDecimal, toDecimal_ne_nil, Nat.add_comm]

theorem stoull_toDecimal (n : UInt64) : stoull (toDecimal n.toNat) = some n := by
  have hlt := n.toNat_lt
  have hdigits : (toDecimal n.toNat).length ≠ 0 := by simpa using toDecimal_ne_nil n.toNat
  unfold stoull
  rw [readNumeral_toDecimal]
  simp [hdigits, hlt]

theorem toDecimalInt_ne_nil (i : Int) : toDecimalInt i ≠ [] := by
  cases i with
  | ofNat n => exact toDecimal_ne_nil n
  | negSucc n => exact List.cons_ne_nil _ _

theorem readNumeral_toDecimalInt (i : Int)
    : (readNumeral (toDecimalInt i)).digits ≠ 0
        ∧ (readNumeral (toDecimalInt i)).value = i
        ∧ (readNumeral (toDecimalInt i)).consumed = (toDecimalInt i).length := by
  have hdigits (n : Nat) : (toDecimal n).length ≠ 0 := by simpa using toDecimal_ne_nil n
  cases i with
  | ofNat n =>
    unfold toDecimalInt
    rw [readNumeral_toDecimal]
    exact ⟨hdigits n, rfl, rfl⟩
  | negSucc n =>
    unfold toDecimalInt
    dsimp only
    rw [readNumeral_neg_toDecimal]
    refine ⟨hdigits (n + 1), ?_, rfl⟩
    simp [Numeral.value, Int.negSucc_eq]

theorem stoi_toDecimalInt {i : Int} (hlow : -(2 ^ 31) ≤ i) (hhigh : i < 2 ^ 31)
    : stoi (toDecimalInt i) = some (i, (toDecimalInt i).length) := by
  obtain ⟨hdigits, hvalue, hconsumed⟩ := readNumeral_toDecimalInt i
  unfold stoi
  dsimp only
  rw [if_neg hdigits, hvalue, hconsumed, if_pos]
  omega

theorem stoll_toDecimalInt {i : Int} (hlow : -(2 ^ 63) ≤ i) (hhigh : i < 2 ^ 63)
    : stoll (toDecimalInt i) = some (i, (toDecimalInt i).length) := by
  obtain ⟨hdigits, hvalue, hconsumed⟩ := readNumeral_toDecimalInt i
  unfold stoll
  dsimp only
  rw [if_neg hdigits, hvalue, hconsumed, if_pos]
  omega

end NeuroMesh
