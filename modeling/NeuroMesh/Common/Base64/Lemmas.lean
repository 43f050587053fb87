import NeuroMesh.Common.Base64

namespace NeuroMesh

theorem length_base64Encode (data : Bytes)
    : (base64Encode data).length = (data.length + 2) / 3 * 4 := by
  fun_induction base64Encode data with
  | case1 => rfl
  | case2 a => simp
  | case3 a b => simp
  | case4 a b c data ih =>
    rw [List.length_append, ih]
    simp only [List.length_cons, List.length_nil]
    omega

theorem base64Encode_ne_nil {data : Bytes} (h : data ≠ []) : base64Encode data ≠ [] := by
  have hpos := List.length_pos_iff.mpr h
  apply List.ne_nil_of_length_pos
  rw [length_base64Encode]
  omega

theorem base64Char_spec : ∀ i < 64,
    base64Digit (base64Char i) = some (i : Int) ∧ base64Char i ≠ base64Pad
      ∧ 0x2b ≤ base64Char i ∧ base64Char i ≤ 0x7a := by
  decide +kernel

theorem bounds_of_mem_base64Encode {data : Bytes} {c : UInt8} (h : c ∈ base64Encode data)
    : 0x2b ≤ c ∧ c ≤ 0x7a := by
  have hdigit (i : Nat) (hi : i < 64) : 0x2b ≤ base64Char i ∧ base64Char i ≤ 0x7a :=
    (base64Char_spec i hi).2.2
  have hpad : 0x2b ≤ base64Pad ∧ base64Pad ≤ 0x7a := by decide
  have hall : ∀ c ∈ base64Encode data, 0x2b ≤ c ∧ c ≤ 0x7a := by
    clear h
    fun_induction base64Encode data with
    | case1 => exact List.forall_mem_nil _
    | case2 a =>
      have ha := a.toNat_lt
      simp only [List.forall_mem_cons]
      exact ⟨hdigit _ (by omega), hdigit _ (by omega), hpad, hpad, List.forall_mem_nil _⟩
    | case3 a b =>
      have ha := a.toNat_lt
      have hb := b.toNat_lt
      simp only [List.forall_mem_cons]
      exact ⟨hdigit _ (by omega), hdigit _ (by omega), hdigit _ (by omega), hpad, List.forall_mem_nil _⟩
    | case4 a b c data ih =>
      have ha := a.toNat_lt
      have hb := b.toNat_lt
      have hc := c.toNat_lt
      simp only [List.forall_mem_append, List.forall_mem_cons]
      exact ⟨⟨hdigit _ (by omega), hdigit _ (by omega), hdigit _ (by omega), hdigit _ (by omega),
        List.forall_mem_nil _⟩, ih⟩
  exact hall c h

theorem pipe_notMem_base64Encode (data : Bytes) : pipe ∉ base64Encode data := by
  intro h
  have hbounds := bounds_of_mem_base64Encode h
  revert hbounds
  decide

theorem int32_eq_add (i : Int) : ∃ k, int32 i = i + 2 ^ 32 * k := by
  refine ⟨-((i + 2 ^ 31) / 2 ^ 32), ?_⟩
  unfold int32
  rw [Int.bmod_eq_emod]
  split <;> omega

namespace base64Decode

section Digit

variable {i : Nat} (hi : i < 64) {val valb : Int} (cs : Bytes)
include hi

theorem go_of_neg (h : valb + 6 < 0)
    : go (base64Char i :: cs) val valb = go cs (int32 (val * 64) + i) (valb + 6) := by
  have hspec := base64Char_spec i hi
  rw [go, if_neg hspec.2.1, hspec.1]
  exact if_neg (by omega)

theorem go_of_byte {n : Nat} {a : UInt8} (h : valb + 6 = n)
    (hbyte : (int32 (val * 64) + i) / 2 ^ n % 256 = a.toNat)
    : go (base64Char i :: cs) val valb = (go cs (int32 (val * 64) + i) (n - 8)).map (a :: ·) := by
  have ha := a.toNat_lt
  have hshift : UInt8.ofNat (((int32 (val * 64) + i) >>> n) % 256).toNat = a := by
    apply UInt8.toNat.inj
    rw [UInt8.toNat_ofNat', Int.shiftRight_eq_div_pow]
    push_cast
    omega
  have hspec := base64Char_spec i hi
  rw [go, if_neg hspec.2.1, hspec.1]
  dsimp only
  rw [h, if_pos (by omega), Int.toNat_natCast, hshift]

end Digit

theorem go_pad (cs : Bytes) (val valb : Int) : go (base64Pad :: cs) val valb = some [] := by
  rw [go, if_pos rfl]

variable (val : Int) (cs : Bytes)

theorem go_one (a : UInt8) : go (base64Encode [a]) val (-8) = some [a] := by
  have ha := a.toNat_lt
  obtain ⟨k₁, h₁⟩ := int32_eq_add (val * 64)
  obtain ⟨k₂, h₂⟩ := int32_eq_add ((int32 (val * 64) + (a.toNat / 4 : Nat)) * 64)
  unfold base64Encode
  rw [go_of_neg (by omega) _ (by omega), go_of_byte (n := 4) (a := a) (by omega) _ (by omega), go_pad]
  . rfl
  . omega

theorem go_two (a b : UInt8) : go (base64Encode [a, b]) val (-8) = some [a, b] := by
  have ha := a.toNat_lt
  have hb := b.toNat_lt
  obtain ⟨k₁, h₁⟩ := int32_eq_add (val * 64)
  generalize hval₁ : int32 (val * 64) + ((a.toNat / 4 : Nat) : Int) = val₁
  obtain ⟨k₂, h₂⟩ := int32_eq_add (val₁ * 64)
  generalize hval₂ : int32 (val₁ * 64) + ((a.toNat % 4 * 16 + b.toNat / 16 : Nat) : Int) = val₂
  obtain ⟨k₃, h₃⟩ := int32_eq_add (val₂ * 64)
  unfold base64Encode
  rw [go_of_neg (by omega) _ (by omega), hval₁, go_of_byte (n := 4) (a := a) (by omega) _ (by omega) (by omega),
    hval₂, go_of_byte (n := 2) (a := b) (by omega) _ (by omega) (by omega), go_pad]
  rfl

theorem go_three (a b c : UInt8)
    : ∃ val', go (base64Encode (a :: b :: c :: cs)) val (-8)
        = (go (base64Encode cs) val' (-8)).map ([a, b, c] ++ ·) := by
  have ha := a.toNat_lt
  have hb := b.toNat_lt
  have hc := c.toNat_lt
  obtain ⟨k₁, h₁⟩ := int32_eq_add (val * 64)
  generalize hval₁ : int32 (val * 64) + ((a.toNat / 4 : Nat) : Int) = val₁
  obtain ⟨k₂, h₂⟩ := int32_eq_add (val₁ * 64)
  generalize hval₂ : int32 (val₁ * 64) + ((a.toNat % 4 * 16 + b.toNat / 16 : Nat) : Int) = val₂
  obtain ⟨k₃, h₃⟩ := int32_eq_add (val₂ * 64)
  generalize hval₃ : int32 (val₂ * 64) + ((b.toNat % 16 * 4 + c.toNat / 64 : Nat) : Int) = val₃
  obtain ⟨k₄, h₄⟩ := int32_eq_add (val₃ * 64)
  refine ⟨int32 (val₃ * 64) + (c.toNat % 64 : Nat), ?_⟩
  rw [base64Encode, List.cons_append, List.cons_append, List.cons_append, List.cons_append, List.nil_append]
  rw [go_of_neg (by omega) _ (by omega), hval₁, go_of_byte (n := 4) (a := a) (by omega) _ (by omega) (by omega),
    hval₂, go_of_byte (n := 2) (a := b) (by omega) _ (by omega) (by omega), hval₃,
    go_of_byte (n := 0) (a := c) (by omega) _ (by omega) (by omega)]
  rw [Option.map_map, Option.map_map]
  rfl

end base64Decode

theorem base64Decode_base64Encode (data : Bytes) : base64Decode (base64Encode data) = some data := by
  have hgo (val : Int) : base64Decode.go (base64Encode data) val (-8) = some data := by
    fun_induction base64Encode data generalizing val with
    | case1 => rfl
    | case2 a => apply base64Decode.go_one
    | case3 a b => apply base64Decode.go_two
    | case4 a b c data ih =>
      obtain ⟨val', hgo⟩ := base64Decode.go_three val data a b c
      rw [base64Encode, ih] at hgo
      exact hgo
  unfold base64Decode
  rw [length_base64Encode, if_neg (by omega), hgo]

end NeuroMesh
