import NeuroMesh.Data.Json.Literal

/-!
This module contains the theory of the escapes in strings: how a string can be spelled, which spellings are
found by a loop that rewrites a text in place, and what becomes of a text that is put between quotation marks
as it is.
-/

namespace InPlace

variable {α : Type}

def rewrite (body : List α → Nat → α → List α × Nat) (fuel : Nat) (s : List α) (i : Nat) : Option (List α) :=
  match s[i]? with
  | none => some s
  | some c =>
    match fuel with
    | 0 => none
    | fuel + 1 => rewrite body fuel (body s i c).1 (body s i c).2

variable {body : List α → Nat → α → List α × Nat} {f : α → List α}
  (hbody : ∀ before c after, body (before ++ c :: after) before.length c
    = (before ++ (f c ++ after), (before ++ f c).length))
include hbody

theorem rewrite_append (before after : List α) {fuel : Nat} (hfuel : after.length ≤ fuel)
    : rewrite body fuel (before ++ after) before.length = some (before ++ after.flatMap f) := by
  induction after generalizing before fuel with
  | nil =>
    unfold rewrite
    simp
  | cons c after ih =>
    rw [List.length_cons] at hfuel
    obtain ⟨fuel, rfl⟩ := Nat.exists_eq_add_one_of_ne_zero (show fuel ≠ 0 by omega)
    unfold rewrite
    rw [List.getElem?_append_right (le_refl _), Nat.sub_self, List.getElem?_cons_zero]
    dsimp only
    rw [hbody, ← List.append_assoc, ih _ (by omega), List.flatMap_cons, List.append_assoc]

end InPlace

namespace Json

section Spells

variable {raw s rest t : List UInt8} {found : List Piece}

theorem Spells.pieces_append (h : Spells raw found) (rest : List UInt8)
    : Parser.pieces (raw ++ quote :: rest) = some (found, rest) := by
  induction h with
  | nil =>
    rw [List.nil_append, Parser.pieces.eq_def]
    rfl
  | plain hlow hquote hbackslash h ih =>
    unfold quote at hquote
    unfold backslash at hbackslash
    rw [List.cons_append, Parser.pieces.eq_def]
    simp [hlow, hquote, hbackslash, ih]
  | short hlong he h ih =>
    rw [List.cons_append, List.cons_append, Parser.pieces.eq_def]
    simp [quote, backslash, hlong, he]
    rw [← quote, ih]
    rfl
  | long h3 h2 h1 h0 h ih =>
    simp only [List.cons_append]
    rw [Parser.pieces.eq_def]
    simp [quote, backslash, h3, h2, h1, h0]
    rw [← quote, ih]
    rfl

theorem Spells.append {raw' : List UInt8} {found' : List Piece} (h : Spells raw found)
    (h' : Spells raw' found')
    : Spells (raw ++ raw') (found ++ found') := by
  induction h with
  | nil => exact h'
  | plain hlow hquote hbackslash h ih => exact .plain hlow hquote hbackslash ih
  | short hlong he h ih => exact .short hlong he ih
  | long h3 h2 h1 h0 h ih => exact .long h3 h2 h1 h0 ih

theorem Spells.low (h : Spells raw found) : ∀ c ∈ raw, ¬c < 0x20 := by
  induction h with
  | nil => simp
  | plain hlow hquote hbackslash h ih =>
    rw [List.forall_mem_cons]
    exact ⟨hlow, ih⟩
  | @short e c raw found hlong he h ih =>
    have hletter : ∀ e, (Parser.escape e).isSome → ¬e < 0x20 := by
      exact Utf8.forall_byte (by decide +kernel)
    simp only [List.forall_mem_cons]
    exact ⟨by decide, hletter e (by rw [he]; rfl), ih⟩
  | long h3 h2 h1 h0 h ih =>
    simp only [List.forall_mem_cons]
    exact ⟨by decide, by decide, (hexValue_spec h3).2.1, (hexValue_spec h2).2.1, (hexValue_spec h1).2.1,
      (hexValue_spec h0).2.1, ih⟩

theorem exists_cons_of_cons_eq_append {c : UInt8} {before after : List UInt8} (hc : c ≠ quote)
    (h : c :: s = before ++ quote :: after)
    : ∃ tail, before = c :: tail ∧ s = tail ++ quote :: after := by
  cases before with
  | nil =>
    rw [List.nil_append, List.cons.injEq] at h
    exact absurd h.1 hc
  | cons b tail =>
    rw [List.cons_append, List.cons.injEq] at h
    exact ⟨tail, by rw [h.1], h.2⟩

theorem getLast?_of_quotesEscaped {before after : List UInt8} (h : quotesEscaped raw = true)
    (heq : raw = before ++ quote :: after)
    : before.getLast? = some backslash := by
  fun_induction quotesEscaped raw generalizing before with
  | case1 => simp at heq
  | case2 => contradiction
  | case3 e s ih =>
    obtain ⟨tail, rfl, hrest⟩ := exists_cons_of_cons_eq_append (by decide) heq
    cases tail with
    | nil => rfl
    | cons b tail =>
      rw [List.cons_append, List.cons.injEq] at hrest
      rw [List.getLast?_cons, List.getLast?_cons, ih h hrest.2]
      rfl
  | case4 c s hbackslash ih =>
    rw [Bool.and_eq_true, decide_eq_true_iff] at h
    obtain ⟨tail, rfl, hrest⟩ := exists_cons_of_cons_eq_append h.1 heq
    rw [List.getLast?_cons, ih h.2 hrest]
    rfl

end Spells

section Length

theorem length_encode_le (n : Nat) : (Utf8.encode n).length ≤ 4 ∧ (n < 0x10000 → (Utf8.encode n).length ≤ 3) := by
  unfold Utf8.encode
  split
  . simp
  . split
    . simp
    . split
      . simp
      . next h => simp [h]

def kept (high : Option Nat) : Nat :=
  high.elim 0 fun _ => 3

variable {raw : List UInt8} {found : List Piece}

theorem Spells.length_go_le (h : Spells raw found) (high : Option Nat) (hhigh : ∀ m ∈ high, m < 0x10000)
    : (Parser.assemble.go found high).length ≤ raw.length + kept high
        ∧ ((Parser.assemble.go found high).length = raw.length + kept high →
          found = raw.map .byte ∧ ∀ c ∈ raw, 0x20 ≤ c ∧ c ≠ 0x22 ∧ c ≠ 0x5c) := by
  have hhalf : (high.elim [] Utf8.encode).length ≤ kept high := by
    cases high with
    | none => simp [kept]
    | some m => exact (length_encode_le m).2 (hhigh m rfl)
  have hnone : ∀ m ∈ (none : Option Nat), m < 0x10000 := nofun
  induction h generalizing high with
  | nil =>
    rw [Parser.assemble.go]
    simpa using hhalf
  | @plain c raw found hlow hquote hbackslash h ih =>
    obtain ⟨hle, heq⟩ := ih none hnone (by simp [kept])
    rw [Parser.assemble.go]
    simp only [List.length_append, List.length_cons, kept, Option.elim_none, Nat.add_zero] at hhalf hle heq ⊢
    constructor
    . omega
    . intro h
      obtain ⟨hfound, hplain⟩ := heq (by omega)
      rw [hfound, List.map_cons, List.forall_mem_cons]
      exact ⟨rfl, ⟨UInt8.not_lt.mp hlow, hquote, hbackslash⟩, hplain⟩
  | short hlong he h ih =>
    obtain ⟨hle, -⟩ := ih none hnone (by simp [kept])
    rw [Parser.assemble.go]
    simp only [List.length_append, List.length_cons, kept, Option.elim_none, Nat.add_zero] at hhalf hle ⊢
    constructor
    . omega
    . intro h
      omega
  | @long d3 d2 d1 d0 n3 n2 n1 n0 raw found h3 h2 h1 h0 h ih =>
    have hn : n3 * 4096 + n2 * 256 + n1 * 16 + n0 < 0x10000 := by
      have hn3 := (hexValue_spec h3).1
      have hn2 := (hexValue_spec h2).1
      have hn1 := (hexValue_spec h1).1
      have hn0 := (hexValue_spec h0).1
      omega
    generalize n3 * 4096 + n2 * 256 + n1 * 16 + n0 = n at hn
    obtain ⟨hle, -⟩ := ih none hnone (by simp [kept])
    have hencode := (length_encode_le n).2 hn
    -- six characters stand for at most four bytes, or they are kept for the next escape
    have hlt : (Parser.assemble.go (.unit n :: found) high).length < raw.length + 6 + kept high := by
      rw [Parser.assemble.go.eq_def]
      dsimp only
      split
      . have hkeep := (ih (some n) (by simpa using hn) (by simpa [kept] using hencode)).1
        simp only [List.length_append, kept, Option.elim_some] at hhalf hkeep ⊢
        omega
      . cases high with
        | none =>
          simp only [List.length_append, kept, Option.elim_none] at hle ⊢
          omega
        | some m =>
          dsimp only
          split
          . have hpair := (length_encode_le (0x10000 + (m - 0xd800) * 0x400 + (n - 0xdc00))).1
            simp only [List.length_append, kept, Option.elim_none, Option.elim_some] at hle ⊢
            omega
          . simp only [List.length_append, kept, Option.elim_none, Option.elim_some] at hhalf hle ⊢
            omega
    simp only [List.length_cons]
    constructor
    . omega
    . intro h
      omega

theorem Spells.length_assemble_le (h : Spells raw found)
    : (Parser.assemble found).length ≤ raw.length
        ∧ ((Parser.assemble found).length = raw.length → ∀ c ∈ raw, 0x20 ≤ c ∧ c ≠ 0x22 ∧ c ≠ 0x5c) := by
  have hgo := h.length_go_le none nofun
  exact ⟨hgo.1, fun heq => (hgo.2 heq).2⟩

end Length

section Escaped

variable {s rest : List UInt8} {half : Bool}

def IsSpelling (c : UInt8) (text : List UInt8) : Prop :=
  Spells text [.byte c] ∨ c < 0x80 ∧ Spells text [.unit c.toNat]

variable {f : UInt8 → List UInt8} (hf : ∀ c, IsSpelling c (f c))
include hf

theorem exists_spells_flatMap (s : List UInt8)
    : ∃ found, Spells (s.flatMap f) found ∧ Parser.assemble found = s := by
  induction s with
  | nil => exact ⟨[], .nil, rfl⟩
  | cons c s ih =>
    obtain ⟨found, hspells, hfound⟩ := ih
    rcases hf c with h | ⟨hc, h⟩
    . refine ⟨.byte c :: found, h.append hspells, ?_⟩
      unfold Parser.assemble at hfound ⊢
      rw [Parser.assemble.go, hfound]
      rfl
    . refine ⟨.unit c.toNat :: found, h.append hspells, ?_⟩
      have hlt : c.toNat < 0x80 := UInt8.lt_iff_toNat_lt.mp hc
      have hhigh : Parser.isHigh c.toNat = false := by
        unfold Parser.isHigh
        rw [Bool.and_eq_false_iff, decide_eq_false_iff_not]
        left
        omega
      unfold Parser.assemble at hfound ⊢
      rw [Parser.assemble.go.eq_def]
      dsimp only
      rw [hhigh, hfound, Utf8.encode, if_pos hlt, UInt8.ofNat_toNat]
      rfl

theorem string_flatMap (hvalid : half = true ∨ Utf8.valid s) (rest : List UInt8)
    : Parser.string half (s.flatMap f ++ quote :: rest) = some (s, rest) := by
  obtain ⟨found, hspells, hfound⟩ := exists_spells_flatMap hf s
  unfold Parser.string
  rw [hspells.pieces_append]
  simp [hfound, hvalid]

theorem reads_flatMap (hvalid : half = true ∨ Utf8.valid s)
    : Reads half (quote :: (s.flatMap f ++ [quote])) (.str s) := by
  apply Names.reads
  intro rest
  exact string_flatMap hf hvalid rest

end Escaped

section Embedded

variable {half : Bool} {key text texts s t rest more : List UInt8} {json : Json}

theorem plain_of_string (h : Parser.string half (t ++ quote :: 0x2c :: quote :: more) = some (t, rest))
    : (∀ c ∈ t, 0x20 ≤ c ∧ c ≠ 0x22 ∧ c ≠ 0x5c) ∨ rest = more := by
  unfold Parser.string at h
  simp only [Option.bind_eq_bind, Option.bind_eq_some_iff] at h
  obtain ⟨⟨found, rest'⟩, hpieces, h⟩ := h
  dsimp only at h
  split at h
  . simp only [Option.some.injEq, Prod.mk.injEq] at h
    obtain ⟨hfound, rfl⟩ := h
    obtain ⟨raw, heq, hspells⟩ := exists_spells_of_pieces hpieces
    have hlength := hspells.length_assemble_le
    rw [hfound] at hlength
    rcases List.append_eq_append_iff.mp heq with ⟨z, hraw, hz⟩ | ⟨z, ht, hz⟩
    . match z with
      | [] =>
        left
        rw [List.append_nil] at hraw
        rw [hraw] at hlength
        exact hlength.2 rfl
      | [c] =>
        simp only [List.cons_append, List.nil_append, List.cons.injEq] at hz
        exact absurd hz.2.1 (by decide)
      | [c, d] =>
        right
        simp only [List.cons_append, List.nil_append, List.cons.injEq] at hz
        exact hz.2.2.2.symm
      | c :: d :: e :: z =>
        simp only [List.cons_append, List.cons.injEq] at hz
        have hbefore : raw = (t ++ [c, d]) ++ quote :: z := by
          rw [hraw, hz.2.2.1]
          simp
        have hlast := getLast?_of_quotesEscaped hspells.quotesEscaped hbefore
        rw [← hz.2.1] at hlast
        simp [backslash] at hlast
    . left
      rw [ht, List.length_append] at hlength
      have hnil : z = [] := List.eq_nil_of_length_eq_zero (by omega)
      rw [ht, hnil, List.append_nil]
      exact hlength.2 (by simp [hnil])
  . contradiction

theorem reads_raw (h : ∀ c ∈ t, 0x20 ≤ c ∧ c ≠ 0x22 ∧ c ≠ 0x5c)
    : Reads true (0x22 :: (t ++ [0x22])) (.str t) := by
  apply Names.reads
  intro rest
  simp [Parser.string, Parser.pieces_plain h, Parser.assemble_bytes]

def Has (json : Json) (key : List UInt8) (value : Json) : Prop :=
  ∃ members, json = .obj members ∧ ∀ other, (key, other) ∈ members ↔ other = value

theorem has_of_mem {members : List (List UInt8 × Json)} {value : Json}
    (hkeys : (members.map Prod.fst).Nodup) (h : (key, value) ∈ members)
    : (Json.obj members).Has key value := by
  refine ⟨members, rfl, ?_⟩
  intro other
  constructor
  . intro hother
    have hsame := List.inj_on_of_nodup_map hkeys hother h rfl
    exact congrArg Prod.snd hsame
  . intro hother
    rwa [hother]

theorem membersText_cons (member : Member) {members : List Member} (h : members ≠ [])
    : membersText (member :: members)
        = 0x22 :: (member.key ++ 0x22 :: 0x3a :: (member.text ++ 0x2c :: membersText members)) := by
  cases members with
  | nil => contradiction
  | cons next members => rfl

theorem notMem_membersText {c : UInt8} {members : List Member}
    (hc : c ≠ 0x22 ∧ c ≠ 0x3a ∧ c ≠ 0x2c ∧ c ≠ 0x7d)
    (h : ∀ member ∈ members, c ∉ member.key ∧ c ∉ member.text)
    : c ∉ membersText members := by
  induction members with
  | nil => simp [membersText, hc]
  | cons member members ih =>
    rw [List.forall_mem_cons] at h
    cases members with
    | nil => simp [membersText, hc, h.1]
    | cons next members =>
      rw [membersText_cons member (List.cons_ne_nil _ _)]
      simp [hc, h.1, ih h.2]

theorem exists_members_of_append {before after : List Member} {found : List (List UInt8 × Json)} {fuel : Nat}
    (hbefore : ∀ member ∈ before, Plain member.key ∧ Reads half member.text member.json) (hafter : after ≠ [])
    (hfuel : 2 * (membersText (before ++ after)).length ≤ fuel)
    (h : Parser.members half fuel (membersText (before ++ after)) = some (found, rest))
    : ∃ fuel' found', 2 * (membersText after).length ≤ fuel'
        ∧ Parser.members half fuel' (membersText after) = some (found', rest)
        ∧ found = before.map (fun member => (member.key, member.json)) ++ found' := by
  induction before generalizing fuel found with
  | nil => exact ⟨fuel, found, hfuel, h, rfl⟩
  | cons member before ih =>
    rw [List.forall_mem_cons] at hbefore
    have htext := membersText_cons member (show before ++ after ≠ [] by simp [hafter])
    rw [List.cons_append, htext] at hfuel h
    simp only [List.length_cons, List.length_append] at hfuel
    obtain ⟨fuel, rfl⟩ := Nat.exists_eq_add_one_of_ne_zero (show fuel ≠ 0 by omega)
    have hvalue := hbefore.1.2 fuel (0x2c :: membersText (before ++ after)) (by omega)
      (Parser.stops_cons _ (by simp))
    rw [Parser.members, skip_cons (show isSpace 0x22 = false from rfl)] at h
    simp [Parser.string_plain half hbefore.1.1, skip_cons (show isSpace 0x3a = false from rfl), hvalue,
      skip_cons (show isSpace 0x2c = false from rfl), Option.bind_eq_some_iff] at h
    obtain ⟨found', hrest, rfl⟩ := h
    obtain ⟨fuel', found', hfuel', hmembers, rfl⟩ := ih hbefore.2 (by omega) hrest
    exact ⟨fuel', found', hfuel', hmembers, rfl⟩

theorem exists_value_of_members {fuel : Nat} {found : List (List UInt8 × Json)} (hkey : Plain key)
    (h : Parser.members half fuel (0x22 :: (key ++ 0x22 :: 0x3a :: s)) = some (found, rest))
    : ∃ fuel json more, Parser.value half fuel s = some (json, more) ∧ (key, json) ∈ found
        ∧ ((skip more).head? = some 0x2c ∨ (skip more).head? = some 0x7d) := by
  cases fuel with
  | zero => contradiction
  | succ fuel =>
    rw [Parser.members, skip_cons (show isSpace 0x22 = false from rfl)] at h
    simp [Parser.string_plain half hkey, skip_cons (show isSpace 0x3a = false from rfl),
      Option.bind_eq_some_iff] at h
    obtain ⟨json, more, hvalue, h⟩ := h
    refine ⟨fuel, json, more, hvalue, ?_⟩
    cases hskip : skip more with
    | nil =>
      simp only [hskip] at h
      contradiction
    | cons c s =>
      simp only [hskip] at h
      split at h
      . next hcomma =>
        obtain ⟨found', -, hfound⟩ := Option.bind_eq_some_iff.mp h
        cases hfound
        simp [hcomma]
      . split at h
        . next hbrace =>
          cases h
          simp [hbrace]
        . contradiction

theorem exists_string_of_members {fuel : Nat} {found : List (List UInt8 × Json)} (hkey : Plain key)
    (h : Parser.members half fuel (0x22 :: (key ++ 0x22 :: 0x3a :: 0x22 :: s)) = some (found, rest))
    : ∃ text more, Parser.string half s = some (text, more) ∧ (key, .str text) ∈ found
        ∧ ((skip more).head? = some 0x2c ∨ (skip more).head? = some 0x7d) := by
  obtain ⟨fuel, json, more, hvalue, hmem, hmore⟩ := exists_value_of_members hkey h
  cases fuel with
  | zero => contradiction
  | succ fuel =>
    rw [Parser.value, skip_cons (show isSpace 0x22 = false from rfl)] at hvalue
    simp [Option.bind_eq_some_iff] at hvalue
    obtain ⟨text, hstring, rfl⟩ := hvalue
    exact ⟨text, more, hstring, hmem, hmore⟩

theorem exists_members_of_value {fuel : Nat}
    (h : Parser.value half (fuel + 1) (0x7b :: 0x22 :: s) = some (json, rest))
    : ∃ found, Parser.members half fuel (0x22 :: s) = some (found, rest) ∧ json = .obj found := by
  rw [Parser.value, skip_cons (show isSpace 0x7b = false from rfl)] at h
  simp only [skip_cons (show isSpace 0x22 = false from rfl), Option.bind_eq_bind, if_true] at h
  rw [if_neg (by simp)] at h
  obtain ⟨⟨found, rest'⟩, hmembers, heq⟩ := Option.bind_eq_some_iff.mp h
  cases heq
  exact ⟨found, hmembers, rfl⟩

theorem exists_membersText_eq_cons (members : List Member) (h : members ≠ [])
    : ∃ s, membersText members = 0x22 :: s := by
  match members with
  | [] => contradiction
  | [member] => exact ⟨_, rfl⟩
  | member :: next :: members => exact ⟨_, rfl⟩

theorem plain_of_has {before after : List Member} {member next : Member} {fuel : Nat} {first : UInt8}
    {name : List UInt8}
    (hbefore : ∀ member ∈ before, Plain member.key ∧ Reads half member.text member.json)
    (hkey : Plain member.key) (htext : member.text = 0x22 :: (t ++ [0x22]))
    (hnext : next.key = first :: name) (hspace : isSpace first = false) (hcomma : first ≠ 0x2c)
    (hbrace : first ≠ 0x7d)
    (hfuel : 2 * (membersText (before ++ member :: next :: after)).length ≤ fuel)
    (h : Parser.value half (fuel + 1) (0x7b :: membersText (before ++ member :: next :: after))
      = some (json, rest))
    (hhas : json.Has member.key (.str t))
    : ∀ c ∈ t, 0x20 ≤ c ∧ c ≠ 0x22 ∧ c ≠ 0x5c := by
  obtain ⟨s, hs⟩ := exists_membersText_eq_cons (before ++ member :: next :: after) (by simp)
  rw [hs] at h
  obtain ⟨found, hmembers, rfl⟩ := exists_members_of_value h
  rw [← hs] at hmembers
  obtain ⟨fuel', found', -, hmembers', rfl⟩ :=
    exists_members_of_append hbefore (List.cons_ne_nil _ _) hfuel hmembers
  obtain ⟨s', hs'⟩ : ∃ s, membersText (next :: after) = 0x22 :: first :: s := by
    cases after with
    | nil => exact ⟨_, by rw [membersText, hnext, List.cons_append]⟩
    | cons last after => exact ⟨_, by rw [membersText_cons _ (by simp), hnext, List.cons_append]⟩
  rw [membersText_cons _ (by simp), htext, hs'] at hmembers'
  simp only [List.cons_append, List.append_assoc, List.nil_append] at hmembers'
  obtain ⟨text, more, hstring, hmem, hhead⟩ := exists_string_of_members hkey hmembers'
  obtain ⟨members, heq, hvalue⟩ := hhas
  cases heq
  have htextEq := (hvalue _).mp (List.mem_append_right _ hmem)
  cases htextEq
  rcases plain_of_string hstring with hplain | rfl
  . exact hplain
  . rw [skip_cons hspace] at hhead
    simp [hcomma, hbrace] at hhead

end Embedded

section Object

variable {half : Bool} {s rest : List UInt8} {members : List (List UInt8 × Json)}

theorem exists_of_skip_eq_cons {c : UInt8} (h : skip s = c :: rest)
    : ∃ space, s = space ++ c :: rest ∧ ∀ d ∈ space, isSpace d := by
  refine ⟨s.takeWhile isSpace, ?_, ?_⟩
  . rw [← h]
    exact List.takeWhile_append_dropWhile.symm
  . intro d hd
    exact List.mem_takeWhile_imp hd

theorem number_ne_obj : Parser.number s ≠ some (.obj members, rest) := by
  have hmagnitude (negative : Bool) (s : List UInt8)
      : Parser.magnitude negative s ≠ some (.obj members, rest) := by
    intro h
    unfold Parser.magnitude at h
    dsimp only at h
    split at h
    . contradiction
    . simp only [Option.bind_eq_bind, Option.bind_eq_some_iff] at h
      obtain ⟨_, _, _, _, h⟩ := h
      split at h
      . simp at h
      . simp at h
  cases s with
  | nil => simp [Parser.number]
  | cons c s =>
    unfold Parser.number
    dsimp only
    split
    . exact hmagnitude true s
    . exact hmagnitude false (c :: s)

theorem exists_of_value_obj {fuel : Nat} (h : Parser.value half fuel s = some (.obj members, rest))
    : ∃ more, skip s = 0x7b :: more
        ∧ ((skip more = 0x7d :: rest ∧ members = [])
          ∨ ∃ fuel, Parser.members half fuel more = some (members, rest)) := by
  cases fuel with
  | zero => contradiction
  | succ fuel =>
    rw [Parser.value] at h
    cases hskip : skip s with
    | nil => simp [hskip] at h
    | cons c more =>
      simp only [hskip] at h
      split at h
      . next hbrace =>
        refine ⟨more, by rw [hbrace], ?_⟩
        split at h
        . next hempty =>
          left
          cases hmore : skip more with
          | nil => simp [hmore] at hempty
          | cons d more =>
            simp_all
        . right
          simp [Option.bind_eq_some_iff] at h
          exact ⟨fuel, h⟩
      . exfalso
        split at h
        . split at h
          . simp at h
          . simp [Option.bind_eq_some_iff] at h
        . split at h
          . simp [Option.bind_eq_some_iff] at h
          . split at h
            . simp [Parser.literal] at h
            . split at h
              . simp [Parser.literal] at h
              . split at h
                . simp [Parser.literal] at h
                . exact number_ne_obj h

theorem exists_of_parse_obj (h : parse half s = some (.obj members))
    : ∃ before inner c after, s = before ++ 0x7b :: (inner ++ c :: after)
        ∧ (∀ d ∈ before, isSpace d) ∧ (∀ d ∈ inner, isSpace d)
        ∧ (c = 0x22 ∨ (c = 0x7d ∧ (∀ d ∈ after, isSpace d) ∧ members = [])) := by
  obtain ⟨rest, hvalue, hend⟩ := exists_value_of_parse h
  obtain ⟨more, hskip, hmore⟩ := exists_of_value_obj hvalue
  obtain ⟨before, rfl, hbefore⟩ := exists_of_skip_eq_cons hskip
  rcases hmore with ⟨hempty, hmembers⟩ | ⟨fuel, hmembers⟩
  . obtain ⟨inner, rfl, hinner⟩ := exists_of_skip_eq_cons hempty
    refine ⟨before, inner, 0x7d, rest, rfl, hbefore, hinner, .inr ⟨rfl, ?_, hmembers⟩⟩
    exact List.dropWhile_eq_nil_iff.mp hend
  . cases fuel with
    | zero => contradiction
    | succ fuel =>
      rw [Parser.members] at hmembers
      cases hkey : skip more with
      | nil => simp [hkey] at hmembers
      | cons c after =>
        obtain ⟨inner, rfl, hinner⟩ := exists_of_skip_eq_cons hkey
        refine ⟨before, inner, c, after, rfl, hbefore, hinner, .inl ?_⟩
        simp only [hkey] at hmembers
        split at hmembers
        . assumption
        . contradiction

theorem value_backslash {fuel : Nat} (h : skip s = backslash :: rest) : Parser.value half fuel s = none := by
  cases fuel with
  | zero => rfl
  | succ fuel =>
    rw [Parser.value, h]
    simp [Parser.number, Parser.magnitude, backslash, isDigit]

theorem members_backslash {fuel : Nat} (h : skip s = backslash :: rest)
    : Parser.members half fuel s = none := by
  cases fuel with
  | zero => rfl
  | succ fuel =>
    rw [Parser.members, h]
    simp [backslash]

theorem readsMembers_append {before after : List Member}
    (hbefore : ∀ member ∈ before, Plain member.key ∧ Reads half member.text member.json) (hne : after ≠ [])
    (h : ReadsMembers half (membersText after) members)
    : ReadsMembers half (membersText (before ++ after))
        (before.map (fun member => (member.key, member.json)) ++ members) := by
  have hspace : ∀ c ∈ ([] : List UInt8), isSpace c := nofun
  induction before with
  | nil => exact h
  | cons member before ih =>
    rw [List.forall_mem_cons] at hbefore
    rw [List.cons_append, membersText_cons _ (by simp [hne])]
    have hcons := readsMembers_cons hbefore.1.1.names hspace hbefore.1.2 hspace (ih hbefore.2)
    exact hcons

theorem valid_cons {c : UInt8} (hc : c < 0x80) (h : Utf8.valid s) : Utf8.valid (c :: s) := by
  have hsingle : Utf8.valid [c] := by
    apply Utf8.valid_of_ascii
    simp [hc]
  exact Utf8.valid_append hsingle h

theorem valid_membersText {members : List Member}
    (h : ∀ member ∈ members, Utf8.valid member.key ∧ Utf8.valid member.text)
    : Utf8.valid (membersText members) := by
  induction members with
  | nil => exact valid_cons (by decide) (by decide)
  | cons member members ih =>
    rw [List.forall_mem_cons] at h
    have hbehind {s : List UInt8} (hs : Utf8.valid s)
        : Utf8.valid (0x22 :: (member.key ++ 0x22 :: 0x3a :: (member.text ++ s))) := by
      apply valid_cons (by decide)
      apply Utf8.valid_append h.1.1
      apply valid_cons (by decide)
      apply valid_cons (by decide)
      exact Utf8.valid_append h.1.2 hs
    cases members with
    | nil => exact hbehind (by decide)
    | cons next members =>
      rw [membersText_cons _ (List.cons_ne_nil _ _)]
      exact hbehind (valid_cons (by decide) (ih h.2))

end Object
end Json
