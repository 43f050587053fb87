import NeuroMesh.Data.Json.Lemmas

/-!
This module contains the lexical structure of a document: the string literals in it as they are spelled, with what
follows each of them. It tells where the text of a literal may occur in a document.
-/

namespace Json

def quote : UInt8 := 0x22
def backslash : UInt8 := 0x5c

inductive Mode where
  | outside
  | inside (raw : List UInt8)
  | escaped (raw : List UInt8)

namespace Mode

def next (mode : Mode) (c : UInt8) : Mode :=
  match mode with
  | outside => if c = quote then inside [] else outside
  | inside raw =>
    if c = quote then
      outside
    else if c = backslash then
      escaped (raw ++ [c])
    else
      inside (raw ++ [c])
  | escaped raw => inside (raw ++ [c])

def pending (mode : Mode) : List UInt8 :=
  match mode with
  | outside => []
  | inside raw => quote :: raw
  | escaped raw => quote :: raw

end Mode

def scan (mode : Mode) (s : List UInt8) : List (List UInt8 × List UInt8) :=
  match s with
  | [] => []
  | c :: s =>
    match mode with
    | .inside raw => if c = quote then (raw, s) :: scan .outside s else scan ((Mode.inside raw).next c) s
    | mode => scan (mode.next c) s

def literals (s : List UInt8) : List (List UInt8 × List UInt8) :=
  scan .outside s

inductive Spells : List UInt8 → List Piece → Prop where
  | nil : Spells [] []
  | plain {c : UInt8} {raw : List UInt8} {found : List Piece} (hlow : ¬c < 0x20) (hquote : c ≠ quote)
    (hbackslash : c ≠ backslash) (h : Spells raw found)
    : Spells (c :: raw) (.byte c :: found)
  | short {e c : UInt8} {raw : List UInt8} {found : List Piece} (hlong : e ≠ 0x75)
    (he : Parser.escape e = some c) (h : Spells raw found)
    : Spells (backslash :: e :: raw) (.byte c :: found)
  | long {d3 d2 d1 d0 : UInt8} {n3 n2 n1 n0 : Nat} {raw : List UInt8} {found : List Piece}
    (h3 : hexValue d3 = some n3) (h2 : hexValue d2 = some n2) (h1 : hexValue d1 = some n1)
    (h0 : hexValue d0 = some n0) (h : Spells raw found)
    : Spells (backslash :: 0x75 :: d3 :: d2 :: d1 :: d0 :: raw)
        (.unit (n3 * 4096 + n2 * 256 + n1 * 16 + n0) :: found)

section Spells

variable {raw s rest : List UInt8} {found : List Piece}

theorem exists_spells_of_pieces (h : Parser.pieces s = some (found, rest))
    : ∃ raw, s = raw ++ quote :: rest ∧ Spells raw found := by
  fun_induction Parser.pieces s generalizing found with
  | case1 => contradiction
  | case2 s =>
    cases h
    exact ⟨[], rfl, .nil⟩
  | case3 => contradiction
  | case4 d3 d2 d1 d0 s _ ih =>
    simp only [Option.bind_eq_bind, Option.bind_eq_some_iff] at h
    obtain ⟨_, h3, _, h2, _, h1, _, h0, ⟨found', rest'⟩, hrest, heq⟩ := h
    cases heq
    obtain ⟨raw, rfl, hspells⟩ := ih hrest
    exact ⟨_, rfl, .long h3 h2 h1 h0 hspells⟩
  | case5 => contradiction
  | case6 e s hlong _ ih =>
    simp only [Option.bind_eq_bind, Option.bind_eq_some_iff] at h
    obtain ⟨_, he, ⟨found', rest'⟩, hrest, heq⟩ := h
    cases heq
    obtain ⟨raw, rfl, hspells⟩ := ih hrest
    exact ⟨_, rfl, .short hlong he hspells⟩
  | case7 => contradiction
  | case8 c s hquote hbackslash hlow ih =>
    simp only [Option.bind_eq_bind, Option.bind_eq_some_iff] at h
    obtain ⟨⟨found', rest'⟩, hrest, heq⟩ := h
    cases heq
    obtain ⟨raw, rfl, hspells⟩ := ih hrest
    exact ⟨_, rfl, .plain hlow hquote hbackslash hspells⟩

theorem hexValue_spec {d : UInt8} {n : Nat} (h : hexValue d = some n)
    : n < 16 ∧ ¬d < 0x20 ∧ d ≠ quote ∧ d ≠ backslash := by
  have hall : ∀ d, ∀ n ∈ hexValue d, n < 16 ∧ ¬d < 0x20 ∧ d ≠ quote ∧ d ≠ backslash := by
    exact Utf8.forall_byte (by decide +kernel)
  exact hall d n h

def quotesEscaped (s : List UInt8) : Bool :=
  match s with
  | [] => true
  | c :: s =>
    if c = backslash then
      match s with
      | [] => false
      | _ :: s => quotesEscaped s
    else
      c ≠ quote && quotesEscaped s

theorem quotesEscaped_cons {c : UInt8} (hquote : c ≠ quote) (hbackslash : c ≠ backslash)
    : quotesEscaped (c :: s) = quotesEscaped s := by
  rw [quotesEscaped.eq_def]
  simp [hquote, hbackslash]

theorem quotesEscaped_escape (e : UInt8) (s : List UInt8)
    : quotesEscaped (backslash :: e :: s) = quotesEscaped s := by
  rw [quotesEscaped.eq_def]
  rfl

theorem Spells.quotesEscaped (h : Spells raw found) : quotesEscaped raw = true := by
  induction h with
  | nil => rfl
  | plain hlow hquote hbackslash h ih => rwa [quotesEscaped_cons hquote hbackslash]
  | short hlong he h ih => rwa [quotesEscaped_escape]
  | long h3 h2 h1 h0 h ih =>
    rw [quotesEscaped_escape, quotesEscaped_cons (hexValue_spec h3).2.2.1 (hexValue_spec h3).2.2.2,
      quotesEscaped_cons (hexValue_spec h2).2.2.1 (hexValue_spec h2).2.2.2,
      quotesEscaped_cons (hexValue_spec h1).2.2.1 (hexValue_spec h1).2.2.2,
      quotesEscaped_cons (hexValue_spec h0).2.2.1 (hexValue_spec h0).2.2.2]
    exact ih

end Spells

section Scan

variable {mode : Mode} {c : UInt8} {s : List UInt8}

theorem scan_outside_cons : scan .outside (c :: s) = scan (Mode.outside.next c) s := by
  rfl

theorem scan_escaped_cons {raw : List UInt8} : scan (.escaped raw) (c :: s) = scan ((Mode.escaped raw).next c) s := by
  rfl

theorem scan_next_subset : scan (mode.next c) s ⊆ scan mode (c :: s) := by
  cases mode with
  | outside => exact List.Subset.refl _
  | escaped raw => exact List.Subset.refl _
  | inside raw =>
    rw [scan]
    split
    . next h =>
      rw [Mode.next, if_pos h]
      exact List.subset_cons_self _ _
    . exact List.Subset.refl _

theorem suffix_of_mem_scan {literal : List UInt8 × List UInt8} (h : literal ∈ scan mode s)
    : quote :: (literal.1 ++ quote :: literal.2) <:+ mode.pending ++ s := by
  induction s generalizing mode with
  | nil => simp [scan] at h
  | cons c s ih =>
    cases mode with
    | outside =>
      have hrest := ih (scan_outside_cons ▸ h)
      rw [Mode.next] at hrest
      split at hrest
      . next hc =>
        subst hc
        exact hrest
      . exact hrest.trans (List.suffix_cons c s)
    | escaped raw =>
      have hrest := ih (scan_escaped_cons ▸ h)
      simpa [Mode.pending, Mode.next] using hrest
    | inside raw =>
      rw [scan] at h
      split at h
      . next hc =>
        subst hc
        rcases List.mem_cons.mp h with rfl | h
        . exact List.suffix_refl _
        . apply (ih h).trans
          exact ⟨quote :: (raw ++ [quote]), by simp [Mode.pending]⟩
      . next hc =>
        have hrest := ih h
        rw [Mode.next, if_neg hc] at hrest
        split at hrest <;> simpa [Mode.pending] using hrest

def IsWord (w : List UInt8) : Prop :=
  ∀ c ∈ w, c ≠ quote ∧ c ≠ backslash

theorem scan_inside_append {raw : List UInt8} (h : quotesEscaped raw = true) (before rest : List UInt8)
    : scan (.inside before) (raw ++ quote :: rest) = (before ++ raw, rest) :: scan .outside rest := by
  fun_induction quotesEscaped raw generalizing before with
  | case1 => simp [scan]
  | case2 => contradiction
  | case3 e s ih =>
    change scan (.inside (before ++ [backslash] ++ [e])) (s ++ quote :: rest) = _
    rw [ih h]
    simp
  | case4 c s hbackslash ih =>
    rw [Bool.and_eq_true, decide_eq_true_iff] at h
    rw [List.cons_append, scan, if_neg h.1, Mode.next, if_neg h.1, if_neg hbackslash, ih h.2]
    simp

theorem IsWord.quotesEscaped {w : List UInt8} (hw : IsWord w) : quotesEscaped w = true := by
  induction w with
  | nil => rfl
  | cons c w ih =>
    obtain ⟨hc, hw⟩ := List.forall_mem_cons.mp hw
    rw [quotesEscaped_cons hc.1 hc.2, ih hw]

theorem exists_mem_scan_of_append (mode : Mode) {w tail : List UInt8} (hw : IsWord w) (before after : List UInt8)
    : ∃ literal ∈ scan mode (before ++ (quote :: (w ++ quote :: tail) ++ after)),
        (literal.1 = w ∨ quote :: w <:+ literal.1) ∧ tail <+: literal.2
          ∨ w ++ quote :: tail <+: literal.2 := by
  induction before generalizing mode with
  | nil =>
    have hword : ∀ raw, (raw ++ w, tail ++ after) ∈ scan (.inside raw) (w ++ quote :: tail ++ after) := by
      intro raw
      rw [List.append_assoc, List.cons_append, scan_inside_append hw.quotesEscaped]
      exact List.mem_cons_self
    rw [List.nil_append, List.cons_append]
    cases mode with
    | outside => exact ⟨_, hword [], .inl ⟨.inl rfl, List.prefix_append _ _⟩⟩
    | escaped raw => exact ⟨_, hword (raw ++ [quote]), .inl ⟨.inr ⟨raw, by simp⟩, List.prefix_append _ _⟩⟩
    | inside raw =>
      rw [scan, if_pos rfl]
      exact ⟨_, List.mem_cons_self, .inr (List.prefix_append _ _)⟩
  | cons c before ih =>
    obtain ⟨literal, hmem, h⟩ := ih (mode.next c)
    exact ⟨literal, scan_next_subset hmem, h⟩

theorem quoted_isInfix_iff {w tail : List UInt8} (hw : IsWord w)
    (hafter : ∀ literal ∈ literals s, ¬w ++ quote :: tail <+: literal.2)
    : quote :: (w ++ quote :: tail) <:+: s
        ↔
      ∃ literal ∈ literals s, (literal.1 = w ∨ quote :: w <:+ literal.1) ∧ tail <+: literal.2 := by
  constructor
  . rintro ⟨before, after, rfl⟩
    rw [List.append_assoc] at hafter ⊢
    obtain ⟨literal, hmem, h | h⟩ := exists_mem_scan_of_append .outside hw before after
    . exact ⟨literal, hmem, h⟩
    . exact absurd h (hafter literal hmem)
  . rintro ⟨⟨raw, rest⟩, hmem, hraw, hrest⟩
    have hsuffix := suffix_of_mem_scan hmem
    apply List.IsInfix.trans _ hsuffix.isInfix
    obtain ⟨after, rfl⟩ := hrest
    rcases hraw with rfl | ⟨before, rfl⟩
    . exact ⟨[], after, by simp⟩
    . exact ⟨quote :: before, after, by simp⟩

end Scan

def Closed (rest : List UInt8) : Prop :=
  ∀ c ∈ rest.head?, isSpace c ∨ c = 0x2c ∨ c = 0x3a ∨ c = 0x5d ∨ c = 0x7d

theorem closed_of_skip {s rest : List UInt8} (h : skip s = rest) (hrest : Closed rest) : Closed s := by
  cases s with
  | nil => nofun
  | cons c s =>
    by_cases hspace : isSpace c = true
    . rintro _ ⟨⟩
      exact .inl hspace
    . rw [skip_cons (by simpa using hspace)] at h
      rwa [h]

def Lexes (s rest : List UInt8) : Prop :=
  ∃ found, literals s = found ++ literals rest ∧ (Closed rest → ∀ literal ∈ found, Closed literal.2)

section Lexes

variable {s rest : List UInt8}

theorem Lexes.of_eq (h : literals s = literals rest) : Lexes s rest := by
  exact ⟨[], h, nofun⟩

theorem Lexes.trans {middle : List UInt8} (h : Lexes s middle) (hclosed : Closed middle) (h' : Lexes middle rest)
    : Lexes s rest := by
  obtain ⟨found, heq, hfound⟩ := h
  obtain ⟨found', heq', hfound'⟩ := h'
  refine ⟨found ++ found', by rw [heq, heq', List.append_assoc], ?_⟩
  intro hrest literal hmem
  rcases List.mem_append.mp hmem with hmem | hmem
  . exact hfound hclosed literal hmem
  . exact hfound' hrest literal hmem

theorem literals_append (hs : quote ∉ s) : literals (s ++ rest) = literals rest := by
  induction s with
  | nil => rfl
  | cons c s ih =>
    rw [List.mem_cons, not_or] at hs
    have hc : Mode.outside.next c = .outside := if_neg (Ne.symm hs.1)
    rw [← ih hs.2]
    unfold literals
    rw [List.cons_append, scan_outside_cons, hc]

theorem literals_cons {c : UInt8} (hc : c ≠ quote) : literals (c :: rest) = literals rest := by
  exact literals_append (s := [c]) (by simpa using Ne.symm hc)

theorem literals_skip (s : List UInt8) : literals (skip s) = literals s := by
  nth_rewrite 2 [← List.takeWhile_append_dropWhile (p := isSpace) (l := s)]
  rw [literals_append]
  . rfl
  . intro hmem
    have := List.mem_takeWhile_imp hmem
    contradiction

theorem closed_cons {c : UInt8} (s : List UInt8) (h : c = 0x2c ∨ c = 0x3a ∨ c = 0x5d ∨ c = 0x7d)
    : Closed (c :: s) := by
  rintro _ ⟨⟩
  exact .inr h

theorem Lexes.of_skip {middle : List UInt8} (hskip : skip s = middle) (h : Lexes middle rest) : Lexes s rest := by
  obtain ⟨found, heq, hfound⟩ := h
  refine ⟨found, ?_, hfound⟩
  rw [← literals_skip, hskip, heq]

theorem Lexes.cons {c : UInt8} (hc : c ≠ quote) (h : Lexes s rest) : Lexes (c :: s) rest := by
  obtain ⟨found, heq, hfound⟩ := h
  refine ⟨found, ?_, hfound⟩
  rw [literals_cons hc, heq]

theorem Lexes.then {c : UInt8} {middle after : List UInt8} (h : Lexes s middle) (hskip : skip middle = c :: after)
    (hc : c = 0x2c ∨ c = 0x3a ∨ c = 0x5d ∨ c = 0x7d) (h' : Lexes after rest)
    : Lexes s rest := by
  apply h.trans (closed_of_skip hskip (closed_cons after hc))
  refine .of_skip hskip (.cons ?_ h')
  rintro rfl
  revert hc
  decide

end Lexes

namespace Parser

variable {half : Bool} {s rest : List UInt8}

theorem lexes_of_string {text : List UInt8} (h : string half s = some (text, rest)) : Lexes (quote :: s) rest := by
  unfold string at h
  simp only [Option.bind_eq_bind, Option.bind_eq_some_iff] at h
  obtain ⟨⟨found, rest'⟩, hpieces, h⟩ := h
  obtain ⟨raw, rfl, hspells⟩ := exists_spells_of_pieces hpieces
  have hrest : rest' = rest := by
    dsimp only at h
    split at h <;> cases h
    rfl
  rw [hrest]
  refine ⟨[(raw, rest)], scan_inside_append hspells.quotesEscaped [] rest, ?_⟩
  simp

section Number

def isScalar (c : UInt8) : Bool :=
  isDigit c || (0x61 ≤ c && c ≤ 0x7a) || c == 0x45 || c == 0x2b || c == 0x2d || c == 0x2e

def Consumes (s rest : List UInt8) : Prop :=
  ∃ passed, s = passed ++ rest ∧ ∀ c ∈ passed, isScalar c

theorem Consumes.refl (s : List UInt8) : Consumes s s := by
  exact ⟨[], rfl, nofun⟩

theorem Consumes.trans {middle : List UInt8} (h : Consumes s middle) (h' : Consumes middle rest)
    : Consumes s rest := by
  obtain ⟨passed, rfl, hscalar⟩ := h
  obtain ⟨passed', rfl, hscalar'⟩ := h'
  refine ⟨passed ++ passed', by rw [List.append_assoc], ?_⟩
  intro c hc
  rcases List.mem_append.mp hc with hc | hc
  . exact hscalar c hc
  . exact hscalar' c hc

theorem Consumes.cons {c : UInt8} (hc : isScalar c) (h : Consumes s rest) : Consumes (c :: s) rest := by
  obtain ⟨passed, rfl, hscalar⟩ := h
  refine ⟨c :: passed, rfl, ?_⟩
  simpa [hc] using hscalar

theorem Consumes.lexes (h : Consumes s rest) : Lexes s rest := by
  obtain ⟨passed, rfl, hscalar⟩ := h
  apply Lexes.of_eq
  apply literals_append
  intro hquote
  have := hscalar quote hquote
  contradiction

theorem consumes_dropWhile (s : List UInt8) : Consumes s (s.dropWhile isDigit) := by
  refine ⟨s.takeWhile isDigit, List.takeWhile_append_dropWhile.symm, ?_⟩
  intro c hc
  simp [isScalar, List.mem_takeWhile_imp hc]

theorem consumes_of_fraction (h : fraction s = some rest) : Consumes s rest := by
  unfold fraction at h
  split at h
  . split at h
    . contradiction
    . cases h
      exact .cons (by decide) (consumes_dropWhile _)
  . cases h
    apply Consumes.refl

theorem consumes_of_exponent (h : exponent s = some rest) : Consumes s rest := by
  unfold exponent at h
  split at h
  . cases h
    apply Consumes.refl
  . next c cs =>
    split at h
    . next hc =>
      have hscalar : isScalar c := by
        rcases hc with rfl | rfl
        . decide
        . decide
      apply Consumes.cons hscalar
      have hdigits : ∀ digits : List UInt8,
          (if digits.takeWhile isDigit = [] then none else some (digits.dropWhile isDigit)) = some rest →
            Consumes digits rest := by
        intro digits hdigits
        split at hdigits
        . contradiction
        . cases hdigits
          apply consumes_dropWhile
      dsimp only at h
      split at h
      . next sign ds =>
        split at h
        . next hsign =>
          refine .cons ?_ (hdigits _ h)
          rcases hsign with rfl | rfl
          . decide
          . decide
        . exact hdigits _ h
      . exact hdigits _ h
    . cases h
      apply Consumes.refl

theorem consumes_of_magnitude {negative : Bool} {json : Json} (h : magnitude negative s = some (json, rest))
    : Consumes s rest := by
  unfold magnitude at h
  dsimp only at h
  split at h
  . contradiction
  . simp only [Option.bind_eq_bind, Option.bind_eq_some_iff] at h
    obtain ⟨afterFraction, hfraction, afterExponent, hexponent, h⟩ := h
    have hrest : afterExponent = rest := by
      split at h <;> cases h <;> rfl
    rw [← hrest]
    exact ((consumes_dropWhile s).trans (consumes_of_fraction hfraction)).trans (consumes_of_exponent hexponent)

theorem consumes_of_number {json : Json} (h : number s = some (json, rest)) : Consumes s rest := by
  unfold number at h
  split at h
  . contradiction
  . split at h
    . next hc => exact .cons (by rw [hc]; decide) (consumes_of_magnitude h)
    . exact consumes_of_magnitude h

theorem consumes_of_literal {word : List UInt8} {json json' : Json} (hword : word.all isScalar)
    (h : literal word json' s = some (json, rest))
    : Consumes s rest := by
  unfold literal at h
  split at h
  . next hstarts =>
    cases h
    obtain ⟨rest, rfl⟩ := List.isPrefixOf_iff_prefix.mp hstarts
    exact ⟨word, by simp, List.all_eq_true.mp hword⟩
  . contradiction

theorem consumes_of_scalar {c : UInt8} {json : Json}
    (h : (if c = 0x6e then literal [0x75, 0x6c, 0x6c] .null s
      else if c = 0x74 then literal [0x72, 0x75, 0x65] (.bool true) s
      else if c = 0x66 then literal [0x61, 0x6c, 0x73, 0x65] (.bool false) s
      else number (c :: s)) = some (json, rest))
    : Consumes (c :: s) rest := by
  split at h
  . next hc => exact .cons (by rw [hc]; decide) (consumes_of_literal rfl h)
  . split at h
    . next hc => exact .cons (by rw [hc]; decide) (consumes_of_literal rfl h)
    . split at h
      . next hc => exact .cons (by rw [hc]; decide) (consumes_of_literal rfl h)
      . exact consumes_of_number h

theorem consumes_of_value {fuel : Nat} {c : UInt8} {json : Json} (hspace : isSpace c = false)
    (hc : c ≠ 0x7b ∧ c ≠ 0x5b ∧ c ≠ 0x22) (h : value half (fuel + 1) (c :: s) = some (json, rest))
    : Consumes (c :: s) rest := by
  rw [value, skip_cons hspace] at h
  simp only [hc.1, hc.2.1, hc.2.2, if_false] at h
  exact consumes_of_scalar h

end Number

section Value

variable {fuel : Nat}

theorem lexes_of_empty {c close : UInt8} {middle : List UInt8} (hskip : skip s = c :: middle) (hc : c ≠ quote)
    (hclose : close ≠ quote) (h : (skip middle).head? = some close)
    : Lexes s ((skip middle).drop 1) := by
  obtain ⟨after, hafter⟩ := List.head?_eq_some_iff.mp h
  refine .of_skip hskip (.cons hc ?_)
  rw [hafter]
  exact .of_skip hafter (.cons hclose (.of_eq rfl))

theorem lexes_of_value (helements : ∀ s es rest, elements half fuel s = some (es, rest) → Lexes s rest)
    (hmembers : ∀ s ms rest, members half fuel s = some (ms, rest) → Lexes s rest) {json : Json}
    (h : value half (fuel + 1) s = some (json, rest))
    : Lexes s rest := by
  rw [value] at h
  split at h
  . contradiction
  . next c middle hskip =>
    split at h
    . next hc =>
      subst hc
      split at h
      . next hclose =>
        cases h
        exact lexes_of_empty hskip (by decide) (by decide) hclose
      . obtain ⟨⟨ms, rest'⟩, hms, heq⟩ := Option.bind_eq_some_iff.mp h
        cases heq
        exact .of_skip hskip (.cons (by decide) (hmembers _ _ _ hms))
    . split at h
      . next hc =>
        subst hc
        split at h
        . next hclose =>
          cases h
          exact lexes_of_empty hskip (by decide) (by decide) hclose
        . obtain ⟨⟨es, rest'⟩, hes, heq⟩ := Option.bind_eq_some_iff.mp h
          cases heq
          exact .of_skip hskip (.cons (by decide) (helements _ _ _ hes))
      . split at h
        . next hc =>
          subst hc
          obtain ⟨⟨text, rest'⟩, htext, heq⟩ := Option.bind_eq_some_iff.mp h
          cases heq
          exact .of_skip hskip (lexes_of_string htext)
        . -- what remains has no quotation mark in it
          exact .of_skip hskip (consumes_of_scalar h).lexes

theorem lexes_of_elements (hvalue : ∀ s json rest, value half fuel s = some (json, rest) → Lexes s rest)
    (helements : ∀ s es rest, elements half fuel s = some (es, rest) → Lexes s rest) {es : List Json}
    (h : elements half (fuel + 1) s = some (es, rest))
    : Lexes s rest := by
  rw [elements] at h
  obtain ⟨⟨json, middle⟩, hjson, h⟩ := Option.bind_eq_some_iff.mp h
  have hfirst := hvalue _ _ _ hjson
  dsimp only at h
  split at h
  . contradiction
  . next c after hskip =>
    split at h
    . next hc =>
      obtain ⟨⟨es', rest'⟩, hes, heq⟩ := Option.bind_eq_some_iff.mp h
      cases heq
      exact hfirst.then hskip (.inl hc) (helements _ _ _ hes)
    . split at h
      . next hc =>
        cases h
        exact hfirst.then hskip (.inr (.inr (.inl hc))) (.of_eq rfl)
      . contradiction

theorem lexes_of_members (hvalue : ∀ s json rest, value half fuel s = some (json, rest) → Lexes s rest)
    (hmembers : ∀ s ms rest, members half fuel s = some (ms, rest) → Lexes s rest)
    {ms : List (List UInt8 × Json)} (h : members half (fuel + 1) s = some (ms, rest))
    : Lexes s rest := by
  rw [members] at h
  split at h
  . contradiction
  . next c middle hskip =>
    split at h
    . next hc =>
      subst hc
      obtain ⟨⟨key, afterKey⟩, hkey, h⟩ := Option.bind_eq_some_iff.mp h
      have hfirst : Lexes s afterKey := .of_skip hskip (lexes_of_string hkey)
      dsimp only at h
      split at h
      . contradiction
      . next c' afterColon hcolon =>
        split at h
        . next hc' =>
          obtain ⟨⟨json, afterValue⟩, hjson, h⟩ := Option.bind_eq_some_iff.mp h
          have hsecond := hfirst.then hcolon (.inr (.inl hc')) (hvalue _ _ _ hjson)
          dsimp only at h
          split at h
          . contradiction
          . next c'' after hend =>
            split at h
            . next hcomma =>
              obtain ⟨⟨ms', rest'⟩, hms, heq⟩ := Option.bind_eq_some_iff.mp h
              cases heq
              exact hsecond.then hend (.inl hcomma) (hmembers _ _ _ hms)
            . split at h
              . next hbrace =>
                cases h
                exact hsecond.then hend (.inr (.inr (.inr hbrace))) (.of_eq rfl)
              . contradiction
        . contradiction
    . contradiction

theorem lexes_of_parse_eq (half : Bool) (fuel : Nat)
    : (∀ s json rest, value half fuel s = some (json, rest) → Lexes s rest)
        ∧ (∀ s es rest, elements half fuel s = some (es, rest) → Lexes s rest)
        ∧ (∀ s ms rest, members half fuel s = some (ms, rest) → Lexes s rest) := by
  induction fuel with
  | zero =>
    refine ⟨?_, ?_, ?_⟩
    . intro s json rest h
      rw [value] at h
      contradiction
    . intro s es rest h
      rw [elements] at h
      contradiction
    . intro s ms rest h
      rw [members] at h
      contradiction
  | succ fuel ih =>
    obtain ⟨hvalue, helements, hmembers⟩ := ih
    refine ⟨?_, ?_, ?_⟩
    . intro s json rest h
      exact lexes_of_value helements hmembers h
    . intro s es rest h
      exact lexes_of_elements hvalue helements h
    . intro s ms rest h
      exact lexes_of_members hvalue hmembers h

end Value

end Parser

theorem closed_of_parse {half : Bool} {s : List UInt8} {json : Json} (h : parse half s = some json)
    : ∀ literal ∈ literals s, Closed literal.2 := by
  obtain ⟨rest, hvalue, hskip⟩ := exists_value_of_parse h
  obtain ⟨found, heq, hfound⟩ := (Parser.lexes_of_parse_eq half _).1 _ _ _ hvalue
  have hnone : literals rest = [] := by
    rw [← literals_skip, hskip]
    rfl
  rw [heq, hnone, List.append_nil]
  exact hfound (closed_of_skip hskip nofun)

end Json
