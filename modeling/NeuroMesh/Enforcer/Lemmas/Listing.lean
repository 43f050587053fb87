import NeuroMesh.Enforcer.Lemmas.Firewall

namespace NeuroMesh

section Digits

theorem toDecimal_div_ten {n : Nat} (h : 10 ≤ n) : toDecimal (n / 10) = (toDecimal n).dropLast := by
  unfold toDecimal
  rw [Nat.toDigits_of_base_le (by decide) h, List.map_append]
  simp

theorem ten_le_of_length_toDecimal {n : Nat} (h : 1 < (toDecimal n).length) : 10 ≤ n := by
  by_contra hlt
  rw [toDecimal, Nat.toDigits_of_lt_base (by omega)] at h
  simp at h

theorem toDecimal_div_pow {n k : Nat} (h : k < (toDecimal n).length)
    : toDecimal (n / 10 ^ k) = (toDecimal n).take ((toDecimal n).length - k) := by
  induction k with
  | zero => simp
  | succ k ih =>
    have ih := ih (by omega)
    have hlength : 1 < (toDecimal (n / 10 ^ k)).length := by
      rw [ih, List.length_take]
      omega
    rw [Nat.pow_succ, ← Nat.div_div_eq_div_mul, toDecimal_div_ten (ten_le_of_length_toDecimal hlength), ih,
      List.dropLast_eq_take, List.take_take, List.length_take]
    congr 1
    omega

theorem stoi_toDecimal (n : Nat) : (stoi (toDecimal n)).map Prod.fst = if n < 2 ^ 31 then some (n : Int) else none := by
  have hdigits : (toDecimal n).length ≠ 0 := by simpa using toDecimal_ne_nil n
  unfold stoi
  rw [readNumeral_toDecimal]
  simp only [Numeral.value, hdigits, Bool.false_eq_true, if_false]
  split
  . rw [if_pos (by omega)]
    rfl
  . rw [if_neg (by omega)]
    rfl

end Digits

section Infix

variable {α : Type} {a b u v : List α} {c d : α}

theorem cons_isInfix_cons_iff (h : c ∉ b) : c :: a <:+: c :: b ↔ a <+: b := by
  rw [List.infix_cons_iff, List.cons_prefix_cons, or_iff_left, and_iff_right rfl]
  intro hoccurs
  exact h (hoccurs.mem List.mem_cons_self)

theorem isPrefix_append_cons_iff (h : d ∉ a) : a <+: b ++ d :: v ↔ a <+: b := by
  constructor
  . intro ha
    rcases List.prefix_or_prefix_of_prefix ha (List.prefix_append b _) with hle | ⟨t, rfl⟩
    . exact hle
    . rw [List.prefix_append_right_inj] at ha
      cases t with
      | nil => rw [List.append_nil]
      | cons c t =>
        rw [List.cons_prefix_cons] at ha
        rw [ha.1] at h
        exact absurd (List.mem_append_right _ List.mem_cons_self) h
  . intro ha
    exact ha.trans (List.prefix_append b _)

theorem append_cons_isPrefix_iff (ha : d ∉ a) (hb : d ∉ b) : a ++ d :: u <+: b ++ d :: v ↔ a = b ∧ u <+: v := by
  constructor
  . rintro ⟨t, ht⟩
    rw [List.append_assoc, List.cons_append] at ht
    obtain ⟨hab, hut⟩ := Delimited.append_cons_inj ha hb ht
    exact ⟨hab, t, hut⟩
  . rintro ⟨rfl, hu⟩
    rw [List.prefix_append_right_inj, List.cons_prefix_cons]
    exact ⟨rfl, hu⟩

end Infix

namespace NftSpec

variable (spec : NftSpec) (counted : Nat × Nat)

def tail : Bytes :=
  bytes " saddr " ++ (spec.saddr.ntop ++ 0x20 :: (dportText spec.dport
    ++ (bytes "counter packets " ++ toDecimal counted.1 ++ bytes " bytes " ++ toDecimal counted.2 ++ bytes " drop ")))

theorem text_eq
    : spec.text counted = (if spec.lo then bytes "iif \"lo\" " else []) ++ 0x69 :: 0x70 :: spec.tail counted := by
  have hword : bytes "ip saddr " = 0x69 :: 0x70 :: bytes " saddr " := by decide
  have hblank : bytes " " = [0x20] := by decide
  unfold text tail
  rw [hword, hblank]
  simp only [List.append_assoc, List.cons_append, List.nil_append]

theorem mem_dportText {dport : Option (Transport × UInt16)} {c : UInt8} (h : c ∈ dportText dport)
    : isDigit c ∨ c ∈ bytes " acdeknoprstuy." := by
  cases dport with
  | none => contradiction
  | some dport =>
    obtain ⟨transport, port⟩ := dport
    have htransport : ∀ c ∈ transport.text, c ∈ bytes " acdeknoprstuy." := by
      cases transport <;> decide +kernel
    have hdport : ∀ c ∈ bytes " dport ", c ∈ bytes " acdeknoprstuy." := by decide +kernel
    have hblank : ∀ c ∈ bytes " ", c ∈ bytes " acdeknoprstuy." := by decide +kernel
    simp only [dportText, List.mem_append] at h
    rcases h with ((h | h) | h) | h
    . exact .inr (htransport c h)
    . exact .inr (hdport c h)
    . exact .inl (isDigit_of_mem_toDecimal h)
    . exact .inr (hblank c h)

theorem mem_tail {c : UInt8} (h : c ∈ spec.tail counted) : isDigit c ∨ c ∈ bytes " abcdeknoprstuy." := by
  have hsaddr : ∀ c ∈ bytes " saddr ", c ∈ bytes " abcdeknoprstuy." := by decide +kernel
  have hwords : ∀ word ∈ ["counter packets ", " bytes ", " drop "], ∀ c ∈ bytes word,
      c ∈ bytes " abcdeknoprstuy." := by decide +kernel
  have hdport : ∀ c ∈ bytes " acdeknoprstuy.", c ∈ bytes " abcdeknoprstuy." := by decide +kernel
  simp only [tail, List.mem_append, List.mem_cons] at h
  rcases h with h | h | rfl | h | (((h | h) | h) | h) | h
  . exact .inr (hsaddr c h)
  . rcases Ipv4.mem_ntop h with hdigit | rfl
    . exact .inl hdigit
    . exact .inr (by decide)
  . exact .inr (by decide)
  . exact (mem_dportText h).imp_right (hdport c)
  . exact .inr (hwords _ (by simp) c h)
  . exact .inl (isDigit_of_mem_toDecimal h)
  . exact .inr (hwords _ (by simp) c h)
  . exact .inl (isDigit_of_mem_toDecimal h)
  . exact .inr (hwords _ (by simp) c h)

theorem notMem_tail {c : UInt8} (hdigit : isDigit c = false) (hletter : c ∉ bytes " abcdeknoprstuy.")
    : c ∉ spec.tail counted := by
  intro h
  rcases spec.mem_tail counted h with h | h
  . rw [hdigit] at h
    contradiction
  . exact hletter h

def front : Bytes :=
  bytes "\t\t" ++ spec.text counted

theorem notMem_front {c : UInt8} (hdigit : isDigit c = false) (hletter : c ∉ bytes " abcdeknoprstuy.")
    (hword : c ∉ bytes "\t\tiif \"lo\" ip")
    : c ∉ spec.front counted := by
  have htail := spec.notMem_tail counted hdigit hletter
  have hword' : c ∉ bytes "\t\t" ∧ c ∉ bytes "iif \"lo\" " ∧ c ≠ 0x69 ∧ c ≠ 0x70 := by
    have hsplit : bytes "\t\tiif \"lo\" ip" = bytes "\t\t" ++ (bytes "iif \"lo\" " ++ [0x69, 0x70]) := by decide
    rw [hsplit] at hword
    simpa using hword
  unfold front
  rw [text_eq]
  cases spec.lo <;> simp [htail, hword']

theorem isInfix_front_iff (x : Bytes) : 0x69 :: 0x70 :: x <:+: spec.front counted ↔ x <+: spec.tail counted := by
  have hnotMem : 0x69 ∉ 0x70 :: spec.tail counted := by
    rw [List.mem_cons, not_or]
    exact ⟨by decide, spec.notMem_tail counted (by decide) (by decide)⟩
  have hip : 0x69 :: 0x70 :: x <:+: 0x69 :: 0x70 :: spec.tail counted ↔ x <+: spec.tail counted := by
    rw [cons_isInfix_cons_iff hnotMem, List.cons_prefix_cons, and_iff_right rfl]
  have htabs : bytes "\t\t" = [0x09, 0x09] := by decide
  have hlo : bytes "iif \"lo\" " = [0x69, 0x69, 0x66, 0x20, 0x22, 0x6c, 0x6f, 0x22, 0x20] := by decide
  unfold front
  rw [text_eq, htabs, hlo]
  generalize 0x69 :: 0x70 :: spec.tail counted = rest at *
  -- none of the characters before it starts the word
  cases spec.lo with
  | false => simp [List.infix_cons_iff, hip]
  | true => simp [List.infix_cons_iff, hip]

end NftSpec

namespace Firewall

section HandleDigits

theorem handleDigits_eq_none_of_notMem {line : Bytes} (h : hash ∉ line) : handleDigits line = none := by
  unfold handleDigits
  dsimp only
  split
  . rfl
  . split
    . rfl
    . next c front heq =>
      split
      . next hfront =>
        -- the character in front of the word is one of the line
        exfalso
        apply h
        have hmem : c ∈ line := by
          have hsuffix : (c :: front) <:+ line.reverse := by
            rw [← heq]
            refine (List.dropWhile_suffix _).trans ((List.drop_suffix _ _).trans ?_)
            refine (List.dropWhile_suffix _).trans ((List.dropWhile_suffix _).trans ?_)
            exact List.dropWhile_suffix _
          have := hsuffix.mem List.mem_cons_self
          rwa [List.mem_reverse] at this
        rwa [hfront.1] at hmem
      . rfl

theorem handleDigits_eq_none_of_takeWhile {line : Bytes}
    (h : (line.reverse.dropWhile isSpace).takeWhile isDigit = [])
    : handleDigits line = none := by
  unfold handleDigits
  dsimp only
  rw [if_pos (.inl h)]

theorem handleDigits_append {front digits : Bytes} (hreturn : 0x0d ∉ front) (hbreak : 0x0a ∉ front)
    (hne : digits ≠ []) (hdigits : ∀ c ∈ digits, isDigit c)
    : handleDigits (front ++ hash :: (bytes " handle " ++ digits)) = some digits := by
  have hreverse : (front ++ hash :: (bytes " handle " ++ digits)).reverse
      = digits.reverse ++ 0x20 :: ((bytes "handle").reverse ++ 0x20 :: hash :: front.reverse) := by
    have : bytes " handle " = 0x20 :: (bytes "handle" ++ [0x20]) := by decide
    simp [this]
  have hdigits' : ∀ c ∈ digits.reverse, isDigit c = true := by simpa using hdigits
  have hne' : digits.reverse ≠ [] := by simpa using hne
  unfold handleDigits
  rw [hreverse]
  have hspace : ∀ rest, (digits.reverse ++ rest).dropWhile isSpace = digits.reverse ++ rest := by
    intro rest
    obtain ⟨c, cs, hcons⟩ := List.exists_cons_of_ne_nil hne'
    rw [hcons] at hdigits' ⊢
    rw [List.cons_append, List.dropWhile_cons_of_neg]
    rw [isSpace_of_isDigit (hdigits' c List.mem_cons_self)]
    exact Bool.false_ne_true
  have htake : ∀ rest, (digits.reverse ++ 0x20 :: rest).takeWhile isDigit = digits.reverse := by
    intro rest
    rw [List.takeWhile_append_of_pos hdigits']
    exact List.append_nil _
  have hdrop : ∀ rest, (digits.reverse ++ 0x20 :: rest).dropWhile isDigit = 0x20 :: rest := by
    intro rest
    rw [List.dropWhile_append_of_pos hdigits']
    rfl
  dsimp only
  rw [hspace, htake, hdrop]
  have hblanks : (0x20 :: ((bytes "handle").reverse ++ 0x20 :: hash :: front.reverse)).takeWhile isSpace = [0x20] :=
    rfl
  have hrest : (0x20 :: ((bytes "handle").reverse ++ 0x20 :: hash :: front.reverse)).dropWhile isSpace
      = (bytes "handle").reverse ++ 0x20 :: hash :: front.reverse := rfl
  rw [hblanks, hrest, if_neg, List.drop_left]
  . have hfront : (0x20 :: hash :: front.reverse).dropWhile isSpace = hash :: front.reverse := rfl
    rw [hfront]
    dsimp only
    rw [if_pos, List.reverse_reverse]
    simp [hreturn, hbreak]
  . simp [hne']

end HandleDigits

section Lines

variable (rule : NftRule) (counted : Nat × Nat) (matchSubstr : Bytes)

theorem line_eq
    : rule.line counted
        =
      rule.spec.front counted ++ hash :: (bytes " handle " ++ toDecimal rule.handle) := by
  have hhandle : bytes "# handle " = hash :: bytes " handle " := by decide
  unfold NftRule.line NftSpec.front
  rw [hhandle]
  simp only [List.append_assoc, List.cons_append]

def stem : Bytes :=
  rule.spec.front counted ++ hash :: bytes " handle "

theorem line_eq_stem_append : rule.line counted = stem rule counted ++ toDecimal rule.handle := by
  rw [line_eq, stem]
  simp only [List.append_assoc, List.cons_append]

theorem hash_notMem_front : hash ∉ rule.spec.front counted :=
  rule.spec.notMem_front counted (by decide) (by decide) (by decide)

theorem lineBreak_notMem_line : lineBreak ∉ rule.line counted := by
  have hfront : lineBreak ∉ rule.spec.front counted :=
    rule.spec.notMem_front counted (by decide) (by decide) (by decide)
  have hdigits : lineBreak ∉ toDecimal rule.handle := by
    intro h
    exact absurd (isDigit_of_mem_toDecimal h) (by decide)
  have hword : lineBreak ∉ hash :: bytes " handle " := by decide
  rw [List.mem_cons, not_or] at hword
  rw [line_eq, List.mem_append, List.mem_cons, List.mem_append]
  simp [hfront, hdigits, hword]

def handleShown (handle : Nat) : Option Int :=
  if matchSubstr <:+: rule.spec.front counted ∧ handle < 2 ^ 31 then some handle else none

theorem findNftHandle_append (handle : Nat)
    : findNftHandle matchSubstr (rule.spec.front counted ++ hash :: (bytes " handle " ++ toDecimal handle))
        =
      handleShown rule counted matchSubstr handle := by
  have htake : (rule.spec.front counted ++ hash :: (bytes " handle " ++ toDecimal handle)).takeWhile (· ≠ hash)
      = rule.spec.front counted := by
    rw [List.takeWhile_append_of_pos]
    . simp
    . intro c hc
      rw [decide_eq_true_eq]
      rintro rfl
      exact hash_notMem_front rule counted hc
  unfold findNftHandle handleShown
  rw [handleDigits_append, htake]
  . dsimp only
    rw [stoi_toDecimal]
    by_cases hmatch : matchSubstr <:+: rule.spec.front counted <;> simp [hmatch]
  . exact rule.spec.notMem_front counted (by decide) (by decide) (by decide)
  . exact rule.spec.notMem_front counted (by decide) (by decide) (by decide)
  . exact toDecimal_ne_nil handle
  . exact fun c hc => isDigit_of_mem_toDecimal hc

theorem findNftHandle_line
    : findNftHandle matchSubstr (rule.line counted) = handleShown rule counted matchSubstr rule.handle := by
  rw [line_eq, findNftHandle_append]

theorem findNftHandle_take_line {n : Nat} (hle : n ≤ (rule.line counted).length)
    (hdigits : (rule.line counted).length - n < (toDecimal rule.handle).length)
    : findNftHandle matchSubstr ((rule.line counted).take n)
        =
      handleShown rule counted matchSubstr (rule.handle / 10 ^ ((rule.line counted).length - n)) := by
  have htake : (rule.line counted).take n
      = rule.spec.front counted
        ++ hash :: (bytes " handle " ++ toDecimal (rule.handle / 10 ^ ((rule.line counted).length - n))) := by
    have hlength := congrArg List.length (line_eq_stem_append rule counted)
    rw [List.length_append] at hlength
    rw [toDecimal_div_pow hdigits]
    nth_rewrite 1 [line_eq_stem_append]
    rw [List.take_append, List.take_of_length_le (by omega), stem, List.append_assoc, List.cons_append]
    have hrest : n - (stem rule counted).length
        = (toDecimal rule.handle).length - ((rule.line counted).length - n) := by omega
    rw [stem] at hrest
    rw [hrest]
  rw [htake, findNftHandle_append]

theorem findNftHandle_take_line_eq_none {n : Nat}
    (hdigits : (toDecimal rule.handle).length ≤ (rule.line counted).length - n)
    : findNftHandle matchSubstr ((rule.line counted).take n) = none := by
  have hnone : handleDigits ((rule.line counted).take n) = none := by
    have hlength := congrArg List.length (line_eq_stem_append rule counted)
    rw [List.length_append] at hlength
    have hword : (hash :: bytes " handle ").length = 9 := by decide
    have hstem : (stem rule counted).length = (rule.spec.front counted).length + 9 := by
      rw [stem, List.length_append, hword]
    have hpos := List.length_pos_iff.mpr (toDecimal_ne_nil rule.handle)
    rw [line_eq_stem_append, List.take_append_of_le_length (by omega), stem]
    by_cases hle : n ≤ (rule.spec.front counted).length
    . apply handleDigits_eq_none_of_notMem
      rw [List.take_append_of_le_length hle]
      intro hmem
      exact hash_notMem_front rule counted (List.mem_of_mem_take hmem)
    . apply handleDigits_eq_none_of_takeWhile
      rw [List.take_append, List.take_of_length_le (by omega), List.reverse_append]
      generalize hj : n - (rule.spec.front counted).length = j
      have hbound : j ≤ 9 := by omega
      have hone : 1 ≤ j := by omega
      -- the last character that is not a blank is the sign or a letter
      interval_cases j <;> rfl
  unfold findNftHandle
  rw [hnone]

end Lines

section Shown

variable {counted : Nat → Nat × Nat} {matchSubstr : Bytes}

def shown (counted : Nat → Nat × Nat) (room : Nat) (rules : List NftRule) : List (Nat × NftRule) :=
  match rules with
  | [] => []
  | rule :: rules =>
    let length := (rule.line (counted rule.handle)).length
    if length < room then
      (rule.handle, rule) :: shown counted (room - (length + 1)) rules
    else if length - room < (toDecimal rule.handle).length then
      [(rule.handle / 10 ^ (length - room), rule)]
    else
      []

theorem findNftHandles_append {line : Bytes} (h : lineBreak ∉ line) (s : Bytes)
    : findNftHandles (line ++ lineBreak :: s) matchSubstr
        =
      (findNftHandle matchSubstr line).toList ++ findNftHandles s matchSubstr := by
  unfold findNftHandles Delimited.split
  rw [Delimited.split.go_append_cons h, List.filterMap_cons]
  simp only [List.reverse_nil, List.nil_append]
  cases findNftHandle matchSubstr line <;> rfl

theorem findNftHandles_last {line : Bytes} (h : lineBreak ∉ line)
    : findNftHandles line matchSubstr = (findNftHandle matchSubstr line).toList := by
  by_cases hnil : line = []
  . subst hnil
    rfl
  . unfold findNftHandles Delimited.split
    rw [Delimited.split.go_last h [] hnil]
    simp only [List.reverse_nil, List.nil_append, List.filterMap_cons, List.filterMap_nil]
    cases findNftHandle matchSubstr line <;> rfl

def footer : Bytes :=
  bytes "\t\x7d\n\x7d\n"

theorem findNftHandles_take_footer (n : Nat) : findNftHandles (footer.take n) matchSubstr = [] := by
  have hlength : footer.length = 5 := by decide
  by_cases hlt : n < 5
  . interval_cases n <;> rfl
  . rw [List.take_of_length_le (by omega)]
    rfl

theorem findNftHandles_take (room : Nat) (rules : List NftRule)
    : findNftHandles
        ((rules.flatMap (fun rule => rule.line (counted rule.handle) ++ [lineBreak]) ++ footer).take room) matchSubstr
        =
      (shown counted room rules).filterMap fun (handle, rule) =>
        handleShown rule (counted rule.handle) matchSubstr handle := by
  induction rules generalizing room with
  | nil =>
    rw [shown, List.filterMap_nil]
    exact findNftHandles_take_footer room
  | cons rule rules ih =>
    rw [shown, List.flatMap_cons, List.append_assoc, List.append_assoc, List.singleton_append]
    dsimp only
    have hbreak := lineBreak_notMem_line rule (counted rule.handle)
    split
    . next hlt =>
      rw [List.take_append, List.take_of_length_le (by omega)]
      obtain ⟨rest, hrest⟩ : ∃ rest, room - (rule.line (counted rule.handle)).length = rest + 1 :=
        ⟨room - (rule.line (counted rule.handle)).length - 1, by omega⟩
      have hroom : room - ((rule.line (counted rule.handle)).length + 1) = rest := by omega
      rw [hrest, List.take_succ_cons, findNftHandles_append hbreak, ih, findNftHandle_line, hroom,
        List.filterMap_cons]
      cases handleShown rule (counted rule.handle) matchSubstr rule.handle <;> rfl
    . next hge =>
      have hbreak' : lineBreak ∉ (rule.line (counted rule.handle)).take room :=
        fun hmem => hbreak (List.mem_of_mem_take hmem)
      rw [List.take_append_of_le_length (by omega), findNftHandles_last hbreak']
      split
      . next hdigits =>
        rw [findNftHandle_take_line rule _ _ (by omega) hdigits, List.filterMap_cons, List.filterMap_nil]
        cases handleShown rule (counted rule.handle) matchSubstr _ <;> rfl
      . next hdigits =>
        rw [findNftHandle_take_line_eq_none rule _ _ (by omega)]
        rfl

def header : Bytes :=
  bytes "table ip neuro_mesh \x7b # handle 1\n\tchain INPUT \x7b # handle 1\n"
    ++ bytes "\t\ttype filter hook input priority filter; policy accept;\n"

def room : Nat :=
  captureBytes - header.length

theorem listing_eq (rules : List NftRule)
    : listing rules counted
        =
      header ++ (rules.flatMap (fun rule => rule.line (counted rule.handle) ++ [lineBreak]) ++ footer) := by
  unfold listing header footer
  simp only [List.append_assoc]

theorem findNftHandles_header (hmatch : bytes "ip saddr " <+: matchSubstr) (s : Bytes)
    : findNftHandles (header ++ s) matchSubstr = findNftHandles s matchSubstr := by
  have hlines : header
      = bytes "table ip neuro_mesh \x7b # handle 1" ++ lineBreak :: (bytes "\tchain INPUT \x7b # handle 1"
        ++ lineBreak :: (bytes "\t\ttype filter hook input priority filter; policy accept;" ++ [lineBreak])) := by
    decide +kernel
  have hnone : ∀ line, ¬bytes "ip saddr " <:+: line.takeWhile (· ≠ hash) → findNftHandle matchSubstr line = none := by
    intro line hline
    unfold findNftHandle
    cases handleDigits line with
    | none => rfl
    | some digits =>
      dsimp only
      rw [if_neg]
      intro hoccurs
      exact hline (hmatch.isInfix.trans hoccurs)
  rw [hlines]
  simp only [List.append_assoc, List.cons_append, List.nil_append]
  rw [findNftHandles_append (by decide +kernel), findNftHandles_append (by decide +kernel),
    findNftHandles_append (by decide +kernel), hnone _ (by decide +kernel), hnone _ (by decide +kernel),
    hnone _ (by decide +kernel)]
  rfl

theorem findNftHandles_listing (rules : List NftRule) (hmatch : bytes "ip saddr " <+: matchSubstr)
    : findNftHandles ((listing rules counted).take captureBytes) matchSubstr
        =
      (shown counted room rules).filterMap fun (handle, rule) =>
        handleShown rule (counted rule.handle) matchSubstr handle := by
  have hheader : header.length ≤ captureBytes := by decide +kernel
  rw [listing_eq, List.take_append, List.take_of_length_le hheader, findNftHandles_header hmatch,
    findNftHandles_take]
  rfl

theorem mem_findNftHandles_listing_iff {rules : List NftRule} (hmatch : bytes "ip saddr " <+: matchSubstr)
    (handle : Nat)
    : (handle : Int) ∈ findNftHandles ((listing rules counted).take captureBytes) matchSubstr
        ↔
      handle < 2 ^ 31 ∧ ∃ rule, (handle, rule) ∈ shown counted room rules
        ∧ matchSubstr <:+: rule.spec.front (counted rule.handle) := by
  rw [findNftHandles_listing rules hmatch, List.mem_filterMap]
  constructor
  . rintro ⟨⟨handle', rule⟩, hmem, hhandle⟩
    dsimp only at hhandle
    unfold handleShown at hhandle
    split at hhandle
    . next hshown =>
      rw [Option.some.injEq, Int.natCast_inj] at hhandle
      subst hhandle
      exact ⟨hshown.2, rule, hmem, hshown.1⟩
    . contradiction
  . rintro ⟨hlt, rule, hmem, hoccurs⟩
    exact ⟨(handle, rule), hmem, if_pos ⟨hoccurs, hlt⟩⟩

end Shown

section Match

variable {ip : Bytes} (spec : NftSpec) (counted : Nat × Nat)

theorem saddrMatch_isInfix_front_iff (rest : Bytes)
    : saddrMatch ip ++ rest <:+: spec.front counted
        ↔
      ip ++ rest <+: spec.saddr.ntop ++ 0x20 :: (NftSpec.dportText spec.dport ++ (bytes "counter packets "
        ++ toDecimal counted.1 ++ bytes " bytes " ++ toDecimal counted.2 ++ bytes " drop ")) := by
  have hword : bytes "ip saddr " = 0x69 :: 0x70 :: bytes " saddr " := by decide
  rw [saddrMatch, hword]
  simp only [List.append_assoc, List.cons_append]
  rw [NftSpec.isInfix_front_iff, NftSpec.tail, List.prefix_append_right_inj]
  simp only [List.append_assoc]

theorem notMem_ntop (addr : Ipv4) {c : UInt8} (hdigit : isDigit c = false) (hdot : c ≠ Ipv4.dot)
    : c ∉ addr.ntop := by
  intro h
  rcases Ipv4.mem_ntop h with h | h
  . rw [hdigit] at h
    contradiction
  . exact hdot h

theorem space_notMem_ntop (addr : Ipv4) : 0x20 ∉ addr.ntop :=
  notMem_ntop addr (by decide) (by decide)

theorem colon_notMem_ntop (addr : Ipv4) : Ipv6.colon ∉ addr.ntop :=
  notMem_ntop addr (by decide) (by decide)

theorem eq_ntop_or_colon_mem (h : isValidIp ip = true) : (∃ addr : Ipv4, ip = addr.ntop) ∨ Ipv6.colon ∈ ip := by
  unfold isValidIp at h
  rw [Bool.or_eq_true] at h
  rcases h with hipv4 | hipv6
  . obtain ⟨addr, haddr⟩ := Option.isSome_iff_exists.mp hipv4
    exact .inl ⟨addr, readIpv4_eq_some_iff.mp haddr⟩
  . obtain ⟨addr, haddr⟩ := Option.isSome_iff_exists.mp hipv6
    exact .inr (colon_mem_of_inetPton6 haddr)

theorem not_saddrMatch_of_colon_mem (h : Ipv6.colon ∈ ip) (rest : Bytes)
    : ¬saddrMatch ip ++ rest <:+: spec.front counted := by
  intro hoccurs
  have hmem : Ipv6.colon ∈ spec.front counted := by
    apply hoccurs.mem
    rw [saddrMatch]
    simp [h]
  exact spec.notMem_front counted (by decide) (by decide) (by decide) hmem

theorem saddrMatch_iff (h : isValidIp ip = true)
    : saddrMatch ip <:+: spec.front counted ↔ ip <+: spec.saddr.ntop := by
  have hmatch : saddrMatch ip ++ [] <:+: spec.front counted ↔ _ := saddrMatch_isInfix_front_iff spec counted []
  rw [List.append_nil, List.append_nil] at hmatch
  rcases eq_ntop_or_colon_mem h with ⟨addr, rfl⟩ | hcolon
  . rw [hmatch, isPrefix_append_cons_iff (space_notMem_ntop addr)]
  . have hnone := not_saddrMatch_of_colon_mem spec counted hcolon []
    rw [List.append_nil] at hnone
    apply iff_of_false hnone
    intro hstarts
    exact colon_notMem_ntop _ (hstarts.mem hcolon)

theorem space_notMem_toDecimal (n : Nat) : 0x20 ∉ toDecimal n := by
  intro h
  exact absurd (isDigit_of_mem_toDecimal h) (by decide)

theorem dport_isPrefix_iff (transport : Transport) (port : UInt16) (dport : Option (Transport × UInt16)) (rest : Bytes)
    : transport.text ++ bytes " dport " ++ toDecimal port.toNat
        <+: NftSpec.dportText dport ++ (bytes "counter packets " ++ rest)
        ↔
      ∃ port' : UInt16, dport = some (transport, port') ∧ toDecimal port.toNat <+: toDecimal port'.toNat := by
  have htcp : Transport.tcp.text = [0x74, 0x63, 0x70] := by decide
  have hudp : Transport.udp.text = [0x75, 0x64, 0x70] := by decide
  have hblank : bytes " " = [0x20] := by decide
  cases dport with
  | none =>
    have hcounter : bytes "counter packets " = 0x63 :: bytes "ounter packets " := by decide
    rw [NftSpec.dportText, hcounter]
    cases transport <;> simp [htcp, hudp]
  | some dport =>
    obtain ⟨transport', port'⟩ := dport
    rw [NftSpec.dportText]
    by_cases heq : transport = transport'
    . subst heq
      simp only [List.append_assoc, List.prefix_append_right_inj, hblank, List.cons_append, List.nil_append]
      rw [isPrefix_append_cons_iff (space_notMem_toDecimal _)]
      simp
    . -- the two names differ in their first letter
      cases transport <;> cases transport' <;> simp_all

theorem dportMatch_iff (h : isValidIp ip = true) (transport : Transport) (port : UInt16)
    : dportMatch ip transport port <:+: spec.front counted
        ↔
      ip = spec.saddr.ntop
        ∧ ∃ port' : UInt16, spec.dport = some (transport, port') ∧ toDecimal port.toNat <+: toDecimal port'.toNat := by
  have hblank : bytes " " = [0x20] := by decide
  have hsplit : dportMatch ip transport port
      = saddrMatch ip ++ 0x20 :: (transport.text ++ bytes " dport " ++ toDecimal port.toNat) := by
    rw [dportMatch, hblank]
    simp only [List.append_assoc, List.cons_append, List.nil_append]
  rw [hsplit]
  rcases eq_ntop_or_colon_mem h with ⟨addr, rfl⟩ | hcolon
  . rw [saddrMatch_isInfix_front_iff, append_cons_isPrefix_iff (space_notMem_ntop _) (space_notMem_ntop _)]
    simp only [List.append_assoc (bytes "counter packets ")]
    rw [dport_isPrefix_iff]
  . apply iff_of_false (not_saddrMatch_of_colon_mem spec counted hcolon _)
    rintro ⟨rfl, _⟩
    exact colon_notMem_ntop _ hcolon

end Match

end Firewall
end NeuroMesh
