import NeuroMesh.Data.Json

/-!
This module contains the rules for texts that are put together from strings without escapes, whole numbers,
arrays and objects: which document the parser finds in them.
-/

namespace Json

structure Plain (s : List UInt8) : Prop where
  valid : Utf8.valid s
  notMem : ∀ c ∈ s, 0x20 ≤ c ∧ c ≠ 0x22 ∧ c ≠ 0x5c

instance (s : List UInt8) : Decidable (Plain s) :=
  decidable_of_iff (Utf8.valid s ∧ ∀ c ∈ s, 0x20 ≤ c ∧ c ≠ 0x22 ∧ c ≠ 0x5c)
    ⟨fun h => ⟨h.1, h.2⟩, fun h => ⟨h.1, h.2⟩⟩

section Skip

theorem skip_append {space s : List UInt8} (h : ∀ c ∈ space, isSpace c) : skip (space ++ s) = skip s := by
  unfold skip
  rw [List.dropWhile_append_of_pos h]

theorem skip_cons {c : UInt8} {s : List UInt8} (h : isSpace c = false) : skip (c :: s) = c :: s := by
  simp [skip, h]

end Skip

namespace Parser

theorem pieces_plain {s rest : List UInt8} (h : ∀ c ∈ s, 0x20 ≤ c ∧ c ≠ 0x22 ∧ c ≠ 0x5c)
    : pieces (s ++ 0x22 :: rest) = some (s.map .byte, rest) := by
  induction s with
  | nil =>
    rw [List.nil_append, pieces.eq_def]
    rfl
  | cons c cs ih =>
    rw [List.forall_mem_cons] at h
    have hlow : ¬c < 0x20 := UInt8.not_lt.mpr h.1.1
    rw [List.cons_append, pieces.eq_def]
    simp [h.1.2.1, h.1.2.2, hlow, ih h.2]

theorem assemble_bytes (s : List UInt8) : assemble (s.map .byte) = s := by
  have hgo : assemble.go (s.map .byte) none = s := by
    induction s with
    | nil => rfl
    | cons c cs ih =>
      rw [List.map_cons, assemble.go, ih]
      rfl
  exact hgo

variable (half : Bool)

theorem string_plain {s : List UInt8} (h : Plain s) (rest : List UInt8)
    : string half (s ++ 0x22 :: rest) = some (s, rest) := by
  simp [string, pieces_plain h.notMem, assemble_bytes, h.valid]

def Stops (rest : List UInt8) : Prop :=
  ∀ c ∈ rest.head?, isSpace c ∨ c = 0x2c ∨ c = 0x5d ∨ c = 0x7d

theorem stops_nil : Stops [] := nofun

theorem stops_cons {c : UInt8} (rest : List UInt8) (h : isSpace c ∨ c = 0x2c ∨ c = 0x5d ∨ c = 0x7d)
    : Stops (c :: rest) := by
  rintro _ ⟨⟩
  exact h

theorem stops_append {space rest : List UInt8} (hspace : ∀ c ∈ space, isSpace c) (h : Stops rest)
    : Stops (space ++ rest) := by
  cases space with
  | nil => exact h
  | cons c cs => exact stops_cons _ (.inl (hspace c List.mem_cons_self))

theorem Stops.spec {c : UInt8} {rest : List UInt8} (h : Stops (c :: rest))
    : isDigit c = false ∧ c ≠ 0x2e ∧ c ≠ 0x65 ∧ c ≠ 0x45 := by
  rcases h c rfl with hspace | rfl | rfl | rfl
  . simp only [isSpace, Bool.or_eq_true, beq_iff_eq] at hspace
    rcases hspace with ((rfl | rfl) | rfl) | rfl <;> decide
  . decide
  . decide
  . decide

theorem takeWhile_isDigit {digits rest : List UInt8} (hdigits : ∀ c ∈ digits, isDigit c) (hrest : Stops rest)
    : (digits ++ rest).takeWhile isDigit = digits := by
  rw [List.takeWhile_append_of_pos hdigits]
  cases rest with
  | nil => simp
  | cons c cs => simp [hrest.spec.1]

theorem dropWhile_isDigit {digits rest : List UInt8} (hdigits : ∀ c ∈ digits, isDigit c) (hrest : Stops rest)
    : (digits ++ rest).dropWhile isDigit = rest := by
  rw [List.dropWhile_append_of_pos hdigits]
  cases rest with
  | nil => rfl
  | cons c cs => simp [hrest.spec.1]

structure IsNatural (digits : List UInt8) : Prop where
  isDigit : ∀ c ∈ digits, isDigit c
  ne_nil : digits ≠ []
  head : digits.head? = some 0x30 → digits.length = 1

theorem fraction_of_stops {rest : List UInt8} (h : Stops rest) : fraction rest = some rest := by
  cases rest with
  | nil => rfl
  | cons c cs =>
    have := h.spec.2.1
    unfold fraction
    split
    . next heq =>
      cases heq
      contradiction
    . rfl

theorem exponent_of_stops {rest : List UInt8} (h : Stops rest) : exponent rest = some rest := by
  cases rest with
  | nil => rfl
  | cons c cs => simp [exponent, h.spec.2.2.1, h.spec.2.2.2]

theorem magnitude_natural {digits rest : List UInt8} (h : IsNatural digits) (hrest : Stops rest)
    (negative : Bool)
    : magnitude negative (digits ++ rest)
        = some (.int (if negative then -natural digits else natural digits), rest) := by
  unfold magnitude
  have hcond : ¬(digits = [] ∨ (digits.head? = some 0x30 ∧ 1 < digits.length)) := by
    rintro (hnil | ⟨hzero, hlong⟩)
    . exact h.ne_nil hnil
    . have := h.head hzero
      omega
  simp [takeWhile_isDigit h.isDigit hrest, dropWhile_isDigit h.isDigit hrest, if_neg hcond,
    fraction_of_stops hrest, exponent_of_stops hrest]

theorem number_natural {digits rest : List UInt8} (h : IsNatural digits) (hrest : Stops rest)
    : number (digits ++ rest) = some (.int (natural digits), rest) := by
  obtain ⟨c, cs, rfl⟩ := List.exists_cons_of_ne_nil h.ne_nil
  have hc : c ≠ 0x2d := by
    rintro rfl
    exact absurd (h.isDigit _ List.mem_cons_self) (by decide)
  rw [List.cons_append, number]
  simp only [hc, if_false]
  rw [← List.cons_append, magnitude_natural h hrest]
  rfl

theorem number_neg {digits rest : List UInt8} (h : IsNatural digits) (hrest : Stops rest)
    : number (0x2d :: (digits ++ rest)) = some (.int (-natural digits), rest) := by
  rw [number]
  simp only [if_true]
  rw [magnitude_natural h hrest]
  rfl

end Parser

section Reads

variable (half : Bool)

def Names (raw key : List UInt8) : Prop :=
  ∀ rest, Parser.string half (raw ++ 0x22 :: rest) = some (key, rest)

def Reads (text : List UInt8) (json : Json) : Prop :=
  ∀ fuel rest, 2 * text.length ≤ fuel → Parser.Stops rest →
    Parser.value half fuel (text ++ rest) = some (json, rest)

def ReadsElements (text : List UInt8) (elements : List Json) : Prop :=
  ∀ fuel rest, 2 * text.length ≤ fuel → Parser.elements half fuel (text ++ rest) = some (elements, rest)

def ReadsMembers (text : List UInt8) (members : List (List UInt8 × Json)) : Prop :=
  ∀ fuel rest, 2 * text.length ≤ fuel → Parser.members half fuel (text ++ rest) = some (members, rest)

variable {half}

theorem Plain.names {key : List UInt8} (h : Plain key) : Names half key key := by
  intro rest
  exact Parser.string_plain half h rest

theorem Reads.space {text space : List UInt8} {json : Json} (h : Reads half text json)
    (hspace : ∀ c ∈ space, isSpace c)
    : Reads half (space ++ text) json := by
  intro fuel rest hfuel hrest
  rw [List.length_append] at hfuel
  rw [← h fuel rest (by omega) hrest, List.append_assoc]
  cases fuel with
  | zero => rfl
  | succ fuel => rw [Parser.value, Parser.value, skip_append hspace]

theorem Names.reads {raw s : List UInt8} (h : Names half raw s) : Reads half (0x22 :: (raw ++ [0x22])) (.str s) := by
  intro fuel rest hfuel _
  rw [List.length_cons] at hfuel
  obtain ⟨fuel, rfl⟩ := Nat.exists_eq_add_one_of_ne_zero (show fuel ≠ 0 by omega)
  rw [List.cons_append, List.append_assoc, List.singleton_append, Parser.value, skip_cons rfl]
  simp [h rest]

theorem reads_string {s : List UInt8} (h : Plain s) : Reads half (0x22 :: (s ++ [0x22])) (.str s) := by
  exact h.names.reads

theorem value_number {c : UInt8} {s : List UInt8} (fuel : Nat) (h : isDigit c ∨ c = 0x2d)
    : Parser.value half (fuel + 1) (c :: s) = Parser.number (c :: s) := by
  have hspec : isSpace c = false ∧ c ≠ 0x7b ∧ c ≠ 0x5b ∧ c ≠ 0x22 ∧ c ≠ 0x6e ∧ c ≠ 0x74 ∧ c ≠ 0x66 := by
    rcases h with hdigit | rfl
    . simp only [isDigit, Bool.and_eq_true, decide_eq_true_eq, UInt8.le_iff_toNat_le] at hdigit
      have hle : 0x30 ≤ c.toNat := hdigit.1
      have hge : c.toNat ≤ 0x39 := hdigit.2
      simp only [isSpace, Bool.or_eq_false_iff, beq_eq_false_iff_ne, ne_eq, ← UInt8.toNat_inj]
      refine ⟨⟨⟨⟨?_, ?_⟩, ?_⟩, ?_⟩, ?_, ?_, ?_, ?_, ?_, ?_⟩
      all_goals
        intro h
        rw [h] at hle hge
        revert hle hge
        decide
    . decide
  rw [Parser.value, skip_cons hspec.1]
  simp [hspec]

theorem reads_natural {digits : List UInt8} (h : Parser.IsNatural digits)
    : Reads half digits (.int (Parser.natural digits)) := by
  intro fuel rest hfuel hrest
  obtain ⟨c, cs, rfl⟩ := List.exists_cons_of_ne_nil h.ne_nil
  rw [List.length_cons] at hfuel
  obtain ⟨fuel, rfl⟩ := Nat.exists_eq_add_one_of_ne_zero (show fuel ≠ 0 by omega)
  rw [List.cons_append, value_number fuel (.inl (h.isDigit c List.mem_cons_self)), ← List.cons_append,
    Parser.number_natural h hrest]

theorem reads_neg {digits : List UInt8} (h : Parser.IsNatural digits)
    : Reads half (0x2d :: digits) (.int (-Parser.natural digits)) := by
  intro fuel rest hfuel hrest
  rw [List.length_cons] at hfuel
  obtain ⟨fuel, rfl⟩ := Nat.exists_eq_add_one_of_ne_zero (show fuel ≠ 0 by omega)
  rw [List.cons_append, value_number fuel (.inr rfl), Parser.number_neg h hrest]

section Containers

variable {text space texts : List UInt8} {json : Json}

theorem readsElements_single (h : Reads half text json) (hspace : ∀ c ∈ space, isSpace c)
    : ReadsElements half (text ++ (space ++ [0x5d])) [json] := by
  intro fuel rest hfuel
  simp only [List.length_append, List.length_singleton] at hfuel
  obtain ⟨fuel, rfl⟩ := Nat.exists_eq_add_one_of_ne_zero (show fuel ≠ 0 by omega)
  simp only [List.append_assoc, List.singleton_append]
  have hstops : Parser.Stops (space ++ 0x5d :: rest) := Parser.stops_append hspace (Parser.stops_cons _ (by simp))
  rw [Parser.elements, h fuel _ (by omega) hstops]
  simp [skip_append hspace, skip_cons (show isSpace 0x5d = false from rfl)]

theorem readsElements_cons {elements : List Json} (h : Reads half text json)
    (hspace : ∀ c ∈ space, isSpace c) (hrest : ReadsElements half texts elements)
    : ReadsElements half (text ++ (space ++ 0x2c :: texts)) (json :: elements) := by
  intro fuel rest hfuel
  simp only [List.length_append, List.length_cons] at hfuel
  obtain ⟨fuel, rfl⟩ := Nat.exists_eq_add_one_of_ne_zero (show fuel ≠ 0 by omega)
  simp only [List.append_assoc, List.cons_append]
  have hstops : Parser.Stops (space ++ 0x2c :: (texts ++ rest)) := Parser.stops_append hspace (Parser.stops_cons _ (by simp))
  rw [Parser.elements, h fuel _ (by omega) hstops]
  simp [skip_append hspace, skip_cons (show isSpace 0x2c = false from rfl), hrest fuel rest (by omega)]

theorem readsMembers_single {raw key before : List UInt8} (hkey : Names half raw key)
    (hbefore : ∀ c ∈ before, isSpace c) (h : Reads half text json) (hspace : ∀ c ∈ space, isSpace c)
    : ReadsMembers half (before ++ 0x22 :: (raw ++ 0x22 :: 0x3a :: (text ++ (space ++ [0x7d]))))
        [(key, json)] := by
  intro fuel rest hfuel
  simp only [List.length_append, List.length_cons] at hfuel
  obtain ⟨fuel, rfl⟩ := Nat.exists_eq_add_one_of_ne_zero (show fuel ≠ 0 by omega)
  simp only [List.append_assoc, List.cons_append, List.nil_append]
  have hstops : Parser.Stops (space ++ 0x7d :: rest) := Parser.stops_append hspace (Parser.stops_cons _ (by simp))
  rw [Parser.members, skip_append hbefore, skip_cons (show isSpace 0x22 = false from rfl)]
  simp [hkey _, skip_cons (show isSpace 0x3a = false from rfl),
    h fuel _ (by omega) hstops, skip_append hspace, skip_cons (show isSpace 0x7d = false from rfl)]

theorem readsMembers_cons {raw key before : List UInt8} {members : List (List UInt8 × Json)}
    (hkey : Names half raw key) (hbefore : ∀ c ∈ before, isSpace c) (h : Reads half text json)
    (hspace : ∀ c ∈ space, isSpace c) (hrest : ReadsMembers half texts members)
    : ReadsMembers half (before ++ 0x22 :: (raw ++ 0x22 :: 0x3a :: (text ++ (space ++ 0x2c :: texts))))
        ((key, json) :: members) := by
  intro fuel rest hfuel
  simp only [List.length_append, List.length_cons] at hfuel
  obtain ⟨fuel, rfl⟩ := Nat.exists_eq_add_one_of_ne_zero (show fuel ≠ 0 by omega)
  simp only [List.append_assoc, List.cons_append]
  have hstops : Parser.Stops (space ++ 0x2c :: (texts ++ rest)) := Parser.stops_append hspace (Parser.stops_cons _ (by simp))
  rw [Parser.members, skip_append hbefore, skip_cons (show isSpace 0x22 = false from rfl)]
  simp [hkey _, skip_cons (show isSpace 0x3a = false from rfl),
    h fuel _ (by omega) hstops, skip_append hspace, skip_cons (show isSpace 0x2c = false from rfl),
    hrest fuel rest (by omega)]

theorem ReadsElements.head {elements : List Json} (h : ReadsElements half texts elements) (rest : List UInt8)
    : (skip (texts ++ rest)).head? ≠ some 0x5d := by
  intro hhead
  obtain ⟨s, hs⟩ := List.head?_eq_some_iff.mp hhead
  have hvalue := h (2 * texts.length + 2) rest (by omega)
  rw [Parser.elements, Parser.value, hs] at hvalue
  simp [Parser.number, Parser.magnitude, isDigit] at hvalue

theorem ReadsMembers.head {members : List (List UInt8 × Json)} (h : ReadsMembers half texts members)
    (rest : List UInt8)
    : (skip (texts ++ rest)).head? ≠ some 0x7d := by
  intro hhead
  obtain ⟨s, hs⟩ := List.head?_eq_some_iff.mp hhead
  have hvalue := h (2 * texts.length + 2) rest (by omega)
  rw [Parser.members, hs] at hvalue
  simp at hvalue

theorem reads_arr {elements : List Json} (h : ReadsElements half texts elements)
    : Reads half (0x5b :: texts) (.arr elements) := by
  intro fuel rest hfuel _
  rw [List.length_cons] at hfuel
  obtain ⟨fuel, rfl⟩ := Nat.exists_eq_add_one_of_ne_zero (show fuel ≠ 0 by omega)
  rw [List.cons_append, Parser.value, skip_cons (show isSpace 0x5b = false from rfl)]
  simp [h.head rest, h fuel rest (by omega)]

theorem reads_arr_nil (hspace : ∀ c ∈ space, isSpace c) : Reads half (0x5b :: (space ++ [0x5d])) (.arr []) := by
  intro fuel rest hfuel _
  rw [List.length_cons] at hfuel
  obtain ⟨fuel, rfl⟩ := Nat.exists_eq_add_one_of_ne_zero (show fuel ≠ 0 by omega)
  rw [List.cons_append, Parser.value, skip_cons (show isSpace 0x5b = false from rfl)]
  simp [skip_append hspace, skip_cons (show isSpace 0x5d = false from rfl)]

theorem reads_obj_nil (hspace : ∀ c ∈ space, isSpace c) : Reads half (0x7b :: (space ++ [0x7d])) (.obj []) := by
  intro fuel rest hfuel _
  rw [List.length_cons] at hfuel
  obtain ⟨fuel, rfl⟩ := Nat.exists_eq_add_one_of_ne_zero (show fuel ≠ 0 by omega)
  rw [List.cons_append, Parser.value, skip_cons (show isSpace 0x7b = false from rfl)]
  simp [skip_append hspace, skip_cons (show isSpace 0x7d = false from rfl)]

theorem reads_obj {members : List (List UInt8 × Json)} (h : ReadsMembers half texts members)
    : Reads half (0x7b :: texts) (.obj members) := by
  intro fuel rest hfuel _
  rw [List.length_cons] at hfuel
  obtain ⟨fuel, rfl⟩ := Nat.exists_eq_add_one_of_ne_zero (show fuel ≠ 0 by omega)
  rw [List.cons_append, Parser.value, skip_cons (show isSpace 0x7b = false from rfl)]
  simp [h.head rest, h fuel rest (by omega)]

structure Member where
  key : List UInt8
  text : List UInt8
  json : Json

def membersText (members : List Member) : List UInt8 :=
  match members with
  | [] => [0x7d]
  | [member] => 0x22 :: (member.key ++ 0x22 :: 0x3a :: (member.text ++ [0x7d]))
  | member :: members => 0x22 :: (member.key ++ 0x22 :: 0x3a :: (member.text ++ 0x2c :: membersText members))

theorem readsMembers_membersText {members : List Member} (hne : members ≠ [])
    (h : ∀ member ∈ members, Plain member.key ∧ Reads half member.text member.json)
    : ReadsMembers half (membersText members) (members.map fun member => (member.key, member.json)) := by
  have hspace : ∀ c ∈ ([] : List UInt8), isSpace c := nofun
  induction members with
  | nil => exact absurd rfl hne
  | cons member members ih =>
    rw [List.forall_mem_cons] at h
    cases members with
    | nil =>
      have := readsMembers_single h.1.1.names hspace h.1.2 hspace
      exact this
    | cons next members =>
      have := readsMembers_cons h.1.1.names hspace h.1.2 hspace (ih (List.cons_ne_nil _ _) h.2)
      exact this

end Containers

theorem Reads.parse {text space : List UInt8} {json : Json} (h : Reads half text json)
    (hspace : ∀ c ∈ space, isSpace c) (hvalid : Utf8.valid (text ++ space))
    : parse half (text ++ space) = some json := by
  have hstops : Parser.Stops space := by
    have := Parser.stops_append hspace Parser.stops_nil
    rwa [List.append_nil] at this
  have hend : skip space = [] := by
    have := skip_append (s := []) hspace
    rwa [List.append_nil] at this
  unfold Json.parse
  rw [if_pos hvalid, h _ _ _ hstops]
  . simp [hend]
  . rw [List.length_append]
    omega

theorem Reads.parseBytes {text : List UInt8} {json : Json} (h : Reads true text json)
    : parseBytes text = some json := by
  have hvalue := h (2 * text.length + 2) [] (by omega) Parser.stops_nil
  rw [List.append_nil] at hvalue
  unfold Json.parseBytes
  rw [hvalue]
  rfl

end Reads

section Parse

variable {half : Bool} {s : List UInt8}

theorem valid_of_parse {json : Json} (h : parse half s = some json) : Utf8.valid s := by
  unfold parse at h
  split at h
  . assumption
  . contradiction

theorem exists_value_of_parse {json : Json} (h : parse half s = some json)
    : ∃ rest, Parser.value half (2 * s.length + 2) s = some (json, rest) ∧ skip rest = [] := by
  unfold parse at h
  rw [if_pos (valid_of_parse h)] at h
  simp only [Option.bind_eq_bind, Option.bind_eq_some_iff] at h
  obtain ⟨⟨json', rest⟩, hvalue, hjson⟩ := h
  dsimp only at hjson
  split at hjson
  . next hend =>
    cases hjson
    exact ⟨rest, hvalue, hend⟩
  . contradiction

end Parse

end Json
