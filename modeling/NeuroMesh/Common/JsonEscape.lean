import NeuroMesh.Common.Inet
import NeuroMesh.Common.StateJournal.Basic
import NeuroMesh.Data.Json.Escape

/-!
This module contains the four functions that escape a string for a JSON text, and the proof that all of them
produce a string literal of their argument. Two of them change the string that they go through.
-/

namespace NeuroMesh

def replaceAt (s : Bytes) (pos len : Nat) (text : Bytes) : Bytes :=
  s.take pos ++ (text ++ s.drop (pos + len))

def escapeBody (letters : List (UInt8 × UInt8)) (s : Bytes) (i : Nat) (c : UInt8) : Bytes × Nat :=
  if c = 0x22 ∨ c = 0x5c then
    (replaceAt s i 0 [0x5c], i + 1 + 1)
  else
    match letters.lookup c with
    | some letter => (replaceAt s i 1 [0x5c, letter], i + 1 + 1)
    | none =>
      if c < 0x20 then
        let buf := unicodeEscape c
        (replaceAt s i 1 buf, i + (buf.length - 1) + 1)
      else
        (s, i + 1)

def StateJournal.letters : List (UInt8 × UInt8) :=
  [(0x0a, 0x6e), (0x09, 0x74)]

def StateJournal.escapeLoop (fuel : Nat) (evidenceJson : Bytes) : Option Bytes :=
  InPlace.rewrite (escapeBody letters) fuel evidenceJson 0

def Webhook.letters : List (UInt8 × UInt8) :=
  [(0x0a, 0x6e), (0x09, 0x74), (0x0d, 0x72)]

def Webhook.escapeLoop (fuel : Nat) (evidenceJson : Bytes) : Option Bytes :=
  InPlace.rewrite (escapeBody letters) fuel evidenceJson 0

def escapeCase (c : UInt8) (control : Bytes) : Bytes :=
  if c = 0x22 then
    bytes "\\\""
  else if c = 0x5c then
    bytes "\\\\"
  else if c = 0x0a then
    bytes "\\n"
  else if c = 0x0d then
    bytes "\\r"
  else if c = 0x09 then
    bytes "\\t"
  else if c < 0x20 then
    control
  else
    [c]

def Observability.escapeJson (s : Bytes) : Bytes :=
  s.foldl (fun out c => out ++ escapeCase c (unicodeEscape c)) []

def AuditLogger.jsonEscape (raw : Bytes) : Bytes :=
  raw.foldl (fun out c => out ++ escapeCase c (cStr (unicodeEscape c ++ [0]))) []

def escapeWith (letters : List (UInt8 × UInt8)) (c : UInt8) : Bytes :=
  if c = 0x22 ∨ c = 0x5c then
    [0x5c, c]
  else
    match letters.lookup c with
    | some letter => [0x5c, letter]
    | none => if c < 0x20 then unicodeEscape c else [c]

theorem escapeBody_append (letters : List (UInt8 × UInt8)) (before : Bytes) (c : UInt8) (after : Bytes)
    : escapeBody letters (before ++ c :: after) before.length c
        =
      (before ++ (escapeWith letters c ++ after), (before ++ escapeWith letters c).length) := by
  have hdrop : (before ++ c :: after).drop (before.length + 1) = after := by
    simp [List.drop_append]
  unfold escapeBody escapeWith replaceAt
  split
  . simp
  . cases letters.lookup c with
    | some letter => simp [hdrop]
    | none =>
      dsimp only
      split
      . simp [hdrop, unicodeEscape]
        omega
      . simp

section Spelling

theorem spells_unicodeEscape (c : UInt8) : Json.Spells (unicodeEscape c) [.unit c.toNat] := by
  have hlt := c.toNat_lt
  have hdigit (n : Nat) (h : n < 16) : hexValue (hexDigit n) = some n := Ascii.hexValue_hexDigit h
  have h := Json.Spells.long (hdigit (c.toNat / 4096) (by omega)) (hdigit (c.toNat / 256 % 16) (by omega))
    (hdigit (c.toNat / 16 % 16) (by omega)) (hdigit (c.toNat % 16) (by omega)) .nil
  rw [show c.toNat / 4096 * 4096 + c.toNat / 256 % 16 * 256 + c.toNat / 16 % 16 * 16 + c.toNat % 16
    = c.toNat by omega] at h
  exact h

variable {letters : List (UInt8 × UInt8)}

theorem isSpelling_escapeWith (hletters : ∀ p ∈ letters, Json.Parser.escape p.2 = some p.1 ∧ p.2 ≠ 0x75)
    (c : UInt8)
    : Json.IsSpelling c (escapeWith letters c) := by
  unfold escapeWith
  split
  . next hself =>
    left
    rcases hself with rfl | rfl
    . exact .short (by decide) (by decide) .nil
    . exact .short (by decide) (by decide) .nil
  . next hself =>
    rw [not_or] at hself
    cases hlookup : letters.lookup c with
    | some letter =>
      left
      obtain ⟨before, after, heq, -⟩ := List.lookup_eq_some_iff.mp hlookup
      obtain ⟨hescape, hlong⟩ := hletters (c, letter) (by simp [heq])
      exact .short hlong hescape .nil
    | none =>
      dsimp only
      split
      . next hlow =>
        right
        exact ⟨UInt8.lt_trans hlow (by decide), spells_unicodeEscape c⟩
      . next hlow =>
        left
        exact .plain hlow hself.1 hself.2 .nil

end Spelling

structure EscapeOf (s out : Bytes) : Prop where
  low : ∀ c ∈ out, ¬c < 0x20
  quotes : Json.quotesEscaped out = true
  read : ∀ rest, Json.Parser.string true (out ++ 0x22 :: rest) = some (s, rest)

theorem escapeOf_flatMap {f : UInt8 → Bytes} (hf : ∀ c, Json.IsSpelling c (f c)) (s : Bytes)
    : EscapeOf s (s.flatMap f) := by
  obtain ⟨found, hspells, -⟩ := Json.exists_spells_flatMap hf s
  exact ⟨hspells.low, hspells.quotesEscaped, Json.string_flatMap hf (.inl rfl)⟩

def Webhook.escape (evidenceJson : Bytes) : Bytes :=
  evidenceJson.flatMap (escapeWith letters)

theorem Webhook.isSpelling_escapeWith_letters (c : UInt8) : Json.IsSpelling c (escapeWith letters c) := by
  apply isSpelling_escapeWith
  simp [letters, Json.Parser.escape]

theorem StateJournal.escapeChar_eq (c : UInt8) : escapeChar c = escapeWith letters c := by
  have hall : ∀ c, escapeChar c = escapeWith letters c := by
    exact Utf8.forall_byte (by decide +kernel)
  exact hall c

theorem StateJournal.isSpelling_escapeChar (c : UInt8) : Json.IsSpelling c (escapeChar c) := by
  rw [escapeChar_eq]
  apply isSpelling_escapeWith
  simp [letters, Json.Parser.escape]

theorem rewrite_escapeBody (letters : List (UInt8 × UInt8)) (s : Bytes) {fuel : Nat} (hfuel : s.length ≤ fuel)
    : InPlace.rewrite (escapeBody letters) fuel s 0 = some (s.flatMap (escapeWith letters)) := by
  exact InPlace.rewrite_append (escapeBody_append letters) [] s hfuel

theorem StateJournal.escapeLoop_eq (s : Bytes) {fuel : Nat} (hfuel : s.length ≤ fuel)
    : escapeLoop fuel s = some (escape s) := by
  unfold escape
  rw [funext escapeChar_eq]
  exact rewrite_escapeBody letters s hfuel

theorem foldl_append_eq_flatMap (f : UInt8 → Bytes) (s out : Bytes)
    : s.foldl (fun out c => out ++ f c) out = out ++ s.flatMap f := by
  induction s generalizing out with
  | nil => simp
  | cons c s ih => rw [List.foldl_cons, ih, List.flatMap_cons, List.append_assoc]

theorem escapeCase_eq (c : UInt8)
    : escapeCase c (unicodeEscape c) = escapeWith Webhook.letters c
        ∧ escapeCase c (cStr (unicodeEscape c ++ [0])) = escapeWith Webhook.letters c := by
  have hall : ∀ c, escapeCase c (unicodeEscape c) = escapeWith Webhook.letters c
      ∧ escapeCase c (cStr (unicodeEscape c ++ [0])) = escapeWith Webhook.letters c := by
    exact Utf8.forall_byte (by decide +kernel)
  exact hall c

theorem escapeLoop_spec (s : Bytes)
    : (∀ fuel, s.length ≤ fuel → StateJournal.escapeLoop fuel s = some (StateJournal.escape s))
        ∧ (∀ fuel, s.length ≤ fuel → Webhook.escapeLoop fuel s = some (Webhook.escape s))
        ∧ EscapeOf s (StateJournal.escape s)
        ∧ EscapeOf s (Webhook.escape s)
        ∧ Webhook.escape s = Observability.escapeJson s
        ∧ Webhook.escape s = AuditLogger.jsonEscape s := by
  refine ⟨?_, ?_, ?_, ?_, ?_, ?_⟩
  . intro fuel hfuel
    exact StateJournal.escapeLoop_eq s hfuel
  . intro fuel hfuel
    exact rewrite_escapeBody _ s hfuel
  . exact escapeOf_flatMap StateJournal.isSpelling_escapeChar s
  . exact escapeOf_flatMap Webhook.isSpelling_escapeWith_letters s
  . unfold Observability.escapeJson Webhook.escape
    simp only [(escapeCase_eq _).1, foldl_append_eq_flatMap, List.nil_append]
  . unfold AuditLogger.jsonEscape Webhook.escape
    simp only [(escapeCase_eq _).2, foldl_append_eq_flatMap, List.nil_append]

end NeuroMesh
