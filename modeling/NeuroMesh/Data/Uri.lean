import NeuroMesh.Data.Ascii
import NeuroMesh.Data.Utf8

/-!
This module contains the URIs of RFC 3986 that have an authority, with the grammar of the authority. The path, the
query and the fragment are only told apart from the authority.
-/

namespace Uri

export Ascii (isDigit)

def isAlpha (c : UInt8) : Bool :=
  (0x41 ≤ c && c ≤ 0x5a) || (0x61 ≤ c && c ≤ 0x7a)

def isHexDigit (c : UInt8) : Bool :=
  isDigit c || (0x41 ≤ c && c ≤ 0x46) || (0x61 ≤ c && c ≤ 0x66)

def isUnreserved (c : UInt8) : Bool :=
  isAlpha c || isDigit c || [0x2d, 0x2e, 0x5f, 0x7e].contains c

def isSubDelim (c : UInt8) : Bool :=
  [0x21, 0x24, 0x26, 0x27, 0x28, 0x29, 0x2a, 0x2b, 0x2c, 0x3b, 0x3d].contains c

def isEncoded (allowed : UInt8 → Bool) (s : List UInt8) : Bool :=
  match s with
  | [] => true
  | c :: s =>
    if c = 0x25 then
      match s with
      | high :: low :: s => isHexDigit high && isHexDigit low && isEncoded allowed s
      | _ => false
    else
      allowed c && isEncoded allowed s

def isScheme (s : List UInt8) : Bool :=
  s.head?.any isAlpha && s.all fun c => isAlpha c || isDigit c || [0x2b, 0x2d, 0x2e].contains c

def isUserinfo (s : List UInt8) : Bool :=
  isEncoded (fun c => isUnreserved c || isSubDelim c || c == 0x3a) s

def isRegName (s : List UInt8) : Bool :=
  isEncoded (fun c => isUnreserved c || isSubDelim c) s

def isLiteral (s : List UInt8) : Bool :=
  s.all fun c => isUnreserved c || isSubDelim c || c == 0x3a

def IsHost (s : List UInt8) : Prop :=
  isRegName s ∨ ∃ literal, s = 0x5b :: (literal ++ [0x5d]) ∧ isLiteral literal

def isEnd (c : UInt8) : Bool :=
  c == 0x2f || c == 0x3f || c == 0x23

end Uri

structure Uri where
  scheme : List UInt8
  userinfo : Option (List UInt8)
  host : List UInt8
  port : Option (List UInt8)
  rest : List UInt8
  hscheme : Uri.isScheme scheme
  huserinfo : ∀ info ∈ userinfo, Uri.isUserinfo info
  hhost : Uri.IsHost host
  hport : ∀ digits ∈ port, digits.all Uri.isDigit
  hrest : ∀ c ∈ rest.head?, Uri.isEnd c

namespace Uri

variable (uri : Uri)

def userinfoText : List UInt8 :=
  match uri.userinfo with
  | none => []
  | some info => info ++ [0x40]

def portText : List UInt8 :=
  match uri.port with
  | none => []
  | some digits => 0x3a :: digits

def authority : List UInt8 :=
  uri.userinfoText ++ (uri.host ++ uri.portText)

def text : List UInt8 :=
  uri.scheme ++ 0x3a :: 0x2f :: 0x2f :: (uri.authority ++ uri.rest)

section Characters

theorem of_mem_of_isEncoded {allowed : UInt8 → Bool} {s : List UInt8} (h : isEncoded allowed s)
    : ∀ c ∈ s, allowed c ∨ c = 0x25 ∨ isHexDigit c := by
  fun_induction isEncoded allowed s with
  | case1 => exact nofun
  | case2 high low s ih =>
    simp only [Bool.and_eq_true] at h
    simp only [List.forall_mem_cons, h.1, or_true, true_or, true_and]
    exact ih h.2
  | case3 => contradiction
  | case4 c s hc ih =>
    simp only [Bool.and_eq_true] at h
    simp only [List.forall_mem_cons, h.1, true_or, true_and]
    exact ih h.2

variable {c : UInt8}

theorem notMem_scheme : 0x3a ∉ uri.scheme := by
  intro hmem
  have hscheme := uri.hscheme
  simp only [isScheme, Bool.and_eq_true, List.all_eq_true] at hscheme
  exact absurd (hscheme.2 0x3a hmem) (by decide)

theorem ne_of_mem_userinfo {info : List UInt8} (h : info ∈ uri.userinfo) (hc : c ∈ info)
    : isEnd c = false ∧ c ≠ 0x40 := by
  have hsplit : ∀ c, (isUnreserved c || isSubDelim c || c == 0x3a) ∨ c = 0x25 ∨ isHexDigit c →
      isEnd c = false ∧ c ≠ 0x40 := by
    exact Utf8.forall_byte (by decide +kernel)
  exact hsplit c (of_mem_of_isEncoded (uri.huserinfo info h) c hc)

theorem ne_of_mem_regName {name : List UInt8} (h : isRegName name) (hc : c ∈ name)
    : isEnd c = false ∧ c ≠ 0x40 ∧ c ≠ 0x3a ∧ c ≠ 0x5b := by
  have hsplit : ∀ c, (isUnreserved c || isSubDelim c) ∨ c = 0x25 ∨ isHexDigit c →
      isEnd c = false ∧ c ≠ 0x40 ∧ c ≠ 0x3a ∧ c ≠ 0x5b := by
    exact Utf8.forall_byte (by decide +kernel)
  exact hsplit c (of_mem_of_isEncoded h c hc)

theorem ne_of_mem_literal {literal : List UInt8} (h : isLiteral literal) (hc : c ∈ literal)
    : isEnd c = false ∧ c ≠ 0x40 ∧ c ≠ 0x5d := by
  have hsplit : ∀ c, (isUnreserved c || isSubDelim c || c == 0x3a) → isEnd c = false ∧ c ≠ 0x40 ∧ c ≠ 0x5d := by
    exact Utf8.forall_byte (by decide +kernel)
  exact hsplit c (List.all_eq_true.mp h c hc)

theorem ne_of_mem_host (hc : c ∈ uri.host) : isEnd c = false ∧ c ≠ 0x40 := by
  rcases uri.hhost with hname | ⟨literal, heq, hliteral⟩
  . have hne := ne_of_mem_regName hname hc
    exact ⟨hne.1, hne.2.1⟩
  . rw [heq] at hc
    simp only [List.mem_cons, List.mem_append, List.not_mem_nil, or_false] at hc
    rcases hc with rfl | hc | rfl
    . decide
    . have hne := ne_of_mem_literal hliteral hc
      exact ⟨hne.1, hne.2.1⟩
    . decide

theorem ne_of_mem_portText (hc : c ∈ uri.portText) : isEnd c = false ∧ c ≠ 0x40 := by
  have hdigit : ∀ c, isDigit c → isEnd c = false ∧ c ≠ 0x40 := by
    exact Utf8.forall_byte (by decide +kernel)
  unfold portText at hc
  cases hport : uri.port with
  | none => simp [hport] at hc
  | some digits =>
    simp only [hport, List.mem_cons] at hc
    rcases hc with rfl | hc
    . decide
    . exact hdigit c (List.all_eq_true.mp (uri.hport digits hport) c hc)

end Characters

section Host

def hostOf (text : List UInt8) : List UInt8 :=
  let behind := (text.dropWhile (· ≠ 0x3a)).drop 3
  let authority := behind.takeWhile fun c => !isEnd c
  let address := if 0x40 ∈ authority then (authority.dropWhile (· ≠ 0x40)).drop 1 else authority
  if address.head? = some 0x5b then address.takeWhile (· ≠ 0x5d) ++ [0x5d] else address.takeWhile (· ≠ 0x3a)

theorem takeWhile_of_head {p : UInt8 → Bool} {s : List UInt8} (h : ∀ c ∈ s.head?, p c = false)
    : s.takeWhile p = [] := by
  cases s with
  | nil => rfl
  | cons c s => exact List.takeWhile_cons_of_neg (by simp [h c rfl])

theorem dropWhile_append_cons {c : UInt8} {s : List UInt8} (h : c ∉ s) (t : List UInt8)
    : (s ++ c :: t).dropWhile (· ≠ c) = c :: t := by
  rw [List.dropWhile_append_of_pos]
  . simp
  . intro d hd
    have hne : d ≠ c := fun heq => h (heq ▸ hd)
    simp [hne]

theorem dropWhile_text : (uri.text.dropWhile (· ≠ 0x3a)).drop 3 = uri.authority ++ uri.rest := by
  unfold text
  rw [dropWhile_append_cons uri.notMem_scheme]
  rfl

theorem isEnd_of_mem_authority {c : UInt8} (hc : c ∈ uri.authority) : isEnd c = false := by
  unfold authority at hc
  simp only [List.mem_append] at hc
  rcases hc with hc | hc | hc
  . unfold userinfoText at hc
    cases hinfo : uri.userinfo with
    | none => simp [hinfo] at hc
    | some info =>
      simp only [hinfo, List.mem_append, List.mem_singleton] at hc
      rcases hc with hc | rfl
      . exact (uri.ne_of_mem_userinfo hinfo hc).1
      . rfl
  . exact (uri.ne_of_mem_host hc).1
  . exact (uri.ne_of_mem_portText hc).1

theorem takeWhile_authority : (uri.authority ++ uri.rest).takeWhile (fun c => !isEnd c) = uri.authority := by
  rw [List.takeWhile_append_of_pos, takeWhile_of_head, List.append_nil]
  . intro c hc
    simp [uri.hrest c hc]
  . intro c hc
    simp [uri.isEnd_of_mem_authority hc]

theorem at_notMem_address : 0x40 ∉ uri.host ++ uri.portText := by
  intro hmem
  rcases List.mem_append.mp hmem with hc | hc
  . exact (uri.ne_of_mem_host hc).2 rfl
  . exact (uri.ne_of_mem_portText hc).2 rfl

theorem address_authority
    : (if 0x40 ∈ uri.authority then (uri.authority.dropWhile (· ≠ 0x40)).drop 1 else uri.authority)
        = uri.host ++ uri.portText := by
  unfold authority userinfoText
  cases hinfo : uri.userinfo with
  | none =>
    rw [List.nil_append, if_neg uri.at_notMem_address]
  | some info =>
    have hat : 0x40 ∉ info := fun hmem => (uri.ne_of_mem_userinfo hinfo hmem).2 rfl
    rw [if_pos (by simp), List.append_assoc, List.singleton_append, dropWhile_append_cons hat]
    rfl

theorem head?_portText : ∀ c ∈ uri.portText.head?, c = 0x3a := by
  unfold portText
  cases uri.port with
  | none => simp
  | some digits => simp

theorem hostOf_text : hostOf uri.text = uri.host := by
  unfold hostOf
  dsimp only
  rw [dropWhile_text, takeWhile_authority, address_authority]
  rcases uri.hhost with hname | ⟨literal, heq, hliteral⟩
  . rw [if_neg, List.takeWhile_append_of_pos, takeWhile_of_head, List.append_nil]
    . intro c hc
      simp [uri.head?_portText c hc]
    . intro c hc
      simp [(ne_of_mem_regName hname hc).2.2.1]
    . cases hhost : uri.host with
      | nil =>
        intro hhead
        exact absurd (uri.head?_portText 0x5b hhead) (by decide)
      | cons c name =>
        have hne := ne_of_mem_regName hname (show c ∈ uri.host by simp [hhost])
        simp [hne.2.2.2]
  . rw [heq]
    simp only [List.cons_append, List.append_assoc, List.head?_cons, if_true, List.nil_append]
    rw [List.takeWhile_cons_of_pos (by decide), List.takeWhile_append_of_pos]
    . simp
    . intro c hc
      simp [(ne_of_mem_literal hliteral hc).2.2]

end Host

end Uri
