import Mathlib

/-!
This module contains the theory of lists that are made of fields with a delimiter between them: how
they are split at the delimiter, and which fields can be recovered from the concatenation.
-/

namespace Delimited

variable {α : Type} {d : α} {a b : List α} {x y : List (List α)}

theorem intercalate_cons (a : List α) (hx : x ≠ [])
    : [d].intercalate (a :: x) = a ++ d :: [d].intercalate x := by
  cases x with
  | nil => contradiction
  | cons b x => simp [List.intercalate]

theorem intercalate_concat (a : List α) (hx : x ≠ [])
    : [d].intercalate (x ++ [a]) = [d].intercalate x ++ d :: a := by
  induction x with
  | nil => contradiction
  | cons b x ih =>
    cases x with
    | nil => simp [List.intercalate]
    | cons c x =>
      rw [List.cons_append]
      rw [intercalate_cons b (by simp)]
      rw [ih (by simp)]
      rw [intercalate_cons b (by simp)]
      simp

theorem eq_or_mem_of_mem_intercalate {c : α} (h : c ∈ [d].intercalate x)
    : c = d ∨ ∃ field ∈ x, c ∈ field := by
  induction x with
  | nil => simp [List.intercalate] at h
  | cons a x ih =>
    cases x with
    | nil =>
      rw [List.intercalate_singleton] at h
      exact .inr ⟨a, List.mem_cons_self, h⟩
    | cons b x =>
      rw [intercalate_cons a (List.cons_ne_nil _ _), List.mem_append, List.mem_cons] at h
      rcases h with h | h | h
      . exact .inr ⟨a, List.mem_cons_self, h⟩
      . exact .inl h
      . rcases ih h with h | ⟨field, hfield, h⟩
        . exact .inl h
        . exact .inr ⟨field, List.mem_cons_of_mem a hfield, h⟩

theorem mem_intercalate {c : α} (h : a ∈ x) (hc : c ∈ a) : c ∈ [d].intercalate x := by
  induction x with
  | nil => contradiction
  | cons b x ih =>
    by_cases hx : x = []
    . subst hx
      rw [List.mem_singleton] at h
      rwa [List.intercalate_singleton, ← h]
    . rw [intercalate_cons b hx, List.mem_append, List.mem_cons]
      rcases List.mem_cons.mp h with rfl | h
      . exact .inl hc
      . exact .inr (.inr (ih h))

theorem append_cons_inj {u v : List α} (ha : d ∉ a) (hb : d ∉ b) (h : a ++ d :: u = b ++ d :: v)
    : a = b ∧ u = v := by
  induction a generalizing b with
  | nil =>
    cases b with
    | nil => simpa using h
    | cons c b =>
      have : d = c := by simpa using congrArg List.head? h
      simp [this] at hb
  | cons c a ih =>
    cases b with
    | nil =>
      have : c = d := by simpa using congrArg List.head? h
      simp [this] at ha
    | cons e b =>
      simp only [List.cons_append, List.cons.injEq] at h
      obtain ⟨rfl, rfl⟩ := ih (by simp_all) (by simp_all) h.2
      simp [h.1]

theorem intercalate_cons_inj (ha : d ∉ a) (hb : d ∉ b) (hx : x ≠ []) (hy : y ≠ [])
    (h : [d].intercalate (a :: x) = [d].intercalate (b :: y))
    : a = b ∧ [d].intercalate x = [d].intercalate y := by
  rw [intercalate_cons a hx, intercalate_cons b hy] at h
  exact append_cons_inj ha hb h

theorem intercalate_concat_inj (ha : d ∉ a) (hb : d ∉ b) (hx : x ≠ []) (hy : y ≠ [])
    (h : [d].intercalate (x ++ [a]) = [d].intercalate (y ++ [b]))
    : a = b ∧ [d].intercalate x = [d].intercalate y := by
  rw [intercalate_concat a hx, intercalate_concat b hy] at h
  have hrev := congrArg List.reverse h
  simp only [List.reverse_append, List.reverse_cons, List.append_assoc, List.singleton_append]
    at hrev
  have hparts := append_cons_inj (by simpa using ha) (by simpa using hb) hrev
  simpa only [List.reverse_inj] using hparts

/--
Split at every delimiter the way that repeated calls of `std::getline` do, so there is no last token
after a trailing delimiter.
-/
def split [DecidableEq α] (d : α) (s : List α) : List (List α) :=
  go s []
where
  go (s : List α) (token : List α) : List (List α) :=
    match s with
    | [] => if token = [] then [] else [token.reverse]
    | c :: cs => if c = d then token.reverse :: go cs [] else go cs (c :: token)

variable [DecidableEq α]

theorem split.notMem_of_mem_go (s token : List α) (h : d ∉ token)
    : ∀ field ∈ split.go d s token, d ∉ field := by
  induction s generalizing token with
  | nil =>
    unfold go
    split <;> simp [h]
  | cons c cs ih =>
    unfold go
    split
    . simpa [h] using ih [] (by simp)
    . next hc =>
      apply ih
      simpa [h] using Ne.symm hc

theorem notMem_of_mem_split {s field : List α} (h : field ∈ split d s) : d ∉ field := by
  exact split.notMem_of_mem_go s [] (by simp) field h

theorem split.mem_of_mem_go {c : α} (s token : List α) {field : List α} (h : field ∈ split.go d s token)
    (hc : c ∈ field)
    : c ∈ s ∨ c ∈ token := by
  induction s generalizing token with
  | nil =>
    unfold go at h
    split at h
    . simp at h
    . rw [List.mem_singleton] at h
      rw [h, List.mem_reverse] at hc
      exact .inr hc
  | cons e es ih =>
    unfold go at h
    split at h
    . rcases List.mem_cons.mp h with rfl | h
      . exact .inr (List.mem_reverse.mp hc)
      . exact .inl (List.mem_cons_of_mem e ((ih [] h).resolve_right (by simp)))
    . rcases ih _ h with hmem | hmem
      . exact .inl (List.mem_cons_of_mem e hmem)
      . rcases List.mem_cons.mp hmem with rfl | hmem
        . exact .inl List.mem_cons_self
        . exact .inr hmem

theorem mem_of_mem_split {c : α} {s field : List α} (h : field ∈ split d s) (hc : c ∈ field) : c ∈ s := by
  exact (split.mem_of_mem_go s [] h hc).resolve_right (by simp)

theorem split.go_eq_nil_iff (s token : List α) : split.go d s token = [] ↔ s = [] ∧ token = [] := by
  induction s generalizing token with
  | nil =>
    unfold go
    split <;> simp_all
  | cons c cs ih =>
    unfold go
    split
    . simp
    . rw [ih]
      simp

theorem split_eq_nil_iff {s : List α} : split d s = [] ↔ s = [] := by
  unfold split
  rw [split.go_eq_nil_iff]
  simp

theorem split.go_append_cons (hfield : d ∉ a) (s token : List α)
    : split.go d (a ++ d :: s) token = (token.reverse ++ a) :: split.go d s [] := by
  induction a generalizing token with
  | nil => simp [go]
  | cons c cs ih =>
    rw [List.mem_cons, not_or] at hfield
    rw [List.cons_append, go, if_neg (Ne.symm hfield.1), ih hfield.2]
    simp

theorem split.go_last (hfield : d ∉ a) (token : List α) (hne : token.reverse ++ a ≠ [])
    : split.go d a token = [token.reverse ++ a] := by
  induction a generalizing token with
  | nil =>
    rw [go, if_neg]
    . simp
    . simpa using hne
  | cons c cs ih =>
    rw [List.mem_cons, not_or] at hfield
    rw [go, if_neg (Ne.symm hfield.1), ih hfield.2]
    . simp
    . simp

theorem split.go_append (s s' token : List α)
    : split.go d (s ++ d :: s') token = split.go d (s ++ [d]) token ++ split.go d s' [] := by
  induction s generalizing token with
  | nil => simp [go]
  | cons c cs ih =>
    rw [List.cons_append, List.cons_append, go, go]
    split
    . rw [ih, List.cons_append]
    . rw [ih]

theorem split_append (s s' : List α) : split d (s ++ d :: s') = split d (s ++ [d]) ++ split d s' := by
  apply split.go_append

theorem split_intercalate {fields : List (List α)} (hfree : ∀ field ∈ fields, d ∉ field)
    (hlast : fields.getLastD [] ≠ [])
    : split d ([d].intercalate fields) = fields := by
  unfold split
  induction fields with
  | nil => contradiction
  | cons field fields ih =>
    rw [List.forall_mem_cons] at hfree
    cases fields with
    | nil =>
      rw [List.intercalate_singleton, split.go_last hfree.1]
      . rfl
      . simpa using hlast
    | cons next fields =>
      rw [intercalate_cons field (List.cons_ne_nil _ _), split.go_append_cons hfree.1, ih hfree.2]
      . rfl
      . simpa using hlast

def splitAtMost (d : α) (n : Nat) (s : List α) : List (List α) :=
  match n with
  | 0 => [s]
  | n + 1 =>
    match s.dropWhile (· ≠ d) with
    | [] => [s]
    | _ :: rest => s.takeWhile (· ≠ d) :: splitAtMost d n rest

theorem splitAtMost_append {a : List α} (ha : d ∉ a) (n : Nat) (s : List α)
    : splitAtMost d (n + 1) (a ++ d :: s) = a :: splitAtMost d n s := by
  have hne : ∀ c ∈ a, decide (c ≠ d) = true := by
    intro c hc
    rw [decide_eq_true_eq]
    rintro rfl
    exact ha hc
  rw [splitAtMost, List.dropWhile_append_of_pos hne, List.takeWhile_append_of_pos hne]
  simp

end Delimited
