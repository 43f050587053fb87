import Mathlib

/-!
This module contains Merkle trees that are built layer by layer. The last node of a layer of odd size has
no sibling and is lifted to the next layer on its own.
-/

namespace Merkle

variable {α : Type} (pair : α → α → α) (lone : α → α)

def nextLayer (layer : List α) : List α :=
  match layer with
  | a :: b :: layer => pair a b :: nextLayer layer
  | [a] => [lone a]
  | [] => []

def collapse (fuel : Nat) (layer : List α) : List α :=
  match fuel with
  | 0 => layer
  | fuel + 1 => if 1 < layer.length then collapse fuel (nextLayer pair lone layer) else layer

inductive Sibling (α : Type) where
  | left (a : α)
  | right (a : α)

def Sibling.join (s : Sibling α) (a : α) : α :=
  match s with
  | .left b => pair b a
  | .right b => pair a b

def sibling? (layer : List α) (idx : Nat) : Option (Sibling α) :=
  if idx % 2 = 0 then layer[idx + 1]?.map .right else layer[idx - 1]?.map .left

def siblings (fuel : Nat) (layer : List α) (idx : Nat) : List (Option (Sibling α)) :=
  match fuel with
  | 0 => []
  | fuel + 1 =>
    if 1 < layer.length then
      sibling? layer idx :: siblings fuel (nextLayer pair lone layer) (idx / 2)
    else
      []

def climb (a : α) (s : Option (Sibling α)) : α :=
  match s with
  | some s => s.join pair a
  | none => lone a

theorem length_nextLayer (layer : List α)
    : (nextLayer pair lone layer).length = (layer.length + 1) / 2 := by
  fun_induction nextLayer pair lone layer with
  | case1 a b layer ih =>
    rw [List.length_cons, ih, List.length_cons, List.length_cons]
    omega
  | case2 a => simp
  | case3 => simp

theorem clog_halve {size : Nat} (h : 1 < size) : Nat.clog 2 size = Nat.clog 2 ((size + 1) / 2) + 1 := by
  exact Nat.clog_of_two_le (by omega) h

theorem sibling?_cons_cons (b c : α) (layer : List α) (idx : Nat)
    : sibling? (b :: c :: layer) (idx + 2) = sibling? layer idx := by
  unfold sibling?
  rw [Nat.add_mod_right]
  split
  . rfl
  . match idx with
    | 0 => contradiction
    | idx + 1 => rfl

theorem getElem?_nextLayer {layer : List α} {idx : Nat} {a : α} (h : layer[idx]? = some a)
    : (nextLayer pair lone layer)[idx / 2]? = some (climb pair lone a (sibling? layer idx)) := by
  induction layer using nextLayer.induct generalizing idx with
  | case1 b c layer ih =>
    match idx with
    | 0 =>
      cases h
      rfl
    | 1 =>
      cases h
      rfl
    | idx + 2 =>
      have hdiv : (idx + 2) / 2 = idx / 2 + 1 := by omega
      rw [hdiv, sibling?_cons_cons]
      exact ih h
  | case2 b =>
    match idx with
    | 0 =>
      cases h
      rfl
    | idx + 1 => contradiction
  | case3 => contradiction

theorem collapse_eq {layer : List α} {idx fuel : Nat} {a : α} (h : layer[idx]? = some a)
    (hfuel : layer.length ≤ fuel + 1)
    : collapse pair lone fuel layer
        =
      [(siblings pair lone fuel layer idx).foldl (climb pair lone) a] := by
  induction fuel generalizing layer idx a with
  | zero =>
    match layer, idx with
    | [], _ => contradiction
    | [b], 0 =>
      cases h
      rfl
    | [b], idx + 1 => contradiction
    | b :: c :: layer, _ => simp at hfuel
  | succ fuel ih =>
    unfold collapse siblings
    split
    . apply ih
      . exact getElem?_nextLayer pair lone h
      . rw [length_nextLayer]
        omega
    . match layer, idx with
      | [], _ => contradiction
      | [b], 0 =>
        cases h
        rfl
      | [b], idx + 1 => contradiction
      | b :: c :: layer, _ => simp at *

theorem exists_collapse_eq {layer : List α} {fuel : Nat} (h : layer ≠ []) (hfuel : layer.length ≤ fuel + 1)
    : ∃ root, collapse pair lone fuel layer = [root] := by
  have hfirst := List.getElem?_eq_getElem (List.length_pos_iff.mpr h)
  exact ⟨_, collapse_eq pair lone hfirst hfuel⟩

def layerSize (size k : Nat) : Nat :=
  (size + 2 ^ k - 1) / 2 ^ k

def NeverAlone (size idx : Nat) : Prop :=
  ∀ k, 1 < layerSize size k → idx / 2 ^ k % 2 = 1 ∨ idx / 2 ^ k + 1 < layerSize size k

theorem layerSize_zero (size : Nat) : layerSize size 0 = size := by
  simp [layerSize]

theorem layerSize_succ (size k : Nat) : layerSize size (k + 1) = layerSize ((size + 1) / 2) k := by
  unfold layerSize
  have hpos := Nat.two_pow_pos k
  have hpow : 2 ^ (k + 1) = 2 * 2 ^ k := by omega
  have hsum : size + 2 ^ (k + 1) - 1 = (size + 1) + 2 * (2 ^ k - 1) := by omega
  have hmerge : (size + 1) / 2 + 2 ^ k - 1 = (size + 1) / 2 + (2 ^ k - 1) := by omega
  rw [hsum, hmerge, hpow, ← Nat.div_div_eq_div_mul, Nat.add_mul_div_left _ _ Nat.two_pos]

theorem layerSize_le_one {size : Nat} (h : size ≤ 1) (k : Nat) : layerSize size k ≤ 1 := by
  unfold layerSize
  have hpos := Nat.two_pow_pos k
  rw [Nat.div_le_iff_le_mul_add_pred hpos]
  omega

theorem neverAlone_iff (size idx : Nat)
    : NeverAlone size idx
        ↔
      (1 < size → idx % 2 = 1 ∨ idx + 1 < size) ∧ NeverAlone ((size + 1) / 2) (idx / 2) := by
  unfold NeverAlone
  constructor
  . intro h
    constructor
    . simpa [layerSize_zero] using h 0
    . intro k hk
      have hnext := h (k + 1)
      rw [layerSize_succ, Nat.pow_succ', ← Nat.div_div_eq_div_mul] at hnext
      exact hnext hk
  . rintro ⟨hzero, hsucc⟩ k
    match k with
    | 0 => simpa [layerSize_zero] using hzero
    | k + 1 =>
      rw [layerSize_succ, Nat.pow_succ', ← Nat.div_div_eq_div_mul]
      exact hsucc k

theorem neverAlone_of_le_one {size : Nat} (h : size ≤ 1) (idx : Nat) : NeverAlone size idx := by
  intro k hk
  have hle := layerSize_le_one h k
  omega

theorem isSome_sibling? {layer : List α} {idx : Nat} (h : idx < layer.length)
    : (sibling? layer idx).isSome ↔ idx % 2 = 1 ∨ idx + 1 < layer.length := by
  unfold sibling?
  split
  . next heven => simp [heven]
  . next hodd =>
    have hidx : idx - 1 < layer.length := by omega
    simp [hidx]
    omega

theorem forall_isSome_siblings_iff {layer : List α} {idx fuel : Nat} (h : idx < layer.length)
    (hfuel : layer.length ≤ fuel + 1)
    : (∀ s ∈ siblings pair lone fuel layer idx, s.isSome) ↔ NeverAlone layer.length idx := by
  induction fuel generalizing layer idx with
  | zero => simpa [siblings] using neverAlone_of_le_one hfuel idx
  | succ fuel ih =>
    unfold siblings
    split
    . next hlarge =>
      have hlength := length_nextLayer pair lone layer
      have hnext : idx / 2 < (nextLayer pair lone layer).length := by omega
      rw [List.forall_mem_cons, isSome_sibling? h, neverAlone_iff, ih hnext (by omega), hlength]
      simp [hlarge]
    . next hlarge => simpa using neverAlone_of_le_one (by omega) idx

theorem foldl_climb_of_isSome {path : List (Option (Sibling α))} (h : ∀ s ∈ path, s.isSome) (a : α)
    : path.foldl (climb pair lone) a = (path.filterMap id).foldl (fun a s => s.join pair a) a := by
  induction path generalizing a with
  | nil => rfl
  | cons s path ih =>
    rw [List.forall_mem_cons] at h
    match s with
    | some s => exact ih h.2 (s.join pair a)
    | none => simp at h

section Binding

variable {β : Type} (hash : β → α) (both : α → α → β) (single : α → β)

def preimages (layer : List α) : List β :=
  match layer with
  | a :: b :: layer => both a b :: preimages layer
  | [a] => [single a]
  | [] => []

def hashed (fuel : Nat) (layer : List α) : List β :=
  match fuel with
  | 0 => []
  | fuel + 1 =>
    if 1 < layer.length then
      preimages both single layer
        ++ hashed fuel (nextLayer (fun a b => hash (both a b)) (fun a => hash (single a)) layer)
    else
      []

def Collides (values : List β) : Prop :=
  ∃ s ∈ values, ∃ t ∈ values, s ≠ t ∧ hash s = hash t

variable {hash both single}

theorem Collides.mono {values more : List β} (h : Collides hash values) (hsub : values ⊆ more)
    : Collides hash more := by
  obtain ⟨s, hs, t, ht, hne, heq⟩ := h
  exact ⟨s, hsub hs, t, hsub ht, hne, heq⟩

theorem map_preimages (layer : List α)
    : (preimages both single layer).map hash
        =
      nextLayer (fun a b => hash (both a b)) (fun a => hash (single a)) layer := by
  induction layer using nextLayer.induct with
  | case1 a b layer ih => simp [preimages, nextLayer, ih]
  | case2 a => rfl
  | case3 => rfl

theorem eq_or_collides {values others : List β} (h : values.map hash = others.map hash)
    : values = others ∨ Collides hash (values ++ others) := by
  induction values generalizing others with
  | nil =>
    left
    simpa using h
  | cons s values ih =>
    cases others with
    | nil => simp at h
    | cons t others =>
      rw [List.map_cons, List.map_cons, List.cons.injEq] at h
      by_cases hst : s = t
      . rcases ih h.2 with heq | hcollides
        . left
          rw [hst, heq]
        . right
          apply hcollides.mono
          intro v hv
          simp only [List.mem_append, List.mem_cons] at hv ⊢
          tauto
      . right
        exact ⟨s, by simp, t, by simp, hst, h.1⟩

variable (good : α → Prop) (hboth : ∀ a b c d, good a → good c → both a b = both c d → a = c ∧ b = d)
  (hsingle : ∀ a b, single a = single b → a = b) (hhash : ∀ v, good (hash v))
include hboth hsingle

theorem preimages_inj {layer other : List α} (hlength : layer.length = other.length)
    (hgood : ∀ a ∈ layer, good a) (hother : ∀ a ∈ other, good a)
    (h : preimages both single layer = preimages both single other)
    : layer = other := by
  induction layer using nextLayer.induct generalizing other with
  | case1 a b layer ih =>
    match other with
    | c :: d :: other =>
      simp only [preimages, List.cons.injEq] at h
      simp only [List.forall_mem_cons] at hgood hother
      have hrest := ih (by simpa using hlength) hgood.2.2 hother.2.2 h.2
      obtain ⟨rfl, rfl⟩ := hboth a b c d hgood.1 hother.1 h.1
      rw [hrest]
    | [c] => simp at hlength
    | [] => simp at hlength
  | case2 a =>
    match other with
    | c :: d :: other => simp at hlength
    | [c] =>
      simp only [preimages, List.cons.injEq, and_true] at h
      rw [hsingle a c h]
    | [] => simp at hlength
  | case3 =>
    symm
    simpa using hlength.symm

include hhash

theorem eq_or_collides_of_collapse_eq {layer other : List α} {fuel : Nat}
    (hlength : layer.length = other.length)
    (hgood : ∀ a ∈ layer, good a) (hother : ∀ a ∈ other, good a)
    (h : collapse (fun a b => hash (both a b)) (fun a => hash (single a)) fuel layer
      = collapse (fun a b => hash (both a b)) (fun a => hash (single a)) fuel other)
    : layer = other
        ∨ Collides hash (hashed hash both single fuel layer ++ hashed hash both single fuel other) := by
  induction fuel generalizing layer other with
  | zero => exact Or.inl h
  | succ fuel ih =>
    unfold collapse at h
    unfold hashed
    rw [← hlength] at h ⊢
    split at h
    . next hlarge =>
      rw [if_pos hlarge, if_pos hlarge]
      have hall (layer : List α)
          : ∀ a ∈ nextLayer (fun a b => hash (both a b)) (fun a => hash (single a)) layer, good a := by
        rw [← map_preimages, List.forall_mem_map]
        intro v _
        exact hhash v
      rcases ih (by rw [length_nextLayer, length_nextLayer, hlength]) (hall _) (hall _) h with hnext | hcollides
      . -- the layers above are equal, so this one is too or its preimages collide
        rw [← map_preimages, ← map_preimages] at hnext
        rcases eq_or_collides hnext with heq | hcollides
        . left
          exact preimages_inj good hboth hsingle hlength hgood hother heq
        . right
          apply hcollides.mono
          intro v hv
          simp only [List.mem_append] at hv ⊢
          tauto
      . right
        apply hcollides.mono
        intro v hv
        simp only [List.mem_append] at hv ⊢
        tauto
    . next hlarge =>
      left
      exact h

end Binding

section Rank

variable {rank : α → Nat} {f : Sibling α → Nat → Nat}
  (hjoin : ∀ s a, rank (s.join pair a) = f s (rank a)) (hf : ∀ s, StrictMono (f s))
  (hlone : ∀ a, rank a < rank (lone a))
include hjoin hf hlone

theorem isSome_of_foldl_eq {path : List (Option (Sibling α))} {a b : α}
    (h : (path.filterMap id).foldl (fun a s => s.join pair a) b = path.foldl (climb pair lone) a)
    : rank a ≤ rank b ∧ (rank a = rank b → ∀ s ∈ path, s.isSome) := by
  induction path generalizing a b with
  | nil =>
    cases h
    simp
  | cons s path ih =>
    match s with
    | some s =>
      have hnext := ih h
      unfold climb at hnext
      dsimp only at hnext
      rw [hjoin, hjoin, (hf s).le_iff_le] at hnext
      refine ⟨hnext.1, ?_⟩
      intro heq
      rw [List.forall_mem_cons]
      exact ⟨rfl, hnext.2 (congrArg (f s) heq)⟩
    | none =>
      have hnext := (ih h).1
      unfold climb at hnext
      dsimp only at hnext
      have hgrow := hlone a
      constructor
      . omega
      . intro heq
        omega

end Rank

end Merkle
