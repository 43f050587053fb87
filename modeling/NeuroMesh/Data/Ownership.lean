import Mathlib

/-!
This module contains the theory of resources that have exactly one owner. An owner has at most one resource, and the
resources that exist are those that somebody owns.
-/

namespace Ownership

variable {ω ρ : Type}

structure Exclusive (own : ω → Option ρ) (alive : ρ → Prop) : Prop where
  alive_iff : ∀ r, alive r ↔ ∃ o, own o = some r
  eq_of_eq : ∀ o o' r, own o = some r → own o' = some r → o = o'

namespace Exclusive

variable [DecidableEq ω] {own : ω → Option ρ} {before after : ρ → Prop} {o o' : ω} {r : ρ}

theorem acquire (h : Exclusive own before) (hfree : own o = none) (hnew : ¬before r)
    (hafter : ∀ x, after x ↔ x = r ∨ before x)
    : Exclusive (Function.update own o (some r)) after := by
  constructor
  . intro x
    rw [hafter, h.alive_iff]
    constructor
    . rintro (rfl | ⟨p, hp⟩)
      . exact ⟨o, Function.update_self ..⟩
      . have hne : p ≠ o := by
          rintro rfl
          rw [hfree] at hp
          contradiction
        exact ⟨p, by rwa [Function.update_of_ne hne]⟩
    . rintro ⟨p, hp⟩
      by_cases hpo : p = o
      . subst hpo
        rw [Function.update_self, Option.some.injEq] at hp
        exact .inl hp.symm
      . rw [Function.update_of_ne hpo] at hp
        exact .inr ⟨p, hp⟩
  . intro p q x hp hq
    have hother {p : ω} (hpo : p ≠ o) (hp : Function.update own o (some r) p = some x) : x ≠ r := by
      rintro rfl
      rw [Function.update_of_ne hpo] at hp
      exact hnew ((h.alive_iff x).mpr ⟨p, hp⟩)
    by_cases hpo : p = o
    . by_cases hqo : q = o
      . rw [hpo, hqo]
      . rw [hpo, Function.update_self, Option.some.injEq] at hp
        exact absurd hp.symm (hother hqo hq)
    . by_cases hqo : q = o
      . rw [hqo, Function.update_self, Option.some.injEq] at hq
        exact absurd hq.symm (hother hpo hp)
      . rw [Function.update_of_ne hpo] at hp
        rw [Function.update_of_ne hqo] at hq
        exact h.eq_of_eq p q x hp hq

theorem release (h : Exclusive own before) (howns : own o = some r) (hafter : ∀ x, after x ↔ x ≠ r ∧ before x)
    : Exclusive (Function.update own o none) after := by
  constructor
  . intro x
    rw [hafter, h.alive_iff]
    constructor
    . rintro ⟨hne, p, hp⟩
      have hpo : p ≠ o := by
        rintro rfl
        rw [howns, Option.some.injEq] at hp
        exact hne hp.symm
      exact ⟨p, by rwa [Function.update_of_ne hpo]⟩
    . rintro ⟨p, hp⟩
      have hpo : p ≠ o := by
        rintro rfl
        rw [Function.update_self] at hp
        contradiction
      rw [Function.update_of_ne hpo] at hp
      refine ⟨?_, p, hp⟩
      rintro rfl
      exact hpo (h.eq_of_eq p o x hp howns)
  . intro p q x hp hq
    have hkept {p : ω} (hp : Function.update own o none p = some x) : own p = some x := by
      by_cases hpo : p = o
      . rw [hpo, Function.update_self] at hp
        contradiction
      . rwa [Function.update_of_ne hpo] at hp
    exact h.eq_of_eq p q x (hkept hp) (hkept hq)

theorem transfer (h : Exclusive own before) (howns : own o = some r) (hfree : own o' = none)
    : Exclusive (Function.update (Function.update own o none) o' (some r)) before := by
  have hreleased : Exclusive (Function.update own o none) fun x => x ≠ r ∧ before x :=
    h.release howns fun _ => Iff.rfl
  have hne : o' ≠ o := by
    rintro rfl
    rw [howns] at hfree
    contradiction
  apply hreleased.acquire
  . rwa [Function.update_of_ne hne]
  . exact fun hr => hr.1 rfl
  . intro x
    by_cases hx : x = r
    . have hr : before r := (h.alive_iff r).mpr ⟨o, howns⟩
      simp [hx, hr]
    . simp [hx]

end Exclusive
end Ownership
