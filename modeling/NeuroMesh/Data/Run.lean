import Mathlib

/-!
This module contains the theory of finite runs of a machine with a step function: properties of all
the steps and of all the states of a run, and the rules that derive them from properties of a single
step.
-/

namespace Run

variable {σ ι : Type} {step : σ → ι → σ}

/--
`P` holds of every step of the run of `inputs` from `s`, that is of every input together with the
state that it finds.
-/
def Along (step : σ → ι → σ) (P : σ → ι → Prop) (s : σ) (inputs : List ι) : Prop :=
  match inputs with
  | [] => True
  | i :: is => P s i ∧ Along step P (step s i) is

def Always (step : σ → ι → σ) (I : σ → Prop) (s : σ) (inputs : List ι) : Prop :=
  match inputs with
  | [] => I s
  | i :: is => I s ∧ Always step I (step s i) is

instance {P : σ → ι → Prop} [∀ s i, Decidable (P s i)] (s : σ) (inputs : List ι) :
    Decidable (Along step P s inputs) :=
  go s inputs
where
  go (s : σ) (inputs : List ι) : Decidable (Along step P s inputs) :=
    match inputs with
    | [] => isTrue trivial
    | i :: is =>
      have := go (step s i) is
      inferInstanceAs (Decidable (P s i ∧ Along step P (step s i) is))

instance {I : σ → Prop} [∀ s, Decidable (I s)] (s : σ) (inputs : List ι) :
    Decidable (Always step I s inputs) :=
  go s inputs
where
  go (s : σ) (inputs : List ι) : Decidable (Always step I s inputs) :=
    match inputs with
    | [] => inferInstanceAs (Decidable (I s))
    | i :: is =>
      have := go (step s i) is
      inferInstanceAs (Decidable (I s ∧ Always step I (step s i) is))

theorem along_append (P : σ → ι → Prop) (s : σ) (is js : List ι)
    : Along step P s (is ++ js)
        ↔
      Along step P s is ∧ Along step P (is.foldl step s) js := by
  induction is generalizing s with
  | nil => simp [Along]
  | cons i is ih => simp [Along, ih, and_assoc]

theorem along_iff_forall (P : σ → ι → Prop) (s : σ) (inputs : List ι)
    : Along step P s inputs
        ↔
      ∀ before i after, inputs = before ++ i :: after → P (before.foldl step s) i := by
  constructor
  . intro h before i after heq
    rw [heq, along_append] at h
    exact h.2.1
  . intro h
    induction inputs generalizing s with
    | nil => trivial
    | cons i is ih =>
      refine ⟨h [] i is rfl, ?_⟩
      apply ih
      intro before j after heq
      apply h (i :: before) j after
      rw [heq]
      rfl

theorem along_of_invariant {I : σ → Prop} {P Q : σ → ι → Prop}
    (hstep : ∀ s i, I s → Q s i → P s i ∧ I (step s i)) {s : σ} {inputs : List ι}
    (hinit : I s) (h : Along step Q s inputs)
    : Along step P s inputs := by
  induction inputs generalizing s with
  | nil => trivial
  | cons i is ih =>
    have hnext := hstep s i hinit h.1
    exact ⟨hnext.1, ih hnext.2 h.2⟩

theorem foldl_of_invariant {I : σ → Prop} {Q : σ → ι → Prop}
    (hstep : ∀ s i, I s → Q s i → I (step s i)) {s : σ} {inputs : List ι}
    (hinit : I s) (h : Along step Q s inputs)
    : I (inputs.foldl step s) := by
  induction inputs generalizing s with
  | nil => exact hinit
  | cons i is ih => exact ih (hstep s i hinit h.1) h.2

theorem foldl_of_always {I : σ → Prop} {s : σ} {inputs : List ι} (h : Always step I s inputs)
    : I (inputs.foldl step s) := by
  induction inputs generalizing s with
  | nil => exact h
  | cons i is ih => exact ih h.2

theorem always_of_invariant {I J : σ → Prop} {Q : σ → ι → Prop}
    (hstep : ∀ s i, I s → Q s i → I (step s i)) (himp : ∀ s, I s → J s) {s : σ} {inputs : List ι}
    (hinit : I s) (h : Along step Q s inputs)
    : Always step J s inputs := by
  induction inputs generalizing s with
  | nil => exact himp s hinit
  | cons i is ih => exact ⟨himp s hinit, ih (hstep s i hinit h.1) h.2⟩

theorem always_of_step {I : σ → Prop} (hstep : ∀ s i, I s → I (step s i)) {s : σ} {inputs : List ι}
    (hinit : I s)
    : Always step I s inputs := by
  induction inputs generalizing s with
  | nil => exact hinit
  | cons i is ih => exact ⟨hinit, ih (hstep s i hinit)⟩

theorem along_of_forall {P : σ → ι → Prop} (h : ∀ s i, P s i) {s : σ} {inputs : List ι}
    : Along step P s inputs := by
  rw [along_iff_forall]
  intro before i after _
  apply h

theorem along_mono {P Q : σ → ι → Prop} (himp : ∀ s i, P s i → Q s i) {s : σ} {inputs : List ι}
    (h : Along step P s inputs)
    : Along step Q s inputs := by
  rw [along_iff_forall] at h ⊢
  intro before i after heq
  exact himp _ i (h before i after heq)

theorem along_and {P Q : σ → ι → Prop} {s : σ} {inputs : List ι} (hP : Along step P s inputs)
    (hQ : Along step Q s inputs)
    : Along step (fun s i => P s i ∧ Q s i) s inputs := by
  induction inputs generalizing s with
  | nil => trivial
  | cons i is ih => exact ⟨⟨hP.1, hQ.1⟩, ih hP.2 hQ.2⟩

theorem along_of_always {I : σ → Prop} {s : σ} {inputs : List ι} (h : Always step I s inputs)
    : Along step (fun s i => I s ∧ I (step s i)) s inputs := by
  induction inputs generalizing s with
  | nil => trivial
  | cons i is ih =>
    refine ⟨⟨h.1, ?_⟩, ih h.2⟩
    cases is with
    | nil => exact h.2
    | cons j js => exact h.2.1

theorem along_map {τ : Type} {step' : τ → ι → τ} {f : σ → τ} (hf : ∀ s i, f (step s i) = step' (f s) i)
    (P : τ → ι → Prop) (s : σ) (inputs : List ι)
    : Along step (fun s i => P (f s) i) s inputs ↔ Along step' P (f s) inputs := by
  induction inputs generalizing s with
  | nil => rfl
  | cons i is ih => simp only [Along, ih, hf]

theorem along_iff_of_invariant {I : σ → Prop} {P Q : σ → ι → Prop} (hiff : ∀ s i, I s → (P s i ↔ Q s i))
    (hstep : ∀ s i, I s → Q s i → I (step s i)) {s : σ} {inputs : List ι} (hinit : I s)
    : Along step P s inputs ↔ Along step Q s inputs := by
  induction inputs generalizing s with
  | nil => rfl
  | cons i is ih =>
    simp only [Along]
    rw [hiff s i hinit]
    constructor
    . intro h
      exact ⟨h.1, (ih (hstep s i hinit h.1)).mp h.2⟩
    . intro h
      exact ⟨h.1, (ih (hstep s i hinit h.1)).mpr h.2⟩

def observe {ο : Type} (step : σ → ι → σ) (out : σ → ι → Option ο) (s : σ) (inputs : List ι) : List ο :=
  match inputs with
  | [] => []
  | i :: is => (out s i).toList ++ observe step out (step s i) is

section Filter

variable {keep : ι → Bool} {s : σ} {inputs : List ι}
  (h : Along step (fun s i => keep i = false → step s i = s) s inputs)
include h

theorem foldl_filter : (inputs.filter keep).foldl step s = inputs.foldl step s := by
  induction inputs generalizing s with
  | nil => rfl
  | cons i is ih =>
    have hrest := ih h.2
    rw [List.filter_cons]
    split
    . exact hrest
    . next hkeep =>
      have hstep := h.1 (by simpa using hkeep)
      rw [hstep] at hrest
      rw [List.foldl_cons, hstep]
      exact hrest

theorem observe_filter {ο : Type} {out : σ → ι → Option ο}
    (hout : ∀ s i, keep i = false → out s i = none)
    : observe step out s (inputs.filter keep) = observe step out s inputs := by
  induction inputs generalizing s with
  | nil => rfl
  | cons i is ih =>
    have hrest := ih h.2
    rw [List.filter_cons]
    split
    . simp only [observe, hrest]
    . next hkeep =>
      have hkeep : keep i = false := by simpa using hkeep
      simp only [observe, hout s i hkeep, h.1 hkeep] at hrest ⊢
      exact hrest

end Filter

def Reaches (step : σ → ι → σ) (P : ι → Prop) (s t : σ) : Prop :=
  ∃ inputs : List ι, (∀ i ∈ inputs, P i) ∧ inputs.foldl step s = t

namespace Reaches

variable {P Q : ι → Prop} {s t u : σ}

theorem refl (s : σ) : Reaches step P s s := by
  exact ⟨[], by simp, rfl⟩

theorem single {i : ι} (h : P i) : Reaches step P s (step s i) := by
  refine ⟨[i], ?_, rfl⟩
  simpa using h

theorem trans (h₁ : Reaches step P s t) (h₂ : Reaches step P t u) : Reaches step P s u := by
  obtain ⟨is, his, rfl⟩ := h₁
  obtain ⟨js, hjs, rfl⟩ := h₂
  refine ⟨is ++ js, ?_, List.foldl_append⟩
  intro i hi
  rcases List.mem_append.mp hi with hi | hi
  . exact his i hi
  . exact hjs i hi

theorem mono (himp : ∀ i, P i → Q i) (h : Reaches step P s t) : Reaches step Q s t := by
  obtain ⟨is, his, rfl⟩ := h
  exact ⟨is, fun i hi => himp i (his i hi), rfl⟩

theorem invariant {I : σ → Prop} (hstep : ∀ s i, P i → I s → I (step s i))
    (h : Reaches step P s t) (hinit : I s)
    : I t := by
  obtain ⟨is, his, rfl⟩ := h
  induction is generalizing s with
  | nil => exact hinit
  | cons i is ih =>
    apply ih
    . apply hstep s i (his i List.mem_cons_self) hinit
    . intro j hj
      exact his j (List.mem_cons_of_mem i hj)

end Reaches

end Run
