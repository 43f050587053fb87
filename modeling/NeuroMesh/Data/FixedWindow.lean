import Mathlib

/-!
This module contains the theory of a limiter that counts the calls of the current window of length `l`, and
opens the next window with the first call after it. The counter may be forgotten, it then starts from the
default counter whose window starts at `0`. The limit survives this as long as only windows that are over are
forgotten.
-/

namespace FixedWindow

structure Counter where
  count : Int
  start : Int

def current (l : Int) (counter : Option Counter) (now : Int) : Counter :=
  let c := counter.getD ⟨0, 0⟩
  if l ≤ now - c.start then ⟨0, now⟩ else c

def bump (c : Counter) : Counter :=
  { c with count := c.count + 1 }

def inWindow (l start : Int) (passed : List Int) : Nat :=
  passed.countP fun t => start ≤ t ∧ t < start + l

structure Counts (l now : Int) (c : Counter) (windows passed : List Int) : Prop where
  start_mem : c.start ∈ windows
  start_le : c.start = 0 ∨ c.start ≤ now
  inWindow_le : (inWindow l c.start passed : Int) ≤ c.count
  apart : ∀ w ∈ windows, w = c.start ∨ w + l ≤ c.start
  passed_lt : ∀ t ∈ passed, t < c.start + l

structure Sound (l : Int) (m : Nat) (now : Int) (counter : Option Counter) (windows passed : List Int) :
    Prop where
  start_nonneg : ∀ w ∈ windows, 0 ≤ w
  passed_nil : windows = [] → passed = []
  limit : ∀ w ∈ windows, inWindow l w passed ≤ m
  forgotten : counter = none → (∀ w ∈ windows, w + l ≤ now) ∧ ∀ t ∈ passed, t < now
  counts : ∀ c ∈ counter, Counts l now c windows passed

variable {l now later start : Int} {m : Nat} {counter : Option Counter} {c : Counter} {windows passed : List Int}

theorem sound_nil (l : Int) (m : Nat) (now : Int) : Sound l m now none [] [] := by
  constructor <;> simp

theorem inWindow_cons (start t : Int)
    : inWindow l start (t :: passed)
        =
      inWindow l start passed + if start ≤ t ∧ t < start + l then 1 else 0 := by
  unfold inWindow
  rw [List.countP_cons]
  simp

theorem inWindow_eq_zero (h : ∀ t ∈ passed, t < start) : inWindow l start passed = 0 := by
  unfold inWindow
  rw [List.countP_eq_zero]
  intro t ht
  have := h t ht
  simp only [decide_eq_true_eq]
  omega

namespace Sound

theorem mono (h : Sound l m now counter windows passed) (hle : now ≤ later)
    : Sound l m later counter windows passed := by
  refine { h with forgotten := ?_, counts := ?_ }
  . intro hnone
    obtain ⟨hwindows, hpassed⟩ := h.forgotten hnone
    exact ⟨fun w hw => (hwindows w hw).trans hle, fun t ht => (hpassed t ht).trans_le hle⟩
  . intro c hc
    have hcounts := h.counts c hc
    refine { hcounts with start_le := ?_ }
    have := hcounts.start_le
    omega

theorem forget (hl : 0 < l) (h : Sound l m now (some c) windows passed) (hover : c.start + l ≤ now)
    : Sound l m now none windows passed := by
  have hcounts := h.counts c rfl
  refine { h with forgotten := ?_, counts := by simp }
  intro _
  constructor
  . intro w hw
    have := hcounts.apart w hw
    omega
  . intro t ht
    exact (hcounts.passed_lt t ht).trans_le hover

theorem openAt (h : Sound l m now counter windows passed) (hstart : 0 ≤ start)
    (hnow : start = 0 ∨ start ≤ now) (hwindows : ∀ w ∈ windows, w + l ≤ start)
    (hpassed : ∀ t ∈ passed, t < start) (hl : 0 < l)
    : Sound l m now (some ⟨0, start⟩) (start :: windows) passed := by
  have hzero : inWindow l start passed = 0 := inWindow_eq_zero hpassed
  constructor
  . exact List.forall_mem_cons.mpr ⟨hstart, h.start_nonneg⟩
  . simp
  . refine List.forall_mem_cons.mpr ⟨?_, h.limit⟩
    rw [hzero]
    omega
  . simp
  . intro c hc
    cases hc
    constructor
    . exact List.mem_cons_self
    . exact hnow
    . simp [hzero]
    . exact List.forall_mem_cons.mpr ⟨.inl rfl, fun w hw => .inr (hwindows w hw)⟩
    . intro t ht
      have := hpassed t ht
      dsimp only
      omega

theorem current (h : Sound l m now counter windows passed) (hle : now ≤ later) (hl : 0 < l)
    : Sound l m later (some (FixedWindow.current l counter later))
        ((FixedWindow.current l counter later).start :: windows) passed
        ∧
      later < (FixedWindow.current l counter later).start + l := by
  have hlater := h.mono hle
  unfold FixedWindow.current
  dsimp only
  split
  . next hover =>
    refine ⟨?_, by dsimp only; omega⟩
    cases counter with
    | none =>
      obtain ⟨hwindows, hpassed⟩ := hlater.forgotten rfl
      simp only [Option.getD_none] at hover
      exact hlater.openAt (by omega) (.inr le_rfl) hwindows hpassed hl
    | some c =>
      have hcounts := hlater.counts c rfl
      have hnonneg := h.start_nonneg c.start hcounts.start_mem
      simp only [Option.getD_some] at hover
      apply hlater.openAt (by omega) (.inr le_rfl) _ _ hl
      . intro w hw
        have := hcounts.apart w hw
        omega
      . intro t ht
        have := hcounts.passed_lt t ht
        omega
  . next hwithin =>
    refine ⟨?_, by omega⟩
    cases counter with
    | none =>
      -- before the end of the default window nothing can have been forgotten
      simp only [Option.getD_none] at hwithin ⊢
      have hnil : windows = [] := by
        rw [List.eq_nil_iff_forall_not_mem]
        intro w hw
        have := h.start_nonneg w hw
        have := (hlater.forgotten rfl).1 w hw
        omega
      subst hnil
      rw [h.passed_nil rfl] at hlater ⊢
      exact hlater.openAt le_rfl (.inl rfl) (by simp) (by simp) hl
    | some c =>
      simp only [Option.getD_some]
      have hcounts := hlater.counts c rfl
      refine ⟨?_, by simp, ?_, by simp, ?_⟩
      . exact List.forall_mem_cons.mpr ⟨h.start_nonneg _ hcounts.start_mem, h.start_nonneg⟩
      . exact List.forall_mem_cons.mpr ⟨h.limit _ hcounts.start_mem, h.limit⟩
      . intro c' hc'
        cases hc'
        refine { hcounts with start_mem := List.mem_cons_self, apart := ?_ }
        exact List.forall_mem_cons.mpr ⟨.inl rfl, hcounts.apart⟩

theorem bump (h : Sound l m now (some c) windows passed) (hnow : now < c.start + l)
    : Sound l m now (some (FixedWindow.bump c)) windows
        (if (FixedWindow.bump c).count ≤ m then now :: passed else passed) := by
  have hcounts := h.counts c rfl
  unfold FixedWindow.bump
  dsimp only
  split
  . next hpasses =>
    -- the call is in no window but the one of the counter
    have hother : ∀ w ∈ windows, w ≠ c.start → ¬ (w ≤ now ∧ now < w + l) := by
      intro w hw hne
      have := hcounts.apart w hw
      have := hcounts.start_le
      have := h.start_nonneg w hw
      omega
    refine ⟨h.start_nonneg, ?_, ?_, by simp, ?_⟩
    . intro hnil
      have hmem := hcounts.start_mem
      simp [hnil] at hmem
    . intro w hw
      rw [inWindow_cons]
      by_cases heq : w = c.start
      . subst heq
        have := hcounts.inWindow_le
        split <;> omega
      . rw [if_neg (hother w hw heq)]
        exact h.limit w hw
    . intro c' hc'
      cases hc'
      refine { hcounts with inWindow_le := ?_, passed_lt := ?_ }
      . have := hcounts.inWindow_le
        dsimp only
        rw [inWindow_cons]
        split <;> omega
      . exact List.forall_mem_cons.mpr ⟨hnow, hcounts.passed_lt⟩
  . refine { h with forgotten := by simp, counts := ?_ }
    intro c' hc'
    cases hc'
    refine { hcounts with inWindow_le := ?_ }
    have := hcounts.inWindow_le
    dsimp only
    omega

theorem next (h : Sound l m now counter windows passed) (hle : now ≤ later) (hl : 0 < l)
    : let c := FixedWindow.bump (FixedWindow.current l counter later)
      Sound l m later (some c) (c.start :: windows) (if c.count ≤ m then later :: passed else passed) := by
  obtain ⟨hcurrent, hwithin⟩ := h.current hle hl
  exact hcurrent.bump hwithin

end Sound
end FixedWindow
