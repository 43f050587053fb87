import Mathlib

/-!
This module contains the theory of a limiter that remembers when it has let calls through, and that lets one
through as long as fewer than `m` of the remembered ones are less than `w` old. The limiter forgets the older
ones only when it is called.
-/

namespace SlidingWindow

def recent (w now : Int) (times : List Int) : List Int :=
  times.filter fun t => now - t < w

def check (w : Int) (m : Nat) (stored : List Int) (now : Int) : Bool × List Int :=
  let kept := recent w now stored
  if m ≤ kept.length then (false, kept) else (true, kept ++ [now])

structure Sound (w : Int) (m : Nat) (now : Int) (stored passed : List Int) : Prop where
  past : ∀ t ∈ passed, t ≤ now
  recent_eq : ∀ later, now ≤ later → recent w later stored = recent w later passed
  length_le : stored.length ≤ m
  -- every set of times that are less than `w` apart
  window_le : ∀ p : Int → Bool, (∀ t u, p t = true → p u = true → u - t < w) → passed.countP p ≤ m

variable {w now later : Int} {m : Nat} {stored passed : List Int}

theorem recent_recent (hle : now ≤ later) (times : List Int)
    : recent w later (recent w now times) = recent w later times := by
  unfold recent
  rw [List.filter_filter]
  apply List.filter_congr
  intro t _
  simp only [← Bool.decide_and, decide_eq_decide]
  omega

theorem recent_append (times others : List Int)
    : recent w now (times ++ others) = recent w now times ++ recent w now others := by
  apply List.filter_append

theorem dropWhile_eq_recent {times : List Int} (h : times.Pairwise (· ≤ ·))
    : (times.dropWhile fun t => w ≤ now - t) = recent w now times := by
  induction times with
  | nil => rfl
  | cons t times ih =>
    rw [List.pairwise_cons] at h
    unfold recent
    rw [List.dropWhile_cons, List.filter_cons]
    by_cases hold : w ≤ now - t
    . rw [if_pos (decide_eq_true hold), if_neg (by simpa using hold)]
      exact ih h.2
    . rw [if_neg (by simpa using hold), if_pos (by simpa using hold), List.filter_eq_self.mpr]
      intro u hu
      have := h.1 u hu
      simp only [decide_eq_true_eq]
      omega

theorem sound_nil (w : Int) (m : Nat) (now : Int) : Sound w m now [] [] := by
  constructor <;> simp

namespace Sound

theorem mono (h : Sound w m now stored passed) (hle : now ≤ later) : Sound w m later stored passed := by
  refine { h with past := ?_, recent_eq := ?_ }
  . intro t ht
    exact (h.past t ht).trans hle
  . intro time htime
    exact h.recent_eq time (hle.trans htime)

theorem stored_le (h : Sound w m now stored passed) (hw : 0 < w) : ∀ t ∈ stored, t ≤ now := by
  intro t ht
  by_cases hold : now - t < w
  . apply h.past t
    have hrecent : t ∈ recent w now stored := List.mem_filter.mpr ⟨ht, decide_eq_true hold⟩
    rw [h.recent_eq now le_rfl] at hrecent
    exact List.mem_of_mem_filter hrecent
  . omega

theorem pairwise_check (h : Sound w m now stored passed) (hw : 0 < w) (hle : now ≤ later)
    (hsorted : stored.Pairwise (· ≤ ·))
    : (check w m stored later).2.Pairwise (· ≤ ·) := by
  have hkept : (recent w later stored).Pairwise (· ≤ ·) := hsorted.filter _
  unfold check
  dsimp only
  split
  . exact hkept
  . refine List.pairwise_append.mpr ⟨hkept, List.pairwise_singleton _ _, ?_⟩
    intro t ht u hu
    rw [List.mem_singleton.mp hu]
    exact (h.stored_le hw t (List.mem_of_mem_filter ht)).trans hle

theorem check_eq_true_iff (h : Sound w m now stored passed) (hle : now ≤ later)
    : (check w m stored later).1 = true ↔ (recent w later passed).length < m := by
  unfold check
  rw [h.recent_eq later hle]
  dsimp only
  split <;> simp <;> omega

theorem next (h : Sound w m now stored passed) (hle : now ≤ later)
    : Sound w m later (check w m stored later).2
        (passed ++ if (check w m stored later).1 = true then [later] else []) := by
  have hkept := h.recent_eq later hle
  have hforget : ∀ time, later ≤ time →
      recent w time (recent w later stored) = recent w time passed := by
    intro time htime
    rw [recent_recent htime]
    exact h.recent_eq time (hle.trans htime)
  by_cases hfull : m ≤ (recent w later stored).length
  . have heq : check w m stored later = (false, recent w later stored) := if_pos hfull
    rw [heq]
    simp only [Bool.false_eq_true, if_false, List.append_nil]
    refine { h.mono hle with recent_eq := hforget, length_le := ?_ }
    exact (List.length_filter_le _ _).trans h.length_le
  . have heq : check w m stored later = (true, recent w later stored ++ [later]) := if_neg hfull
    rw [heq]
    simp only [if_true]
    constructor
    . intro t ht
      rcases List.mem_append.mp ht with ht | ht
      . exact (h.past t ht).trans hle
      . rw [List.mem_singleton.mp ht]
    . intro time htime
      rw [recent_append, recent_append, hforget time htime]
    . rw [List.length_append, List.length_singleton]
      omega
    . intro p hp
      rw [List.countP_append, List.countP_singleton]
      by_cases hlater : p later = true
      . -- what is in the same window as this call is still remembered
        have hsub : passed.countP p ≤ (recent w later passed).length := by
          unfold recent
          rw [← List.countP_eq_length_filter]
          apply List.countP_mono_left
          intro t _ ht
          exact decide_eq_true (hp t later ht hlater)
        rw [← hkept] at hsub
        rw [if_pos hlater]
        omega
      . rw [if_neg hlater]
        exact h.window_le p hp

end Sound
end SlidingWindow
