import Mathlib

/-!
This module contains lists that are sorted into numbered buckets, with the order inside of a bucket kept.
-/

namespace Bucket

variable {β : Type}

def sort (bucket : β → Nat) (n : Nat) (l : List β) : List β :=
  (List.range n).flatMap fun i => l.filter (bucket · = i)

theorem sort_succ (bucket : β → Nat) (n : Nat) (l : List β)
    : sort bucket (n + 1) l = sort bucket n l ++ l.filter (bucket · = n) := by
  unfold sort
  simp [List.range_succ]

theorem sort_perm_filter (bucket : β → Nat) (n : Nat) (l : List β)
    : (sort bucket n l).Perm (l.filter (bucket · < n)) := by
  induction n with
  | zero => simp [sort]
  | succ n ih =>
    rw [sort_succ]
    have hsplit := List.filter_append_perm (fun x => bucket x < n) (l.filter (bucket · < n + 1))
    rw [List.filter_filter, List.filter_filter] at hsplit
    refine (ih.append_right _).trans (.trans ?_ hsplit)
    apply List.Perm.of_eq
    congr 1
    . apply List.filter_congr
      intro x _
      grind
    . apply List.filter_congr
      intro x _
      grind

theorem mem_sort {bucket : β → Nat} {n : Nat} {l : List β} {x : β}
    : x ∈ sort bucket n l ↔ x ∈ l ∧ bucket x < n := by
  rw [(sort_perm_filter bucket n l).mem_iff]
  simp

theorem sort_perm {bucket : β → Nat} {n : Nat} {l : List β} (h : ∀ x ∈ l, bucket x < n)
    : (sort bucket n l).Perm l := by
  have hall : l.filter (bucket · < n) = l := by
    rw [List.filter_eq_self]
    simpa using h
  have hperm := sort_perm_filter bucket n l
  rwa [hall] at hperm

end Bucket
