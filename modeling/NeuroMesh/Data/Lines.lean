import NeuroMesh.Data.Delimited

/-!
This module contains the theory of streams that are made of lines: the complete lines of a stream, the
unfinished one at its end, and the loop that takes one line after another off the front.
-/

namespace Lines

variable {α β : Type}

def frames (d : α) (lines : List (List α)) : List α :=
  lines.flatMap (· ++ [d])

theorem frames_cons (d : α) (line : List α) (lines : List (List α))
    : frames d (line :: lines) = line ++ d :: frames d lines := by
  simp [frames]

theorem frames_concat (d : α) (line : List α) (lines : List (List α))
    : frames d (lines ++ [line]) = frames d lines ++ (line ++ [d]) := by
  simp [frames]

theorem length_le_of_append_eq_frames {d : α} {s t : List α} {lines : List (List α)} {n : Nat} (hs : d ∉ s)
    (hlines : ∀ line ∈ lines, line.length ≤ n) (h : s ++ t = frames d lines)
    : s.length ≤ n := by
  cases lines with
  | nil =>
    rw [frames, List.flatMap_nil, List.append_eq_nil_iff] at h
    simp [h.1]
  | cons line lines =>
    rw [List.forall_mem_cons] at hlines
    rw [frames_cons, List.append_eq_append_iff] at h
    rcases h with ⟨more, hline, -⟩ | ⟨more, heq, hmore⟩
    . have hlength := congrArg List.length hline
      rw [List.length_append] at hlength
      omega
    . cases more with
      | nil =>
        rw [heq, List.append_nil]
        exact hlines.1
      | cons c more =>
        rw [List.cons_append, List.cons.injEq] at hmore
        rw [heq, hmore.1] at hs
        simp at hs

variable [BEq α] (d : α)

def complete (s : List α) : List (List α) :=
  (s.splitOn d).dropLast

def tail (s : List α) : List α :=
  (s.splitOn d).getLastD []

def drain (f : β → List α → β) (fuel : Nat) (b : β) (s : List α) : β × List α :=
  match fuel with
  | 0 => (b, s)
  | fuel + 1 =>
    match s.idxOf? d with
    | none => (b, s)
    | some pos => drain f fuel (f b (s.take pos)) (s.drop (pos + 1))

variable {d} {s t line : List α}

theorem splitOn_ne_nil (s : List α) : s.splitOn d ≠ [] := by
  apply List.splitOnP_ne_nil

variable [LawfulBEq α]

theorem splitOn_of_notMem (h : d ∉ s) : s.splitOn d = [s] := by
  apply List.splitOnP_eq_singleton
  intro c hc
  rw [beq_eq_false_iff_ne]
  exact fun heq => h (heq ▸ hc)

theorem splitOn_line (h : d ∉ line) : (line ++ d :: s).splitOn d = line :: s.splitOn d := by
  apply List.splitOnP_append_cons_of_forall_mem
  . intro c hc
    rw [beq_eq_false_iff_ne]
    exact fun heq => h (heq ▸ hc)
  . exact beq_self_eq_true d

theorem complete_of_notMem (h : d ∉ s) : complete d s = [] := by
  rw [complete, splitOn_of_notMem h]
  rfl

theorem tail_of_notMem (h : d ∉ s) : tail d s = s := by
  rw [tail, splitOn_of_notMem h]
  rfl

theorem complete_line (h : d ∉ line) : complete d (line ++ d :: s) = line :: complete d s := by
  rw [complete, splitOn_line h, List.dropLast_cons_of_ne_nil (splitOn_ne_nil s)]
  rfl

theorem tail_line (h : d ∉ line) : tail d (line ++ d :: s) = tail d s := by
  have hne := splitOn_ne_nil (d := d) s
  rw [tail, tail, splitOn_line h, List.getLastD_eq_getLast?, List.getLast?_cons_of_ne_nil hne,
    List.getLastD_eq_getLast?]

theorem notMem_or_exists_line (s : List α)
    : d ∉ s ∨ ∃ line rest, s = line ++ d :: rest ∧ d ∉ line := by
  by_cases h : d ∈ s
  . right
    obtain ⟨line, rest, hsplit, hline⟩ := List.eq_append_cons_of_mem h
    exact ⟨line, rest, hsplit, hline⟩
  . exact Or.inl h

theorem induction_on {motive : List α → Prop} (s : List α) (last : ∀ s, d ∉ s → motive s)
    (next : ∀ line rest, d ∉ line → motive rest → motive (line ++ d :: rest))
    : motive s := by
  induction hlength : s.length using Nat.strong_induction_on generalizing s with
  | _ n ih =>
    rcases notMem_or_exists_line (d := d) s with h | ⟨line, rest, rfl, hline⟩
    . exact last s h
    . apply next line rest hline
      apply ih rest.length
      . rw [← hlength, List.length_append, List.length_cons]
        omega
      . rfl

theorem notMem_tail (s : List α) : d ∉ tail d s := by
  induction s using induction_on (d := d) with
  | last s h =>
    rwa [tail_of_notMem h]
  | next line rest hline ih =>
    rwa [tail_line hline]

theorem notMem_of_mem_complete (s : List α) : ∀ line ∈ complete d s, d ∉ line := by
  induction s using induction_on (d := d) with
  | last s h =>
    rw [complete_of_notMem h]
    simp
  | next line rest hline ih =>
    rw [complete_line hline, List.forall_mem_cons]
    exact ⟨hline, ih⟩

theorem complete_append (s t : List α)
    : complete d (s ++ t) = complete d s ++ complete d (tail d s ++ t) := by
  induction s using induction_on (d := d) with
  | last s h => rw [complete_of_notMem h, tail_of_notMem h, List.nil_append]
  | next line rest hline ih =>
    rw [List.append_assoc, List.cons_append, complete_line hline, complete_line hline, tail_line hline,
      ih, List.cons_append]

theorem tail_append (s t : List α) : tail d (s ++ t) = tail d (tail d s ++ t) := by
  induction s using induction_on (d := d) with
  | last s h => rw [tail_of_notMem h]
  | next line rest hline ih =>
    rw [List.append_assoc, List.cons_append, tail_line hline, tail_line hline, ih]

theorem exists_tail_isPrefix (s t : List α) : ∃ segment ∈ (s ++ t).splitOn d, tail d s <+: segment := by
  induction s using induction_on (d := d) with
  | last s h =>
    rw [tail_of_notMem h]
    rcases notMem_or_exists_line (d := d) t with ht | ⟨line, rest, rfl, hline⟩
    . refine ⟨s ++ t, ?_, List.prefix_append s t⟩
      rw [splitOn_of_notMem]
      . exact List.mem_singleton_self _
      . rw [List.mem_append]
        tauto
    . refine ⟨s ++ line, ?_, List.prefix_append s line⟩
      rw [← List.append_assoc, splitOn_line]
      . exact List.mem_cons_self
      . rw [List.mem_append]
        tauto
  | next line rest hline ih =>
    obtain ⟨segment, hmem, hstarts⟩ := ih
    rw [List.append_assoc, List.cons_append, splitOn_line hline, tail_line hline]
    exact ⟨segment, List.mem_cons_of_mem line hmem, hstarts⟩

theorem drain_eq (f : β → List α → β) {fuel : Nat} (b : β) (hfuel : s.length ≤ fuel)
    : drain d f fuel b s = ((complete d s).foldl f b, tail d s) := by
  induction fuel generalizing b s with
  | zero =>
    have hnil : s = [] := List.eq_nil_of_length_eq_zero (by omega)
    rw [hnil]
    rfl
  | succ fuel ih =>
    unfold drain
    rcases notMem_or_exists_line (d := d) s with h | ⟨line, rest, rfl, hline⟩
    . rw [List.idxOf?_eq_none_iff.mpr h, complete_of_notMem h, tail_of_notMem h]
      rfl
    . have hpos : (line ++ d :: rest).idxOf? d = some line.length := by
        have hnone := List.idxOf?_eq_none_iff.mpr hline
        unfold List.idxOf? at hnone ⊢
        rw [List.findIdx?_append, hnone, List.findIdx?_cons]
        simp
      have hrest : rest.length ≤ fuel := by
        rw [List.length_append, List.length_cons] at hfuel
        omega
      rw [hpos, complete_line hline, tail_line hline]
      dsimp only
      rw [ih _ (by simpa using hrest)]
      simp

theorem complete_frames {lines : List (List α)} (h : ∀ line ∈ lines, d ∉ line)
    : complete d (frames d lines) = lines := by
  induction lines with
  | nil => rfl
  | cons line lines ih =>
    rw [List.forall_mem_cons] at h
    rw [frames_cons, complete_line h.1, ih h.2]

theorem exists_of_append_eq_frames {lines : List (List α)} (hlines : ∀ line ∈ lines, d ∉ line) (h : s ++ t = frames d lines)
    : ∃ rest, complete d s ++ rest = lines ∧ tail d s ++ t = frames d rest := by
  induction s using induction_on (d := d) generalizing lines with
  | last s hs =>
    rw [complete_of_notMem hs, tail_of_notMem hs]
    exact ⟨lines, rfl, h⟩
  | next line rest hline ih =>
    cases lines with
    | nil => simp [frames] at h
    | cons first lines =>
      rw [List.forall_mem_cons] at hlines
      rw [frames_cons, List.append_assoc, List.cons_append] at h
      obtain ⟨rfl, heq⟩ := Delimited.append_cons_inj hline hlines.1 h
      obtain ⟨later, hlater, htail⟩ := ih hlines.2 heq
      refine ⟨later, ?_, ?_⟩
      . rw [complete_line hline, List.cons_append, hlater]
      . rw [tail_line hline, htail]

end Lines
