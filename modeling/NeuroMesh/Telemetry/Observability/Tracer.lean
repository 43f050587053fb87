import NeuroMesh.Data.Run
import NeuroMesh.Telemetry.Observability

namespace NeuroMesh
namespace DistributedTracer

section Stable

def run (exporter : Bool) (calls : List Call) : DistributedTracer :=
  calls.foldl step { exporter }

def addrs (tracer : DistributedTracer) : List Nat :=
  tracer.activeSpans.map Span.addr

def denotes (tracer : DistributedTracer) (idx : Nat) : Option Nat :=
  tracer.addrs[idx]?

def finished (tracer : DistributedTracer) : List Span :=
  tracer.exported ++ tracer.completedSpans

def Call.index? (c : Call) : Option Nat :=
  match c with
  | .startSpan .. | .startSpanUnder .. => none
  | .endSpan spanIdx _ | .setTag spanIdx _ _ | .addLog spanIdx _ _ => some spanIdx

def Unaffected (tracer tracer' : DistributedTracer) (addr : Nat) : Prop :=
  ∀ span : Span, span.addr = addr →
    (span ∈ tracer'.activeSpans ↔ span ∈ tracer.activeSpans) ∧ (span ∈ tracer'.finished ↔ span ∈ tracer.finished)

def Stable (exporter : Bool) (calls : List Call) : Prop :=
  ∀ before start middle use after idx, calls = before ++ start :: (middle ++ use :: after) →
    ((run exporter before).call start).2 = some idx → use.index? = some idx →
      let addr := (run exporter before).allocated
      let tracer := run exporter (before ++ start :: middle)
      (addr ∈ tracer.addrs → tracer.denotes idx = some addr)
        ∧ (addr ∉ tracer.addrs → ∀ other first second, middle = first ++ second →
          addr ∈ (run exporter (before ++ start :: first)).addrs →
            other < (run exporter (before ++ start :: first)).allocated →
              Unaffected tracer (tracer.step use) other)

def InOrder (tracer : DistributedTracer) (c : Call) : Prop :=
  match c with
  | .endSpan spanIdx _ => tracer.activeSpans.length ≤ spanIdx + 1
  | _ => True

instance (tracer : DistributedTracer) (c : Call) : Decidable (InOrder tracer c) := by
  cases c <;> unfold InOrder <;> infer_instance

end Stable

section TakeOut

variable {α β : Type} {l : List α} {i : Nat} {x : α}

theorem map_takeOut (f : α → β) : (takeOut l i).map f = takeOut (l.map f) i := by
  unfold takeOut
  rw [List.getLast?_map]
  cases l.getLast? with
  | none => rfl
  | some last => simp [List.map_dropLast]

theorem takeOut_concat (front : List α) (last : α)
    : takeOut (front ++ [last]) i = if i < front.length then front.set i last else front := by
  unfold takeOut
  rw [List.getLast?_concat]
  dsimp only
  split
  . next h => rw [List.set_append_left _ _ h, List.dropLast_concat]
  . next h =>
    rw [List.set_append_right _ _ (by omega)]
    cases i - front.length <;> simp

theorem takeOut_last (h : l.length = i + 1) : takeOut l i = l.dropLast := by
  rcases List.eq_nil_or_concat' l with rfl | ⟨front, last, rfl⟩
  . contradiction
  . rw [List.length_append, List.length_singleton] at h
    rw [takeOut_concat, if_neg (by omega), List.dropLast_concat]

theorem mem_takeOut_iff (hi : i < l.length) (h : l[i]? ≠ some x) : x ∈ takeOut l i ↔ x ∈ l := by
  rcases List.eq_nil_or_concat' l with rfl | ⟨front, last, rfl⟩
  . contradiction
  . rw [List.length_append, List.length_singleton] at hi
    rw [takeOut_concat, List.mem_append, List.mem_singleton]
    split
    . next hlt =>
      rw [List.getElem?_append_left hlt] at h
      constructor
      . exact List.mem_or_eq_of_mem_set
      . rintro (hmem | rfl)
        . obtain ⟨j, hj⟩ := List.mem_iff_getElem?.mp hmem
          have hne : i ≠ j := by
            rintro rfl
            exact h hj
          apply List.mem_of_getElem? (i := j)
          rw [List.getElem?_set_ne hne, hj]
        . exact List.mem_set hlt x
    . next hge =>
      obtain rfl : i = front.length := by omega
      rw [List.getElem?_concat_length] at h
      constructor
      . exact .inl
      . rintro (hmem | rfl)
        . exact hmem
        . contradiction

theorem length_takeOut (hi : i < l.length) : (takeOut l i).length = l.length - 1 := by
  rcases List.eq_nil_or_concat' l with rfl | ⟨front, last, rfl⟩
  . contradiction
  . rw [takeOut_concat]
    split <;> simp

end TakeOut

section Frame

variable {tracer : DistributedTracer} {c : Call} {idx addr : Nat}

theorem addrs_modify {f : Span → Span} (hf : ∀ span, (f span).addr = span.addr) (spans : List Span) (idx : Nat)
    : (spans.modify idx f).map Span.addr = spans.map Span.addr := by
  apply List.ext_getElem?
  intro j
  rw [List.getElem?_map, List.getElem?_map, List.getElem?_modify]
  cases spans[j]? with
  | none => rfl
  | some span =>
    simp only [Option.map_some, Option.map_eq_map]
    split
    . rw [hf]
    . rfl

theorem mem_modify_iff {f : Span → Span} (hf : ∀ span, (f span).addr = span.addr) {spans : List Span} {span : Span}
    (h : (spans.map Span.addr)[idx]? ≠ some span.addr)
    : span ∈ spans.modify idx f ↔ span ∈ spans := by
  simp only [List.mem_iff_getElem?]
  apply exists_congr
  intro j
  rw [List.getElem?_modify]
  split
  . next heq =>
    subst heq
    rw [List.getElem?_map] at h
    cases hspan : spans[idx]? with
    | none => rfl
    | some found =>
      rw [hspan, Option.map_some, ne_eq, Option.some.injEq] at h
      constructor
      . rintro ⟨⟩
        exact absurd (hf found).symm h
      . rintro ⟨⟩
        exact absurd rfl h
  . rw [Option.map_eq_map, Option.map_id']

theorem unaffected_step (hidx : c.index? = some idx) (h : tracer.denotes idx ≠ some addr)
    : Unaffected tracer (tracer.step c) addr := by
  rintro span rfl
  cases c with
  | startSpan => contradiction
  | startSpanUnder => contradiction
  | setTag spanIdx key value =>
    cases hidx
    refine ⟨mem_modify_iff ?_ h, .rfl⟩
    intro span
    rfl
  | addLog spanIdx key value =>
    cases hidx
    refine ⟨mem_modify_iff ?_ h, .rfl⟩
    intro span
    rfl
  | endSpan spanIdx now =>
    cases hidx
    show (span ∈ (tracer.endSpan idx now).activeSpans ↔ _) ∧ (span ∈ (tracer.endSpan idx now).finished ↔ _)
    unfold endSpan
    cases hspan : tracer.activeSpans[idx]? with
    | none => exact ⟨.rfl, .rfl⟩
    | some found =>
      unfold denotes addrs at h
      rw [List.getElem?_map, hspan, Option.map_some, ne_eq, Option.some.injEq] at h
      have hactive : span ∈ takeOut tracer.activeSpans idx ↔ span ∈ tracer.activeSpans := by
        apply mem_takeOut_iff
        . exact (List.getElem?_eq_some_iff.mp hspan).1
        . rw [hspan]
          rintro ⟨⟩
          exact h rfl
      have hfinished : span ∈ tracer.exported ++ (tracer.completedSpans ++ [{ found with endTime := now }])
          ↔ span ∈ tracer.finished := by
        unfold finished
        rw [← List.append_assoc, List.mem_append, List.mem_singleton, or_iff_left]
        rintro rfl
        exact h rfl
      dsimp only
      split
      . refine ⟨hactive, ?_⟩
        unfold finished at hfinished ⊢
        rw [List.append_nil]
        exact hfinished
      . exact ⟨hactive, hfinished⟩

theorem endSpan_spec {span : Span} (h : tracer.activeSpans[idx]? = some span) (now : Time)
    : (tracer.endSpan idx now).addrs = takeOut tracer.addrs idx
        ∧ (tracer.endSpan idx now).allocated = tracer.allocated := by
  unfold endSpan addrs
  rw [h, ← map_takeOut]
  dsimp only
  split
  . exact ⟨rfl, rfl⟩
  . exact ⟨rfl, rfl⟩

theorem step_cases (h : InOrder tracer c)
    : ((tracer.step c).addrs = tracer.addrs ++ [tracer.allocated]
          ∧ (tracer.step c).allocated = tracer.allocated + 1 ∧ (tracer.call c).2 = some tracer.addrs.length)
        ∨ (((tracer.step c).addrs = tracer.addrs.dropLast ∨ (tracer.step c).addrs = tracer.addrs)
          ∧ (tracer.step c).allocated = tracer.allocated) := by
  cases c with
  | startSpan | startSpanUnder =>
    refine .inl ⟨?_, rfl, ?_⟩
    . exact List.map_append
    . unfold addrs
      rw [List.length_map]
      rfl
  | setTag | addLog =>
    refine .inr ⟨.inr (addrs_modify ?_ _ _), rfl⟩
    intro span
    rfl
  | endSpan spanIdx now =>
    right
    show ((tracer.endSpan spanIdx now).addrs = _ ∨ (tracer.endSpan spanIdx now).addrs = _)
      ∧ (tracer.endSpan spanIdx now).allocated = _
    cases hspan : tracer.activeSpans[spanIdx]? with
    | none =>
      unfold endSpan
      rw [hspan]
      exact ⟨.inr rfl, rfl⟩
    | some span =>
      have hlt := (List.getElem?_eq_some_iff.mp hspan).1
      have hlength : tracer.addrs.length = spanIdx + 1 := by
        unfold InOrder at h
        unfold addrs
        rw [List.length_map]
        dsimp only at h
        omega
      obtain ⟨haddrs, hallocated⟩ := endSpan_spec hspan now
      refine ⟨.inl ?_, hallocated⟩
      rw [haddrs, takeOut_last hlength]

end Frame

section InOrder

variable {exporter : Bool} {tracer : DistributedTracer} {calls : List Call}

structure Fresh (tracer : DistributedTracer) : Prop where
  nodup : tracer.addrs.Nodup
  lt_allocated : ∀ addr ∈ tracer.addrs, addr < tracer.allocated

theorem fresh_step {c : Call} (hfresh : Fresh tracer) (h : InOrder tracer c) : Fresh (tracer.step c) := by
  rcases step_cases h with ⟨haddrs, hallocated, -⟩ | ⟨haddrs, hallocated⟩
  . constructor
    . rw [haddrs, List.nodup_append]
      refine ⟨hfresh.nodup, List.nodup_singleton _, ?_⟩
      intro addr haddr new hnew
      have hlt := hfresh.lt_allocated addr haddr
      rw [List.mem_singleton] at hnew
      omega
    . rw [haddrs, hallocated]
      intro addr haddr
      rcases List.mem_append.mp haddr with haddr | haddr
      . have hlt := hfresh.lt_allocated addr haddr
        omega
      . rw [List.mem_singleton] at haddr
        omega
  . have hsub : (tracer.step c).addrs.Sublist tracer.addrs := by
      rcases haddrs with haddrs | haddrs
      . rw [haddrs]
        exact List.dropLast_sublist _
      . rw [haddrs]
    constructor
    . exact hfresh.nodup.sublist hsub
    . intro addr haddr
      rw [hallocated]
      exact hfresh.lt_allocated addr (hsub.subset haddr)

theorem run_append (calls more : List Call) : run exporter (calls ++ more) = more.foldl step (run exporter calls) := by
  exact List.foldl_append

theorem fresh_run (h : Run.Along step InOrder { exporter } calls) : Fresh (run exporter calls) := by
  apply Run.foldl_of_invariant (I := Fresh) _ _ h
  . intro tracer c hfresh hinOrder
    exact fresh_step hfresh hinOrder
  . exact ⟨List.nodup_nil, nofun⟩

theorem allocated_le_foldl (h : Run.Along step InOrder tracer calls)
    : tracer.allocated ≤ (calls.foldl step tracer).allocated := by
  apply Run.foldl_of_invariant (I := fun tracer' => tracer.allocated ≤ tracer'.allocated) _ _ h
  . intro tracer' c hle hinOrder
    rcases step_cases hinOrder with ⟨-, hallocated, -⟩ | ⟨-, hallocated⟩
    . omega
    . omega
  . exact le_refl _

variable {before middle : List Call} {start : Call} {idx : Nat}

theorem start_spec (h : (tracer.call start).2 = some idx)
    : idx = tracer.addrs.length ∧ (tracer.step start).addrs = tracer.addrs ++ [tracer.allocated]
        ∧ (tracer.step start).allocated = tracer.allocated + 1 := by
  cases start with
  | startSpan | startSpanUnder =>
    cases h
    refine ⟨?_, ?_, rfl⟩
    . exact (List.length_map _).symm
    . exact List.map_append
  | endSpan | setTag | addLog => contradiction

def Tracked (exporter : Bool) (before : List Call) (start : Call) (middle : List Call) (idx : Nat) : Prop :=
  let addr := (run exporter before).allocated
  let tracer := run exporter (before ++ start :: middle)
  tracer.denotes idx = some addr
    ∨ (addr ∉ tracer.addrs ∧ ∀ other first second, tracer.denotes idx = some other → middle = first ++ second →
      addr ∈ (run exporter (before ++ start :: first)).addrs →
        (run exporter (before ++ start :: first)).allocated ≤ other)

theorem notMem_dropLast {l : List Nat} {i addr : Nat} (hnodup : l.Nodup) (h : l[i]? = some addr)
    (hlast : ¬i < l.length - 1)
    : addr ∉ l.dropLast := by
  intro hmem
  obtain ⟨j, hj⟩ := List.mem_iff_getElem?.mp hmem
  rw [List.getElem?_dropLast] at hj
  split at hj
  . next hlt =>
    have hlength : j < l.length := by omega
    have hij := (List.getElem?_inj hlength hnodup).mp (hj.trans h.symm)
    omega
  . contradiction

theorem tracked_concat {c : Call} (h : Tracked exporter before start middle idx)
    (hfresh : Fresh (run exporter (before ++ start :: middle)))
    (hinOrder : InOrder (run exporter (before ++ start :: middle)) c)
    (hle : ∀ first second, middle = first ++ second →
      (run exporter (before ++ start :: first)).allocated ≤ (run exporter (before ++ start :: middle)).allocated)
    (hlt : (run exporter before).allocated < (run exporter (before ++ start :: middle)).allocated)
    : Tracked exporter before start (middle ++ [c]) idx := by
  have hrun : run exporter (before ++ start :: (middle ++ [c]))
      = (run exporter (before ++ start :: middle)).step c := by
    rw [← List.cons_append, ← List.append_assoc, run_append]
    rfl
  unfold Tracked denotes at h ⊢
  dsimp only at h ⊢
  rw [hrun]
  -- a span that has been ended is not active in the new state either, so only shorter beginnings count
  have hsplit (hnot : (run exporter before).allocated
      ∉ ((run exporter (before ++ start :: middle)).step c).addrs) {first second : List Call}
      (heq : middle ++ [c] = first ++ second)
      (hactive : (run exporter before).allocated ∈ (run exporter (before ++ start :: first)).addrs)
      : ∃ second, middle = first ++ second := by
    rcases List.eq_nil_or_concat' second with rfl | ⟨second, last, rfl⟩
    . rw [List.append_nil] at heq
      rw [← heq, hrun] at hactive
      exact absurd hactive hnot
    . rw [← List.append_assoc] at heq
      exact ⟨second, List.append_inj_left' heq rfl⟩
  rcases h with hactive | ⟨hended, hother⟩
  . have hlength : idx < (run exporter (before ++ start :: middle)).addrs.length := by
      exact (List.getElem?_eq_some_iff.mp hactive).1
    rcases step_cases hinOrder with ⟨haddrs, -⟩ | ⟨haddrs | haddrs, -⟩
    . left
      rw [haddrs, List.getElem?_append_left hlength, hactive]
    . rw [haddrs, List.getElem?_dropLast]
      split
      . exact .inl hactive
      . -- the span is the last one and has been ended by this call
        next hlast =>
        exact .inr ⟨notMem_dropLast hfresh.nodup hactive hlast, nofun⟩
    . left
      rw [haddrs, hactive]
  . right
    rcases step_cases hinOrder with ⟨haddrs, -⟩ | ⟨haddrs, -⟩
    . have hnot : (run exporter before).allocated
          ∉ ((run exporter (before ++ start :: middle)).step c).addrs := by
        rw [haddrs, List.mem_append, List.mem_singleton]
        rintro (hmem | heq)
        . exact hended hmem
        . omega
      refine ⟨hnot, ?_⟩
      intro other first second hdenotes heq hactive
      obtain ⟨second, heq⟩ := hsplit hnot heq hactive
      rw [haddrs, List.getElem?_append] at hdenotes
      split at hdenotes
      . exact hother other first second hdenotes heq hactive
      . have hnew := List.mem_singleton.mp (List.mem_of_getElem? hdenotes)
        have hfirst := hle first second heq
        omega
    . have hsub : ((run exporter (before ++ start :: middle)).step c).addrs
          <+: (run exporter (before ++ start :: middle)).addrs := by
        rcases haddrs with haddrs | haddrs
        . rw [haddrs]
          exact List.dropLast_prefix _
        . rw [haddrs]
      have hnot : (run exporter before).allocated
          ∉ ((run exporter (before ++ start :: middle)).step c).addrs := by
        intro hmem
        exact hended (hsub.subset hmem)
      refine ⟨hnot, ?_⟩
      intro other first second hdenotes heq hactive
      obtain ⟨second, heq⟩ := hsplit hnot heq hactive
      have hdenotes' : (run exporter (before ++ start :: middle)).addrs[idx]? = some other := by
        obtain ⟨rest, hrest⟩ := hsub
        rw [← hrest, List.getElem?_append_left (List.getElem?_eq_some_iff.mp hdenotes).1, hdenotes]
      exact hother other first second hdenotes' heq hactive

theorem tracked_of_inOrder (h : Run.Along step InOrder { exporter } (before ++ start :: middle))
    (hstart : ((run exporter before).call start).2 = some idx)
    : Tracked exporter before start middle idx := by
  induction middle using List.reverseRecOn with
  | nil =>
    obtain ⟨hidx, haddrs, -⟩ := start_spec hstart
    left
    unfold denotes
    rw [run_append]
    show ((run exporter before).step start).addrs[idx]? = _
    rw [haddrs, hidx, List.getElem?_concat_length]
  | append_singleton middle c ih =>
    rw [← List.cons_append, ← List.append_assoc, Run.along_append] at h
    apply tracked_concat (ih h.1) (fresh_run h.1) h.2.1
    . rintro first second rfl
      have hrest := h.1
      rw [← List.cons_append, ← List.append_assoc, Run.along_append] at hrest
      rw [← List.cons_append, ← List.append_assoc, run_append _ second]
      exact allocated_le_foldl hrest.2
    . have hrest := h.1
      rw [Run.along_append] at hrest
      have hle := allocated_le_foldl hrest.2.2
      obtain ⟨-, -, hallocated⟩ := start_spec hstart
      rw [run_append]
      show _ < (middle.foldl step ((run exporter before).step start)).allocated
      unfold run at hallocated ⊢
      omega

theorem stable_concat (h : Run.Along step InOrder { exporter } calls) (use : Call)
    : Stable exporter (calls ++ [use]) := by
  intro before start middle use' after idx heq hstart huse
  have hfront : before ++ start :: middle <+: calls := by
    rcases List.eq_nil_or_concat' after with rfl | ⟨after, last, rfl⟩
    . rw [← List.cons_append, ← List.append_assoc] at heq
      rw [List.append_inj_left' heq rfl]
    . refine ⟨use' :: after, ?_⟩
      have hcons : before ++ start :: (middle ++ use' :: (after ++ [last]))
          = (before ++ start :: middle ++ use' :: after) ++ [last] := by
        simp
      rw [hcons] at heq
      exact (List.append_inj_left' heq rfl).symm
  obtain ⟨rest, rfl⟩ := hfront
  rw [Run.along_append] at h
  have htracked := tracked_of_inOrder h.1 hstart
  constructor
  . intro hactive
    rcases htracked with hdenotes | ⟨hended, -⟩
    . exact hdenotes
    . contradiction
  . intro hended other first second heq hactive hlt
    apply unaffected_step huse
    intro hdenotes
    rcases htracked with hself | ⟨-, hother⟩
    . exact hended (List.mem_of_getElem? hself)
    . have hle := hother other first second hdenotes heq hactive
      omega

theorem exists_start {addr : Nat} (h : Run.Along step InOrder { exporter } calls)
    (hdenotes : (run exporter calls).denotes idx = some addr)
    : ∃ before start middle, calls = before ++ start :: middle
        ∧ ((run exporter before).call start).2 = some idx ∧ (run exporter before).allocated = addr := by
  induction calls using List.reverseRecOn with
  | nil => contradiction
  | append_singleton calls c ih =>
    rw [Run.along_append] at h
    have hrun : run exporter (calls ++ [c]) = (run exporter calls).step c := run_append calls [c]
    unfold denotes at ih hdenotes
    rw [hrun] at hdenotes
    have hold (hdenotes : (run exporter calls).addrs[idx]? = some addr)
        : ∃ before start middle, calls ++ [c] = before ++ start :: middle
          ∧ ((run exporter before).call start).2 = some idx ∧ (run exporter before).allocated = addr := by
      obtain ⟨before, start, middle, heq, hstart⟩ := ih h.1 hdenotes
      refine ⟨before, start, middle ++ [c], ?_, hstart⟩
      rw [heq, List.append_assoc, List.cons_append]
    have hinOrder : InOrder (run exporter calls) c := h.2.1
    rcases step_cases hinOrder with ⟨haddrs, -, hreturn⟩ | ⟨haddrs | haddrs, -⟩
    . rw [haddrs, List.getElem?_append] at hdenotes
      split at hdenotes
      . exact hold hdenotes
      . next hge =>
        have hlt := (List.getElem?_eq_some_iff.mp hdenotes).1
        rw [List.length_singleton] at hlt
        obtain rfl : idx = (run exporter calls).addrs.length := by omega
        exact ⟨calls, c, [], rfl, hreturn, (List.mem_singleton.mp (List.mem_of_getElem? hdenotes)).symm⟩
    . apply hold
      rw [haddrs, List.getElem?_dropLast] at hdenotes
      split at hdenotes
      . exact hdenotes
      . contradiction
    . apply hold
      rwa [haddrs] at hdenotes

theorem inOrder_of_stable {c : Call} (h : Run.Along step InOrder { exporter } calls)
    (hstable : ∀ use, Stable exporter (calls ++ [c] ++ [use]))
    : InOrder (run exporter calls) c := by
  cases c with
  | startSpan | startSpanUnder | setTag | addLog => trivial
  | endSpan spanIdx now =>
    by_contra hnot
    have hlength : spanIdx + 1 < (run exporter calls).addrs.length := by
      unfold InOrder at hnot
      unfold addrs
      rw [List.length_map]
      exact Nat.lt_of_not_le hnot
    obtain ⟨span, hspan⟩ : ∃ span, (run exporter calls).activeSpans[spanIdx]? = some span := by
      unfold addrs at hlength
      rw [List.length_map] at hlength
      exact ⟨_, List.getElem?_eq_getElem (Nat.lt_of_succ_lt hlength)⟩
    obtain ⟨addr, haddr⟩ : ∃ addr, (run exporter calls).denotes ((run exporter calls).addrs.length - 1) = some addr := by
      exact ⟨_, List.getElem?_eq_getElem (Nat.sub_one_lt_of_lt hlength)⟩
    obtain ⟨before, start, middle, heq, hstart, rfl⟩ := exists_start h haddr
    have hrun : run exporter (before ++ start :: (middle ++ [.endSpan spanIdx now]))
        = (run exporter calls).endSpan spanIdx now := by
      rw [← List.cons_append, ← List.append_assoc, ← heq, run_append]
      rfl
    have hcalls (use : Call) : calls ++ [.endSpan spanIdx now] ++ [use]
        = before ++ start :: (middle ++ [.endSpan spanIdx now] ++ use :: []) := by
      rw [heq]
      simp
    have hdenotes := (hstable (.setTag ((run exporter calls).addrs.length - 1) [] []) before start _ _ [] _
      (hcalls _) hstart rfl).1
    unfold denotes at haddr hdenotes
    rw [hrun, (endSpan_spec hspan now).1, List.getElem?_eq_none] at hdenotes
    . have hne : (run exporter calls).addrs[spanIdx]? ≠ some (run exporter before).allocated := by
        intro hsame
        have hindex := (List.getElem?_inj (Nat.lt_of_succ_lt hlength) (fresh_run h).nodup).mp (hsame.trans haddr.symm)
        omega
      have hactive := (mem_takeOut_iff (Nat.lt_of_succ_lt hlength) hne).mpr (List.mem_of_getElem? haddr)
      exact absurd (hdenotes hactive) (by simp)
    . rw [length_takeOut (Nat.lt_of_succ_lt hlength)]

/--
The tracer puts the last span in the place of the one that is ended. The indices stand for the same spans all the time
exactly if the spans are ended in the reverse order of their starts.
-/
theorem stable_iff_inOrder (exporter : Bool) (calls : List Call)
    : (∀ front use, front <+: calls → Stable exporter (front ++ [use]))
        ↔
      Run.Along step InOrder { exporter } calls := by
  constructor
  . intro h
    induction calls using List.reverseRecOn with
    | nil => trivial
    | append_singleton calls c ih =>
      have hcalls := ih fun front use hfront => h front use (hfront.trans (List.prefix_append _ _))
      rw [Run.along_append]
      refine ⟨hcalls, ?_, trivial⟩
      apply inOrder_of_stable hcalls
      intro use
      exact h (calls ++ [c]) use (List.prefix_refl _)
  . rintro h front use ⟨rest, rfl⟩
    rw [Run.along_append] at h
    exact stable_concat h.1 use

end InOrder

section Sample

def overlapping : List Call := [
  .startSpan (bytes "a") (bytes "1") (bytes "2") 0, .startSpan (bytes "b") (bytes "3") (bytes "4") 1,
  .endSpan 0 2, .setTag 1 (bytes "k") (bytes "v")
]

theorem not_forall_stable : ¬ ∀ (exporter : Bool) (calls : List Call), Stable exporter calls := by
  intro h
  have hstable := (h false overlapping [overlapping[0]] overlapping[1] [overlapping[2]] overlapping[3] [] 1 rfl rfl rfl).1
  have hsample : (run false [overlapping[0]]).allocated
        ∈ (run false ([overlapping[0]] ++ overlapping[1] :: [overlapping[2]])).addrs
      ∧ (run false ([overlapping[0]] ++ overlapping[1] :: [overlapping[2]])).denotes 1 = none := by
    decide +kernel
  have hdenotes := hstable hsample.1
  rw [hsample.2] at hdenotes
  contradiction

end Sample

end DistributedTracer
end NeuroMesh
