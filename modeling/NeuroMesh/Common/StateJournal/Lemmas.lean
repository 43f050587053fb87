import NeuroMesh.Common.StateJournal.Basic
import NeuroMesh.Common.Text
import NeuroMesh.Data.Run

/-!
This module contains the proof that a journal continues with fresh numbers after a restart, unless it was
just rotated, a line was torn or the numbers wrapped around.
-/

namespace NeuroMesh
namespace StateJournal

section ExtractSeq

theorem textBehind_append (pattern rest : Bytes) : textBehind pattern (pattern ++ rest) = some rest := by
  unfold textBehind
  rw [if_pos]
  . simp
  . simp

theorem textBehind_cons {pattern s : Bytes} {c : UInt8} (h : ∀ c' ∈ pattern.head?, c' ≠ c) (hne : pattern ≠ [])
    : textBehind pattern (c :: s) = textBehind pattern s := by
  obtain ⟨c', cs, rfl⟩ := List.exists_cons_of_ne_nil hne
  have hfront : c' ≠ c := h c' rfl
  rw [textBehind, if_neg]
  simp [hfront]

theorem le_foldl_digits (digits : Bytes) (val : Nat)
    : val ≤ digits.foldl (fun acc c => acc * 10 + (c.toNat - 0x30)) val := by
  induction digits generalizing val with
  | nil => rfl
  | cons c cs ih =>
    have := ih (val * 10 + (c.toNat - 0x30))
    rw [List.foldl_cons]
    omega

theorem toNat_digit {c : UInt8} (h : isDigit c) : (c - 0x30).toUInt64.toNat = c.toNat - 0x30 := by
  have hbounds := bounds_of_isDigit h
  have hle : (0x30 : UInt8) ≤ c := UInt8.le_iff_toNat_le.mpr hbounds.1
  rw [UInt8.toNat_toUInt64, UInt8.toNat_sub_of_le _ _ hle]
  rfl

theorem extractSeq.go_digits {digits rest : Bytes} {val : UInt64} (hdigits : ∀ c ∈ digits, isDigit c)
    (hrest : ∀ c ∈ rest.head?, isDigit c = false)
    (hlt : digits.foldl (fun acc c => acc * 10 + (c.toNat - 0x30)) val.toNat < 2 ^ 64)
    : (go (digits ++ rest) val).toNat
        = digits.foldl (fun acc c => acc * 10 + (c.toNat - 0x30)) val.toNat := by
  induction digits generalizing val with
  | nil =>
    cases rest with
    | nil => rfl
    | cons c cs => simp [go, hrest c (by simp)]
  | cons c cs ih =>
    rw [List.forall_mem_cons] at hdigits
    have hbounds := bounds_of_isDigit hdigits.1
    have hdigit := toNat_digit hdigits.1
    rw [List.foldl_cons] at hlt ⊢
    have hle := le_foldl_digits cs (val.toNat * 10 + (c.toNat - 0x30))
    have hten : (10 : UInt64).toNat = 10 := rfl
    have hmax : (UInt64.ofNat (2 ^ 64 - 1)).toNat = 2 ^ 64 - 1 := rfl
    have hval : (val * 10 + (c - 0x30).toUInt64).toNat = val.toNat * 10 + (c.toNat - 0x30) := by
      rw [UInt64.toNat_add, UInt64.toNat_mul, hdigit, hten]
      omega
    have hfits : ¬val > (UInt64.ofNat (2 ^ 64 - 1) - (c - 0x30).toUInt64) / 10 := by
      rw [gt_iff_lt, UInt64.lt_iff_toNat_lt, UInt64.toNat_div, UInt64.toNat_sub_of_le, hdigit, hten, hmax]
      . omega
      . rw [UInt64.le_iff_toNat_le, hdigit, hmax]
        omega
    rw [List.cons_append, go, if_pos hdigits.1, if_neg hfits, ih hdigits.2 (by rwa [hval]), hval]

theorem extractSeq_front (seq : UInt64) (rest : Bytes)
    : extractSeq (bytes "\x7b\"seq\":" ++ toDecimal seq.toNat ++ 0x2c :: rest) = seq := by
  have hbehind : textBehind (bytes "\"seq\":") (bytes "\x7b\"seq\":" ++ toDecimal seq.toNat ++ 0x2c :: rest)
      = some (toDecimal seq.toNat ++ 0x2c :: rest) := by
    rw [show bytes "\x7b\"seq\":" = 0x7b :: bytes "\"seq\":" by decide, List.cons_append, List.cons_append,
      textBehind_cons (by decide +kernel) (by decide +kernel), List.append_assoc, textBehind_append]
  unfold extractSeq
  rw [hbehind]
  apply UInt64.toNat_inj.mp
  rw [extractSeq.go_digits, UInt64.toNat_zero, foldl_toDecimal]
  . intro c hc
    exact isDigit_of_mem_toDecimal hc
  . intro c hc
    cases hc
    rfl
  . rw [UInt64.toNat_zero, foldl_toDecimal]
    exact seq.toNat_lt

end ExtractSeq

section Recover

theorem le_foldl_recoverLine (lines : List Bytes) (seq : UInt64)
    : seq ≤ lines.foldl recoverSeq.recoverLine seq := by
  induction lines generalizing seq with
  | nil => exact UInt64.le_refl seq
  | cons line lines ih =>
    rw [List.foldl_cons]
    apply UInt64.le_trans _ (ih _)
    unfold recoverSeq.recoverLine
    split
    . exact UInt64.le_refl seq
    . split
      . next h => exact UInt64.le_of_lt h
      . exact UInt64.le_refl seq

theorem extractSeq_le_recoverLine (seq : UInt64) (line : Bytes)
    : extractSeq line ≤ recoverSeq.recoverLine seq line := by
  unfold recoverSeq.recoverLine
  split
  . next hnil =>
    rw [hnil]
    exact UInt64.zero_le
  . split
    . exact UInt64.le_refl _
    . next h => exact UInt64.not_lt.mp h

theorem extractSeq_le_recoverSeq {content line : Bytes} (h : line ∈ Delimited.split newline content)
    : extractSeq line ≤ recoverSeq content := by
  unfold recoverSeq
  generalize Delimited.split newline content = lines at *
  generalize (0 : UInt64) = seq
  induction lines generalizing seq with
  | nil => cases h
  | cons line' lines ih =>
    rw [List.foldl_cons]
    rcases List.mem_cons.mp h with rfl | hmem
    . apply UInt64.le_trans (extractSeq_le_recoverLine seq line)
      apply le_foldl_recoverLine
    . exact ih hmem _

def AtLineStart (content : Bytes) : Prop :=
  content = [] ∨ content.getLast? = some newline

instance (content : Bytes) : Decidable (AtLineStart content) :=
  inferInstanceAs (Decidable (_ ∨ _))

def Covered (content : Bytes) (seq : UInt64) : Prop :=
  ∃ before line after, content = before ++ (line ++ newline :: after) ∧ AtLineStart before
    ∧ newline ∉ line ∧ seq ≤ extractSeq line

variable {content : Bytes} {seq : UInt64}

theorem Covered.append (h : Covered content seq) (more : Bytes) : Covered (content ++ more) seq := by
  obtain ⟨before, line, after, rfl, hbefore, hline, hle⟩ := h
  refine ⟨before, line, after ++ more, ?_, hbefore, hline, hle⟩
  simp

theorem Covered.mono (h : Covered content seq) {seq' : UInt64} (hle : seq' ≤ seq) : Covered content seq' := by
  obtain ⟨before, line, after, heq, hbefore, hline, hseq⟩ := h
  exact ⟨before, line, after, heq, hbefore, hline, UInt64.le_trans hle hseq⟩

theorem Covered.le_recoverSeq (h : Covered content seq) : seq ≤ recoverSeq content := by
  obtain ⟨before, line, after, rfl, hbefore, hline, hle⟩ := h
  apply UInt64.le_trans hle
  apply extractSeq_le_recoverSeq
  have hmem : line ∈ Delimited.split newline (line ++ newline :: after) := by
    unfold Delimited.split
    rw [Delimited.split.go_append_cons hline]
    exact List.mem_cons_self
  rcases hbefore with rfl | hlast
  . exact hmem
  . rw [← List.dropLast_append_getLast? newline hlast, List.append_assoc, List.singleton_append,
      Delimited.split_append]
    exact List.mem_append_right _ hmem

variable (sha256Hex : Bytes → Bytes)

theorem covered_entryLine (hstart : AtLineStart content) (nowMs : Int) (stage targetId evidenceJson : Bytes)
    : Covered (content ++ entryLine sha256Hex seq nowMs stage targetId evidenceJson) seq := by
  obtain ⟨rest, hrest, hmem⟩ : ∃ rest, entryLine sha256Hex seq nowMs stage targetId evidenceJson
      = bytes "\x7b\"seq\":" ++ toDecimal seq.toNat ++ 0x2c :: rest ∧ newline ∈ rest := by
    unfold entryLine
    simp only [List.append_assoc]
    rw [show bytes ",\"ts\":" = 0x2c :: bytes "\"ts\":" by decide, List.cons_append]
    refine ⟨_, rfl, ?_⟩
    simp only [List.mem_append]
    have hend : newline ∈ bytes "\"\x7d\n" := by decide
    simp only [hend, or_true]
  -- a target or a stage with a line break would end the line early
  obtain ⟨line, after, hsplit, hline⟩ := List.eq_append_cons_of_mem hmem
  refine ⟨content, bytes "\x7b\"seq\":" ++ toDecimal seq.toNat ++ 0x2c :: line, after, ?_, hstart, ?_, ?_⟩
  . rw [hrest, hsplit]
    simp
  . simp only [List.mem_append, List.mem_cons, hline, or_false, not_or]
    refine ⟨⟨by decide, ?_⟩, by decide⟩
    intro h
    have := isDigit_of_mem_toDecimal h
    contradiction
  . rw [extractSeq_front]
    exact UInt64.le_refl seq

end Recover

def entries (journal : StateJournal) : List JournalEntry :=
  journal.writing.toList.map (·.1) ++ journal.waiting

namespace Disk

section Invariant

variable (st : Disk)

def entries : List JournalEntry :=
  st.journal.toList.flatMap StateJournal.entries

def numbers : List UInt64 :=
  st.written ++ st.entries.map JournalEntry.seq

def Continues (entry : JournalEntry) : Prop :=
  AtLineStart st.live ∧ (st.bare = true → ∀ seq ∈ st.written, seq < entry.seq)

instance (entry : JournalEntry) : Decidable (st.Continues entry) :=
  inferInstanceAs (Decidable (_ ∧ _))

def Safe (action : Action) : Prop :=
  match action with
  | .start readable _ => st.journal = none → readable = true
  | .stop => st.bare = false
  | .append .. => ∀ journal ∈ st.journal, journal.seq.toNat + 1 < 2 ^ 64
  | .enter _ => True
  | .call result =>
    ∀ journal ∈ st.journal, ∀ writing ∈ journal.writing, writing.2 = .write →
      writing.1.line.length ≤ result.toNat → st.Continues writing.1

instance (action : Action) : Decidable (st.Safe action) :=
  match action with
  | .start _ _ => inferInstanceAs (Decidable (_ → _))
  | .stop => inferInstanceAs (Decidable (_ = _))
  | .append .. => inferInstanceAs (Decidable (∀ journal ∈ st.journal, _))
  | .enter _ => isTrue trivial
  | .call _ => inferInstanceAs (Decidable (∀ journal ∈ st.journal, ∀ writing ∈ journal.writing, _))

def Recovers (sha256Hex : Bytes → Bytes) (action : Action) : Prop :=
  (st.step sha256Hex action).written.Nodup
    ∧ match action with
      | .start .. =>
        st.journal = none →
          ∀ journal ∈ (st.step sha256Hex action).journal, ∀ seq ∈ st.written, seq ≤ journal.seq
      | _ => True

structure Invariant (sha256Hex : Bytes → Bytes) (st : Disk) : Prop where
  covered : st.bare = false → ∀ seq ∈ st.written, Covered st.live seq
  bare : st.journal = none → st.bare = false
  distinct : st.numbers.Nodup
  bounded : ∀ journal ∈ st.journal, ∀ seq ∈ st.numbers, seq ≤ journal.seq
  line : ∀ entry ∈ st.entries, ∃ nowMs stage targetId evidenceJson,
    entry.line = entryLine sha256Hex entry.seq nowMs stage targetId evidenceJson

end Invariant

section Call

inductive Effect (st : Disk) (journal : StateJournal) (entry : JournalEntry)
    : JournalPoint → Int → Disk → Prop where
  | moves (point point' : JournalPoint) (result : Int) (fd : Bool) (backup : Bytes)
    : Effect st journal entry point result
        { st with backup, journal := some { journal with fd, writing := some (entry, point') } }
  | truncates (result : Int)
    : Effect st journal entry .truncate result
        { st with live := [], bare := true, journal := some { journal with writing := some (entry, .write) } }
  | leaves (point : JournalPoint) (result : Int) (text : Bytes)
    : Effect st journal entry point result
        { st with live := st.live ++ text, journal := some { journal with writing := none } }
  | writes (result : Int) (h : entry.line.length ≤ result.toNat)
    : Effect st journal entry .write result
        {
          st with
          live := st.live ++ entry.line
          journal := some { journal with writing := none }
          written := entry.seq :: st.written
          bare := false
        }

theorem effect_call (st : Disk) (journal : StateJournal) (entry : JournalEntry) (point : JournalPoint)
    (result : Int)
    : Effect st journal entry point result (st.call journal entry point result) := by
  cases point with
  | openFile =>
    dsimp only [call]
    split
    . have h : Effect st journal entry .openFile result _ := Effect.leaves .openFile result []
      simpa using h
    . apply Effect.moves
  | lock => apply Effect.moves
  | stat => apply Effect.moves
  | openBackup =>
    dsimp only [call]
    split
    . apply Effect.moves
    . apply Effect.moves
  | seek => apply Effect.moves
  | read pos => apply Effect.moves
  | copy pos chunk => apply Effect.moves
  | truncate =>
    dsimp only [call]
    split
    . apply Effect.truncates
    . apply Effect.moves
  | write =>
    dsimp only [call]
    split
    . next h => exact .writes result h
    . apply Effect.leaves

end Call

section Step

variable {sha256Hex : Bytes → Bytes} {st : Disk} {journal : StateJournal}

@[simp]
theorem entries_of_some (h : st.journal = some journal) : st.entries = journal.entries := by
  simp [entries, h]

theorem numbers_of_some (h : st.journal = some journal)
    : st.numbers = st.written ++ journal.entries.map JournalEntry.seq := by
  rw [numbers, entries_of_some h]

theorem Invariant.nodup (h : Invariant sha256Hex st) : st.written.Nodup :=
  h.distinct.of_append_left

theorem Invariant.start (h : Invariant sha256Hex st) (hnone : st.journal = none)
    : ∀ seq ∈ st.written, seq ≤ recoverSeq st.live := by
  intro seq hseq
  exact (h.covered (h.bare hnone) seq hseq).le_recoverSeq

theorem Invariant.of_subperm (h : Invariant sha256Hex st) {live backup : Bytes} {bare : Bool}
    {journal' : StateJournal} (hsome : st.journal = some journal) (hseq : journal'.seq = journal.seq)
    (hentries : journal'.entries.Subperm journal.entries)
    (hcovered : bare = false → ∀ seq ∈ st.written, Covered live seq)
    : Invariant sha256Hex { st with live, backup, bare, journal := some journal' } := by
  have hnumbers : (st.written ++ journal'.entries.map JournalEntry.seq).Subperm st.numbers := by
    rw [numbers_of_some hsome, List.subperm_append_left]
    obtain ⟨kept, hperm, hsub⟩ := hentries
    exact ⟨kept.map _, hperm.map _, hsub.map _⟩
  refine ⟨hcovered, nofun, ?_, ?_, ?_⟩
  . rw [numbers_of_some rfl]
    obtain ⟨numbers, hperm, hsub⟩ := hnumbers
    rw [← hperm.nodup_iff]
    exact hsub.nodup h.distinct
  . rintro _ ⟨⟩ seq hmem
    rw [numbers_of_some rfl] at hmem
    rw [hseq]
    exact h.bounded journal hsome seq (hnumbers.subset hmem)
  . intro entry hentry
    rw [entries_of_some rfl] at hentry
    apply h.line
    rw [entries_of_some hsome]
    exact hentries.subset hentry

theorem Invariant.append (h : Invariant sha256Hex st) (hsome : st.journal = some journal)
    (hlt : journal.seq.toNat + 1 < 2 ^ 64) (nowMs : Int) (stage targetId evidenceJson : Bytes)
    : Invariant sha256Hex (st.step sha256Hex (.append stage targetId evidenceJson nowMs)) := by
  have hseq : (journal.seq + 1).toNat = journal.seq.toNat + 1 := by
    rw [UInt64.toNat_add]
    apply Nat.mod_eq_of_lt
    exact hlt
  have hfresh : ∀ seq ∈ st.numbers, seq < journal.seq + 1 := by
    intro seq hmem
    have := h.bounded journal hsome seq hmem
    rw [UInt64.le_iff_toNat_le] at this
    rw [UInt64.lt_iff_toNat_lt, hseq]
    omega
  have hnumbers : (st.step sha256Hex (.append stage targetId evidenceJson nowMs)).numbers
      = st.numbers ++ [journal.seq + 1] := by
    simp [step, hsome, numbers, entries, StateJournal.entries]
  unfold step at hnumbers ⊢
  simp only [hsome] at hnumbers ⊢
  refine ⟨h.covered, nofun, ?_, ?_, ?_⟩
  . rw [hnumbers, List.nodup_append]
    refine ⟨h.distinct, by simp, ?_⟩
    intro seq hmem seq' hmem' heq
    rw [List.mem_singleton] at hmem'
    have := hfresh seq hmem
    rw [heq, hmem'] at this
    exact UInt64.lt_irrefl _ this
  . rintro _ ⟨⟩ seq hmem
    rw [hnumbers, List.mem_append, List.mem_singleton] at hmem
    rcases hmem with hmem | rfl
    . exact UInt64.le_of_lt (hfresh seq hmem)
    . exact UInt64.le_refl _
  . intro entry hentry
    rw [entries_of_some rfl, StateJournal.entries, ← List.append_assoc] at hentry
    rcases List.mem_append.mp hentry with hold | hnew
    . apply h.line
      rwa [entries_of_some hsome]
    . rw [List.mem_singleton.mp hnew]
      exact ⟨nowMs, stage, targetId, evidenceJson, rfl⟩

theorem Invariant.enter (h : Invariant sha256Hex st) (i : Nat)
    : Invariant sha256Hex (st.step sha256Hex (.enter i)) := by
  unfold step
  cases hsome : st.journal with
  | none => exact h
  | some journal =>
    cases hwriting : journal.writing with
    | some writing => simpa only [hwriting] using h
    | none =>
      cases hwaiting : journal.waiting[i]? with
      | none => simpa only [hwriting, hwaiting] using h
      | some entry =>
        simp only [hwriting, hwaiting, run]
        apply h.of_subperm hsome
        . rfl
        . obtain ⟨hi, hget⟩ := List.getElem?_eq_some_iff.mp hwaiting
          have hperm := List.getElem_cons_eraseIdx_perm hi
          rw [hget] at hperm
          simpa [StateJournal.entries, hwriting] using hperm.subperm
        . exact h.covered

theorem Invariant.write (h : Invariant sha256Hex st) {entry : JournalEntry} {point : JournalPoint}
    (hsome : st.journal = some journal) (hwriting : journal.writing = some (entry, point))
    (hstart : AtLineStart st.live) (hlargest : st.bare = true → ∀ seq ∈ st.written, seq < entry.seq)
    : Invariant sha256Hex
        {
          st with
          live := st.live ++ entry.line
          journal := some { journal with writing := none }
          written := entry.seq :: st.written
          bare := false
        } := by
  have hentries : journal.entries = entry :: journal.waiting := by
    simp [StateJournal.entries, hwriting]
  have hperm : st.numbers.Perm (entry.seq :: (st.written ++ journal.waiting.map JournalEntry.seq)) := by
    rw [numbers_of_some hsome, hentries, List.map_cons]
    exact List.perm_middle
  refine ⟨?_, nofun, ?_, ?_, ?_⟩
  . intro _
    obtain ⟨nowMs, stage, targetId, evidenceJson, hline⟩ := h.line entry (by
      rw [entries_of_some hsome, hentries]
      exact List.mem_cons_self)
    have hnew : Covered (st.live ++ entry.line) entry.seq := by
      rw [hline]
      apply covered_entryLine
      exact hstart
    rw [List.forall_mem_cons]
    refine ⟨hnew, ?_⟩
    intro seq hmem
    cases hbare : st.bare with
    | false => exact (h.covered hbare seq hmem).append _
    | true => exact hnew.mono (UInt64.le_of_lt (hlargest hbare seq hmem))
  . rw [numbers_of_some rfl]
    exact hperm.nodup_iff.mp h.distinct
  . rintro _ ⟨⟩ seq hmem
    rw [numbers_of_some rfl] at hmem
    exact h.bounded journal hsome seq (hperm.mem_iff.mpr hmem)
  . intro entry' hentry
    apply h.line
    rw [entries_of_some rfl] at hentry
    rw [entries_of_some hsome, hentries]
    exact List.mem_cons_of_mem _ hentry

theorem Invariant.call (h : Invariant sha256Hex st) {entry : JournalEntry} {point : JournalPoint}
    {result : Int} (hsome : st.journal = some journal) (hwriting : journal.writing = some (entry, point))
    (hsafe : st.Safe (.call result))
    : Invariant sha256Hex (st.call journal entry point result) := by
  have heffect := effect_call st journal entry point result
  generalize st.call journal entry point result = st' at heffect
  cases heffect with
  | moves =>
    apply h.of_subperm hsome
    . rfl
    . simp [StateJournal.entries, hwriting, List.Subperm.refl]
    . exact h.covered
  | truncates =>
    apply h.of_subperm hsome
    . rfl
    . simp [StateJournal.entries, hwriting, List.Subperm.refl]
    . exact nofun
  | leaves =>
    apply h.of_subperm hsome
    . rfl
    . simp [StateJournal.entries, hwriting, List.subperm_cons_self]
    . intro hbare seq hmem
      apply (h.covered hbare seq hmem).append
  | writes _ hlength =>
    obtain ⟨hstart, hlargest⟩ := hsafe journal hsome _ hwriting rfl hlength
    exact h.write hsome hwriting hstart hlargest

theorem Invariant.step (h : Invariant sha256Hex st) {action : Action} (hsafe : st.Safe action)
    : Invariant sha256Hex (st.step sha256Hex action) := by
  cases action with
  | start readable fd =>
    unfold Disk.step
    cases hsome : st.journal with
    | some journal => exact h
    | none =>
      rw [hsafe hsome]
      refine ⟨h.covered, nofun, ?_, ?_, ?_⟩
      . simpa [numbers, entries, StateJournal.entries] using h.nodup
      . rintro _ ⟨⟩ seq hmem
        apply h.start hsome
        simpa [numbers, entries, StateJournal.entries] using hmem
      . simp [entries, StateJournal.entries]
  | stop =>
    unfold Disk.step
    cases hsome : st.journal with
    | none => exact h
    | some journal =>
      refine ⟨h.covered, fun _ => hsafe, ?_, nofun, ?_⟩
      . simpa [numbers, entries] using h.nodup
      . simp [entries]
  | append stage targetId evidenceJson nowMs =>
    cases hsome : st.journal with
    | none => simpa only [Disk.step, hsome] using h
    | some journal =>
      apply h.append hsome
      exact hsafe journal hsome
  | enter i => exact h.enter i
  | call result =>
    unfold Disk.step
    cases hsome : st.journal with
    | none => exact h
    | some journal =>
      cases hwriting : journal.writing with
      | none => simpa only [hwriting] using h
      | some writing =>
        simp only [hwriting]
        exact h.call hsome hwriting hsafe

end Step

theorem invariant_new (sha256Hex : Bytes → Bytes) : Invariant sha256Hex {} := by
  constructor <;> simp [numbers, entries]

theorem along_recovers_of_safe (sha256Hex : Bytes → Bytes) (actions : List Action)
    (h : Run.Along (step · sha256Hex) Safe {} actions)
    : Run.Along (step · sha256Hex) (Recovers · sha256Hex) {} actions := by
  apply Run.along_of_invariant (I := Invariant sha256Hex) _ (invariant_new sha256Hex) h
  intro st action hinv hsafe
  have hnext := hinv.step hsafe
  refine ⟨⟨hnext.nodup, ?_⟩, hnext⟩
  cases action with
  | start readable fd =>
    intro hnone journal hjournal
    unfold step at hjournal
    rw [hnone, hsafe hnone] at hjournal
    cases hjournal
    exact hinv.start hnone
  | _ => trivial

def sampleRun : List Action :=
  [
    .start true 3, .append (bytes "EXECUTED") (bytes "T") (bytes "\x7b\x7d") 0, .enter 0, .call 0, .call 0,
    .call 200, .append (bytes "EXECUTED") (bytes "U") (bytes "\x7b\x7d") 1, .enter 0, .call (-1), .call (-1),
    .stop, .start true 3, .append (bytes "EXECUTED") (bytes "V") (bytes "\x7b\x7d") 2, .enter 0, .call 0,
    .call 0, .call 200
  ]

theorem along_recovers_sampleRun
    : (sampleRun.foldl (step · id) {}).written = [2, 1]
        ∧ Run.Along (step · id) (Recovers · id) {} sampleRun := by
  constructor
  . decide +kernel
  . apply along_recovers_of_safe
    decide +kernel

section Rotation

def Succeeds (action : Action) : Prop :=
  match action with
  | .start readable fd => readable = true ∧ 0 ≤ fd
  | .call result => 0 ≤ result
  | _ => True

variable (sha256Hex : Bytes → Bytes)

theorem step_run (st : Disk) (journal : StateJournal) (entry : JournalEntry) (point : JournalPoint)
    (result : Int)
    : (st.run journal entry point).step sha256Hex (.call result)
        = (st.run journal entry point).call { journal with writing := some (entry, point) } entry point
            result :=
  rfl

theorem exists_copies (st : Disk) (journal : StateJournal) (entry : JournalEntry) (pos : Nat)
    : ∃ actions : List Action, (∀ action ∈ actions, Succeeds action)
        ∧ actions.foldl (step · sha256Hex) (st.run journal entry (.read pos))
          = { st.run journal entry .truncate with backup := st.backup ++ st.live.drop pos } := by
  by_cases hend : st.live.length ≤ pos
  . refine ⟨[.call 0], by simp [Succeeds], ?_⟩
    rw [List.foldl_cons, List.foldl_nil, step_run]
    simp [call, run, List.drop_eq_nil_of_le hend]
  . let chunk := (st.live.drop pos).take 65536
    have hchunk : chunk.length = min 65536 (st.live.length - pos) := by simp [chunk]
    have hne : chunk ≠ [] := by
      apply List.ne_nil_of_length_pos
      omega
    obtain ⟨actions, hsucceeds, hactions⟩ :=
      exists_copies { st with backup := st.backup ++ chunk } journal entry (pos + chunk.length)
    refine ⟨.call 65536 :: .call chunk.length :: actions, by simpa [Succeeds] using hsucceeds, ?_⟩
    have hread : (st.run journal entry (.read pos)).step sha256Hex (.call 65536)
        = st.run journal entry (.copy pos chunk) := by
      rw [step_run]
      simp only [call]
      rw [show (run st journal entry (.read pos)).live = st.live from rfl]
      rw [show min (65536 : Int).toNat 65536 = 65536 from rfl, if_neg hne]
      rfl
    have hcopy : (st.run journal entry (.copy pos chunk)).step sha256Hex (.call chunk.length)
        = run { st with backup := st.backup ++ chunk } journal entry (.read (pos + chunk.length)) := by
      rw [step_run]
      simp [call, run]
    rw [List.foldl_cons, List.foldl_cons, hread, hcopy, hactions]
    have hdrop : chunk ++ st.live.drop (pos + chunk.length) = st.live.drop pos := by
      rw [← List.drop_drop]
      exact List.prefix_iff_eq_append.mp (List.take_prefix _ _)
    simp [run, hdrop]
termination_by st.live.length - pos

theorem length_le_length_escape (evidenceJson : Bytes) : evidenceJson.length ≤ (escape evidenceJson).length := by
  have hchar (c : UInt8) : 1 ≤ (escapeChar c).length := by
    unfold escapeChar unicodeEscape
    split_ifs <;> simp +decide
  unfold escape
  induction evidenceJson with
  | nil => simp
  | cons c cs ih =>
    have := hchar c
    rw [List.flatMap_cons, List.length_append, List.length_cons]
    omega

def firstEntry (evidenceJson : Bytes) : List Action :=
  [
    .start true 3, .append (bytes "EXECUTED") (bytes "T") evidenceJson 0, .enter 0, .call 0, .call 0,
    .call (entryLine id 1 0 (bytes "EXECUTED") (bytes "T") evidenceJson).length
  ]

theorem foldl_firstEntry (evidenceJson backup : Bytes) (written : List UInt64) (bare : Bool)
    : (firstEntry evidenceJson).foldl (step · id) { backup, written, bare }
        = {
          live := entryLine id 1 0 (bytes "EXECUTED") (bytes "T") evidenceJson
          backup
          journal := some { seq := 1, fd := true }
          written := 1 :: written
        } := by
  have hseq : recoverSeq [] + 1 = 1 := rfl
  simp [firstEntry, step, run, call, hseq]

theorem succeeds_firstEntry (evidenceJson : Bytes) : ∀ action ∈ firstEntry evidenceJson, Succeeds action := by
  simp [firstEntry, Succeeds]

theorem exists_rotate {live : Bytes} (hlive : maxSize < live.length)
    : ∃ actions : List Action, (∀ action ∈ actions, Succeeds action)
        ∧ actions.foldl (step · id)
            { live, journal := some { seq := 1, fd := true }, written := [1] }
          = { backup := live, written := [1], bare := true } := by
  let entry : JournalEntry := ⟨2, entryLine id 2 0 (bytes "EXECUTED") (bytes "T") []⟩
  let st : Disk := { live, written := [1] }
  obtain ⟨copies, hsucceeds, hcopies⟩ := exists_copies id st { seq := 2, fd := true } entry 0
  refine ⟨[.append (bytes "EXECUTED") (bytes "T") [] 0, .enter 0, .call 0, .call 0, .call 4, .call 0] ++ copies
    ++ [.call 0, .stop], ?_, ?_⟩
  . simp only [List.forall_mem_append]
    exact ⟨⟨by simp [Succeeds], hsucceeds⟩, by simp [Succeeds]⟩
  . have hbefore : [Action.append (bytes "EXECUTED") (bytes "T") [] 0, .enter 0, .call 0, .call 0, .call 4,
        .call 0].foldl (step · id) { live, journal := some { seq := 1, fd := true }, written := [1] }
        = st.run { seq := 2, fd := true } entry (.read 0) := by
      simp [step, run, call, hlive, st, entry]
    rw [List.foldl_append, List.foldl_append, hbefore, hcopies]
    simp [step, run, call, st]

/--
A process that ends right after it has rotated the journal makes its successor start from the beginning,
although every call has succeeded.
-/
theorem rotation_repeats_number
    : ∃ actions : List Action, (∀ action ∈ actions, Succeeds action)
        ∧ (actions.foldl (step · id) {}).written = [1, 1] := by
  let evidenceJson : Bytes := List.replicate maxSize 0x61
  have hlive : maxSize < (entryLine id 1 0 (bytes "EXECUTED") (bytes "T") evidenceJson).length := by
    have := length_le_length_escape evidenceJson
    rw [List.length_replicate] at this
    simp only [entryLine, List.length_append]
    have hend : 0 < (bytes "\"\x7d\n").length := by decide
    omega
  obtain ⟨rotate, hsucceeds, hrotate⟩ := exists_rotate hlive
  refine ⟨firstEntry evidenceJson ++ rotate ++ firstEntry [], ?_, ?_⟩
  . simp only [List.forall_mem_append]
    exact ⟨⟨succeeds_firstEntry _, hsucceeds⟩, succeeds_firstEntry _⟩
  . rw [List.foldl_append, List.foldl_append, foldl_firstEntry, hrotate, foldl_firstEntry]

end Rotation

end Disk
end StateJournal
end NeuroMesh
