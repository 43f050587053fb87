import NeuroMesh.Common.StateJournal.Basic

namespace NeuroMesh
namespace StateJournal
namespace Disk

def point? (st : Disk) : Option JournalPoint :=
  st.journal.bind fun journal => journal.writing.map Prod.snd

def calls (sha256Hex : Bytes → Bytes) (st : Disk) (results : List Int) : Disk :=
  results.foldl (fun st result => st.step sha256Hex (.call result)) st

variable {sha256Hex : Bytes → Bytes} {st : Disk}

theorem calls_concat (results : List Int) (result : Int)
    : st.calls sha256Hex (results ++ [result]) = (st.calls sha256Hex results).step sha256Hex (.call result) := by
  simp [calls]

def Copying (st : Disk) : Prop :=
  match st.point? with
  | some .seek => st.backup = []
  | some (.read pos) => st.backup = st.live.take pos ∧ pos ≤ st.live.length
  | some (.copy pos chunk) =>
    st.backup = st.live.take pos ∧ pos ≤ st.live.length ∧ ∃ n, chunk = (st.live.drop pos).take n
  | _ => True

theorem exists_of_point? {point : JournalPoint} (h : st.point? = some point)
    : ∃ journal entry, st.journal = some journal ∧ journal.writing = some (entry, point) := by
  unfold point? at h
  obtain ⟨journal, hjournal, hmap⟩ := Option.bind_eq_some_iff.mp h
  obtain ⟨writing, hwriting, rfl⟩ := Option.map_eq_some_iff.mp hmap
  exact ⟨journal, writing.1, hjournal, hwriting⟩

theorem step_call_of_writing {journal : StateJournal} {entry : JournalEntry} {point : JournalPoint}
    (hjournal : st.journal = some journal) (hwriting : journal.writing = some (entry, point)) (result : Int)
    : st.step sha256Hex (.call result) = st.call journal entry point result := by
  unfold step
  simp only [hjournal, hwriting]

theorem step_call_of_none (h : st.point? = none) (result : Int) : st.step sha256Hex (.call result) = st := by
  unfold step
  cases hjournal : st.journal with
  | none => rfl
  | some journal =>
    cases hwriting : journal.writing with
    | none => simp only [hwriting]
    | some writing => simp [point?, hjournal, hwriting] at h

theorem Copying.call (h : st.Copying) (result : Int) : (st.step sha256Hex (.call result)).Copying := by
  cases hpoint : st.point? with
  | none => rwa [step_call_of_none hpoint]
  | some point =>
    obtain ⟨journal, entry, hjournal, hwriting⟩ := exists_of_point? hpoint
    rw [step_call_of_writing hjournal hwriting]
    unfold Copying at h
    rw [hpoint] at h
    cases point
    case openBackup =>
      dsimp only [Disk.call]
      split
      . trivial
      . exact rfl
    case seek =>
      dsimp only [Disk.call]
      split
      . trivial
      . exact ⟨h, Nat.zero_le _⟩
    case read pos =>
      dsimp only [Disk.call]
      split
      . trivial
      . exact ⟨h.1, h.2, _, rfl⟩
    case copy pos chunk =>
      dsimp only [Disk.call]
      obtain ⟨hbackup, hpos, n, hchunk⟩ := h
      split
      . next hall =>
        have hlength : chunk.length ≤ st.live.length - pos := by
          rw [hchunk, List.length_take, List.length_drop]
          omega
        have htake : chunk = (st.live.drop pos).take chunk.length := by
          conv_lhs => rw [hchunk]
          rw [hchunk, List.length_take, ← List.take_take, List.take_length]
        refine ⟨?_, by dsimp only [run]; omega⟩
        dsimp only [run]
        rw [hbackup, hall, Int.toNat_natCast, List.take_length, List.take_add, ← htake]
      . trivial
    -- the other calls are not between the opening of the backup and its last byte
    all_goals
      dsimp only [Disk.call]
      split <;> trivial

theorem Copying.calls (h : st.Copying) (results : List Int) : (st.calls sha256Hex results).Copying := by
  induction results using List.reverseRecOn with
  | nil => exact h
  | append_singleton results result ih =>
    rw [calls_concat]
    exact ih.call result

theorem step_call_of_read (sha256Hex : Bytes → Bytes) {pos : Nat} {result : Int} (h : st.point? = some (.read pos))
    (hchunk : (st.live.drop pos).take (min result.toNat 65536) = [])
    : (st.step sha256Hex (.call result)).point? = some .truncate
        ∧ (st.step sha256Hex (.call result)).live = st.live
        ∧ (st.step sha256Hex (.call result)).backup = st.backup := by
  obtain ⟨journal, entry, hjournal, hwriting⟩ := exists_of_point? h
  rw [step_call_of_writing hjournal hwriting]
  dsimp only [Disk.call]
  rw [if_pos hchunk]
  exact ⟨rfl, rfl, rfl⟩

theorem exists_read_of_truncate {result : Int}
    (h : (st.step sha256Hex (.call result)).point? = some .truncate)
    : ∃ pos, st.point? = some (.read pos) ∧ (st.live.drop pos).take (min result.toNat 65536) = [] := by
  cases hpoint : st.point? with
  | none =>
    rw [step_call_of_none hpoint, hpoint] at h
    contradiction
  | some point =>
    obtain ⟨journal, entry, hjournal, hwriting⟩ := exists_of_point? hpoint
    rw [step_call_of_writing hjournal hwriting] at h
    cases point
    case read pos =>
      refine ⟨pos, rfl, ?_⟩
      dsimp only [Disk.call] at h
      split at h
      . next hchunk => exact hchunk
      . simp [point?, run] at h
    all_goals
      dsimp only [Disk.call] at h
      split at h <;> simp [point?, run] at h

def LosesNothing (sha256Hex : Bytes → Bytes) (st : Disk) (results : List Int) : Prop :=
  ∀ before after, results = before ++ 0 :: after →
    (st.calls sha256Hex before).point? = some .truncate →
      (st.calls sha256Hex before).backup = (st.calls sha256Hex before).live

def ReadsThrough (sha256Hex : Bytes → Bytes) (st : Disk) (results : List Int) : Prop :=
  ∀ before failed truncated after pos, results = before ++ failed :: truncated :: after →
    (st.calls sha256Hex before).point? = some (.read pos) → failed ≤ 0 →
      pos < (st.calls sha256Hex before).live.length → truncated ≠ 0

theorem take_drop_eq_nil_iff {pos : Nat} {result : Int} {live : Bytes} (hpos : pos ≤ live.length)
    : (live.drop pos).take (min result.toNat 65536) = [] ↔ result ≤ 0 ∨ pos = live.length := by
  rw [List.take_eq_nil_iff, List.drop_eq_nil_iff]
  omega

/--
Whatever the system calls of an `append` return, the only thing that can go wrong is that the loop takes a read
that fails for the end of the file.
-/
theorem losesNothing_iff (h : st.point? = some .openFile ∨ st.point? = some .lock) (results : List Int)
    : LosesNothing sha256Hex st results ↔ ReadsThrough sha256Hex st results := by
  have hcopying (results : List Int) : (st.calls sha256Hex results).Copying := by
    apply Copying.calls
    unfold Copying
    rcases h with h | h
    . rw [h]
      trivial
    . rw [h]
      trivial
  constructor
  . intro hloses before failed truncated after pos hresults hpoint hfailed hpos htruncated
    have hread := hcopying before
    unfold Copying at hread
    rw [hpoint] at hread
    have hstep := step_call_of_read sha256Hex hpoint
      ((take_drop_eq_nil_iff hread.2).mpr (.inl hfailed))
    rw [← calls_concat] at hstep
    have hcopy := hloses (before ++ [failed]) after (by rw [hresults, htruncated]; simp) hstep.1
    rw [hstep.2.1, hstep.2.2, hread.1] at hcopy
    have hlength := congrArg List.length hcopy
    rw [List.length_take] at hlength
    omega
  . intro hthrough before after hresults hpoint
    -- the file is truncated after a read, so there is one
    cases before using List.reverseRecOn with
    | nil =>
      rcases h with h | h
      . rw [calls, List.foldl_nil, h] at hpoint
        contradiction
      . rw [calls, List.foldl_nil, h] at hpoint
        contradiction
    | append_singleton before failed =>
      rw [calls_concat] at hpoint ⊢
      obtain ⟨pos, hread, hchunk⟩ := exists_read_of_truncate hpoint
      obtain ⟨-, hlive, hbackup⟩ := step_call_of_read sha256Hex hread hchunk
      have hcopied := hcopying before
      unfold Copying at hcopied
      rw [hread] at hcopied
      rw [hlive, hbackup, hcopied.1, List.take_of_length_le]
      rcases (take_drop_eq_nil_iff hcopied.2).mp hchunk with hfailed | hend
      . by_contra hshort
        have hne := hthrough before failed 0 after pos (by rw [hresults]; simp) hread hfailed (by omega)
        exact hne rfl
      . omega

section Sample

variable {journal : StateJournal} {entry : JournalEntry} (hjournal : st.journal = some journal)
  (hwriting : journal.writing = some (entry, .lock))
include hjournal hwriting

theorem not_losesNothing_of_read_failed (hsize : maxSize < st.live.length)
    : ¬LosesNothing sha256Hex st [0, 0, 3, 0, -1, 0] := by
  intro h
  have hread : (st.calls sha256Hex [0, 0, 3, 0]).point? = some (.read 0)
      ∧ (st.calls sha256Hex [0, 0, 3, 0]).live = st.live ∧ (st.calls sha256Hex [0, 0, 3, 0]).backup = [] := by
    simp [calls, step, call, run, point?, hjournal, hwriting, hsize]
  obtain ⟨hpoint, hlive, hbackup⟩ := hread
  have hchunk : ((st.calls sha256Hex [0, 0, 3, 0]).live.drop 0).take (min (-1 : Int).toNat 65536) = [] := by
    simp
  obtain ⟨htruncate, hlive', hbackup'⟩ := step_call_of_read sha256Hex hpoint hchunk
  have hcopy := h ([0, 0, 3, 0] ++ [-1]) [] (by simp)
  rw [calls_concat] at hcopy
  have heq := hcopy htruncate
  rw [hlive', hbackup', hlive, hbackup] at heq
  rw [← heq] at hsize
  exact absurd hsize (Nat.not_lt_zero maxSize)

end Sample

section Rotated

def reading (live : Bytes) (point : JournalPoint) (copied : Nat) : Disk where
  live := live
  backup := live.take copied
  journal := some { seq := 1, fd := true, writing := some (⟨1, []⟩, point) }

variable {live : Bytes}

theorem calls_start (hsize : maxSize < live.length)
    : (reading live .lock 0).calls sha256Hex [0, 0, 3, 0] = reading live (.read 0) 0 := by
  simp [calls, step, call, run, reading, hsize]

theorem calls_reading {pos n : Nat} (hpos : 0 < n) (hn : n ≤ 65536) (hle : pos + n ≤ live.length)
    : (reading live (.read pos) pos).calls sha256Hex [(n : Int), (n : Int)]
        =
      reading live (.read (pos + n)) (pos + n) := by
  have hlength : ((live.drop pos).take n).length = n := by
    rw [List.length_take, List.length_drop]
    omega
  have hne : (live.drop pos).take n ≠ [] := by
    apply List.ne_nil_of_length_pos
    omega
  simp only [calls, List.foldl_cons, List.foldl_nil, step, call, run, reading, Int.toNat_natCast,
    Nat.min_eq_left hn, if_neg hne, hlength, if_true]
  rw [List.take_take, Nat.min_self, ← List.take_add]

def copies (n : Nat) : List Int :=
  match n with
  | 0 => []
  | n + 1 => copies n ++ [((65536 : Nat) : Int), ((65536 : Nat) : Int)]

theorem calls_copies {n : Nat} (hn : 65536 * n ≤ live.length)
    : (reading live (.read 0) 0).calls sha256Hex (copies n)
        =
      reading live (.read (65536 * n)) (65536 * n) := by
  induction n with
  | zero => rfl
  | succ n ih =>
    rw [copies, calls, List.foldl_append, ← calls, ← calls, ih (by omega),
      calls_reading (by decide) (by decide) (by omega)]
    rfl

theorem pos_of_mem_copies {n : Nat} {result : Int} (h : result ∈ copies n) : 0 < result := by
  induction n with
  | zero => contradiction
  | succ n ih =>
    rcases List.mem_append.mp h with hold | hnew
    . exact ih hold
    . simp at hnew
      omega

theorem readsThrough_of_copied {copied : List Int} (hsize : maxSize < live.length)
    (hpositive : ∀ result ∈ copied, 0 < result)
    (hcopied : (reading live (.read 0) 0).calls sha256Hex copied = reading live (.read live.length) live.length)
    : ReadsThrough sha256Hex (reading live .lock 0) ([0, 0, 3, 0] ++ (copied ++ [0, 0])) := by
  intro before failed truncated after pos hresults hpoint hfailed hpos
  -- the first four calls are not reads, and of the others only the last one returns nothing
  match before with
  | [] => simp [calls, point?, reading] at hpoint
  | [_] =>
    simp only [List.cons_append, List.nil_append, List.cons.injEq] at hresults
    simp [← hresults.1, calls, step, call, run, point?, reading] at hpoint
  | [_, _] =>
    simp only [List.cons_append, List.nil_append, List.cons.injEq] at hresults
    simp [← hresults.1, ← hresults.2.1, calls, step, call, run, point?, reading, hsize] at hpoint
  | [_, _, _] =>
    simp only [List.cons_append, List.nil_append, List.cons.injEq] at hresults
    simp [← hresults.1, ← hresults.2.1, ← hresults.2.2.1, calls, step, call, run, point?, reading, hsize]
      at hpoint
  | _ :: _ :: _ :: _ :: before =>
    simp only [List.cons_append, List.nil_append, List.cons.injEq] at hresults
    obtain ⟨rfl, rfl, rfl, rfl, hresults⟩ := hresults
    have hcalls : (reading live .lock 0).calls sha256Hex (0 :: 0 :: 3 :: 0 :: before)
        = (reading live (.read 0) 0).calls sha256Hex before := by
      rw [← calls_start hsize]
      rfl
    rw [hcalls] at hpoint hpos
    have hend : before ≠ copied := by
      rintro rfl
      rw [hcopied] at hpoint hpos
      cases hpoint
      exact absurd hpos (Nat.lt_irrefl _)
    rcases List.append_eq_append_iff.mp hresults with ⟨rest, heq, htail⟩ | ⟨rest, heq, htail⟩
    . have hlength := congrArg List.length htail
      simp only [List.length_append, List.length_cons, List.length_nil] at hlength
      rw [List.length_eq_zero_iff.mp (show rest.length = 0 by omega), List.append_nil] at heq
      exact absurd heq hend
    . cases rest with
      | nil =>
        rw [List.append_nil] at heq
        exact absurd heq.symm hend
      | cons result rest =>
        simp only [List.cons_append, List.cons.injEq] at htail
        have := hpositive result (by simp [heq])
        omega

end Rotated

def sampleRotation : Disk :=
  reading (List.replicate (65536 * 160 + 1) 0x61) .lock 0

/--
The file is copied in chunks of 64 KiB, the last read finds the end of it, and it is truncated.
-/
def sampleResults : List Int :=
  [0, 0, 3, 0] ++ (copies 160 ++ [((1 : Nat) : Int), ((1 : Nat) : Int)] ++ [0, 0])

theorem losesNothing_sampleRotation
    : (sampleRotation.calls id sampleResults).live = []
        ∧ (sampleRotation.calls id sampleResults).backup = sampleRotation.live
        ∧ LosesNothing id sampleRotation sampleResults := by
  unfold sampleRotation sampleResults
  have hlength : (List.replicate (65536 * 160 + 1) (0x61 : UInt8)).length = 65536 * 160 + 1 := by
    exact List.length_replicate
  generalize List.replicate (65536 * 160 + 1) (0x61 : UInt8) = live at hlength ⊢
  have hsize : maxSize < live.length := by
    rw [hlength]
    decide
  have hcopied : (reading live (.read 0) 0).calls id (copies 160 ++ [((1 : Nat) : Int), ((1 : Nat) : Int)])
      = reading live (.read live.length) live.length := by
    rw [calls, List.foldl_append, ← calls, ← calls, calls_copies (by omega),
      calls_reading (by decide) (by decide) (by omega), hlength]
  have hrun : (reading live .lock 0).calls id
      ([0, 0, 3, 0] ++ (copies 160 ++ [((1 : Nat) : Int), ((1 : Nat) : Int)] ++ [0, 0]))
      = (reading live (.read live.length) live.length).calls id [0, 0] := by
    rw [calls, List.foldl_append, List.foldl_append, ← calls, ← calls, ← calls, calls_start hsize, hcopied]
  rw [hrun]
  refine ⟨?_, ?_, ?_⟩
  . simp [calls, step, call, run, reading]
  . simp [calls, step, call, run, reading]
  . rw [losesNothing_iff (.inr rfl)]
    apply readsThrough_of_copied hsize _ hcopied
    rw [List.forall_mem_append]
    exact ⟨fun _ => pos_of_mem_copies, by simp⟩

theorem not_forall_losesNothing
    : ¬ ∀ (sha256Hex : Bytes → Bytes) (st : Disk) (results : List Int), st.point? = some .lock →
        maxSize < st.live.length → LosesNothing sha256Hex st results := by
  intro h
  have hsize : maxSize < sampleRotation.live.length := by
    unfold sampleRotation reading
    rw [List.length_replicate]
    decide
  have hfailed : ¬LosesNothing id sampleRotation [0, 0, 3, 0, -1, 0] := by
    apply not_losesNothing_of_read_failed
    . rfl
    . rfl
    . exact hsize
  exact hfailed (h id sampleRotation _ rfl hsize)

end Disk
end StateJournal
end NeuroMesh
