import NeuroMesh.Data.Run
import NeuroMesh.Telemetry.TelemetryBridge

namespace NeuroMesh
namespace TelemetryBridge

open Lines (complete tail frames)

section Monitor

variable {monitor : Monitor} {stream : Bytes}

def NonEmpty (line : Bytes) : Bool :=
  !line.isEmpty

theorem foldl_gather (lines : List Bytes) (linesToPublish : Bytes)
    : lines.foldl gather linesToPublish = linesToPublish ++ frames newline (lines.filter NonEmpty) := by
  induction lines generalizing linesToPublish with
  | nil => simp [frames]
  | cons line lines ih =>
    rw [List.foldl_cons, ih, List.filter_cons]
    unfold gather NonEmpty
    cases line with
    | nil => rfl
    | cons c line => simp [Lines.frames_cons]

theorem foldl_publish (lines : List Bytes) (published : List Bytes)
    : lines.foldl publish published = published ++ lines.filter NonEmpty := by
  induction lines generalizing published with
  | nil => simp
  | cons line lines ih =>
    rw [List.foldl_cons, ih, List.filter_cons]
    unfold publish NonEmpty
    cases line with
    | nil => rfl
    | cons c line => simp

theorem Monitor.receive_eq (monitor : Monitor) (chunk : Bytes)
    : monitor.receive chunk
        =
      {
        buffer :=
          let rest := tail newline (monitor.buffer ++ chunk)
          if maxBuffer < rest.length then [] else rest
        published :=
          monitor.published ++ (complete newline (monitor.buffer ++ chunk)).filter NonEmpty
        exited := monitor.exited
      } := by
  have hlines : ∀ line ∈ (complete newline (monitor.buffer ++ chunk)).filter NonEmpty, newline ∉ line := by
    intro line hline
    exact Lines.notMem_of_mem_complete _ line (List.mem_filter.mp hline).1
  unfold receive
  simp only [Lines.drain_eq _ _ (le_refl _), foldl_gather, List.nil_append, foldl_publish,
    Lines.complete_frames hlines, List.filter_filter, Bool.and_self]
  split
  . rfl
  . next hnone =>
    -- nothing but empty lines has been taken out
    have hnil : (complete newline (monitor.buffer ++ chunk)).filter NonEmpty = [] := by
      cases hfilter : (complete newline (monitor.buffer ++ chunk)).filter NonEmpty with
      | nil => rfl
      | cons line lines => simp [hfilter, Lines.frames_cons] at hnone
    rw [hnil, List.append_nil]

def Round.bytes (round : Round) : Bytes :=
  match round with
  | .wait _ => []
  | .data chunk => chunk

def Monitor.After (stream : Bytes) (monitor : Monitor) : Prop :=
  monitor = {
    buffer := tail newline stream
    published := (complete newline stream).filter NonEmpty
  }

theorem Monitor.After.receive (h : monitor.After stream) (chunk : Bytes)
    (hsize : (tail newline (stream ++ chunk)).length ≤ maxBuffer)
    : (monitor.receive chunk).After (stream ++ chunk) := by
  unfold Monitor.After at h ⊢
  rw [receive_eq, h]
  dsimp only
  rw [← Lines.tail_append, if_neg (by omega), ← List.filter_append, ← Lines.complete_append]

theorem Monitor.After.round (h : monitor.After stream) (round : Round)
    (hruns : ∀ wait, round = .wait wait → wait.exits = false)
    (hsize : (tail newline (stream ++ round.bytes)).length ≤ maxBuffer)
    : (monitor.round round).After (stream ++ round.bytes) := by
  have hrunning : monitor.exited = false := by rw [h]
  unfold Monitor.round
  rw [hrunning, if_neg (by decide)]
  cases round with
  | wait wait =>
    dsimp only [Round.bytes]
    rw [List.append_nil, Monitor.wait, hruns wait rfl]
    exact h
  | data chunk => exact h.receive chunk hsize

theorem Monitor.After.rounds (h : monitor.After stream) (rounds : List Round)
    (hruns : ∀ wait, .wait wait ∈ rounds → wait.exits = false)
    (hsize : ∀ segment ∈ (stream ++ rounds.flatMap Round.bytes).splitOn newline,
      segment.length ≤ maxBuffer)
    : (rounds.foldl Monitor.round monitor).After (stream ++ rounds.flatMap Round.bytes) := by
  induction rounds generalizing monitor stream with
  | nil => simpa using h
  | cons round rounds ih =>
    rw [List.flatMap_cons, ← List.append_assoc] at hsize ⊢
    rw [List.foldl_cons]
    apply ih
    . apply h.round
      . intro wait hwait
        exact hruns wait (by simp [hwait])
      . -- the unfinished line is part of a segment of the whole stream
        obtain ⟨segment, hmem, hstarts⟩ :=
          Lines.exists_tail_isPrefix (d := newline) (stream ++ round.bytes) (rounds.flatMap Round.bytes)
        have hsegment := hsize segment hmem
        have hle := hstarts.length_le
        omega
    . intro wait hwait
      exact hruns wait (List.mem_cons_of_mem round hwait)
    . exact hsize

end Monitor

theorem published_eq_lines {rounds : List Round} (hruns : ∀ wait, .wait wait ∈ rounds → wait.exits = false)
    (hsize : ∀ segment ∈ (rounds.flatMap Round.bytes).splitOn newline, segment.length ≤ maxBuffer)
    : let monitor := rounds.foldl Monitor.round {}
      let lines := ((rounds.flatMap Round.bytes).splitOn newline).dropLast
      monitor.published = lines.filter (· ≠ [])
        ∧ monitor.buffer = ((rounds.flatMap Round.bytes).splitOn newline).getLastD []
        ∧ monitor.exited = false := by
  have hstart : ({} : Monitor).After [] := rfl
  have h := hstart.rounds rounds hruns (by simpa using hsize)
  rw [List.nil_append] at h
  have hfilter : NonEmpty = fun line => decide (line ≠ []) := by
    funext line
    cases line <;> rfl
  intro monitor lines
  refine ⟨?_, ?_, ?_⟩
  . rw [← hfilter]
    exact congrArg Monitor.published h
  . exact congrArg Monitor.buffer h
  . exact congrArg Monitor.exited h

def sampleRounds : List Round :=
  [.data [0x61], .wait .timeout, .data [0x62, 0x0a, 0x0a], .data [0x63, 0x0a, 0x64]]

theorem published_eq_lines_sampleRounds
    : (sampleRounds.foldl Monitor.round {}).published = [[0x61, 0x62], [0x63]] := by
  have hruns : ∀ wait, .wait wait ∈ sampleRounds → wait.exits = false := by
    intro wait hwait
    simp [sampleRounds] at hwait
    rw [hwait]
    rfl
  have h := published_eq_lines hruns (by decide)
  rw [h.1]
  decide

section Bridge

variable {bridge : Bridge} {json : Bytes} {first second : WriteResult}

def Event.Proper (event : Event) : Prop :=
  match event with
  | .push json first second =>
    newline ∉ json ∧ json ≠ []
      ∧ ∀ n, first = .wrote n → n ≤ json.length + 1 ∧ ∀ m, second = .wrote m → n + m ≤ json.length + 1
  | .read _ => True
  | .wait _ => True

def Whole (json : Bytes) (first second : WriteResult) : Prop :=
  match first, second with
  | .failed _, _ => True
  | .wrote n, .failed _ => n = 0 ∨ json.length < n
  | .wrote n, .wrote m => json.length < n ∨ json.length < n + m

def Event.Unbroken (event : Event) : Prop :=
  match event with
  | .push json first second => json.length ≤ maxBuffer ∧ Whole json first second
  | .read _ => True
  | .wait _ => True

def Event.Truthful (event : Event) : Prop :=
  match event with
  | .push json first second =>
    (pushTelemetry true json first second).1 = .ok () →
      (pushTelemetry true json first second).2 = json ++ [newline]
  | .read _ => True
  | .wait _ => True

def Bridge.Intact (bridge : Bridge) : Prop :=
  (∀ line ∈ bridge.monitor.published, line ∈ bridge.pushed)
    ∧ bridge.monitor.published <+: bridge.framed

theorem pushTelemetry_of_whole (h : Whole json first second)
    : (pushTelemetry true json first second).2 = json ++ [newline]
        ∨ (pushTelemetry true json first second).2 = []
          ∧ (pushTelemetry true json first second).1 ≠ .ok () := by
  have hlength : (json ++ [newline]).length = json.length + 1 := by simp
  unfold pushTelemetry
  cases first with
  | failed errno =>
    right
    cases errno <;> simp
  | wrote n =>
    simp only [Bool.not_true, Bool.false_eq_true, if_false, hlength]
    split
    . next hshort =>
      cases second with
      | failed errno =>
        have hzero : n = 0 := by
          unfold Whole at h
          dsimp only at h
          omega
        right
        cases errno <;> simp [hzero]
      | wrote m =>
        left
        have hrest : json.length < n + m := by
          unfold Whole at h
          dsimp only at h
          omega
        dsimp only
        rw [List.take_of_length_le (l := List.drop n _), List.take_append_drop]
        rw [List.length_drop, hlength]
        omega
    . next hfull =>
      left
      apply List.take_of_length_le
      omega

structure Bridge.Sound (bridge : Bridge) : Prop where
  lines : ∀ json ∈ bridge.framed, newline ∉ json ∧ json ≠ [] ∧ json.length ≤ maxBuffer
  pushed : bridge.framed ⊆ bridge.pushed
  pending : ∃ rest, bridge.monitor.published ++ rest = bridge.framed
    ∧ bridge.monitor.buffer ++ bridge.pipe = frames newline rest

theorem Bridge.Sound.intact (h : bridge.Sound) : bridge.Intact := by
  obtain ⟨rest, hpublished, -⟩ := h.pending
  have hstarts : bridge.monitor.published <+: bridge.framed := ⟨rest, hpublished⟩
  constructor
  . intro line hline
    exact h.pushed (hstarts.subset hline)
  . exact hstarts

theorem Bridge.Sound.push (h : bridge.Sound) (hproper : (Event.push json first second).Proper)
    (hunbroken : (Event.push json first second).Unbroken)
    : (bridge.step (.push json first second)).Sound := by
  obtain ⟨hline, hne, -⟩ := hproper
  obtain ⟨hsize, hwhole⟩ := hunbroken
  obtain ⟨rest, hpublished, hpending⟩ := h.pending
  unfold Bridge.step
  dsimp only
  rcases pushTelemetry_of_whole hwhole with hall | ⟨hnone, -⟩
  . rw [hall, if_pos rfl]
    refine ⟨?_, ?_, ⟨rest ++ [json], ?_, ?_⟩⟩
    . simp only [List.forall_mem_append, List.forall_mem_singleton]
      exact ⟨h.lines, hline, hne, hsize⟩
    . intro line hmem
      rw [List.mem_append] at hmem ⊢
      exact hmem.imp_left fun hmem => h.pushed hmem
    . rw [← hpublished, List.append_assoc]
    . rw [Lines.frames_concat, ← hpending, List.append_assoc]
  . rw [hnone, if_neg (by simp), List.append_nil, List.append_nil]
    refine ⟨h.lines, ?_, ⟨rest, hpublished, hpending⟩⟩
    intro line hmem
    exact List.mem_append_left _ (h.pushed hmem)

theorem Bridge.Sound.read (h : bridge.Sound) (n : Nat) : (bridge.step (.read n)).Sound := by
  obtain ⟨rest, hpublished, hpending⟩ := h.pending
  unfold Bridge.step
  dsimp only
  split
  . exact h
  . next hreads =>
    simp only [Bool.or_eq_true, not_or, Bool.not_eq_true] at hreads
    unfold Monitor.round
    rw [hreads.1, if_neg (by decide)]
    dsimp only
    have hall : ∀ json ∈ rest, newline ∉ json ∧ json ≠ [] ∧ json.length ≤ maxBuffer := by
      intro json hjson
      apply h.lines
      rw [← hpublished]
      exact List.mem_append_right _ hjson
    have hsplit : (bridge.monitor.buffer ++ bridge.pipe.take n) ++ bridge.pipe.drop n
        = frames newline rest := by
      rw [List.append_assoc, List.take_append_drop]
      exact hpending
    obtain ⟨later, hlines, hrest⟩ :=
      Lines.exists_of_append_eq_frames (fun json hjson => (hall json hjson).1) hsplit
    refine ⟨h.lines, h.pushed, ⟨later, ?_, ?_⟩⟩
    . -- none of the lines that have arrived is empty
      rw [Monitor.receive_eq]
      dsimp only
      rw [List.filter_eq_self.mpr, List.append_assoc, hlines]
      . exact hpublished
      . intro line hline
        have hne := (hall line (hlines ▸ List.mem_append_left later hline)).2.1
        simpa [NonEmpty] using hne
    . rw [Monitor.receive_eq]
      dsimp only
      rw [if_neg]
      . exact hrest
      . have hlimit : ∀ json ∈ later, json.length ≤ maxBuffer := by
          intro json hjson
          exact (hall json (hlines ▸ List.mem_append_right _ hjson)).2.2
        have hle := Lines.length_le_of_append_eq_frames (Lines.notMem_tail _) hlimit hrest
        omega

theorem Bridge.Sound.wait (h : bridge.Sound) (wait : Wait) : (bridge.step (.wait wait)).Sound := by
  have hmonitor : (bridge.monitor.round (.wait wait)).published = bridge.monitor.published
      ∧ (bridge.monitor.round (.wait wait)).buffer = bridge.monitor.buffer := by
    unfold Monitor.round Monitor.wait
    dsimp only
    split
    . exact ⟨rfl, rfl⟩
    . split <;> exact ⟨rfl, rfl⟩
  refine ⟨h.lines, h.pushed, ?_⟩
  unfold Bridge.step
  dsimp only
  rw [hmonitor.1, hmonitor.2]
  exact h.pending

theorem Bridge.Sound.step (h : bridge.Sound) {event : Event} (hproper : event.Proper)
    (hunbroken : event.Unbroken)
    : (bridge.step event).Sound := by
  cases event with
  | push json first second => exact h.push hproper hunbroken
  | read n => exact h.read n
  | wait wait => exact h.wait wait

theorem Event.truthful_of_unbroken {event : Event} (h : event.Unbroken) : event.Truthful := by
  cases event with
  | push json first second =>
    intro hok
    rcases pushTelemetry_of_whole h.2 with hall | ⟨-, herror⟩
    . exact hall
    . contradiction
  | read n => trivial
  | wait wait => trivial

end Bridge

/--
As long as every message fits into the buffer and no frame is torn, the lines that are published are the
messages, and a push only reports success for a frame that was written completely.
-/
theorem intact_of_unbroken {events : List Event} (hproper : ∀ event ∈ events, event.Proper)
    (hunbroken : ∀ event ∈ events, event.Unbroken)
    : Run.Always Bridge.step Bridge.Intact {} events ∧ ∀ event ∈ events, event.Truthful := by
  have hstart : ({} : Bridge).Sound := by
    refine ⟨?_, ?_, ⟨[], rfl, rfl⟩⟩
    . simp
    . simp
  constructor
  . apply Run.always_of_invariant (I := Bridge.Sound) (Q := fun _ event => event.Proper ∧ event.Unbroken)
    . intro bridge event h hevent
      exact h.step hevent.1 hevent.2
    . intro bridge h
      exact h.intact
    . exact hstart
    . rw [Run.along_iff_forall]
      intro before event after heq
      have hmem : event ∈ events := by simp [heq]
      exact ⟨hproper event hmem, hunbroken event hmem⟩
  . intro event hevent
    exact Event.truthful_of_unbroken (hunbroken event hevent)

def sampleEvents : List Event := [
  .push [0x61, 0x62] (.wrote 1) (.wrote 2),
  .read 2,
  .push [0x63] (.failed .eagain) (.failed .eagain),
  .push [0x64] (.wrote 2) (.failed .eagain),
  .read 4
]

theorem intact_of_unbroken_sampleEvents
    : Run.Always Bridge.step Bridge.Intact {} sampleEvents ∧ ∀ event ∈ sampleEvents, event.Truthful := by
  apply intact_of_unbroken
  . simp [sampleEvents, Event.Proper, newline]
  . simp [sampleEvents, Event.Unbroken, Whole, maxBuffer]

/--
The remainder of the first message is dropped, so the second one is appended to the beginning of the first.
-/
theorem not_forall_intact
    : ¬ ∀ events : List Event, (∀ event ∈ events, event.Proper) →
        Run.Always Bridge.step Bridge.Intact {} events ∧ ∀ event ∈ events, event.Truthful := by
  intro h
  have hproper : ∀ event ∈ [
      Event.push [0x61, 0x62] (.wrote 1) (.failed .eagain),
      .push [0x63] (.wrote 2) (.failed .eagain),
      .read 3
    ], event.Proper := by
    simp [Event.Proper, newline]
  have hend := Run.foldl_of_always (h _ hproper).1
  have hmerged := hend.1 [0x61, 0x63] (by decide +kernel)
  revert hmerged
  decide +kernel

end TelemetryBridge
end NeuroMesh
