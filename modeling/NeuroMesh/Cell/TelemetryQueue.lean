import Mathlib

/-!
This module contains the queue of `cell/NodeAgent.hpp`, which holds the events of the kernel until the next
heartbeat. Every call holds the mutex of the queue.
-/

namespace NeuroMesh

structure TelemetryQueue (α : Type) where
  queue : List α := []
  drops : UInt64 := 0

namespace TelemetryQueue

variable {α : Type}

def maxSize : Nat := 5000

def push (q : TelemetryQueue α) (event : α) : TelemetryQueue α :=
  if q.queue.length < maxSize then
    { q with queue := q.queue ++ [event] }
  else
    { q with drops := q.drops + 1 }

def pop (q : TelemetryQueue α) : Option α × TelemetryQueue α :=
  match q.queue with
  | [] => (none, q)
  | event :: queue => (some event, { q with queue })

def popAll (fuel : Nat) (q : TelemetryQueue α) : List α × TelemetryQueue α :=
  match fuel with
  | 0 => ([], q)
  | fuel + 1 =>
    match q.pop with
    | (none, q) => ([], q)
    | (some event, q) =>
      let (events, q) := popAll fuel q
      (event :: events, q)

/--
`batches` is what the calls of `ring_buffer__poll` find, each of them hands its events to `handle_ringbuf_event`.
-/
def pollEvents (q : TelemetryQueue α) (batches : List (List α)) : List α × TelemetryQueue α :=
  let q := batches.foldl (fun q batch => batch.foldl push q) q
  q.popAll (q.queue.length + 1)

section Interleaved

inductive Op (α : Type) where
  | push (event : α)
  | pop

def Op.pushed? (op : Op α) : Option α :=
  match op with
  | .push event => some event
  | .pop => none

structure Traffic (α : Type) where
  queue : TelemetryQueue α := {}
  popped : List α := []

def Traffic.step (t : Traffic α) (op : Op α) : Traffic α :=
  match op with
  | .push event => { t with queue := t.queue.push event }
  | .pop => { queue := t.queue.pop.2, popped := t.popped ++ t.queue.pop.1.toList }

structure Delivers (t : Traffic α) (pushed : List α) : Prop where
  sublist : (t.popped ++ t.queue.queue).Sublist pushed
  drops_eq : t.queue.drops = .ofNat (pushed.length - (t.popped ++ t.queue.queue).length)
  length_le : t.queue.queue.length ≤ maxSize

variable {t : Traffic α} {pushed : List α}

theorem Delivers.push (h : Delivers t pushed) (event : α) : Delivers (t.step (.push event)) (pushed ++ [event]) := by
  obtain ⟨hsublist, hdrops, hle⟩ := h
  unfold Traffic.step TelemetryQueue.push
  dsimp only
  split
  . next hroom =>
    constructor
    . rw [← List.append_assoc]
      exact hsublist.append (List.Sublist.refl _)
    . rw [hdrops, ← List.append_assoc]
      simp only [List.length_append, List.length_singleton, Nat.add_sub_add_right]
    . rw [List.length_append, List.length_singleton]
      exact hroom
  . constructor
    . exact hsublist.trans (List.sublist_append_left _ _)
    . have hone : (pushed ++ [event]).length = pushed.length + 1 := List.length_append
      rw [hone, Nat.sub_add_comm hsublist.length_le, UInt64.ofNat_add, ← hdrops]
      rfl
    . exact hle

theorem Delivers.pop (h : Delivers t pushed) : Delivers (t.step .pop) pushed := by
  obtain ⟨hsublist, hdrops, hle⟩ := h
  unfold Traffic.step TelemetryQueue.pop
  cases hqueue : t.queue.queue with
  | nil => exact ⟨by simpa using hsublist, by simpa using hdrops, hle⟩
  | cons event queue =>
    rw [hqueue] at hsublist hdrops hle
    constructor
    . simpa using hsublist
    . simpa using hdrops
    . exact Nat.le_of_succ_le hle

/--
However the calls of the threads interleave, the events come out in the order in which they were put in, none of them
twice, and what is missing has been counted by a counter of 64 bits.
-/
theorem delivers_run (ops : List (Op α)) : Delivers (ops.foldl Traffic.step {}) (ops.filterMap Op.pushed?) := by
  induction ops using List.reverseRecOn with
  | nil => exact ⟨List.Sublist.refl _, rfl, Nat.zero_le _⟩
  | append_singleton ops op ih =>
    rw [List.foldl_append, List.filterMap_append]
    cases op with
    | push event => exact ih.push event
    | pop =>
      have hnone : [Op.pop].filterMap (@Op.pushed? α) = [] := rfl
      rw [hnone, List.append_nil]
      exact ih.pop

end Interleaved

section Poll

theorem foldl_push (q : TelemetryQueue α) (events : List α) (h : q.queue.length ≤ maxSize)
    : (events.foldl push q).queue = (q.queue ++ events).take maxSize
        ∧ (events.foldl push q).drops = q.drops + .ofNat (q.queue.length + events.length - maxSize) := by
  induction events generalizing q with
  | nil => simp [List.take_of_length_le h, Nat.sub_eq_zero_of_le h]
  | cons event events ih =>
    rw [List.foldl_cons, List.length_cons]
    by_cases hroom : q.queue.length < maxSize
    . have hpush : q.push event = { q with queue := q.queue ++ [event] } := if_pos hroom
      obtain ⟨hqueue, hdrops⟩ := ih { q with queue := q.queue ++ [event] } (by simpa using hroom)
      rw [hpush, hqueue, hdrops]
      simp only [List.append_assoc, List.singleton_append, List.length_append, List.length_singleton, true_and]
      rw [Nat.add_right_comm, Nat.add_assoc]
    . have hpush : q.push event = { q with drops := q.drops + 1 } := if_neg hroom
      have hfull : q.queue.length = maxSize := by omega
      obtain ⟨hqueue, hdrops⟩ := ih { q with drops := q.drops + 1 } h
      rw [hpush, hqueue, hdrops, List.take_left' hfull, List.take_left' hfull]
      refine ⟨rfl, ?_⟩
      rw [hfull, Nat.add_sub_cancel_left, Nat.add_sub_cancel_left, UInt64.ofNat_add, UInt64.add_assoc,
        UInt64.add_comm 1]
      rfl

theorem popAll_eq (fuel : Nat) (q : TelemetryQueue α) (h : q.queue.length < fuel)
    : q.popAll fuel = (q.queue, { q with queue := [] }) := by
  induction fuel generalizing q with
  | zero => contradiction
  | succ fuel ih =>
    obtain ⟨queue, drops⟩ := q
    cases queue with
    | nil => rfl
    | cons event queue =>
      have hrest := ih { queue, drops } (by simpa using h)
      simp only [popAll, pop, hrest]

structure Sensor (α : Type) where
  queue : TelemetryQueue α := {}
  events : List α := []

def Sensor.heartbeat (s : Sensor α) (batches : List (List α)) : Sensor α :=
  let (events, queue) := s.queue.pollEvents batches
  { queue, events := s.events ++ events }

def Sensor.run (polls : List (List (List α))) : Sensor α :=
  polls.foldl heartbeat {}

theorem pollEvents_eq (q : TelemetryQueue α) (h : q.queue = []) (batches : List (List α))
    : q.pollEvents batches
        =
      (batches.flatten.take maxSize, { queue := [], drops := q.drops + .ofNat (batches.flatten.length - maxSize) }) := by
  obtain ⟨hqueue, hdrops⟩ := foldl_push q batches.flatten (by simp [h])
  unfold pollEvents
  rw [← List.foldl_flatten, popAll_eq _ _ (Nat.lt_succ_self _), hqueue, hdrops, h]
  simp

/--
A heartbeat gets the events since the last one in order, up to the first `maxSize` of them.
-/
theorem events_heartbeat (polls : List (List (List α)))
    : (Sensor.run polls).events = (polls.flatMap fun batches => batches.flatten.take maxSize)
        ∧ (Sensor.run polls).queue.queue = []
        ∧ (Sensor.run polls).queue.drops
            =
          .ofNat (polls.map fun batches => batches.flatten.length - maxSize).sum := by
  unfold Sensor.run
  induction polls using List.reverseRecOn with
  | nil => exact ⟨rfl, rfl, rfl⟩
  | append_singleton polls batches ih =>
    obtain ⟨hevents, hqueue, hdrops⟩ := ih
    rw [List.foldl_append, List.foldl_cons, List.foldl_nil]
    generalize polls.foldl Sensor.heartbeat {} = s at *
    unfold Sensor.heartbeat
    rw [pollEvents_eq _ hqueue, hevents, hdrops, List.flatMap_append, List.map_append, List.sum_append]
    exact ⟨by simp, rfl, by rw [List.map_singleton, List.sum_singleton, UInt64.ofNat_add]⟩

end Poll

end TelemetryQueue
end NeuroMesh
