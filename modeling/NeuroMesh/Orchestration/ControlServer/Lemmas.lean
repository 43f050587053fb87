import NeuroMesh.Common.Base64.Canonical
import NeuroMesh.Consensus.MeshNode.Impl.Outgoing
import NeuroMesh.Crypto.Plain
import NeuroMesh.Data.Json.Literal
import NeuroMesh.Data.Run
import NeuroMesh.Orchestration.ControlServer

namespace NeuroMesh
namespace ControlServer

section Telemetry

variable {C : IdentityCore}

def Understood (node : MeshNode C) (telemetryJson : Bytes) : Prop :=
  pipe ∉ node.nodeId → ∀ members, Json.parse true telemetryJson = some (.obj members) →
    ∃ nid, datagramReceived (node.telemetryPayload telemetryJson) = .payload members nid

theorem not_scalar_start_of_base64
    : ∀ c ∈ pipe :: base64Pad :: base64Chars, Json.isSpace c = false ∧ c ≠ 0x7b ∧ c ≠ 0x5b ∧ c ≠ 0x22 := by
  decide +kernel

theorem parse_base64Encode_append (half : Bool) (data rest : Bytes)
    : Json.parse half (base64Encode data ++ pipe :: rest) = none := by
  obtain ⟨c, s, hs, hc⟩ : ∃ c s, base64Encode data ++ pipe :: rest = c :: s
      ∧ c ∈ pipe :: base64Pad :: base64Chars := by
    cases hdata : base64Encode data with
    | nil => exact ⟨pipe, rest, rfl, List.mem_cons_self⟩
    | cons c s =>
      have hmem : c ∈ base64Encode data := by
        rw [hdata]
        exact List.mem_cons_self
      exact ⟨c, s ++ pipe :: rest, rfl, List.mem_cons_of_mem _ (Base64.mem_of_mem_base64Encode hmem)⟩
  obtain ⟨hspace, hstart⟩ := not_scalar_start_of_base64 c hc
  have hpipe : pipe ∈ c :: s := by simp [← hs]
  rw [hs]
  unfold Json.parse
  split
  . cases hvalue : Json.Parser.value half (2 * (c :: s).length + 2) (c :: s) with
    | none => rfl
    | some result =>
      obtain ⟨json, behind⟩ := result
      obtain ⟨passed, happend, hscalar⟩ := Json.Parser.consumes_of_value hspace hstart hvalue
      rw [happend, List.mem_append] at hpipe
      have hbehind : pipe ∈ behind := by
        rcases hpipe with hpassed | hbehind
        . have := hscalar pipe hpassed
          contradiction
        . exact hbehind
      have hskip : Json.skip behind ≠ [] := by
        intro hnil
        have hall := List.dropWhile_eq_nil_iff.mp hnil pipe hbehind
        contradiction
      simp [hskip]
  . rfl

theorem datagramReceived_telemetryPayload (node : MeshNode C) (telemetryJson : Bytes) (h : pipe ∉ node.nodeId)
    : datagramReceived (node.telemetryPayload telemetryJson) = .logged := by
  have hname : pipe ∉ bytes "TELEMETRY" := by decide
  have hpayload : node.telemetryPayload telemetryJson
      = bytes "TELEMETRY" ++ pipe :: (node.nodeId ++ pipe ::
        (base64Encode (C.signPayload node.privateKey (node.telemetryBlob telemetryJson))
          ++ pipe :: telemetryJson)) := by
    simp [MeshNode.telemetryPayload, joinPipe]
  unfold datagramReceived
  rw [hpayload, Delimited.splitAtMost_append hname, Delimited.splitAtMost_append h]
  split
  . rw [if_pos]
    . simp only [Delimited.splitAtMost, parse_base64Encode_append]
    . rw [List.isPrefixOf_iff_prefix]
      exact ⟨_, by rw [show bytes "TELEMETRY|" = bytes "TELEMETRY" ++ [pipe] from rfl, List.append_assoc]; rfl⟩
  . rfl

theorem understood_iff (node : MeshNode C) (telemetryJson : Bytes)
    : Understood node telemetryJson
        ↔ pipe ∈ node.nodeId ∨ ∀ members, Json.parse true telemetryJson ≠ some (.obj members) := by
  constructor
  . intro hunderstood
    by_contra hdomain
    simp only [not_or, not_forall, not_not] at hdomain
    obtain ⟨hid, members, hparse⟩ := hdomain
    obtain ⟨nid, hreceived⟩ := hunderstood hid members hparse
    rw [datagramReceived_telemetryPayload node telemetryJson hid] at hreceived
    contradiction
  . rintro (hid | hparse)
    . intro hfree
      exact absurd hid hfree
    . intro _ members hmembers
      exact absurd hmembers (hparse members)

theorem not_understood_newNode
    : ¬Understood (MeshNode.new .plain (bytes "A") (bytes "A") (bytes "A") {}) (bytes "\x7b\x7d") := by
  intro hunderstood
  have hid : pipe ∉ (MeshNode.new .plain (bytes "A") (bytes "A") (bytes "A") {}).nodeId := by
    decide +kernel
  have hparse : Json.parse true (bytes "\x7b\x7d") = some (.obj []) := by
    rfl
  obtain ⟨nid, hreceived⟩ := hunderstood hid [] hparse
  rw [datagramReceived_telemetryPayload _ _ hid] at hreceived
  contradiction

end Telemetry

section Alerts

namespace Dashboard

def position (dashboard : Dashboard) : Nat :=
  dashboard.added - dashboard.logs.length + dashboard.sentLogCount

structure Delivered (connected : Nat) (dashboard : Dashboard) : Prop where
  inOrder : dashboard.examined.filter (connected ≤ ·) <+: List.range' connected (dashboard.added - connected)
  finished : ∀ entry, connected ≤ entry → entry < dashboard.finished → entry ∈ dashboard.examined

/--
The condition on `add_log`: if an entry is dropped, the handler has yet to look at one that was there before the
client connected.
-/
def Behind (connected : Nat) (dashboard : Dashboard) (action : Action) : Prop :=
  action = .addLog → dashboard.logs.length < maxLogs ∨ dashboard.position < connected

instance (connected : Nat) (dashboard : Dashboard) (action : Action)
    : Decidable (Behind connected dashboard action) := by
  unfold Behind
  infer_instance

structure InStep (connected : Nat) (dashboard : Dashboard) : Prop where
  logs : dashboard.logs = List.range' (dashboard.added - maxLogs) (min dashboard.added maxLogs)
  sent : dashboard.sentLogCount ≤ min dashboard.added maxLogs
  since : connected ≤ dashboard.added
  examined : dashboard.examined.filter (connected ≤ ·)
    = List.range' connected (dashboard.position - connected)
  finished : dashboard.finished ≤ dashboard.position

variable {connected : Nat} {dashboard : Dashboard}

theorem addLog_range' (added : Nat)
    : ControlServer.addLog (List.range' (added - maxLogs) (min added maxLogs)) added
        = List.range' (added + 1 - maxLogs) (min (added + 1) maxLogs) := by
  unfold ControlServer.addLog maxLogs
  by_cases hfull : added < 50
  . have hconcat : List.range' 0 (added + 1) = List.range' 0 added ++ [added] := by
      rw [List.range'_1_concat, Nat.zero_add]
    rw [Nat.sub_eq_zero_of_le (by omega), Nat.sub_eq_zero_of_le (by omega), Nat.min_eq_left (by omega),
      Nat.min_eq_left (by omega), hconcat]
    simp
    omega
  . have hconcat : List.range' (added - 50) 51 = List.range' (added - 50) 50 ++ [added] := by
      rw [List.range'_1_concat, Nat.sub_add_cancel (by omega)]
    have hcons : List.range' (added - 50) 51 = (added - 50) :: List.range' (added + 1 - 50) 50 := by
      rw [List.range'_succ, Nat.sub_add_comm (by omega)]
    rw [Nat.min_eq_right (by omega), Nat.min_eq_right (by omega)]
    dsimp only
    rw [← hconcat, hcons]
    simp

theorem position_eq (h : InStep connected dashboard)
    : dashboard.position = dashboard.added - maxLogs + dashboard.sentLogCount := by
  unfold position
  rw [h.logs, List.length_range']
  omega

theorem inStep_addLog (h : InStep connected dashboard) (hbehind : Behind connected dashboard .addLog)
    : InStep connected (dashboard.step .addLog) := by
  have hposition := position_eq h
  have hlogs := h.logs
  have hlength : dashboard.logs.length = min dashboard.added maxLogs := by
    rw [hlogs, List.length_range']
  have hroom := hbehind rfl
  have hsent := h.sent
  have hconnected := h.since
  have hexamined := h.examined
  have hfinished := h.finished
  have hnext : (dashboard.step .addLog).logs
      = List.range' (dashboard.added + 1 - maxLogs) (min (dashboard.added + 1) maxLogs) := by
    show ControlServer.addLog dashboard.logs dashboard.added = _
    rw [hlogs, addLog_range']
  have hposition' : (dashboard.step .addLog).position
      = dashboard.added + 1 - maxLogs + dashboard.sentLogCount := by
    unfold position
    rw [hnext, List.length_range']
    show dashboard.added + 1 - min (dashboard.added + 1) maxLogs + dashboard.sentLogCount = _
    omega
  -- an entry that is dropped moves the position, but not past the connection
  have hkept : (dashboard.step .addLog).position - connected = dashboard.position - connected
      ∧ dashboard.position ≤ (dashboard.step .addLog).position := by
    rw [hlength, hposition] at hroom
    rw [hposition', hposition]
    unfold maxLogs at hroom hsent ⊢
    omega
  refine ⟨hnext, ?_, ?_, ?_, ?_⟩
  . show dashboard.sentLogCount ≤ min (dashboard.added + 1) maxLogs
    omega
  . show connected ≤ dashboard.added + 1
    omega
  . rw [hkept.1]
    exact hexamined
  . exact Nat.le_trans hfinished hkept.2

theorem inStep_poll (h : InStep connected dashboard) : InStep connected (dashboard.step .poll) := by
  have hposition := position_eq h
  have hlogs := h.logs
  have hsent := h.sent
  have hlength : dashboard.logs.length = min dashboard.added maxLogs := by
    rw [hlogs, List.length_range']
  dsimp only [step]
  split
  . cases hentry : dashboard.logs[dashboard.sentLogCount]? with
    | some logMsg =>
      obtain ⟨hlt, hget⟩ := List.getElem?_eq_some_iff.mp hentry
      have hmsg : logMsg = dashboard.position := by
        rw [hposition, ← hget]
        simp [hlogs]
      have hnext : ({ dashboard with
          sentLogCount := dashboard.sentLogCount + 1,
          examined := dashboard.examined ++ [logMsg] } : Dashboard).position = dashboard.position + 1 := by
        unfold position
        dsimp only
        omega
      refine ⟨hlogs, ?_, h.since, ?_, ?_⟩
      . dsimp only
        omega
      . rw [hnext]
        dsimp only
        rw [List.filter_append, h.examined, hmsg]
        by_cases hnew : connected ≤ dashboard.position
        . rw [Nat.succ_sub hnew, List.range'_1_concat]
          simp [hnew]
        . rw [Nat.sub_eq_zero_of_le (by omega), Nat.sub_eq_zero_of_le (by omega)]
          simp [hnew]
      . rw [hnext]
        have := h.finished
        dsimp only
        omega
    | none =>
      have hle := List.getElem?_eq_none_iff.mp hentry
      refine ⟨hlogs, hsent, h.since, h.examined, ?_⟩
      show dashboard.added ≤ dashboard.position
      rw [hposition]
      omega
  . exact ⟨hlogs, hsent, h.since, h.examined, h.finished⟩

theorem inStep_step (dashboard : Dashboard) (action : Action) (h : InStep connected dashboard)
    (hbehind : Behind connected dashboard action)
    : InStep connected (dashboard.step action) := by
  cases action with
  | addLog => exact inStep_addLog h hbehind
  | poll => exact inStep_poll h

theorem inStep_connect (connected : Nat) : InStep connected (connect connected) := by
  have hlogs : (List.range connected).foldl ControlServer.addLog []
      = List.range' (connected - maxLogs) (min connected maxLogs) := by
    induction connected with
    | zero => rfl
    | succ connected ih =>
      rw [List.range_succ, List.foldl_append, ih, List.foldl_cons, List.foldl_nil, addLog_range']
  refine ⟨hlogs, Nat.zero_le _, Nat.le_refl _, ?_, Nat.zero_le _⟩
  have hzero : (connect connected).position - connected = 0 := by
    unfold position connect
    dsimp only
    omega
  rw [hzero]
  rfl

theorem delivered_of_inStep (h : InStep connected dashboard) : Delivered connected dashboard := by
  have hposition := position_eq h
  have hsent := h.sent
  have hle : dashboard.position ≤ dashboard.added := by
    rw [hposition]
    omega
  constructor
  . rw [h.examined]
    refine ⟨List.range' (connected + (dashboard.position - connected)) (dashboard.added - connected
      - (dashboard.position - connected)), ?_⟩
    rw [List.range'_append_1]
    congr 1
    omega
  . intro entry hconnected hfinished
    have hmem : entry ∈ dashboard.examined.filter (connected ≤ ·) := by
      rw [h.examined, List.mem_range'_1]
      have := h.finished
      omega
    exact List.mem_of_mem_filter hmem

end Dashboard

theorem delivered_of_behind (connected : Nat) (actions : List Dashboard.Action)
    (h : Run.Along Dashboard.step (Dashboard.Behind connected) (.connect connected) actions)
    : Run.Always Dashboard.step (Dashboard.Delivered connected) (.connect connected) actions := by
  refine Run.always_of_invariant (I := Dashboard.InStep connected) Dashboard.inStep_step ?_
    (Dashboard.inStep_connect connected) h
  intro dashboard hstep
  exact Dashboard.delivered_of_inStep hstep

/--
An entry is added behind the fifty that the client finds, and the handler gets to it.
-/
def catchingUp : List Dashboard.Action :=
  .addLog :: List.replicate 52 .poll

theorem delivered_of_behind_sixty
    : (catchingUp.foldl Dashboard.step (.connect 60)).finished = 61
        ∧ 60 ∈ (catchingUp.foldl Dashboard.step (.connect 60)).examined
        ∧ Run.Always Dashboard.step (Dashboard.Delivered 60) (.connect 60) catchingUp := by
  refine ⟨by decide +kernel, by decide +kernel, ?_⟩
  apply delivered_of_behind
  decide +kernel

def fiftyOne : List Dashboard.Action :=
  .poll :: List.replicate 50 .addLog ++ .poll :: List.replicate 51 .poll ++ [.addLog, .poll, .poll]

theorem not_always_delivered_fiftyOne
    : ¬Run.Always Dashboard.step (Dashboard.Delivered 0) (.connect 0) fiftyOne := by
  intro h
  have hfacts : 50 < (fiftyOne.foldl Dashboard.step (.connect 0)).finished
      ∧ 50 ∉ (fiftyOne.foldl Dashboard.step (.connect 0)).examined := by
    decide +kernel
  have hdelivered := Run.foldl_of_always h
  exact hfacts.2 (hdelivered.finished 50 (Nat.zero_le _) hfacts.1)

end Alerts

end ControlServer
end NeuroMesh
