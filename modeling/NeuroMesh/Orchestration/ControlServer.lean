import NeuroMesh.Common.Bytes
import NeuroMesh.Data.Delimited
import NeuroMesh.Data.Json

/-!
This module contains the parts of `orchestration/control_server.py` that read the telemetry of the nodes and pass
the log on to the dashboards.
-/

namespace NeuroMesh
namespace ControlServer

inductive Received where
  | ignored
  | logged
  | raised
  | payload (members : List (Bytes × Json)) (nid : Option Json)

def datagramReceived (data : Bytes) : Received :=
  if Utf8.valid data then
    if (bytes "TELEMETRY|").isPrefixOf data then
      match Delimited.splitAtMost pipe 2 data with
      | _ :: _ :: text :: _ =>
        match Json.parse true text with
        | none => .logged
        | some (.obj members) => .payload members ((Json.obj members).get? (bytes "ID"))
        | some _ => .raised
      | _ => .ignored
    else
      .ignored
  else
    .logged

def maxLogs : Nat := 50

def addLog {α : Type} (logs : List α) (logEntry : α) : List α :=
  let logs := logs ++ [logEntry]
  if maxLogs < logs.length then logs.drop 1 else logs

/--
The log and the `ws_handler` of a client. An entry is the number of the entries that were added before it.
-/
structure Dashboard where
  logs : List Nat
  added : Nat
  sentLogCount : Nat := 0
  awake : Bool := true
  examined : List Nat := []
  /-- The number of entries that had been added when the handler last finished its loop over the log. -/
  finished : Nat := 0

namespace Dashboard

def connect (added : Nat) : Dashboard where
  logs := (List.range added).foldl addLog []
  added

inductive Action where
  | addLog
  | poll
  deriving DecidableEq

def step (dashboard : Dashboard) (action : Action) : Dashboard :=
  match action with
  | .addLog =>
    { dashboard with logs := ControlServer.addLog dashboard.logs dashboard.added, added := dashboard.added + 1 }
  | .poll =>
    if dashboard.awake then
      match dashboard.logs[dashboard.sentLogCount]? with
      | some logMsg =>
        { dashboard with
          sentLogCount := dashboard.sentLogCount + 1,
          examined := dashboard.examined ++ [logMsg] }
      | none => { dashboard with awake := false, finished := dashboard.added }
    else
      { dashboard with awake := true }

end Dashboard
end ControlServer
end NeuroMesh
