import NeuroMesh.Common.Bytes
import NeuroMesh.Data.Lines

/-!
This module contains `TelemetryBridge`: the parent process writes telemetry to a pipe, one line per message,
and a monitor thread of the child process reads the pipe and publishes the lines.
-/

namespace NeuroMesh

/--
The values of `errno` that the bridge tells apart, `EWOULDBLOCK` is the same as `EAGAIN`.
-/
inductive Errno where
  | eintr
  | eagain
  | other (strerror : Bytes)

def Errno.strerror (errno : Errno) : Bytes :=
  match errno with
  | .eintr => bytes "Interrupted system call"
  | .eagain => bytes "Resource temporarily unavailable"
  | .other strerror => strerror

namespace TelemetryBridge

inductive WriteResult where
  | wrote (n : Nat)
  | failed (errno : Errno)

/--
The second component is what gets into the pipe. The second `write` is only made if the first one was not
complete.
-/
def pushTelemetry (valid : Bool) (json : Bytes) (first second : WriteResult) : Except Bytes Unit × Bytes :=
  if !valid then
    (.error (bytes "bridge not spawned"), [])
  else
    let framed := json ++ [newline]
    match first with
    | .failed .eagain => (.error (bytes "pipe write: EAGAIN (buffer full, message dropped)"), [])
    | .failed errno => (.error (bytes "pipe write failed: " ++ errno.strerror), [])
    | .wrote written =>
      if written < framed.length then
        match second with
        | .failed .eagain =>
          (.error (bytes "pipe write (partial): EAGAIN (buffer full, remainder dropped)"),
            framed.take written)
        | .failed errno =>
          (.error (bytes "pipe write (partial) failed: " ++ errno.strerror), framed.take written)
        | .wrote w2 => (.ok (), framed.take written ++ (framed.drop written).take w2)
      else
        (.ok (), framed.take written)

def maxBuffer : Nat := 1048576

structure Monitor where
  buffer : Bytes := []
  published : List Bytes := []
  exited : Bool := false

inductive Wait where
  | pollFailed (errno : Errno)
  | timeout
  | readFailed (errno : Errno)
  | closed

def Wait.exits (wait : Wait) : Bool :=
  match wait with
  | .pollFailed .eintr => false
  | .pollFailed _ => true
  | .timeout => false
  | .readFailed .eintr => false
  | .readFailed .eagain => false
  | .readFailed _ => true
  | .closed => true

def Monitor.wait (monitor : Monitor) (wait : Wait) : Monitor :=
  if wait.exits then { monitor with exited := true } else monitor

def gather (linesToPublish line : Bytes) : Bytes :=
  if line.isEmpty then linesToPublish else linesToPublish ++ (line ++ [newline])

def publish (published : List Bytes) (line : Bytes) : List Bytes :=
  if !line.isEmpty then published ++ [line] else published

def Monitor.receive (monitor : Monitor) (chunk : Bytes) : Monitor :=
  let buffer := monitor.buffer ++ chunk
  let drained := Lines.drain newline gather buffer.length [] buffer
  let linesToPublish := drained.1
  let buffer := drained.2
  let buffer := if maxBuffer < buffer.length then [] else buffer
  if !linesToPublish.isEmpty then
    let published := (Lines.drain newline publish linesToPublish.length monitor.published linesToPublish).1
    { monitor with buffer, published }
  else
    { monitor with buffer }

inductive Round where
  | wait (wait : Wait)
  | data (chunk : Bytes)

def Monitor.round (monitor : Monitor) (round : Round) : Monitor :=
  if monitor.exited then
    monitor
  else
    match round with
    | .wait wait => monitor.wait wait
    | .data chunk => monitor.receive chunk

/--
Both processes with the pipe between them. The lists of the strings that were passed to `push_telemetry`
and of those whose frame is complete are not part of the implementation.
-/
structure Bridge where
  pipe : Bytes := []
  monitor : Monitor := {}
  pushed : List Bytes := []
  framed : List Bytes := []

inductive Event where
  | push (json : Bytes) (first second : WriteResult)
  | read (n : Nat)
  | wait (wait : Wait)

def Bridge.step (bridge : Bridge) (event : Event) : Bridge :=
  match event with
  | .push json first second =>
    let written := (pushTelemetry true json first second).2
    {
      bridge with
      pipe := bridge.pipe ++ written
      pushed := bridge.pushed ++ [json]
      framed := bridge.framed ++ if written = json ++ [newline] then [json] else []
    }
  | .read n =>
    let chunk := bridge.pipe.take n
    if bridge.monitor.exited || chunk.isEmpty then
      bridge
    else
      { bridge with pipe := bridge.pipe.drop n, monitor := bridge.monitor.round (.data chunk) }
  | .wait wait => { bridge with monitor := bridge.monitor.round (.wait wait) }

end TelemetryBridge
end NeuroMesh
