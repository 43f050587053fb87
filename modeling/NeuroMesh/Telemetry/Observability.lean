import NeuroMesh.Common.JsonEscape

/-!
This module contains the parts of `telemetry/Observability.cpp` that keep state: the metrics, the spans of the
tracer and the audit log.
-/

namespace NeuroMesh

section Metrics

/--
The type `double`, as far as the metrics depend on it. `toText` is what `operator<<` writes.
-/
structure DoubleCore where
  Double : Type
  zero : Double
  add : Double → Double → Double
  isFinite : Double → Bool
  toText : Double → Bytes
  json : Double → Json
  reads_toText : ∀ x, isFinite x → Json.Reads true (toText x) (json x)
  toText_of_not_isFinite : ∀ x, ¬isFinite x → toText x ∈ [bytes "inf", bytes "-inf", bytes "nan", bytes "-nan"]

abbrev Labels := Map Bytes Bytes

def sanitizeLabelValue (value : Bytes) : Bytes :=
  value.flatMap fun c =>
    if c = 0x0d ∨ c = 0x0a then
      [0x20]
    else if c = 0x22 then
      [0x5c, 0x22]
    else if c = 0x5c then
      [0x5c, 0x5c]
    else
      [c]

def sortedLabelsKey (labels : Labels) : Bytes :=
  let out := labels.toList.flatMap fun (k, v) =>
    sanitizeLabelValue k ++ bytes "=" ++ sanitizeLabelValue v ++ bytes ","
  out.dropLast

/--
The minimum and the maximum are only ever written.
-/
structure HistogramMetric (D : DoubleCore) where
  count : UInt64 := 0
  sum : D.Double := D.zero

abbrev Table (α : Type) := Map Bytes (Map Bytes α)

structure MetricsCollector (D : DoubleCore) where
  counters : Table D.Double := ∅
  gauges : Table D.Double := ∅
  histograms : Table (HistogramMetric D) := ∅

def Table.update {α : Type} (table : Table α) (default : α) (name key : Bytes) (f : α → α) : Table α :=
  table.insert name
    (let series := table.getD name ∅
    series.insert key (f (series.getD key default)))

namespace MetricsCollector

variable {D : DoubleCore}

def counter (collector : MetricsCollector D) (name : Bytes) (value : D.Double) (labels : Labels)
    : MetricsCollector D :=
  { collector with
    counters := Table.update collector.counters D.zero name (sortedLabelsKey labels) (D.add · value) }

def gauge (collector : MetricsCollector D) (name : Bytes) (value : D.Double) (labels : Labels)
    : MetricsCollector D :=
  { collector with
    gauges := Table.update collector.gauges D.zero name (sortedLabelsKey labels) fun _ => value }

def histogram (collector : MetricsCollector D) (name : Bytes) (value : D.Double) (labels : Labels)
    : MetricsCollector D :=
  { collector with
    histograms := Table.update collector.histograms {} name (sortedLabelsKey labels) fun hist =>
      { count := hist.count + 1, sum := D.add hist.sum value } }

end MetricsCollector

end Metrics

section Tracer

structure Span where
  addr : Nat
  traceId : Bytes
  spanId : Bytes
  parentSpanId : Bytes
  operationName : Bytes
  startTime : Time
  endTime : Time := 0
  tags : Map Bytes Bytes := ∅
  logs : Map Bytes Bytes := ∅
  parent : Option Nat := none

/--
The tracer together with the spans that the exporter got, if there is one, and the number of spans that have
been allocated.
-/
structure DistributedTracer where
  activeSpans : List Span := []
  completedSpans : List Span := []
  exporter : Bool
  exported : List Span := []
  allocated : Nat := 0

namespace DistributedTracer

def getSpan (tracer : DistributedTracer) (idx : Nat) : Option Span :=
  if idx < tracer.activeSpans.length then
    tracer.activeSpans[idx]?
  else
    tracer.completedSpans[idx - tracer.activeSpans.length]?

def pushSpan (tracer : DistributedTracer) (operationName : Bytes) (parent : Option Span) (uuid uuid' : Bytes)
    (now : Time)
    : DistributedTracer :=
  let span := {
    addr := tracer.allocated,
    traceId := (parent.map Span.traceId).getD uuid,
    spanId := uuid',
    parentSpanId := (parent.map Span.spanId).getD [],
    operationName,
    startTime := now,
    parent := parent.map Span.addr
  }
  { tracer with activeSpans := tracer.activeSpans ++ [span], allocated := tracer.allocated + 1 }

def startSpan (tracer : DistributedTracer) (operationName uuid uuid' : Bytes) (now : Time) : DistributedTracer :=
  tracer.pushSpan operationName none uuid uuid' now

def startSpanUnder (tracer : DistributedTracer) (operationName : Bytes) (parentIdx : Nat) (uuid uuid' : Bytes)
    (now : Time)
    : DistributedTracer :=
  tracer.pushSpan operationName (tracer.getSpan parentIdx) uuid uuid' now

def takeOut {α : Type} (spans : List α) (idx : Nat) : List α :=
  match spans.getLast? with
  | none => []
  | some last => (spans.set idx last).dropLast

def endSpan (tracer : DistributedTracer) (spanIdx : Nat) (now : Time) : DistributedTracer :=
  match tracer.activeSpans[spanIdx]? with
  | none => tracer
  | some span =>
    let completed := tracer.completedSpans ++ [{ span with endTime := now }]
    let activeSpans := takeOut tracer.activeSpans spanIdx
    if tracer.exporter && 10 ≤ completed.length then
      { tracer with activeSpans, completedSpans := [], exported := tracer.exported ++ completed }
    else
      { tracer with activeSpans, completedSpans := completed }

def setTag (tracer : DistributedTracer) (spanIdx : Nat) (key value : Bytes) : DistributedTracer :=
  { tracer with
    activeSpans := tracer.activeSpans.modify spanIdx fun span => { span with tags := span.tags.insert key value } }

def addLog (tracer : DistributedTracer) (spanIdx : Nat) (key value : Bytes) : DistributedTracer :=
  { tracer with
    activeSpans := tracer.activeSpans.modify spanIdx fun span => { span with logs := span.logs.insert key value } }

inductive Call where
  | startSpan (operationName uuid uuid' : Bytes) (now : Time)
  | startSpanUnder (operationName : Bytes) (parentIdx : Nat) (uuid uuid' : Bytes) (now : Time)
  | endSpan (spanIdx : Nat) (now : Time)
  | setTag (spanIdx : Nat) (key value : Bytes)
  | addLog (spanIdx : Nat) (key value : Bytes)

def call (tracer : DistributedTracer) (c : Call) : DistributedTracer × Option Nat :=
  match c with
  | .startSpan operationName uuid uuid' now =>
    (tracer.startSpan operationName uuid uuid' now, some tracer.activeSpans.length)
  | .startSpanUnder operationName parentIdx uuid uuid' now =>
    (tracer.startSpanUnder operationName parentIdx uuid uuid' now, some tracer.activeSpans.length)
  | .endSpan spanIdx now => (tracer.endSpan spanIdx now, none)
  | .setTag spanIdx key value => (tracer.setTag spanIdx key value, none)
  | .addLog spanIdx key value => (tracer.addLog spanIdx key value, none)

def step (tracer : DistributedTracer) (c : Call) : DistributedTracer :=
  (tracer.call c).1

end DistributedTracer

end Tracer

section Audit

structure AuditEntry where
  timestamp : Int
  eventId : Bytes
  eventType : Bytes
  actor : Bytes
  action : Bytes
  target : Bytes
  details : Map Bytes Bytes
  previousHash : Bytes
  entryHash : Bytes := []

structure DetailedAuditLogger where
  entries : List AuditEntry := []
  tamperProtection : Bool := false
  lastHash : Bytes := []

structure LogEvent where
  now : Int
  uuid : Bytes
  eventType : Bytes
  actor : Bytes
  action : Bytes
  target : Bytes
  details : Map Bytes Bytes := ∅

def AuditEntry.hashed (entry : AuditEntry) : Bytes :=
  entry.previousHash ++ entry.eventId ++ entry.eventType ++ entry.actor ++ entry.action ++ entry.target

namespace DetailedAuditLogger

variable (sha256Hex : Bytes → Bytes)

def setTamperProtection (logger : DetailedAuditLogger) (enable : Bool) : DetailedAuditLogger :=
  { logger with tamperProtection := enable }

def computeHash (logger : DetailedAuditLogger) (entry : AuditEntry) : DetailedAuditLogger × AuditEntry :=
  let entryHash := sha256Hex entry.hashed
  ({ logger with lastHash := entryHash }, { entry with entryHash })

def logEvent (logger : DetailedAuditLogger) (event : LogEvent) : DetailedAuditLogger :=
  let entry := {
    timestamp := event.now,
    eventId := event.uuid,
    eventType := event.eventType,
    actor := event.actor,
    action := event.action,
    target := event.target,
    details := event.details,
    previousHash := logger.lastHash
  }
  let (logger, entry) := if logger.tamperProtection then logger.computeHash sha256Hex entry else (logger, entry)
  let entries := logger.entries ++ [entry]
  { logger with entries := if 10000 < entries.length then entries.drop 5000 else entries }

/--
The hash of the entry before is kept in a variable of the loop, but never read.
-/
def verifyHashChain (entries : List AuditEntry) : Bool :=
  entries.all fun entry => sha256Hex entry.hashed == entry.entryHash

end DetailedAuditLogger

end Audit

end NeuroMesh
