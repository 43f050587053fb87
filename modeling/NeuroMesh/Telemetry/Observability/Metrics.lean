import NeuroMesh.Common.JsonText
import NeuroMesh.Data.Json.Field
import NeuroMesh.Telemetry.Observability

namespace NeuroMesh

namespace Table

variable {α : Type}

def get? (table : Table α) (name key : Bytes) : Option α :=
  table[name]?.bind (·[key]?)

theorem mem_toList {table : Table α} {name key : Bytes} {value : α}
    : (∃ labelsMap, (name, labelsMap) ∈ table.toList ∧ (key, value) ∈ labelsMap.toList)
        ↔ get? table name key = some value := by
  simp only [Std.ExtTreeMap.mem_toList_iff_getElem?_eq_some, get?, Option.bind_eq_some_iff]

end Table

namespace MetricsCollector

variable {D : DoubleCore}

inductive Kind where
  | counter
  | gauge
  deriving DecidableEq

def Kind.text (kind : Kind) : Bytes :=
  match kind with
  | .counter => bytes "counter"
  | .gauge => bytes "gauge"

structure Update (D : DoubleCore) where
  kind : Kind
  name : Bytes
  value : D.Double
  labels : Labels

def apply (collector : MetricsCollector D) (update : Update D) : MetricsCollector D :=
  match update.kind with
  | .counter => collector.counter update.name update.value update.labels
  | .gauge => collector.gauge update.name update.value update.labels

def run (updates : List (Update D)) : MetricsCollector D :=
  updates.foldl apply {}

def table (collector : MetricsCollector D) (kind : Kind) : Table D.Double :=
  match kind with
  | .counter => collector.counters
  | .gauge => collector.gauges

def value? (collector : MetricsCollector D) (series : Kind × Bytes × Bytes) : Option D.Double :=
  Table.get? (collector.table series.1) series.2.1 series.2.2

namespace Update

def Changes (update : Update D) (series : Kind × Bytes × Bytes) : Prop :=
  ∃ collector : MetricsCollector D, (collector.apply update).value? series ≠ collector.value? series

def series (update : Update D) : Kind × Bytes × Bytes :=
  (update.kind, update.name, sortedLabelsKey update.labels)

def next (update : Update D) (old : D.Double) : D.Double :=
  match update.kind with
  | .counter => D.add old update.value
  | .gauge => update.value

end Update

def total (updates : List (Update D)) (update : Update D) : D.Double :=
  let own := updates.filter fun other =>
    other.kind = update.kind ∧ other.name = update.name ∧ other.labels = update.labels
  own.foldl (fun old other => other.next old) D.zero

def Apart (updates : List (Update D)) : Prop :=
  ∀ update ∈ updates, ∀ other ∈ updates, update.name = other.name → update.labels ≠ other.labels →
    ¬∃ series, update.Changes series ∧ other.Changes series

section Values

variable {updates : List (Update D)} {update : Update D}

end Values

section Export

def seriesFields (kind : Kind) (labelsKey : Bytes) (value : D.Double) : List Json.Field :=
  let quoted (s : Bytes) := 0x22 :: (s ++ [0x22])
  let labels := if labelsKey = [] then [] else [{
    key := bytes "labels",
    raw := bytes "labels",
    text := quoted (Observability.escapeJson labelsKey),
    json := .str labelsKey }]
  [{ key := bytes "type", raw := bytes "type", text := quoted kind.text, json := .str kind.text }]
    ++ labels
    ++ [{ key := bytes "value", raw := bytes "value", text := D.toText value, json := D.json value }]

def seriesField (kind : Kind) (name labelsKey : Bytes) (value : D.Double) : Json.Field where
  key := name
  raw := Observability.escapeJson name
  text := 0x7b :: Json.fieldsText (seriesFields kind labelsKey value)
  json := .obj ((seriesFields kind labelsKey value).map Json.Field.member)

def kindFields (collector : MetricsCollector D) (kind : Kind) : List Json.Field :=
  (collector.table kind).toList.flatMap fun (name, labelsMap) =>
    labelsMap.toList.map fun (labelsKey, value) => seriesField kind name labelsKey value

def fields (collector : MetricsCollector D) : List Json.Field :=
  collector.kindFields .counter ++ collector.kindFields .gauge

variable {kind : Kind} {labelsKey : Bytes} {value : D.Double}

end Export

section Kept

variable {updates : List (Update D)}

section Labels

variable
  (hlabels : ∀ update ∈ updates, ∀ other ∈ updates, update.name = other.name → update.labels = other.labels)

include hlabels

end Labels

section Example

def intCore : DoubleCore where
  Double := Int
  zero := 0
  add := Int.add
  isFinite _ := true
  toText := toDecimalInt
  json := .int
  reads_toText i _ := reads_toDecimalInt i
  toText_of_not_isFinite _ h := absurd rfl h

def counted (labels : Labels) : Update intCore where
  kind := .counter
  name := bytes "requests"
  value := (1 : Int)
  labels

end Example

end Kept

end MetricsCollector

end NeuroMesh
