import GridClient.Precision
import GridClient.Table

/-!
# Metrics

What a client counts. Each measurement adds to one or more series; a series has
a name and labels. Counters hold a total, gauges the last value, and histograms
either the number of samples or the samples themselves. What is shown of a series
fits a word of 64 bits; samples are shown in double precision.
-/

namespace GridClient

inductive Measurement where
  | duration (op node : String)
  | success (op node : String)
  | failure (op node kind : String)
  | topologyUpdate (cache : String) (epoch : Int32) (applied : Bool)
  | retry (op cause : String)
  | fanout (op : String) (batches : Nat)
  | released (node : String)
  | discarded (node reason : String)
  | abandoned (op : String)
  | scanDuplicates (count : Nat)
  deriving DecidableEq, Repr

namespace Metrics

structure Series where
  name : String
  labels : List (String × String)
  deriving DecidableEq, Repr

def Series.text (s : Series) : String :=
  let labels := s.labels.map fun (label, value) => label ++ "=" ++ value
  s.name ++ "\x7b" ++ ",".intercalate labels ++ "\x7d"

inductive Value where
  | total (n : Nat)
  | last (n : Int)
  | samples (n : Nat)
  | list (values : List Nat)
  deriving DecidableEq, Repr

def Value.add : Value → Value → Value
  | total m, total n => total (m + n)
  | samples m, samples n => samples (m + n)
  | list ms, list ns => list (ms ++ ns)
  | _, new => new

def count (name : String) (labels : List (String × String)) (n : Nat) : Series × Value :=
  (⟨name, labels⟩, .total n)

def durations (op node : String) : Series × Value :=
  (⟨"hotrod_operation_duration_seconds", [("op", op), ("target_node", node)]⟩, .samples 1)

def operations (op node status : String) : Series × Value :=
  count "hotrod_operations_total" [("op", op), ("status", status), ("target_node", node)] 1

def returned (node outcome : String) : Series × Value :=
  count "hotrod_channels_returned_total" [("outcome", outcome), ("target_node", node)] 1

/-- What a measurement adds to which series. The labels are in alphabetical order. -/
def entries : Measurement → List (Series × Value)
  | .duration op node => [durations op node]
  | .success op node => [operations op node "ok"]
  | .failure op node kind =>
      [operations op node "error",
        count "hotrod_operation_errors_total" [("error_type", kind), ("op", op)] 1]
  | .topologyUpdate cache epoch applied =>
      let outcome := if applied then "applied" else "ignored"
      count "hotrod_topology_updates_total" [("cache", cache), ("outcome", outcome)] 1
        :: if applied then [(⟨"hotrod_topology_epoch", [("cache", cache)]⟩, .last epoch.toInt)]
          else []
  | .retry op cause => [count "hotrod_retries_total" [("cause", cause), ("op", op)] 1]
  | .fanout op batches => [(⟨"hotrod_fanout_batches", [("op", op)]⟩, .list [batches])]
  | .released node => [returned node "released"]
  | .discarded node reason =>
      [returned node "discarded", count "hotrod_channels_discarded_total" [("reason", reason)] 1]
  | .abandoned op => [count "hotrod_operations_abandoned_total" [("op", op)] 1]
  | .scanDuplicates n => [count "hotrod_scan_duplicates_filtered_total" [] n]

/-- Adds an entry. Series that read the same are one series. -/
def record (t : Table String Value) (entry : Series × Value) : Table String Value :=
  Table.alter t entry.1.text fun
    | some old => old.add entry.2
    | none => entry.2

def tally (measurements : List Measurement) : Table String Value :=
  (measurements.flatMap entries).foldl record []

/-- A sample in double precision, or the largest word if it is larger than that. -/
def sample (n : Nat) : Nat :=
  min (Precision.round 53 n) 0xFFFFFFFFFFFFFFFF

/-- What is shown of a series. A total that has outgrown its word starts anew. -/
def Value.shown : Value → Value
  | total n => total (n % 0x10000000000000000)
  | list values => list (values.map sample)
  | v => v

def summary (measurements : List Measurement) : Table String Value :=
  (tally measurements).map fun (series, value) => (series, value.shown)

end Metrics
end GridClient
