import BatchWriter.Metrics

/-!
# Text exposition of measurements

One block of lines per measurement, in a fixed order: its help, its kind and one line
per label set in order of creation, labels sorted by name. The sum of latencies is
left out.
-/

set_option autoImplicit false

namespace BatchWriter.Metrics

/-- A label value between double quotes: backslash, line feed and quote are escaped. -/
def labelText (s : String) : String :=
  String.join (s.toList.map fun c =>
    if c = '\\' then "\\\\" else if c = '\n' then "\\n" else if c = '"' then "\\\""
    else String.singleton c)

def seriesName (name : String) (labels : List (String × String)) : String :=
  let parts := labels.map fun l => l.1 ++ "=\"" ++ labelText l.2 ++ "\""
  name ++ String.ofList ['\x7b'] ++ ",".intercalate parts ++ String.ofList ['\x7d']

/-- A whole number as a sample: with one decimal below a million, with an exponent
from there on. -/
def sampleText (n : Nat) : String :=
  let digits := (toString n).toList
  if digits.length ≤ 6 then String.ofList digits ++ ".0"
  else
    let mantissa := digits.take 1 ++ ['.'] ++ digits.drop 1
    let kept := (mantissa.reverse.dropWhile fun c => c = '0' || c = '.').reverse
    String.ofList kept ++ "e+0" ++ toString (digits.length - 1)

def sample (name : String) (labels : List (String × String)) (n : Nat) : String :=
  seriesName name labels ++ " " ++ sampleText n

def header (name help kind : String) : List String :=
  ["# HELP " ++ name ++ " " ++ help, "# TYPE " ++ name ++ " " ++ kind]

def simpleBlock (name help kind : String) (values : Ledger String Nat) : List String :=
  header name help kind ++ values.entries.map fun e => sample name [("writer", e.1)] e.2

def waitsBlock (name help : String) (values : Ledger (WaitReason × String) Nat) :
    List String :=
  header name help "counter" ++ values.entries.map fun e =>
    sample name [("reason", e.1.1.name), ("writer", e.1.2)] e.2

def histogramLines {σ : Type} (name writer : String) (bounds : List String)
    (h : Histogram σ) (sum : Option Nat) : List String :=
  let buckets := (bounds ++ ["+Inf"]).zipWith
    (fun bound n => sample (name ++ "_bucket") [("le", bound), ("writer", writer)] n)
    h.cumulative
  buckets ++ [sample (name ++ "_count") [("writer", writer)] h.count] ++
    (sum.map fun s => sample (name ++ "_sum") [("writer", writer)] s).toList

def tenthsText (tenths : Nat) : String := toString (tenths / 10) ++ "." ++ toString (tenths % 10)

def exposition (m : Metrics) : List String :=
  simpleBlock "async_sink_entries_written_total"
    "Elements accepted by write() and converted to request entries" "counter" m.written ++
  simpleBlock "async_sink_batches_dispatched_total"
    "Batches handed to the destination" "counter" m.dispatched ++
  simpleBlock "async_sink_entries_requeued_total"
    "Entries reported failed by the destination and requeued for retry" "counter"
    m.requeued ++
  waitsBlock "async_sink_backpressure_waits_total"
    "Times a writer suspended its caller" m.waits ++
  header "async_sink_batch_size" "Entries per dispatched batch" "histogram" ++
  (m.batchSize.entries.flatMap fun e =>
    histogramLines "async_sink_batch_size" e.1
      (batchSizeBounds.map fun b => tenthsText (10 * b)) e.2 (some e.2.sum)) ++
  header "async_sink_request_latency_ms"
    "Time from dispatch to completion in milliseconds" "histogram" ++
  (m.latency.entries.flatMap fun e =>
    histogramLines "async_sink_request_latency_ms" e.1 (latencyBounds.map tenthsText) e.2
      none) ++
  simpleBlock "async_sink_buffered_entries"
    "Entries waiting in the writer buffer" "gauge" m.buffered ++
  simpleBlock "async_sink_in_flight_requests"
    "Batches dispatched and not yet completed" "gauge" m.inFlight

end BatchWriter.Metrics
