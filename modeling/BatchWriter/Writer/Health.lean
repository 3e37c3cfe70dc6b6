import BatchWriter.Metrics.Exposition
import BatchWriter.Writer.Basic

/-!
# Views of a writer

What can be read off a writer and its measurements without changing either.
-/

set_option autoImplicit false

namespace BatchWriter

namespace Writer

def health (w : Writer) : Value :=
  .list [w.id, .nat w.buffer.size, .number w.config.maxBuffered, .nat w.inFlight.count,
    .number w.config.maxInFlight, .bool w.closed, .bool w.failure.isSome, .bool !w.isBusy]

def properties (w : Writer) : Value :=
  .object [("writer_id", w.id), ("config", .object w.config.fields),
    ("buffered", .nat w.buffer.size), ("in_flight", .nat w.inFlight.count)]

def overview (m : Metrics) (w : Writer) : Value :=
  .object [("buffer", .list w.buffer.entries), ("in_flight", .nat w.inFlight.count),
    ("closed", .bool w.closed), ("failed", .bool w.failure.isSome),
    ("metrics", .list ((m.row w.label).map .nat))]

end Writer

namespace Metrics

def histogramValue {σ : Type} (h : Histogram σ) (sum : Int) : Value :=
  .object [("count", .nat h.count), ("sum", .number (.int sum)),
    ("buckets", .list (h.cumulative.map .nat))]

def histograms (m : Metrics) (w : Writer) : Value :=
  let size := m.batchSize.getD w.label emptyBatchSize
  let latency := m.latency.getD w.label emptyLatency
  let microseconds := ((latency.sum.mul (Binary64.ofNat 1000)).toInt?).getD 0
  .object [("batch_size", histogramValue size size.sum),
    ("latency", histogramValue latency microseconds)]

end Metrics

end BatchWriter
