import BatchWriter.InFlight
import BatchWriter.Ledger

/-!
# Measurements

Counters, gauges and histograms, labelled by writer. Writers of one label share
them. A gauge holds the last number it was set to.
-/

set_option autoImplicit false

namespace BatchWriter

inductive WaitReason where
  | bufferFull
  | inFlightLimit
  deriving DecidableEq, Repr

def WaitReason.name : WaitReason → String
  | .bufferFull => "buffer_full"
  | .inFlightLimit => "in_flight_limit"

inductive Measurement where
  /-- An entry was accepted. -/
  | written
  /-- A batch of a size was handed over. -/
  | batch (size : Nat)
  | requeued (entries : Nat)
  | wait (reason : WaitReason)
  /-- A batch was completed after some milliseconds. -/
  | latency (age : Binary64)
  | gauges (buffered inFlight : Nat)
  deriving DecidableEq, Repr

structure Histogram (σ : Type) where
  buckets : List Nat
  sum : σ

namespace Histogram

variable {σ : Type}

def empty (bounds : Nat) (zero : σ) : Histogram σ := ⟨List.replicate (bounds + 1) 0, zero⟩

def count (h : Histogram σ) : Nat := h.buckets.foldr (· + ·) 0

def record (h : Histogram σ) (index : Nat) (sum : σ) : Histogram σ :=
  ⟨h.buckets.modify index (· + 1), sum⟩

def cumulative (h : Histogram σ) : List Nat :=
  (h.buckets.foldl (fun acc n => (acc.1 + n, acc.2 ++ [acc.1 + n])) (0, [])).2

end Histogram

def batchSizeBounds : List Nat := [1, 5, 10, 25, 50, 100, 250, 500, 1000, 5000]

/-- Upper bounds of the latency buckets, in tenths of a millisecond. -/
def latencyBounds : List Nat :=
  [10, 25, 50, 100, 250, 500, 1000, 2500, 5000, 10000, 25000, 50000, 100000]

def latencyBound (tenths : Nat) : Binary64 := Binary64.ofRatio false tenths 10

structure Metrics where
  written : Ledger String Nat := {}
  dispatched : Ledger String Nat := {}
  requeued : Ledger String Nat := {}
  waits : Ledger (WaitReason × String) Nat := {}
  batchSize : Ledger String (Histogram Nat) := {}
  latency : Ledger String (Histogram Binary64) := {}
  buffered : Ledger String Nat := {}
  inFlight : Ledger String Nat := {}

namespace Metrics

def emptyBatchSize : Histogram Nat := .empty batchSizeBounds.length 0

def emptyLatency : Histogram Binary64 := .empty latencyBounds.length (Binary64.ofNat 0)

def register (m : Metrics) (writer : String) : Metrics :=
  { m with
    written := m.written.ensure writer 0
    dispatched := m.dispatched.ensure writer 0
    requeued := m.requeued.ensure writer 0
    batchSize := m.batchSize.ensure writer emptyBatchSize
    latency := m.latency.ensure writer emptyLatency
    buffered := m.buffered.ensure writer 0
    inFlight := m.inFlight.ensure writer 0 }

def record (m : Metrics) (writer : String) : Measurement → Metrics
  | .written => { m with written := m.written.alter writer 0 (· + 1) }
  | .batch size =>
    { m with
      dispatched := m.dispatched.alter writer 0 (· + 1)
      batchSize := m.batchSize.alter writer emptyBatchSize fun h =>
        h.record (batchSizeBounds.findIdx fun bound => decide (size ≤ bound)) (h.sum + size) }
  | .requeued n => { m with requeued := m.requeued.alter writer 0 (· + n) }
  | .wait reason => { m with waits := m.waits.alter (reason, writer) 0 (· + 1) }
  | .latency age =>
    { m with
      latency := m.latency.alter writer emptyLatency fun h =>
        h.record (latencyBounds.findIdx fun tenths => age.le (latencyBound tenths))
          (h.sum.add age) }
  | .gauges buffered inFlight =>
    { m with
      buffered := m.buffered.alter writer 0 fun _ => buffered
      inFlight := m.inFlight.alter writer 0 fun _ => inFlight }

def row (m : Metrics) (writer : String) : List Nat :=
  [m.written.getD writer 0, m.dispatched.getD writer 0, m.requeued.getD writer 0,
   m.waits.getD (.bufferFull, writer) 0, m.waits.getD (.inFlightLimit, writer) 0,
   m.buffered.getD writer 0, m.inFlight.getD writer 0]

end Metrics
end BatchWriter
