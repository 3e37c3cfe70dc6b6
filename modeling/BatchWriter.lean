import BatchWriter.Buffer.Session
import BatchWriter.Handle.Session
import BatchWriter.InFlight.Session
import BatchWriter.Proofs.Bench.Answers
import BatchWriter.Proofs.Bench.Callbacks
import BatchWriter.Proofs.Bench.Counters
import BatchWriter.Proofs.Bench.Drain
import BatchWriter.Proofs.Bench.Gauges
import BatchWriter.Proofs.Bench.Guard
import BatchWriter.Proofs.Bench.Memory
import BatchWriter.Proofs.Bench.Once
import BatchWriter.Proofs.Bench.Order
import BatchWriter.Proofs.Bench.Pressure
import BatchWriter.Proofs.Bench.Segment
import BatchWriter.Proofs.Bench.Slots
import BatchWriter.Proofs.Bench.Snapshot
import BatchWriter.Proofs.Bench.Stay
import BatchWriter.Proofs.Bench.Timeout
import BatchWriter.Proofs.Bench.Unheard
import BatchWriter.Proofs.Bench.Wakeups
import BatchWriter.Proofs.Buffer.Session
import BatchWriter.Proofs.Feedback.Runs
import BatchWriter.Proofs.Handle.Delivery
import BatchWriter.Proofs.InFlight.Returns
import BatchWriter.Proofs.Limits
import BatchWriter.Scenario
import BatchWriter.Settings.Basic
