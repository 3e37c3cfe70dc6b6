import BatchWriter.Bench.Delivery
import BatchWriter.Bench.Dispatch

/-!
# Writes and commits

A write lets its element in once the buffer has room, then dispatches full batches. A
commit waits until nothing is buffered or in flight. Both stop at every point at which
another call may run, and look at the writer again afterwards.
-/

set_option autoImplicit false

namespace BatchWriter

def Stage.next : Stage → WritePoint
  | .filling blocked => .gate blocked
  | .batching => .batching

def Writer.conversion (w : Writer) (job : WriteJob) : Except Fault Value :=
  w.converter.convert (job.elements.head?.getD .null) job.context w.buffer.size w.inFlight.count

namespace Bench

def withWriter (b : Bench) (writer : Nat) (f : Writer → Bench × Progress) : Bench × Progress :=
  match b.writers[writer]? with
  | some w => f w
  | none => (b, .stop (.missingKey (.nat writer)))

def changeThen (b : Bench) (writer : Nat) (f : Writer → Change) (next : Program) :
    Bench × Progress :=
  let r := b.change writer f
  (r.2, .goUnless r.1 next)

def publishLevel (b : Bench) (job : WriteJob) (w : Writer) (level : Level) (reason : String)
    (next : WritePoint) : Bench × Progress :=
  let event := w.event level reason
  let noted := (b.change job.writer fun w => .stay (w.note b.now (.announced event))).2
  let p := noted.publication (w.bus.getD "global") event
  let told := { job with published := job.published ++ [level] }
  (p.1,
    match p.2 with
    | none => .go (.write told next)
    | some delivery => .go (.write told (.publishing delivery next)))

def waitForChange (b : Bench) (id writer : Nat) (loop : LoopName) (next : Program) :
    Bench × Progress :=
  let r := b.change writer fun w =>
    (w.checkUsable.andThen (Writer.bind loop)).andThen (Writer.addWaiter id)
  (r.2, r.1.elim (.wait .change next) .stop)

def afterWaiting (b : Bench) (id writer : Nat) (next : Program) : Bench × Progress :=
  b.changeThen writer (fun w => (w.dropWaiter id).andThen Writer.checkUsable) next

def writeStart (b : Bench) (loop : LoopName) (job : WriteJob) : Bench × Progress :=
  match job.elements with
  | [] => (b, .finish (.ok (if job.counted then .nat job.written else .null)))
  | _ =>
    b.changeThen job.writer (fun w => (w.bind loop).andThen Writer.checkUsable)
      (.write job (.gate false))

/-- The caller is told only when a full buffer really blocks it. -/
def writeGate (b : Bench) (job : WriteJob) (blocked : Bool) : Bench × Progress :=
  b.withWriter job.writer fun w =>
    if w.buffer.isFull then
      if !blocked && !w.hasCapacity then
        let held := (b.change job.writer (·.holdBack .bufferFull)).2
        held.publishLevel job w .hard "buffer_full" (.flush (.filling true))
      else (b, .go (.write job (.flush (.filling blocked))))
    else if blocked then b.publishLevel job w .ok "recovered" .accept
    else (b, .go (.write job .accept))

def writeFlush (b : Bench) (job : WriteJob) (stage : Stage) : Bench × Progress :=
  b.withWriter job.writer fun w =>
    if w.hasCapacity then (b, .go (.write job (.dispatch stage)))
    else
      let held := (b.change job.writer (·.holdBack .inFlightLimit)).2
      held.publishLevel job w .soft "in_flight_limit" (.slot stage)

def writeSlot (b : Bench) (id : Nat) (loop : LoopName) (job : WriteJob) (stage : Stage) :
    Bench × Progress :=
  b.withWriter job.writer fun w =>
    if w.hasCapacity then (b, .go (.write job (.dispatch stage)))
    else b.waitForChange id job.writer loop (.write job (.woken stage))

def writeDispatch (b : Bench) (loop : LoopName) (job : WriteJob) (stage : Stage) :
    Bench × Progress :=
  let r := b.dispatch job.writer loop
  (r.2, .goUnless r.1 (.write job stage.next))

def writeAccept (b : Bench) (job : WriteJob) : Bench × Progress :=
  b.withWriter job.writer fun w =>
    match w.conversion job with
    | .error fault => (b, .stop fault)
    | .ok entry => b.changeThen job.writer (·.accept b.now entry) (.write job .batching)

def writeBatching (b : Bench) (job : WriteJob) : Bench × Progress :=
  b.withWriter job.writer fun w =>
    if w.hasFullBatch then (b, .go (.write job (.flush .batching)))
    else
      b.changeThen job.writer (·.showGauges)
        (.write
          { job with
            elements := job.elements.drop 1, written := job.written + 1, published := [] }
          .start)

def writePublishing (b : Bench) (job : WriteJob) (d : Delivery) (next : WritePoint) :
    Bench × Progress :=
  let r := b.attend d
  (r.1,
    match r.2 with
    | .go d => .go (.write job (.publishing d next))
    | .yield d => .yield (.write job (.publishing d next))
    | .sleep delay d => .sleep delay (.write job (.publishing d next))
    | .done => .go (.write job next)
    | .stop fault => .stop fault)

def writeStep (b : Bench) (id : Nat) (loop : LoopName) (job : WriteJob) :
    WritePoint → Bench × Progress
  | .start => b.writeStart loop job
  | .gate blocked => b.writeGate job blocked
  | .flush stage => b.writeFlush job stage
  | .slot stage => b.writeSlot id loop job stage
  | .woken stage => b.afterWaiting id job.writer (.write job (.slot stage))
  | .dispatch stage => b.writeDispatch loop job stage
  | .accept => b.writeAccept job
  | .batching => b.writeBatching job
  | .publishing delivery next => b.writePublishing job delivery next

def commitStart (b : Bench) (loop : LoopName) (job : CommitJob) : Bench × Progress :=
  b.changeThen job.writer
    (fun w => ((w.bind loop).andThen Writer.checkUsable).andThen fun w =>
      w.announce (.draining w.id w.buffer.size w.inFlight.count job.flush))
    (.commit job .drain)

/-- A commit that flushes dispatches while there is a slot; else it waits. -/
def commitDrain (b : Bench) (id : Nat) (loop : LoopName) (job : CommitJob) :
    Bench × Progress :=
  b.withWriter job.writer fun w =>
    if w.isBusy then
      if job.flush.isPresent && !w.buffer.isEmpty && w.hasCapacity then
        let r := b.dispatch job.writer loop
        (r.2, .goUnless r.1 (.commit job .drain))
      else b.waitForChange id job.writer loop (.commit job .woken)
    else
      ((b.change job.writer fun w => w.showGauges.andThen fun w => w.announce (.drained w.id)).2,
        .finish (.ok (.list [])))

def commitStep (b : Bench) (id : Nat) (loop : LoopName) (job : CommitJob) :
    CommitPoint → Bench × Progress
  | .start => b.commitStart loop job
  | .drain => b.commitDrain id loop job
  | .woken => b.afterWaiting id job.writer (.commit job .drain)

end Bench
end BatchWriter
