import BatchWriter.Writer.Basic

/-!
# Life of a batch

A batch is taken from the head of the buffer, opened, handed to the destination, and
ended by the first of: its completion, a reported failure, its timeout, a refusal by
the destination, or the closing of the writer.
-/

set_option autoImplicit false

namespace BatchWriter
namespace Writer

def accept (now : Nat) (entry : Value) (w : Writer) : Change :=
  let appended := note now (.accepted entry) { w with buffer := w.buffer.append entry }
  (appended.measure .written).andThen (armTimerIf w.buffer.isEmpty)

def startTimeout (batch : Nat) (w : Writer) : Change :=
  match w.config.requestTimeout with
  | none => .stay w
  | some limit =>
    match limit.delaySeconds with
    | .error fault => .stop w fault
    | .ok delay =>
      { writer := { w with inFlight := w.inFlight.update batch fun r => { r with timed := true } }
        effects := [.setAlarm (.expire batch) delay] }

def openBatch (now : Nat) (entries : List Value) (w : Writer) : Change :=
  let opened := w.inFlight.openBatch entries now
  let batch := opened.1.id
  let size := entries.length
  (startTimeout batch (note now (.opened batch entries) { w with inFlight := opened.2 }))
    |>.andThen (measure (.batch size))
    |>.andThen fun w => w.announce (.dispatching w.id batch size w.inFlight.count)

structure Parcel where
  batch : Nat
  entries : List Value

/-- Takes the next batch out of the buffer and opens it. An empty buffer gives no
batch. -/
def startDispatch (loop : LoopName) (now : Nat) (w : Writer) : Change × Option Parcel :=
  match w.refusal? with
  | some fault => (.stop w fault, none)
  | none =>
    match w.buffer.take w.config.maxBatchSize with
    | .error fault => (.stop w fault, none)
    | .ok (entries, rest) =>
      let taken := { w with buffer := rest, deferred := w.deferred && !rest.isEmpty }
      if entries.isEmpty then (.stay taken, none)
      else
        let bound := taken.bind loop
        let opened := bound.andThen (openBatch now entries)
        (opened, if opened.fault.isNone then some ⟨bound.writer.inFlight.issued + 1, entries⟩
                 else none)

def emptyBatch (batch : Nat) (w : Writer) : Change :=
  .stay { w with inFlight := w.inFlight.update batch fun r => { r with entries := [] } }

/-- What follows when the destination was handed a batch. One that refuses it with an
ordinary fault fails the writer; any other fault only passes through. -/
def concludeDispatch (now : Nat) (parcel : Parcel) (refusal : Option Fault) (w : Writer) :
    Change :=
  let handed := note now (.handed parcel.batch parcel.entries) w
  match refusal with
  | none => handed.showGauges
  | some fault =>
    if fault.isOrdinary then
      let error := Fault.submission parcel.batch fault
      let refused := (note now (.refused parcel.batch parcel.entries) handed).release parcel.batch
      let recorded := (refused.andThen (recordFailure error)).andThen showGauges
      { recorded with fault := some error }
    else { handed.showGauges with fault := some fault }

def completionIgnored? (batch : Nat) (w : Writer) : Option Notice :=
  if w.closed then some (.completionAfterClose w.id batch)
  else if (w.inFlight.find? batch).isNone then some (.completionUnknown w.id batch)
  else none

def requeue (batch size : Nat) (failed : List Value) (w : Writer) : Change :=
  if failed.isEmpty then .stay w
  else
    let count := failed.length
    (measure (.requeued count) { w with buffer := w.buffer.prepend failed })
      |>.andThen (announce (.requeued w.id count size batch))
      |>.andThen (armTimerIf w.buffer.isEmpty)

def complete (now batch : Nat) (failed : List Value) (w : Writer) : Change :=
  match w.inFlight.find? batch with
  | none => .stay w
  | some request =>
    ((note now (.completed batch request.entries failed) w).release batch)
      |>.andThen (measure (.latency (ageMilliseconds request.openedAt now)))
      |>.andThen (requeue batch request.entries.length failed)

/-- Whether a completion has to flush in place of the buffer's alarm. -/
def flushIsDue (w : Writer) : Bool := w.deferred && !w.buffer.isEmpty

def beginDeferredFlush (w : Writer) : Change :=
  .stay { w with deferred := false }

def beginTimedFlush (now : Nat) (w : Writer) : Change :=
  (note now .flushed w).announce (.flushTimed w.id w.buffer.size)

/-- After a timed flush whoever waits is woken, and what is left waits anew. -/
def endTimedFlush (w : Writer) : Change :=
  w.notify.andThen fun w => w.armTimerIf (!w.buffer.isEmpty)

def endCompletion (w : Writer) : Change := w.showGauges.andThen notify

/-- A report that a whole batch failed fails the writer, if the batch is open. -/
def reportFailed (now batch : Nat) (fault : Fault) (w : Writer) : Change :=
  match w.inFlight.find? batch with
  | none => w.announce (.failureUnknown w.id batch fault)
  | some request =>
    ((note now (.reportedFailed batch request.entries) w).release batch)
      |>.andThen (recordFailure (.destination batch request.entries.length fault))

def expire (now batch : Nat) (w : Writer) : Change :=
  match w.inFlight.find? batch, w.config.requestTimeout with
  | some request, some limit =>
    ((note now (.expired batch request.entries) w).release batch)
      |>.andThen (recordFailure (.timeout batch request.entries.length limit))
  | _, _ => .stay w

/-- What the buffer's alarm does first: a flush that finds no slot is left to the next
completion. -/
def bufferTimeOver (w : Writer) : Change × Bool :=
  let rung := { w with timerArmed := false }
  if w.closed || w.failure.isSome || w.buffer.isEmpty then (.stay rung, false)
  else if rung.hasCapacity then (.stay rung, true)
  else (announce (.flushDeferred w.id) { rung with deferred := true }, false)

def abandonAll (now : Nat) (w : Writer) : Change :=
  let requests := w.inFlight.requests
  { writer := (requests.foldl (fun w r => note now (.abandoned r.id r.entries) w)
      { w with inFlight := w.inFlight.clear })
    effects := requests.map (fun r => .cancelAlarm (.expire r.id)) ++
      if requests.isEmpty && w.buffer.isEmpty then []
      else [.notice (.abandoned w.id w.buffer.size requests.length)] }

/-- Closing releases the alarms and wakes whoever waits; nothing is flushed. -/
def close (now : Nat) (w : Writer) : Change :=
  if w.closed then .stay w
  else
    (cancelTimer { w with closed := true })
      |>.andThen (abandonAll now)
      |>.andThen notify
      |>.andThen showGauges
      |>.andThen (announce (.closed w.id))

def restore (now : Nat) (id : Value) (config : Config) (converter : Converter)
    (destination : Nat) (bus : Option String) (entries : List Value) : Except Fault Change := do
  let buffer ← Buffer.ofEntries config.maxBuffered entries
  let inFlight ← InFlight.ofLimit config.maxInFlight
  let w : Writer :=
    { id, config, converter, destination, bus, buffer, inFlight
      history := [(now, .restored entries)] }
  let restored : Change :=
    if entries.isEmpty then .stay w else w.announce (.restored id entries.length)
  return restored.andThen showGauges

end Writer
end BatchWriter
