import BatchWriter.Bench.Basic

/-!
# Handing batches over

A destination is handed a batch inside the writer's dispatch, so it may refuse it at
once; its outcome comes later through the handle, as a callback of the writer's loop.
-/

set_option autoImplicit false

namespace BatchWriter
namespace Bench

def callEntries (b : Bench) (destination call : Nat) : List Value :=
  match b.destinations[destination]? with
  | some d => ((d.calls[call]?).map (·.2)).getD []
  | none => []

/-- Empties the list of a call. It is the writer's own list of the open batch. -/
def clearEntries (b : Bench) (destination call : Nat) (handle : Handle) : Bench :=
  let b := match b.destinations[destination]? with
    | some d => b.setDestination destination
        { d with calls := d.calls.modify call fun c => (c.1, []) }
    | none => b
  match handle with
  | .batch writer _ batch => (b.change writer (·.emptyBatch batch)).2
  | .recorder _ => b

def respond (destination call : Nat) (handle : Handle) :
    List Response → Bench → Option Fault × Bench
  | [], b => (none, b)
  | .complete places :: rest, b =>
    match entriesAt (b.callEntries destination call) places with
    | .error fault => (some fault, b)
    | .ok failed => respond destination call handle rest (b.tellHandle handle (.completed failed))
  | .fail fault :: rest, b =>
    respond destination call handle rest (b.tellHandle handle (.failed fault))
  | .raise fault :: _, b => (some fault, b)
  | .clear :: rest, b =>
    respond destination call handle rest (b.clearEntries destination call handle)

/-- A call reaches a destination: its index and its behaviour are settled now. -/
def reach (b : Bench) (destination : Nat) (d : Destination) (entries : List Value) : Bench :=
  (b.setDestination destination { d with reached := d.reached + 1 }).tell
    (.reached d.name d.reached entries)

/-- Hands entries to a destination. A send needs a running loop, a job an executor that
is not shut down. -/
def submit (b : Bench) (destination : Nat) (loop : Option LoopName) (entries : List Value)
    (handle : Handle) : Option Fault × Bench :=
  match b.destinations[destination]? with
  | none => (none, b)
  | some d =>
    match d.adapter, loop with
    | .manual, _ =>
      respond destination d.reached handle (d.behaviour d.reached).responses
        (b.reach destination { d with calls := d.calls ++ [(handle, entries)] } entries)
    | .sender, none => (some .noRunningLoop, b)
    | .sender, some name =>
      let send : SendJob := { destination, entries, handle }
      (none,
        (b.setDestination destination { d with pending := d.pending ++ [b.calls.length] }).start
          name none (.send send .start) [.forget destination])
    | .executor _, _ =>
      if d.shutDown then (some .executorShutDown, b)
      else (none, b.setDestination destination { d with jobs := d.jobs ++ [{ handle, entries }] })

def dispatch (b : Bench) (writer : Nat) (loop : LoopName) : Option Fault × Bench :=
  match b.writers[writer]? with
  | none => (none, b)
  | some w =>
    let opened := b.change writer fun w => (w.startDispatch loop b.now).1
    match (w.startDispatch loop b.now).2 with
    | none => opened
    | some parcel =>
      let submitted := opened.2.submit w.destination (some loop) parcel.entries
        (.batch writer loop parcel.batch)
      submitted.2.change writer (·.concludeDispatch b.now parcel submitted.1)

/-- Dispatches one batch in place of the buffer's alarm. A destination's fault is the
writer's failure by then and goes no further. -/
def timedFlush (b : Bench) (writer : Nat) (loop : LoopName) : Option Fault × Bench :=
  let dispatched := (b.change writer (·.beginTimedFlush b.now)).2.dispatch writer loop
  match dispatched.1 with
  | some fault => if fault.isDestination then (none, dispatched.2) else dispatched
  | none => dispatched.2.change writer (·.endTimedFlush)

def deferredFlush (writer : Nat) (loop : LoopName) (b : Bench) : Option Fault × Bench :=
  match b.writers[writer]? with
  | none => (none, b)
  | some w =>
    if w.flushIsDue then (b.change writer (·.beginDeferredFlush)).2.timedFlush writer loop
    else (none, b)

def receive (b : Bench) (loop : LoopName) (writer batch : Nat) :
    Report → Option Fault × Bench
  | .failed fault => b.change writer (·.reportFailed b.now batch fault)
  | .completed failed =>
    match b.writers[writer]? with
    | none => (none, b)
    | some w =>
      match w.completionIgnored? batch with
      | some notice => (none, b.log notice)
      | none =>
        thenDo (thenDo (b.change writer (·.complete b.now batch failed))
          (deferredFlush writer loop)) fun b => b.change writer (·.endCompletion)

def bufferAlarm (b : Bench) (writer : Nat) : Option Fault × Bench :=
  match b.writers[writer]? with
  | none => (none, b)
  | some w =>
    let rung := b.change writer (·.bufferTimeOver.1)
    if w.bufferTimeOver.2 then rung.2.timedFlush writer (w.loop.getD .main) else rung

def endCallback (r : Option Fault × Bench) : Bench :=
  match r.1 with
  | some fault => r.2.tell (.escaped fault)
  | none => r.2

end Bench
end BatchWriter
