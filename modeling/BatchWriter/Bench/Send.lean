import BatchWriter.Bench.Delivery
import BatchWriter.Bench.Dispatch

/-!
# Sends and jobs

A send runs on the loop and tells its handle how it ended, also when it is cancelled;
only a send that never began, or one that ends with neither an ordinary fault nor a
collection, leaves its handle untold. A job runs on an executor.
-/

set_option autoImplicit false

namespace BatchWriter
namespace Bench

/-- Cancels a call: what it waits for is given up and it goes on with the cancellation.
A call that gathers others waits for them all the same. Tells whether it could be
cancelled. -/
def interruptOne (b : Bench) (id : Nat) : Bool × Bench :=
  match b.calls[id]? with
  | none => (false, b)
  | some c =>
    match c.status with
    | .ended => (false, b)
    | .running => (true, b)
    | .queued _ => (true, b.setCall id { c with status := .queued true })
    | .waiting .alarm => (true, queue { b with time := b.time.cancel (.wake id) } id c true)
    | .waiting .change | .waiting .forever => (true, b.queue id c true)
    | .waiting (.calls left _) =>
      (true, b.setCall id { c with status := .waiting (.calls left true) })

def interruptAll (b : Bench) (ids : List Nat) : Bench :=
  ids.foldl (fun b id => (b.interruptOne id).2) b

def interrupt (b : Bench) (id : Nat) : Bool × Bench :=
  match b.calls[id]? with
  | some { status := .waiting (.calls left _), .. } => (b.interruptAll left).interruptOne id
  | _ => b.interruptOne id

def answer (b : Bench) (id : Nat) (job : SendJob) (report : Report) : Bench :=
  tellHandle { b with answers := (id, report) :: b.answers } job.handle report

def endSend (b : Bench) (id : Nat) (job : SendJob) : Except Fault Value → Bench × Progress
  | .error fault =>
    if fault.isCancelled then (b.answer id job (.failed fault), .stop fault)
    else if fault.isOrdinary then
      ((b.log (.sendFailed job.entries.length fault)).answer id job (.failed fault),
        .finish (.ok .null))
    else (b, .stop fault)
  | .ok result =>
    match Destination.report result with
    | .ok report => (b.answer id job report, .finish (.ok .null))
    | .error fault => (b, .stop fault)

def concludeSend (b : Bench) (id : Nat) (job : SendJob) (ending : Ending) : Bench × Progress :=
  match b.destinations[job.destination]? with
  | none => (b, .finish (.ok .null))
  | some d =>
    let concluded := d.conclude ending job.entries
    (b.setDestination job.destination concluded.2).endSend id job concluded.1

def sendStep (b : Bench) (id : Nat) (job : SendJob) : SendPoint → Bench × Progress
  | .start =>
    match b.destinations[job.destination]? with
    | none => (b, .finish (.ok .null))
    | some d =>
      let behaviour := d.behaviour d.reached
      (b.reach job.destination d job.entries,
        .go (.send { job with behaviour } (.yields behaviour.yields)))
  | .yields 0 => (b, .go (.send job .sleep))
  | .yields (n + 1) => (b, .yield (.send job (.yields n)))
  | .sleep =>
    match job.behaviour.sleep with
    | none => (b, .go (.send job .hang))
    | some milliseconds =>
      match pauseDelay milliseconds with
      | .error fault => b.endSend id job (.error fault)
      | .ok none => (b, .yield (.send job .hang))
      | .ok (some delay) => (b, .sleep delay (.send job .hang))
  | .hang =>
    if job.behaviour.hangs then (b, .wait .forever (.send job .conclude))
    else (b, .go (.send job .conclude))
  | .conclude => b.concludeSend id job job.behaviour.ending

/-- A cancelled send: one that never began tells its handle nothing. -/
def sendInterrupted (b : Bench) (id : Nat) (job : SendJob) : SendPoint → Bench × Progress
  | .start => (b, .stop .cancelled)
  | _ =>
    match job.behaviour.onCancel with
    | some ending => b.concludeSend id job ending
    | none => b.endSend id job (.error .cancelled)

def isEnded (b : Bench) (id : Nat) : Bool := ((b.calls[id]?).map (·.isEnded)).getD true

def gather (id : Nat) (loop : LoopName) (b : Bench) (child : Nat) : Bench :=
  if b.isEnded child then b.post loop (.gathered id child)
  else
    { b with
      calls := b.calls.modify child fun c => { c with watchers := c.watchers ++ [.gather id] } }

def isOn (b : Bench) (name : LoopName) (id : Nat) : Bool :=
  ((b.calls[id]?).map fun c => decide (c.loop = name)).getD true

/-- One point of draining a destination's sends: all of them are cancelled, and those
that the destination has not forgotten are waited for, if they are on the drain's loop. -/
def drainStep (b : Bench) (id : Nat) (loop : LoopName) (destination : Nat) :
    DrainPoint → Bench × Progress
  | .start =>
    match b.destinations[destination]? with
    | none => (b, .finish (.ok .null))
    | some d =>
      if d.pending.isEmpty then (b, .finish (.ok .null))
      else
        let cancelled := b.interruptAll d.pending
        if d.pending.all (b.isOn loop) then
          (d.pending.foldl (gather id loop) cancelled,
            .wait (.calls d.pending false) (.drainSends destination .gathered))
        else if d.pending.any (b.isOn loop) then (cancelled, .finish (.error .mixedLoops))
        else (cancelled, .yield (.drainSends destination .astray))
  | .gathered => (b, .finish (.ok .null))
  | .astray => (b, .finish (.error .foreignFuture))

def countGathered (b : Bench) (id child : Nat) : Bench :=
  match b.calls[id]? with
  | none => b
  | some c =>
    match c.status with
    | .waiting (.calls left interrupted) =>
      let left := left.filter (· ≠ child)
      if left.isEmpty then b.queue id c interrupted
      else b.setCall id { c with status := .waiting (.calls left interrupted) }
    | _ => b

def forget (b : Bench) (destination id : Nat) : Bench :=
  match b.destinations[destination]? with
  | none => b
  | some d => b.setDestination destination { d with pending := d.pending.filter (· ≠ id) }

def answerJob (b : Bench) (destination i : Nat) (job : Job) (report : Report) : Bench :=
  tellHandle { b with jobAnswers := ((destination, i), report) :: b.jobAnswers } job.handle report

/-- An executor tells how a job ended. A result that is no collection is told to
nobody. -/
def endJob (b : Bench) (destination i : Nat) (job : Job) : Except Fault Value → Bench
  | .error fault => (b.log (.jobFailed fault)).answerJob destination i job (.failed fault)
  | .ok result =>
    match Destination.report result with
    | .ok report => b.answerJob destination i job report
    | .error _ => b

def setJob (b : Bench) (destination : Nat) (d : Destination) (i : Nat) (job : Job) : Bench :=
  b.setDestination destination { d with jobs := d.jobs.set i job }

def runJob (b : Bench) (destination i : Nat) : Bool × Bench :=
  match b.destinations[destination]? with
  | none => (false, b)
  | some d =>
    match d.jobs[i]? with
    | some { handle, entries, state := .waiting } =>
      let job : Job := { handle, entries, state := .finished }
      let ran := { d with jobs := d.jobs.set i job, reached := d.reached + 1 }
      let concluded := ran.conclude (d.behaviour d.reached).ending entries
      (true, ((b.setDestination destination concluded.2).tell
        (.reached d.name d.reached entries)).endJob destination i job concluded.1)
    | _ => (false, b)

def cancelledJob : Fault := .raised "CancelledError" [.text "destination call cancelled"]

def cancelJob (b : Bench) (destination i : Nat) : Bool × Bench :=
  match b.destinations[destination]? with
  | none => (false, b)
  | some d =>
    match d.jobs[i]? with
    | none => (false, b)
    | some job =>
      match job.state with
      | .finished => (false, b)
      | .cancelled => (true, b)
      | .waiting =>
        (true, (b.setJob destination d i { job with state := .cancelled }).answerJob destination i
          job (.failed cancelledJob))

def waitingJob? (b : Bench) (destination : Nat) : Option Nat :=
  match b.destinations[destination]? with
  | none => none
  | some d => d.jobs.findIdx? fun j => j.state = .waiting

def shutDown (b : Bench) (destination : Nat) : Bench :=
  match b.destinations[destination]? with
  | none => b
  | some d => b.setDestination destination { d with shutDown := true }

end Bench
end BatchWriter
