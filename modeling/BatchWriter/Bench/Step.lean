import BatchWriter.Bench.Send
import BatchWriter.Bench.Write

/-!
# Steps of the bench

A step of the bench is one point of the running call, or the next callback of the loop
whose turn it is. The bench settles when both loops are idle; alarms ring between
settled states.
-/

set_option autoImplicit false

namespace BatchWriter

def Watcher.callback (child : Nat) : Watcher → Callback
  | .forget destination => .forget destination child
  | .gather call => .gathered call child

namespace Bench

def deliverStep (b : Bench) (d : Delivery) : Bench × Progress :=
  let r := b.attend d
  (r.1,
    match r.2 with
    | .go d => .go (.deliver d)
    | .yield d => .yield (.deliver d)
    | .sleep delay d => .sleep delay (.deliver d)
    | .done => .finish (.ok .null)
    | .stop fault => .stop fault)

def finishWith (r : Option Fault × Bench) (result : Value) : Bench × Progress :=
  (r.2, .finish (r.1.elim (.ok result) .error))

def advanceProgram (b : Bench) (id : Nat) (loop : LoopName) : Program → Bench × Progress
  | .write job point => b.writeStep id loop job point
  | .commit job point => b.commitStep id loop job point
  | .close writer => finishWith (b.change writer (·.close b.now)) .null
  | .enter writer => finishWith (b.change writer (·.bind loop)) (.bool true)
  | .publish bus event =>
    let p := b.publication bus event
    (p.1, p.2.elim (.finish (.ok .null)) fun d => .go (.deliver d))
  | .deliver delivery => b.deliverStep delivery
  | .send job point => b.sendStep id job point
  | .drainSends destination point => b.drainStep id loop destination point
  | .shutDown destination => (b.shutDown destination, .finish (.ok .null))
  | .rest => (b, .finish (.ok .null))
  | .submit destination entries label =>
    finishWith (b.submit destination (some loop) entries (.recorder label)) .null

def interruptProgram (b : Bench) (id : Nat) : Program → Bench × Progress
  | .write job _ => ((b.change job.writer (·.dropWaiter id)).2, .stop .cancelled)
  | .commit job _ => ((b.change job.writer (·.dropWaiter id)).2, .stop .cancelled)
  | .send job point => b.sendInterrupted id job point
  | _ => (b, .stop .cancelled)

/-- A call ends. Its outcome is told under its label, a cancellation without its text;
then whoever watches it is queued. -/
def finish (b : Bench) (id : Nat) (outcome : Except Fault Value) : Bench :=
  match b.calls[id]? with
  | none => { b with running := none }
  | some c =>
    let shown := match outcome with
      | .error fault => if fault.isCancelled then .error .cancelled else outcome
      | .ok _ => outcome
    let ended := setCall { b with running := none } id { c with status := .ended, watchers := [] }
    let told := match c.label with
      | some label => ended.tell (.ended label shown)
      | none => ended
    c.watchers.foldl (fun b w => b.post c.loop (w.callback id)) told

def resolve (b : Bench) (id : Nat) (progress : Progress) : Bench :=
  match progress with
  | .finish outcome => b.finish id outcome
  | .go program =>
    { b with
      running := some id
      calls := b.calls.modify id fun c => { c with program, status := .running } }
  | .yield program =>
    match b.calls[id]? with
    | some c => queue { b with running := none } id { c with program } false
    | none => { b with running := none }
  | .sleep delay program =>
    { b with
      running := none
      time := b.time.set delay (.wake id)
      calls := b.calls.modify id fun c => { c with program, status := .waiting .alarm } }
  | .wait on program =>
    { b with
      running := none
      calls := b.calls.modify id fun c => { c with program, status := .waiting on } }

def proceed (b : Bench) (id : Nat) : Bench :=
  match b.calls[id]? with
  | some c =>
    let r := b.advanceProgram id c.loop c.program
    r.1.resolve id r.2
  | none => { b with running := none }

def resume (b : Bench) (id : Nat) : Bench :=
  match b.calls[id]? with
  | none => b
  | some c =>
    match c.status with
    | .queued true =>
      let r := b.interruptProgram id c.program
      r.1.resolve id r.2
    | .queued false => setCall { b with running := some id } id { c with status := .running }
    | _ => b

def runCallback (b : Bench) (loop : LoopName) : Callback → Bench
  | .resume call => b.resume call
  | .report writer batch report => endCallback (b.receive loop writer batch report)
  | .forget destination call => b.forget destination call
  | .gathered call child => b.countGathered call child

/-- The next callback, of the loop whose turn it is or else of the other one. -/
def nextCallback? (b : Bench) : Option (LoopName × Callback × Bench) :=
  match (b.loop b.turn).pop? with
  | some (callback, l) => some (b.turn, callback, b.setLoop b.turn l)
  | none =>
    match (b.loop b.turn.other).pop? with
    | some (callback, l) =>
      some (b.turn.other, callback, { b.setLoop b.turn.other l with turn := b.turn.other })
    | none => none

def step (b : Bench) : Option Bench :=
  match b.running with
  | some id => some (b.proceed id)
  | none => b.nextCallback?.map fun next => next.2.2.runCallback next.1 next.2.1

def run : Nat → Bench → Bench
  | 0, b => b
  | fuel + 1, b =>
    match b.step with
    | some next => run fuel next
    | none => b

def settle (fuel : Nat) (b : Bench) : Bench := run fuel { b with turn := .main }

def ring (b : Bench) : Ring → Bench
  | .writer writer .flush => endCallback (b.bufferAlarm writer)
  | .writer writer (.expire batch) => endCallback (b.change writer (·.expire b.now batch))
  | .wake id =>
    match b.calls[id]? with
    | some c =>
      match c.status with
      | .waiting .alarm => b.queue id c false
      | _ => b
    | none => b

/-- Rings the alarms due by an instant one at a time, settling after each, at most
`rounds` of them; then the clock stands at that instant. -/
def ringUntil (fuel instant : Nat) : Nat → Bench → Bench
  | 0, b => b
  | rounds + 1, b =>
    match b.time.ring? instant with
    | some (r, time) => ringUntil fuel instant rounds ((ring { b with time } r).settle fuel)
    | none => { b with time := b.time.moveTo instant }

def advance (fuel microseconds : Nat) (b : Bench) : Bench :=
  ringUntil fuel (b.now + microseconds) fuel (b.settle fuel)

def loopOf (b : Bench) : Ring → LoopName
  | .writer writer _ => ((b.writers[writer]?).bind (·.loop)).getD .main
  | .wake id => ((b.calls[id]?).map (·.loop)).getD .main

def closeLoop (b : Bench) (name : LoopName) : Bench :=
  let kept := b.time.alarms.filter fun a => b.loopOf a.action ≠ name
  setLoop { b with time := { b.time with alarms := kept } } name (b.loop name).close

end Bench
end BatchWriter
