import BatchWriter.Call
import BatchWriter.Subscriber
import BatchWriter.Writer.Batch

/-!
# The bench

A bench holds writers with everything they work with: two loops on one clock, calls,
destinations, feedback buses and measurements. It changes by whole small steps, and
its trace tells what happened.
-/

set_option autoImplicit false

namespace BatchWriter

inductive Ring where
  | writer (writer : Nat) (alarm : WriterAlarm)
  | wake (call : Nat)
  deriving DecidableEq, Repr

inductive Callback where
  /-- A call starts or goes on. -/
  | resume (call : Nat)
  /-- A writer learns a batch's outcome. -/
  | report (writer batch : Nat) (report : Report)
  | forget (destination call : Nat)
  /-- A gathered call has ended. -/
  | gathered (call child : Nat)

inductive Happening where
  | ended (label : String) (outcome : Except Fault Value)
  /-- A destination's call has begun. -/
  | reached (destination : String) (call : Nat) (entries : List Value)
  | delivered (subscriber : String) (row : List Value)
  /-- A recording handle was told an outcome. -/
  | direct (label : String) (report : Report)
  | noticed (notice : Notice)
  /-- A fault escaped from a loop's callback. -/
  | escaped (fault : Fault)

structure Bench where
  time : Timetable Ring := {}
  main : EventLoop Callback := {}
  alt : EventLoop Callback := {}
  /-- The loop whose turn it is. -/
  turn : LoopName := .main
  /-- The call that is running. -/
  running : Option Nat := none
  calls : List Call := []
  writers : List Writer := []
  /-- Writers by name; a name taken again stands for the newer writer. -/
  names : Ledger String Nat := {}
  destinations : List Destination := []
  subscribers : List Subscriber := []
  /-- Subscribers of each bus, in order of subscription. -/
  buses : Ledger String (List String) := {}
  metrics : Metrics := {}
  /-- What sends told their handles, each report with the send's call, newest first. -/
  answers : List (Nat × Report) := []
  /-- What jobs told their handles, each report with the destination and the job, newest first. -/
  jobAnswers : List ((Nat × Nat) × Report) := []
  /-- Newest first. -/
  trace : List Happening := []

namespace Bench

def tell (b : Bench) (h : Happening) : Bench := { b with trace := h :: b.trace }

def log (b : Bench) (n : Notice) : Bench := b.tell (.noticed n)

def now (b : Bench) : Nat := b.time.now

def loop (b : Bench) : LoopName → EventLoop Callback
  | .main => b.main
  | .alt => b.alt

def setLoop (b : Bench) : LoopName → EventLoop Callback → Bench
  | .main, l => { b with main := l }
  | .alt, l => { b with alt := l }

def post (b : Bench) (name : LoopName) (callback : Callback) : Bench :=
  b.setLoop name ((b.loop name).post callback)

def setCall (b : Bench) (id : Nat) (c : Call) : Bench := { b with calls := b.calls.set id c }

def setDestination (b : Bench) (i : Nat) (d : Destination) : Bench :=
  { b with destinations := b.destinations.set i d }

def destinationIndex? (b : Bench) (name : String) : Option Nat :=
  b.destinations.findIdx? fun d => d.name == name

def subscriber? (b : Bench) (name : String) : Option Subscriber :=
  b.subscribers.find? fun s => s.name == name

def start (b : Bench) (name : LoopName) (label : Option String) (program : Program)
    (watchers : List Watcher) : Bench :=
  post { b with calls := b.calls ++ [{ label, loop := name, program, watchers }] } name
    (.resume b.calls.length)

def queue (b : Bench) (id : Nat) (c : Call) (interrupted : Bool) : Bench :=
  (b.setCall id { c with status := .queued interrupted }).post c.loop (.resume id)

def wake (b : Bench) (id : Nat) : Bench :=
  match b.calls[id]? with
  | some c =>
    match c.status with
    | .waiting .change => b.queue id c false
    | _ => b
  | none => b

def perform (writer : Nat) (label : String) (b : Bench) : Effect → Bench
  | .notice n => b.log n
  | .measure m => { b with metrics := b.metrics.record label m }
  | .setAlarm alarm delay => { b with time := b.time.set delay (.writer writer alarm) }
  | .cancelAlarm alarm => { b with time := b.time.cancel (.writer writer alarm) }
  | .wake call => b.wake call

def change (b : Bench) (writer : Nat) (f : Writer → Change) : Option Fault × Bench :=
  match b.writers[writer]? with
  | none => (none, b)
  | some w =>
    let c := f w
    (c.fault, c.effects.foldl (perform writer w.label)
      { b with writers := b.writers.set writer c.writer })

def thenDo (r : Option Fault × Bench) (next : Bench → Option Fault × Bench) :
    Option Fault × Bench :=
  match r.1 with
  | some _ => r
  | none => next r.2

/-- Tells a handle the outcome of its batch. A writer learns it in a callback of its
loop; on a closed loop the report is dropped. -/
def tellHandle (b : Bench) (handle : Handle) (report : Report) : Bench :=
  match handle with
  | .recorder label => b.tell (.direct label report)
  | .batch writer name batch =>
    if (b.loop name).closed then b.log (.completionDropped (.nat batch))
    else b.post name (.report writer batch report)

/-- A bus is opened when it is first used; opening the shared one is noticed. -/
def openBus (b : Bench) (name : String) : Bench :=
  if b.buses.contains name then b
  else
    let opened := { b with buses := b.buses.ensure name [] }
    if name = "global" then opened.log .busOpened else opened

def subscribersOf (b : Bench) (bus : String) : List String := b.buses.getD bus []

def subscribe (b : Bench) (bus name : String) : Bench :=
  let b := b.openBus bus
  let current := b.subscribersOf bus
  if current.contains name then b
  else
    let b := { b with buses := b.buses.alter bus [] (· ++ [name]) }
    b.log (.subscribed (current.length + 1))

def unsubscribe (b : Bench) (bus name : String) : Bench :=
  let b := b.openBus bus
  let current := b.subscribersOf bus
  if current.contains name then
    let b := { b with buses := b.buses.alter bus [] (·.filter (· ≠ name)) }
    b.log (.unsubscribed (current.length - 1))
  else b

def publication (b : Bench) (bus : String) (event : Event) : Bench × Option Delivery :=
  let b := b.openBus bus
  match b.subscribersOf bus with
  | [] => (b, none)
  | subscribers => (b.log (.publishing event), some { event, remaining := subscribers })

end Bench
end BatchWriter
