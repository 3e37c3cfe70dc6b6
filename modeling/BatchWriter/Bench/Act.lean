import BatchWriter.Bench.Step
import BatchWriter.Writer.Health

/-!
# Acts

What is done to a bench from outside its loops: writers are built, calls started and
cancelled, outcomes reported, time passes. An act answers a value or the fault it
raised.
-/

set_option autoImplicit false

namespace BatchWriter

structure WriterSpec where
  config : Arguments := []
  initial : Value := .null
  id : Value := .text "default"
  bus : Option String := none
  converter : Option Converter := some .identity
  destination : String

inductive Task where
  | write (writer : String) (element : Value) (context : Option Arguments)
  | writeAll (writer : String) (elements : List Value)
  | commit (writer : String) (flush : Value)
  | close (writer : String)
  | enter (writer : String)
  | publish (bus : String) (event : Arguments)
  | drain (destination : String)
  | submit (destination : String) (entries : List Value)

inductive Act where
  | create (name : String) (spec : WriterSpec)
  /-- Starts a task as a call whose outcome is told under a label. -/
  | start (label : String) (loop : LoopName) (task : Task)
  /-- Hands entries to a destination while no loop is running. -/
  | submitOutside (label destination : String) (entries : List Value)
  | cancel (label : String)
  /-- Reports that the entries of a call at some places failed. -/
  | complete (destination : String) (call : Int) (places : List Int)
  /-- Reports a collection of failed entries. -/
  | completeWith (destination : String) (call : Int) (failed : Value)
  | fail (destination : String) (call : Int) (fault : Fault)
  /-- Runs a given job, or the first one that waits. -/
  | runJob (destination : String) (job : Option Int)
  | cancelJob (destination : String) (job : Int)
  | shutDown (destination : String)
  | pending (destination : String)
  | subscribe (bus name : String)
  | unsubscribe (bus name : String)
  | advance (microseconds : Nat)
  | settle
  | snapshot (writer : String)
  | health (writer : String)
  | properties (writer : String)
  | histograms (writer : String)
  | exposition
  | closeLoop (loop : LoopName)

namespace Bench

abbrev Answer := Except Fault Value × Bench

def writerIndex (b : Bench) (name : String) : Except Fault Nat :=
  (b.names.get? name).elim (.error (.missingKey (.text name))) .ok

def destinationIndex (b : Bench) (name : String) : Except Fault Nat :=
  (b.destinationIndex? name).elim (.error (.missingKey (.text name))) .ok

def destinationFor (b : Bench) (name : String) : Except Fault Nat :=
  (b.destinationIndex? name).elim (.error (.config .destinationMissing)) .ok

/-- Builds a writer. A writer whose construction fails does not exist. -/
def create (b : Bench) (name : String) (spec : WriterSpec) : Answer :=
  let built : Except Fault Change := do
    let config ← Config.ofArguments spec.config
    let converter ← spec.converter.elim (.error (.config .converterMissing)) .ok
    let destination ← b.destinationFor spec.destination
    let entries ← spec.initial.initialMembers
    Writer.restore b.now spec.id config converter destination spec.bus entries
  match built with
  | .error fault => (.error fault, b)
  | .ok c =>
    let place := b.writers.length
    let added := { b with
      writers := b.writers ++ [c.writer]
      names := b.names.alter name place fun _ => place
      metrics := b.metrics.register c.writer.label }
    (.ok .null, c.effects.foldl (perform place c.writer.label) added)

def programOf (b : Bench) (label : String) : Task → Except Fault Program
  | .write name element context => do
    let writer ← b.writerIndex name
    let context ← context.mapM Context.ofArguments
    return .write { writer, elements := [element], context } .start
  | .writeAll name elements => do
    return .write { writer := ← b.writerIndex name, elements, counted := true } .start
  | .commit name flush => do return .commit { writer := ← b.writerIndex name, flush } .start
  | .close name => (b.writerIndex name).map .close
  | .enter name => (b.writerIndex name).map .enter
  | .publish bus event => (Event.ofArguments event).map (.publish bus)
  | .submit name entries => (b.destinationIndex name).map fun d => .submit d entries label
  | .drain name => do
    let destination ← b.destinationIndex name
    let adapter := ((b.destinations[destination]?).map Destination.adapter).getD .manual
    match adapter with
    | .executor true => return .shutDown destination
    | .executor false => return .rest
    | _ => return .drainSends destination .start

/-- An executor that a destination owns runs whatever waits before it is shut down. -/
def runWaitingJobs (fuel : Nat) (destination : Nat) : Nat → Bench → Bench
  | 0, b => b
  | rounds + 1, b =>
    match b.waitingJob? destination with
    | none => b
    | some i => runWaitingJobs fuel destination rounds ((b.runJob destination i).2.settle fuel)

def startTask (fuel : Nat) (b : Bench) (label : String) (name : LoopName) (task : Task) :
    Answer :=
  match b.programOf label task with
  | .error fault => (.error fault, b)
  | .ok program =>
    let b := match program with
      | .shutDown destination => b.runWaitingJobs fuel destination fuel
      | _ => b
    if (b.loop name).closed then (.error .loopClosed, b)
    else (.ok .null, b.start name (some label) program [])

def cancelTask (b : Bench) (label : String) : Answer :=
  match (b.calls.zipIdx.filter fun c => c.1.label == some label).getLast? with
  | none => (.error (.missingKey (.text label)), b)
  | some c =>
    let r := b.interrupt c.2
    (.ok (.bool r.1), r.2)

def reportCall (b : Bench) (destination : String) (call : Int)
    (report : List Value → Except Fault Report) : Answer :=
  match b.handleOf destination call with
  | .error fault => (.error fault, b)
  | .ok found =>
    match report found.2 with
    | .error fault => (.error fault, b)
    | .ok report => (.ok .null, b.tellHandle found.1 report)

def onDestination (b : Bench) (name : String) (f : Nat → Answer) : Answer :=
  match b.destinationIndex name with
  | .error fault => (.error fault, b)
  | .ok i => f i

def jobIndex (b : Bench) (destination : Nat) (job : Int) : Except Fault Nat :=
  match b.destinations[destination]? with
  | none => .error .indexOutOfRange
  | some d => entryAt? (List.range d.jobs.length) job |>.elim (.error .indexOutOfRange) .ok

def runJobAct (b : Bench) (destination : Nat) (job : Option Int) : Answer :=
  match job.elim (.ok (b.waitingJob? destination)) fun j => (b.jobIndex destination j).map some with
  | .error fault => (.error fault, b)
  | .ok none => (.ok (.bool false), b)
  | .ok (some i) =>
    let r := b.runJob destination i
    (.ok (.bool r.1), r.2)

def cancelJobAct (b : Bench) (destination : Nat) (job : Int) : Answer :=
  match b.jobIndex destination job with
  | .error fault => (.error fault, b)
  | .ok i =>
    let r := b.cancelJob destination i
    (.ok (.bool r.1), r.2)

def view (b : Bench) (name : String) (f : Writer → Value) : Answer :=
  match b.writerIndex name with
  | .error fault => (.error fault, b)
  | .ok i => (((b.writers[i]?).map f).elim (.error (.missingKey (.text name))) .ok, b)

def act (fuel : Nat) (b : Bench) : Act → Answer
  | .create name spec => b.create name spec
  | .start label loop task => b.startTask fuel label loop task
  | .submitOutside label name entries =>
    b.onDestination name fun i =>
      let r := b.submit i none entries (.recorder label)
      (r.1.elim (.ok .null) .error, r.2)
  | .cancel label => b.cancelTask label
  | .complete destination call places =>
    b.reportCall destination call fun entries => (entriesAt entries places).map .completed
  | .completeWith destination call failed =>
    b.reportCall destination call fun _ => failed.asMembers.map .completed
  | .fail destination call fault => b.reportCall destination call fun _ => .ok (.failed fault)
  | .runJob name job => b.onDestination name (b.runJobAct · job)
  | .cancelJob name job => b.onDestination name (b.cancelJobAct · job)
  | .shutDown name => b.onDestination name fun i => (.ok .null, b.shutDown i)
  | .pending name =>
    b.onDestination name fun i =>
      (.ok (.nat (((b.destinations[i]?).map (·.pending.length)).getD 0)), b)
  | .subscribe bus name =>
    let subscribed := b.subscribe bus name
    (.ok (.nat (subscribed.subscribersOf bus).length), subscribed)
  | .unsubscribe bus name =>
    let left := b.unsubscribe bus name
    (.ok (.nat (left.subscribersOf bus).length), left)
  | .advance microseconds => (.ok .null, b.advance fuel microseconds)
  | .settle => (.ok .null, b)
  | .snapshot name => b.view name fun w => .list w.buffer.entries
  | .health name => b.view name Writer.health
  | .properties name => b.view name Writer.properties
  | .histograms name => b.view name b.metrics.histograms
  | .exposition => (.ok (.list (b.metrics.exposition.map .text)), b)
  | .closeLoop loop => (.ok .null, b.closeLoop loop)

def play (fuel : Nat) (b : Bench) (a : Act) (settles : Bool) : Answer :=
  let answered := b.act fuel a
  if settles then (answered.1, answered.2.settle fuel) else answered

end Bench
end BatchWriter
