import BatchWriter.Destination
import BatchWriter.Feedback
import BatchWriter.Context

/-!
# Calls

A call runs a program on a loop until the program waits or ends. Programs are data: a
job and the point that the job has reached, so a suspended call shows where it stands.
-/

set_option autoImplicit false

namespace BatchWriter

inductive Attention where
  /-- It has not been called yet. -/
  | fresh
  /-- It gives way so many times more. -/
  | yields (times : Nat)
  | asleep

structure Delivery where
  event : Event
  remaining : List String
  attention : Attention := .fresh

inductive Stage where
  /-- The buffer is full; `blocked` once the caller was told so. -/
  | filling (blocked : Bool)
  /-- The buffer holds a full batch. -/
  | batching
  deriving DecidableEq, Repr

inductive WritePoint where
  /-- Before the next element. -/
  | start
  | gate (blocked : Bool)
  | flush (stage : Stage)
  | slot (stage : Stage)
  /-- Woken from waiting for a slot. -/
  | woken (stage : Stage)
  | dispatch (stage : Stage)
  | accept
  | batching
  | publishing (delivery : Delivery) (next : WritePoint)

/-- Elements to be written in turn, the first being the one at hand. -/
structure WriteJob where
  writer : Nat
  elements : List Value
  context : Option Context := none
  written : Nat := 0
  /-- Whether the answer is the number of elements. -/
  counted : Bool := false
  /-- Levels published for the element at hand, in order. -/
  published : List Level := []

inductive CommitPoint where
  | start
  | drain
  | woken

structure CommitJob where
  writer : Nat
  flush : Value

inductive SendPoint where
  | start
  | yields (times : Nat)
  | sleep
  | hang
  | conclude

structure SendJob where
  destination : Nat
  entries : List Value
  handle : Handle
  behaviour : Behaviour := {}

inductive DrainPoint where
  | start
  | gathered
  /-- The sends are on the other loop; a drain cannot wait for them. -/
  | astray

inductive Program where
  | write (job : WriteJob) (point : WritePoint)
  | commit (job : CommitJob) (point : CommitPoint)
  | close (writer : Nat)
  | enter (writer : Nat)
  | publish (bus : String) (event : Event)
  | deliver (delivery : Delivery)
  | send (job : SendJob) (point : SendPoint)
  /-- Cancels a destination's pending sends and waits for them. -/
  | drainSends (destination : Nat) (point : DrainPoint)
  | shutDown (destination : Nat)
  /-- Ends at once. -/
  | rest
  /-- Hands entries to a destination under a recording handle. -/
  | submit (destination : Nat) (entries : List Value) (label : String)

inductive Wait where
  /-- A change of a writer. -/
  | change
  | alarm
  | forever
  /-- The end of other calls; `interrupted` once it was cancelled meanwhile. -/
  | calls (left : List Nat) (interrupted : Bool)

inductive Status where
  /-- On its loop's ready queue, cancelled or not. -/
  | queued (interrupted : Bool)
  | running
  | waiting (on : Wait)
  | ended

inductive Watcher where
  /-- A destination forgets its send. -/
  | forget (destination : Nat)
  /-- A call that gathers others counts this one. -/
  | gather (call : Nat)

structure Call where
  /-- The name under which its outcome is told; internal calls have none. -/
  label : Option String
  loop : LoopName
  program : Program
  status : Status := .queued false
  watchers : List Watcher := []

inductive Progress where
  /-- It goes on at once. -/
  | go (program : Program)
  /-- It lets everything that is ready run first. -/
  | yield (program : Program)
  | sleep (delay : Option Nat) (program : Program)
  | wait (on : Wait) (program : Program)
  | finish (outcome : Except Fault Value)

namespace Progress

def stop (fault : Fault) : Progress := .finish (.error fault)

def goUnless (fault : Option Fault) (program : Program) : Progress :=
  fault.elim (.go program) .stop

end Progress

namespace Call

def isEnded (c : Call) : Bool :=
  match c.status with
  | .ended => true
  | _ => false

end Call
end BatchWriter
