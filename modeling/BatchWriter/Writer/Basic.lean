import BatchWriter.Buffer
import BatchWriter.Config
import BatchWriter.Converter
import BatchWriter.EventLoop
import BatchWriter.Notice
import BatchWriter.Timetable

/-!
# The writer

A writer holds the entries that wait in its buffer and the batches that are in flight.
Everything that happens to it is a `Change`: the writer afterwards, what it asks of
its surroundings in order, and the fault that stopped the change, if one did.
-/

set_option autoImplicit false

namespace BatchWriter

inductive Milestone where
  /-- The writer was built with these entries. -/
  | restored (entries : List Value)
  /-- A write appended an entry. -/
  | accepted (entry : Value)
  /-- Entries left the buffer as a batch. -/
  | opened (batch : Nat) (entries : List Value)
  /-- The destination was called with the batch. -/
  | handed (batch : Nat) (entries : List Value)
  /-- The destination refused the batch at once. -/
  | refused (batch : Nat) (entries : List Value)
  | completed (batch : Nat) (entries failed : List Value)
  /-- The destination reported that the batch failed as a whole. -/
  | reportedFailed (batch : Nat) (entries : List Value)
  | expired (batch : Nat) (entries : List Value)
  /-- The batch was open when the writer was closed. -/
  | abandoned (batch : Nat) (entries : List Value)
  /-- The buffer's time was over and a batch is dispatched for it. -/
  | flushed
  /-- A write published an event. -/
  | announced (event : Event)

abbrev History := List (Nat × Milestone)

inductive WriterAlarm where
  | flush
  | expire (batch : Nat)
  deriving DecidableEq, Repr

inductive Effect where
  | notice (n : Notice)
  | measure (m : Measurement)
  | setAlarm (alarm : WriterAlarm) (delay : Option Nat)
  | cancelAlarm (alarm : WriterAlarm)
  /-- Wakes a call that waits for the writer to change. -/
  | wake (call : Nat)

structure Writer where
  id : Value
  config : Config
  converter : Converter
  /-- The destination's place in the bench. -/
  destination : Nat
  /-- The writer's own feedback bus; without one it uses the shared bus. -/
  bus : Option String
  /-- The loop that the writer was first used from. -/
  loop : Option LoopName := none
  buffer : Buffer Value
  inFlight : InFlight Value
  /-- Calls that wait for the writer to change, in order. -/
  waiters : List Nat := []
  timerArmed : Bool := false
  /-- The buffer's time ran out while every slot was taken. -/
  deferred : Bool := false
  failure : Option Fault := none
  closed : Bool := false
  history : History := []

structure Change where
  writer : Writer
  effects : List Effect := []
  fault : Option Fault := none

namespace Change

def stay (w : Writer) : Change := { writer := w }

def stop (w : Writer) (fault : Fault) : Change := { writer := w, fault := some fault }

def andThen (c : Change) (next : Writer → Change) : Change :=
  match c.fault with
  | some _ => c
  | none =>
    let d := next c.writer
    { d with effects := c.effects ++ d.effects }

theorem andThen_of_fault {c : Change} {fault : Fault} (h : c.fault = some fault)
    (next : Writer → Change) : c.andThen next = c := by
  simp [andThen, h]

theorem writer_andThen {c : Change} (h : c.fault = none) (next : Writer → Change) :
    (c.andThen next).writer = (next c.writer).writer := by
  simp [andThen, h]

theorem fault_andThen {c : Change} (h : c.fault = none) (next : Writer → Change) :
    (c.andThen next).fault = (next c.writer).fault := by
  simp [andThen, h]

theorem effects_andThen {c : Change} (h : c.fault = none) (next : Writer → Change) :
    (c.andThen next).effects = c.effects ++ (next c.writer).effects := by
  simp [andThen, h]

/-- What every single change keeps, a sequence of them keeps. -/
theorem of_parts {P : Writer → Prop} {c : Change} {next : Writer → Change} (stops : P c.writer)
    (goesOn : c.fault = none → P (next c.writer).writer) : P (c.andThen next).writer := by
  unfold andThen
  split
  · exact stops
  · next ok => exact goesOn ok

theorem keeps_andThen {P : Writer → Prop} {c : Change} {next : Writer → Change}
    (hc : P c.writer) (hn : ∀ w, P w → P (next w).writer) : P (c.andThen next).writer :=
  of_parts (P := P) hc fun _ => hn _ hc

end Change

namespace Writer

def announce (n : Notice) (w : Writer) : Change := { writer := w, effects := [.notice n] }

def measure (m : Measurement) (w : Writer) : Change := { writer := w, effects := [.measure m] }

def showGauges (w : Writer) : Change :=
  w.measure (.gauges w.buffer.size w.inFlight.count)

def note (now : Nat) (m : Milestone) (w : Writer) : Writer :=
  { w with history := (now, m) :: w.history }

def refusal? (w : Writer) : Option Fault :=
  if w.closed then some (.writerClosed w.id) else w.failure

def checkUsable (w : Writer) : Change :=
  match w.refusal? with
  | some fault => .stop w fault
  | none => .stay w

/-- Sets the buffer's alarm, unless it is set, there is no limit or the writer is not
in use. -/
def armTimer (w : Writer) : Change :=
  match w.config.maxTimeInBuffer with
  | none => .stay w
  | some limit =>
    if w.timerArmed || w.loop.isNone || w.closed then .stay w
    else
      match limit.delayMilliseconds with
      | .error fault => .stop w fault
      | .ok delay => { writer := { w with timerArmed := true }
                       effects := [.setAlarm .flush delay] }

def armTimerIf (condition : Bool) (w : Writer) : Change :=
  if condition then w.armTimer else .stay w

def cancelTimer (w : Writer) : Change :=
  { writer := { w with deferred := false, timerArmed := false }
    effects := [.cancelAlarm .flush] }

/-- The first loop that uses the writer keeps it; a buffer that already holds entries
starts its time there. -/
def bind (loop : LoopName) (w : Writer) : Change :=
  match w.loop with
  | none => armTimerIf (!w.buffer.isEmpty) { w with loop := some loop }
  | some own => if own = loop then .stay w else .stop w (.foreignLoop w.id)

def notify (w : Writer) : Change :=
  { writer := { w with waiters := [] }, effects := w.waiters.map .wake }

def addWaiter (call : Nat) (w : Writer) : Change :=
  .stay { w with waiters := w.waiters ++ [call] }

def dropWaiter (call : Nat) (w : Writer) : Change :=
  .stay { w with waiters := w.waiters.filter (· ≠ call) }

/-- The first failure is kept for good. -/
def keepFailure (fault : Fault) (w : Writer) : Change :=
  match w.failure with
  | some _ => .stay w
  | none => announce (.failed w.id fault) { w with failure := some fault }

def recordFailure (fault : Fault) (w : Writer) : Change :=
  (w.keepFailure fault).andThen cancelTimer |>.andThen showGauges |>.andThen notify

def release (batch : Nat) (w : Writer) : Change :=
  { writer := { w with inFlight := w.inFlight.remove batch }
    effects := [.cancelAlarm (.expire batch)] }

def hasCapacity (w : Writer) : Bool := w.inFlight.hasCapacity

def hasFullBatch (w : Writer) : Bool := w.config.maxBatchSize.le (.ofNat w.buffer.size)

def isBusy (w : Writer) : Bool := w.inFlight.count > 0 || !w.buffer.isEmpty

def holdBack (reason : WaitReason) (w : Writer) : Change :=
  (w.measure (.wait reason)).andThen
    (announce (.heldBack w.id reason w.buffer.size w.config.maxBuffered w.inFlight.count
      w.config.maxInFlight))

def event (level : Level) (reason : String) (w : Writer) : Event where
  writer := w.id
  buffered := .nat w.buffer.size
  capacity := .number w.config.maxBuffered
  inFlight := .nat w.inFlight.count
  level := level
  reason := .text reason

def label (w : Writer) : String := w.id.display

end Writer
end BatchWriter
