import BatchWriter.Record

/-!
# Backpressure feedback

A writer announces when it holds its caller back and when it recovers. An event
records what the writer looked like at that moment.
-/

set_option autoImplicit false

namespace BatchWriter

/-- How hard a writer is pressed: it accepts again, a flush waits for a slot, or a
write is blocked on a full buffer. -/
inductive Level where
  | ok
  | soft
  | hard
  deriving DecidableEq, Repr

namespace Level

def name : Level → String
  | .ok => "ok"
  | .soft => "soft"
  | .hard => "hard"

def ofValue : Value → Except Fault Level
  | .text "ok" => .ok .ok
  | .text "soft" => .ok .soft
  | .text "hard" => .ok .hard
  | v => .error (.unknownLevel v)

end Level

structure Event where
  writer : Value
  buffered : Value
  capacity : Value
  inFlight : Value
  level : Level
  reason : Value := .null

namespace Event

def recordName : String := "FeedbackEvent"

def requiredFields : List String := ["writer_id", "buffered", "capacity", "in_flight", "level"]

/-- A given level is read first; unknown and missing arguments come after it. -/
def ofArguments (args : Arguments) : Except Fault Event := do
  let level ← match args.get? "level" with
    | some v => (Level.ofValue v).map some
    | none => pure none
  args.onlyFields recordName (requiredFields ++ ["reason"])
  args.allPresent recordName requiredFields
  return {
    writer := args.getD "writer_id" .null
    buffered := args.getD "buffered" .null
    capacity := args.getD "capacity" .null
    inFlight := args.getD "in_flight" .null
    level := level.getD .ok
    reason := args.getD "reason" .null }

/-- The quotient of two numbers, the divisor above zero: exact and rounded once when
both are whole. -/
def quotient (a b : Number) : Except Fault Binary64 :=
  let whole : Number → Option Int
    | .int n => some n
    | .bool t => some (if t then 1 else 0)
    | .float _ => none
  match whole a, whole b with
  | some n, some d => (Binary64.ofQuotient? n d).elim (.error .quotientTooLarge) .ok
  | _, _ =>
    match a.toBinary64?, b.toBinary64? with
    | some x, some y => .ok (x.div y)
    | _, _ => .error .numberTooLarge

/-- Buffered entries over capacity; above one after requeues, zero without capacity. -/
def utilization (e : Event) : Except Fault Binary64 :=
  match e.capacity with
  | .number c =>
    if (Number.int 0).lt c then
      match e.buffered with
      | .number b => quotient b c
      | v => .error (.notDivisible v.typeName e.capacity.typeName)
    else .ok (Binary64.ofNat 0)
  | v => .error (.unordered ">" v.typeName "int")

def row (e : Event) : Except Fault (List Value) :=
  e.utilization.map fun u =>
    [e.writer, .text e.level.name, e.reason, e.buffered, e.capacity, e.inFlight,
     .number (.float u)]

def same (a b : Event) : Bool :=
  a.writer.same b.writer && a.buffered.same b.buffered && a.capacity.same b.capacity &&
    a.inFlight.same b.inFlight && a.level == b.level && a.reason.same b.reason

end Event
end BatchWriter
