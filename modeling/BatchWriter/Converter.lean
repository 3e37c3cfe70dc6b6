import BatchWriter.Context

/-!
# Converters

A converter makes the request entry of an element. It may refuse an element with a
fault, and it may look at the writer it serves.
-/

set_option autoImplicit false

namespace BatchWriter

inductive Converter where
  /-- The entry is the element. -/
  | identity
  /-- The entry carries the element with its context. -/
  | wrap
  /-- An element that names a fault is refused with it. -/
  | picky
  /-- The entry shows how many entries and batches the writer holds. -/
  | probe
  /-- Every entry is null. -/
  | null
  deriving DecidableEq, Repr

namespace Converter

def wrapped (element : Value) : Option Context → Value
  | none => .object [("v", element)]
  | some c => .object [("v", element), ("ts", c.timestamp), ("wm", c.watermark)]

def namedFault? : Value → Option Fault
  | .object fields =>
    match Arguments.get? fields "raise" with
    | some (.list (.text kind :: args)) => some (.raised kind args)
    | _ => none
  | _ => none

def convert (c : Converter) (element : Value) (context : Option Context)
    (buffered inFlight : Nat) : Except Fault Value :=
  match c with
  | .identity => .ok element
  | .wrap => .ok (wrapped element context)
  | .picky => (namedFault? element).elim (.ok element) .error
  | .probe => .ok (.list [element, .nat buffered, .nat inFlight])
  | .null => .ok .null

end Converter
end BatchWriter
