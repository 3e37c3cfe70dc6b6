import BatchWriter.Config
import BatchWriter.Settings.File
import BatchWriter.Settings.Numeral

/-!
# Settings of a writer

A writer's name and limits as given by arguments, by the environment or by a settings
file, in this order of preference. Names of the environment and the file start with a
common beginning and are read without regard to case. Every value that does not fit
its field is reported, in the order of the fields.
-/

set_option autoImplicit false

namespace BatchWriter

inductive Misfit where
  | notText
  | notInteger
  | integerText
  | integerTooLong
  | hasFraction
  | notFinite
  | notNumber
  | numberText
  deriving DecidableEq, Repr

namespace Misfit

def code : Misfit → String
  | notText => "string_type"
  | notInteger => "int_type"
  | integerText => "int_parsing"
  | integerTooLong => "int_parsing_size"
  | hasFraction => "int_from_float"
  | notFinite => "finite_number"
  | notNumber => "float_type"
  | numberText => "float_parsing"

def message : Misfit → String
  | notText => "Input should be a valid string"
  | notInteger => "Input should be a valid integer"
  | integerText => "Input should be a valid integer, unable to parse string as an integer"
  | integerTooLong => "Unable to parse input string as an integer, exceeded maximum size"
  | hasFraction => "Input should be a valid integer, got a number with a fractional part"
  | notFinite => "Input should be a finite number"
  | notNumber => "Input should be a valid number"
  | numberText => "Input should be a valid number, unable to parse string as a number"

end Misfit

structure Settings where
  writer : String
  maxBatchSize : Int
  maxInFlight : Int
  maxBuffered : Int
  maxTimeInBuffer : Option Int
  requestTimeout : Option Binary64

namespace Settings

def beginning : String := "async_sink_"

def textField : Value → Except Misfit String
  | .text s => .ok s
  | _ => .error .notText

/-- A whole number as a double gives it: it must be finite, whole, and in the range of
sixty-four bits. -/
def integerOfDouble (x : Binary64) : Except Misfit Int :=
  match x with
  | .finite .. =>
    if x.isWhole then
      let n := x.toInt?.getD 0
      if n.natAbs < Nat.pow 2 63 then .ok n else .error .integerTooLong
    else .error .hasFraction
  | _ => .error .notFinite

def integerField : Value → Except Misfit Int
  | .number (.int n) => .ok n
  | .number (.bool b) => .ok (if b then 1 else 0)
  | .number (.float x) => integerOfDouble x
  | .text s =>
    match integer? s with
    | .ok n => .ok n
    | .error .malformed => .error .integerText
    | .error .tooLong => .error .integerTooLong
  | _ => .error .notInteger

def doubleField : Value → Except Misfit Binary64
  | .number n => (n.toBinary64?).elim (.error .notNumber) .ok
  | .text s => (double? s).elim (.error .numberText) .ok
  | _ => .error .notNumber

def optionalField {α : Type} (field : Value → Except Misfit α) : Value → Except Misfit (Option α)
  | .null => .ok none
  | v => (field v).map some

def lastBinding? (bindings : List (String × Option String)) (field : String) : Option Value :=
  match (bindings.filter fun b => b.1.toLower == beginning ++ field).getLast? with
  | some (_, some text) => some (.text text)
  | _ => none

structure Sources where
  arguments : Arguments := []
  environment : List (String × String) := []
  file : Option String := none

namespace Sources

/-- What is given for a field: an argument, else the environment, else the file. -/
def given? (s : Sources) (field : String) : Option Value :=
  (s.arguments.get? field).orElse fun _ =>
    (lastBinding? (s.environment.map fun e => (e.1, some e.2)) field).orElse fun _ =>
      s.file.bind fun text => lastBinding? (ofFile s.environment text) field

end Sources

def fieldOf {α : Type} (s : Sources) (field : String) (default : α)
    (read : Value → Except Misfit α) : Except (String × Misfit) α :=
  match s.given? field with
  | none => .ok default
  | some v => (read v).mapError fun m => (field, m)

def misfits {α : Type} : Except (String × Misfit) α → List (String × Misfit)
  | .ok _ => []
  | .error m => [m]

def ofSources (s : Sources) : Except (List (String × Misfit)) Settings :=
  let writer := fieldOf s "writer_id" "default" textField
  let batch := fieldOf s "max_batch_size" 500 integerField
  let slots := fieldOf s "max_in_flight_requests" 50 integerField
  let buffered := fieldOf s "max_buffered_requests" 10000 integerField
  let time := fieldOf s "max_time_in_buffer_ms" none (optionalField integerField)
  let timeout := fieldOf s "request_timeout_sec" none (optionalField doubleField)
  match writer, batch, slots, buffered, time, timeout with
  | .ok writer, .ok batch, .ok slots, .ok buffered, .ok time, .ok timeout =>
    .ok ⟨writer, batch, slots, buffered, time, timeout⟩
  | _, _, _, _, _, _ =>
    .error (misfits writer ++ misfits batch ++ misfits slots ++ misfits buffered ++
      misfits time ++ misfits timeout)

def limits (s : Settings) : Arguments :=
  [("max_batch_size", .number (.int s.maxBatchSize)),
   ("max_in_flight_requests", .number (.int s.maxInFlight)),
   ("max_buffered_requests", .number (.int s.maxBuffered)),
   ("max_time_in_buffer_ms", (s.maxTimeInBuffer.map fun n => Value.number (.int n)).getD .null),
   ("request_timeout_sec", (s.requestTimeout.map fun x => Value.number (.float x)).getD .null)]

def fields (s : Settings) : Arguments := ("writer_id", .text s.writer) :: s.limits

def toConfig (s : Settings) : Except Fault Config := Config.ofArguments s.limits

end Settings
end BatchWriter
