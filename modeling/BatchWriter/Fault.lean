import BatchWriter.Value

/-!
# Faults

Why an operation ended early. A fault is kept as its cause; the kind and the wording
that a reader sees are computed from it. `raised` is a fault thrown by a converter, a
destination or a subscriber, named by its kind and carrying its arguments.
-/

set_option autoImplicit false

namespace BatchWriter

inductive ConfigFault where
  | batchSize
  | inFlight
  | buffered
  | bufferedWithinBatch
  | timeInBuffer
  | requestTimeout
  | converterMissing
  | destinationMissing
  deriving DecidableEq, Repr

def ConfigFault.message : ConfigFault → String
  | .batchSize => "max_batch_size must be > 0"
  | .inFlight => "max_in_flight_requests must be > 0"
  | .buffered => "max_buffered_requests must be > 0"
  | .bufferedWithinBatch =>
    "The maximum number of requests that may be buffered should be strictly " ++
      "greater than the maximum number of requests per batch."
  | .timeInBuffer => "max_time_in_buffer_ms must be > 0 when set"
  | .requestTimeout => "request_timeout_sec must be > 0 when set"
  | .converterMissing => "element_converter is required"
  | .destinationMissing => "destination is required"

inductive Fault where
  /-- Thrown by code around the writer. -/
  | raised (kind : String) (args : List Value)
  | config (fault : ConfigFault)
  | writerClosed (writer : Value)
  | foreignLoop (writer : Value)
  /-- The destination refused a batch. -/
  | submission (batch : Nat) (cause : Fault)
  /-- The destination reported that a batch failed as a whole. -/
  | destination (batch entries : Nat) (cause : Fault)
  | timeout (batch entries : Nat) (limit : Number)
  | notCollection (type : String)
  | unordered (comparison left right : String)
  | notDivisible (left right : String)
  | notCount (type : String)
  | quotientTooLarge
  | numberTooLarge
  | delayNotNumber
  | notPositive (what : String)
  | unknownLevel (level : Value)
  | unexpectedArgument (record name : String)
  | missingArguments (record : String) (names : List String)
  | frozenField (name : String)
  | noRunningLoop
  | loopClosed
  /-- Calls of both loops are gathered. -/
  | mixedLoops
  /-- A call waits for calls of the other loop. -/
  | foreignFuture
  | executorShutDown
  | indexOutOfRange
  | emptyPop
  | missingKey (key : Value)
  deriving Repr

namespace Fault

def cancelled : Fault := .raised "CancelledError" []

def kind : Fault → String
  | raised kind _ => kind
  | config _ => "WriterConfigError"
  | writerClosed _ => "WriterClosedError"
  | submission .. | destination .. => "DestinationError"
  | timeout .. => "InFlightTimeoutError"
  | notCollection _ | unordered .. | notDivisible .. | notCount _ | unexpectedArgument ..
  | missingArguments .. => "TypeError"
  | quotientTooLarge | numberTooLarge => "OverflowError"
  | delayNotNumber | notPositive _ | unknownLevel _ | mixedLoops => "ValueError"
  | frozenField _ => "FrozenInstanceError"
  | foreignLoop _ | noRunningLoop | loopClosed | foreignFuture | executorShutDown =>
    "RuntimeError"
  | indexOutOfRange | emptyPop => "IndexError"
  | missingKey _ => "KeyError"

def destinationKinds : List String := ["DestinationError", "InFlightTimeoutError"]

def isDestination (f : Fault) : Bool := destinationKinds.contains f.kind

def isCancelled (f : Fault) : Bool := f.kind == "CancelledError"

/-- Kinds that are not ordinary errors: they pass through every recovery. -/
def passingKinds : List String :=
  ["BaseException", "CancelledError", "GeneratorExit", "KeyboardInterrupt", "SystemExit"]

def isOrdinary (f : Fault) : Bool := !passingKinds.contains f.kind

/-- The arguments that a fault of a kind keeps: a failed call keeps its message only,
its batch id being a field. -/
def keptArgs (kind : String) (args : List Value) : List Value :=
  if destinationKinds.contains kind then args.take 1 else args

def quotedList (vs : List Value) : String :=
  "(" ++ ", ".intercalate (vs.map Value.quoted) ++ ")"

/-- `'a'`, `'a' and 'b'`, `'a', 'b', and 'c'`. -/
def nameList (names : List String) : String :=
  match names.map fun n => "'" ++ n ++ "'" with
  | [] => ""
  | [a] => a
  | [a, b] => a ++ " and " ++ b
  | parts => ", ".intercalate parts.dropLast ++ ", and " ++ (parts.getLast?.getD "")

def raisedMessage (kind : String) (args : List Value) : String :=
  match keptArgs kind args with
  | [] => ""
  | [v] => if kind = "KeyError" then v.quoted else v.display
  | vs => quotedList vs

def message : Fault → String
  | raised kind args => raisedMessage kind args
  | config fault => fault.message
  | writerClosed writer => "Writer " ++ writer.display ++ " is closed"
  | foreignLoop writer =>
    "Writer " ++ writer.display ++ " is bound to a different event loop"
  | submission batch cause =>
    "submit_request_entries failed for batch " ++ toString batch ++ ": " ++ cause.message
  | destination batch entries cause =>
    "Destination failed batch " ++ toString batch ++ " (" ++ toString entries ++
      " entries): " ++ cause.message
  | timeout batch entries limit =>
    "Batch " ++ toString batch ++ " (" ++ toString entries ++
      " entries) not completed within " ++ limit.text ++ "s"
  | notCollection type => "'" ++ type ++ "' object is not iterable"
  | unordered comparison left right =>
    "'" ++ comparison ++ "' not supported between instances of '" ++ left ++ "' and '" ++
      right ++ "'"
  | notDivisible left right =>
    "unsupported operand type(s) for /: '" ++ left ++ "' and '" ++ right ++ "'"
  | notCount type => "'" ++ type ++ "' object cannot be interpreted as an integer"
  | quotientTooLarge => "integer division result too large for a float"
  | numberTooLarge => "int too large to convert to float"
  | delayNotNumber => "cannot convert float NaN to integer"
  | notPositive what => what ++ " must be > 0"
  | unknownLevel level => level.quoted ++ " is not a valid BackpressureLevel"
  | unexpectedArgument record name =>
    record ++ ".__init__() got an unexpected keyword argument '" ++ name ++ "'"
  | missingArguments record names =>
    record ++ ".__init__() missing " ++ toString names.length ++
      " required positional argument" ++ (if names.length = 1 then "" else "s") ++ ": " ++
      nameList names
  | frozenField name => "cannot assign to field '" ++ name ++ "'"
  | noRunningLoop => "no running event loop"
  | loopClosed => "Event loop is closed"
  | mixedLoops =>
    "The future belongs to a different loop than the one specified as the loop argument"
  -- The names and addresses of the two are left out.
  | foreignFuture => "Task got Future attached to a different loop"
  | executorShutDown => "cannot schedule new futures after shutdown"
  | indexOutOfRange => "list index out of range"
  | emptyPop => "pop from an empty deque"
  | missingKey key => key.quoted

def quoted : Fault → String
  | raised kind args => kind ++ quotedList (keptArgs kind args)
  | f => f.kind ++ quotedList [.text f.message]

def batch? : Fault → Option Value
  | submission batch _ | destination batch _ _ | timeout batch _ _ => some (.nat batch)
  | raised kind args =>
    if destinationKinds.contains kind then some ((args.drop 1).head?.getD .null) else none
  | _ => none

def cause? : Fault → Option Fault
  | submission _ cause | destination _ _ cause => some cause
  | _ => none

end Fault

namespace Value

def asLimit : Value → Except Fault Number
  | .number n => .ok n
  | v => .error (.unordered "<=" v.typeName "int")

def asMembers (v : Value) : Except Fault (List Value) :=
  v.members?.elim (.error (.notCollection v.typeName)) .ok

def initialMembers (v : Value) : Except Fault (List Value) :=
  if v.isPresent then v.asMembers else .ok []

end Value
end BatchWriter
