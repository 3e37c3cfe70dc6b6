import BatchWriter.Record

/-!
# Limits of a writer

The five limits, checked once when a configuration is built and unchanged for the
writer's lifetime. A limit may be any number; it is compared, never converted.
-/

set_option autoImplicit false

namespace BatchWriter

structure Config where
  /-- Most entries per destination call. -/
  maxBatchSize : Number := .int 500
  /-- Most destination calls outstanding at once. -/
  maxInFlight : Number := .int 50
  /-- Buffered entries at which a write is held back. -/
  maxBuffered : Number := .int 10000
  /-- Milliseconds after which a partial batch is flushed. -/
  maxTimeInBuffer : Option Number := none
  /-- Seconds after which an outstanding batch fails the writer. -/
  requestTimeout : Option Number := none
  deriving DecidableEq, Repr

namespace Config

def recordName : String := "AsyncSinkWriterConfig"

def fieldNames : List String :=
  ["max_batch_size", "max_in_flight_requests", "max_buffered_requests",
   "max_time_in_buffer_ms", "request_timeout_sec"]

def positive (fault : ConfigFault) (v : Value) : Except Fault Number := do
  let n ← v.asLimit
  if n.le (.int 0) then throw (.config fault)
  return n

def positiveIfSet (fault : ConfigFault) : Value → Except Fault (Option Number)
  | .null => .ok none
  | v => (positive fault v).map some

/-- The limits are checked in this order, so the first broken one is reported. -/
def ofArguments (args : Arguments) : Except Fault Config := do
  args.onlyFields recordName fieldNames
  let batch ← positive .batchSize (args.getD "max_batch_size" (.nat 500))
  let slots ← positive .inFlight (args.getD "max_in_flight_requests" (.nat 50))
  let buffered ← positive .buffered (args.getD "max_buffered_requests" (.nat 10000))
  if buffered.le batch then throw (.config .bufferedWithinBatch)
  let time ← positiveIfSet .timeInBuffer (args.getD "max_time_in_buffer_ms" .null)
  let timeout ← positiveIfSet .requestTimeout (args.getD "request_timeout_sec" .null)
  return ⟨batch, slots, buffered, time, timeout⟩

def ofOption : Option Number → Value
  | none => .null
  | some n => .number n

def fields (c : Config) : List (String × Value) :=
  [("max_batch_size", .number c.maxBatchSize),
   ("max_in_flight_requests", .number c.maxInFlight),
   ("max_buffered_requests", .number c.maxBuffered),
   ("max_time_in_buffer_ms", ofOption c.maxTimeInBuffer),
   ("request_timeout_sec", ofOption c.requestTimeout)]

def same (a b : Config) : Bool := (Value.object a.fields).same (.object b.fields)

end Config
end BatchWriter
