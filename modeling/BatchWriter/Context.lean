import BatchWriter.Record

/-!
# Context of an element

Event time and watermark handed to the converter together with an element.
-/

set_option autoImplicit false

namespace BatchWriter

structure Context where
  timestamp : Value := .null
  watermark : Value := .null

namespace Context

def recordName : String := "WriterContext"

def ofArguments (args : Arguments) : Except Fault Context := do
  args.onlyFields recordName ["timestamp", "watermark"]
  return ⟨args.getD "timestamp" .null, args.getD "watermark" .null⟩

def same (a b : Context) : Bool :=
  a.timestamp.same b.timestamp && a.watermark.same b.watermark

end Context
end BatchWriter
