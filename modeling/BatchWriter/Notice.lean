import BatchWriter.Feedback
import BatchWriter.Metrics

/-!
# Notices

What a writer and the parts around it report about their work: each notice has a
severity and a wording.
-/

set_option autoImplicit false

namespace BatchWriter

inductive Severity where
  | debug
  | info
  | warning
  | error
  deriving DecidableEq, Repr

def Severity.name : Severity → String
  | .debug => "DEBUG"
  | .info => "INFO"
  | .warning => "WARNING"
  | .error => "ERROR"

inductive Notice where
  | restored (writer : Value) (entries : Nat)
  | draining (writer : Value) (buffered inFlight : Nat) (flush : Value)
  | drained (writer : Value)
  | abandoned (writer : Value) (buffered batches : Nat)
  | closed (writer : Value)
  | dispatching (writer : Value) (batch entries inFlight : Nat)
  | completionAfterClose (writer : Value) (batch : Nat)
  | completionUnknown (writer : Value) (batch : Nat)
  | requeued (writer : Value) (count entries batch : Nat)
  | failureUnknown (writer : Value) (batch : Nat) (fault : Fault)
  | failed (writer : Value) (fault : Fault)
  | flushDeferred (writer : Value)
  | flushTimed (writer : Value) (buffered : Nat)
  | heldBack (writer : Value) (reason : WaitReason) (buffered : Nat) (capacity : Number)
      (inFlight : Nat) (limit : Number)
  | busOpened
  | subscribed (total : Nat)
  | unsubscribed (total : Nat)
  | publishing (event : Event)
  | subscriberFailed (fault : Fault)
  | sendFailed (entries : Nat) (fault : Fault)
  | jobFailed (fault : Fault)
  | completionDropped (batch : Value)

namespace Notice

def severity : Notice → Severity
  | restored .. | closed _ => .info
  | abandoned .. | completionUnknown .. | failureUnknown .. | subscriberFailed _
  | sendFailed .. | jobFailed _ | completionDropped _ => .warning
  | failed .. => .error
  | _ => .debug

def message : Notice → String
  | restored w n => "Writer " ++ w.display ++ " restored " ++ toString n ++
      " entries from state"
  | draining w buffered inFlight flush => "Writer " ++ w.display ++ " draining: buffered=" ++
      toString buffered ++ " in_flight=" ++ toString inFlight ++ " flush=" ++ flush.display
  | drained w => "Writer " ++ w.display ++ " drained"
  | abandoned w buffered batches => "Writer " ++ w.display ++ " closed with " ++
      toString buffered ++ " buffered entries and " ++ toString batches ++
      " in-flight batches"
  | closed w => "Writer " ++ w.display ++ " closed"
  | dispatching w batch entries inFlight => "Writer " ++ w.display ++ " dispatching batch " ++
      toString batch ++ " (" ++ toString entries ++ " entries, in_flight=" ++
      toString inFlight ++ ")"
  | completionAfterClose w batch => "Writer " ++ w.display ++
      " closed, ignoring completion of batch " ++ toString batch
  | completionUnknown w batch => "Writer " ++ w.display ++
      " ignoring completion for unknown or already completed batch " ++ toString batch
  | requeued w count entries batch => "Writer " ++ w.display ++ " requeued " ++
      toString count ++ "/" ++ toString entries ++ " entries of batch " ++ toString batch
  | failureUnknown w batch fault => "Writer " ++ w.display ++
      " ignoring failure for unknown or already completed batch " ++ toString batch ++ ": " ++
      fault.quoted
  | failed w fault => "Writer " ++ w.display ++ " failed: " ++ fault.message
  | flushDeferred w => "Writer " ++ w.display ++
      " buffer timer expired with no free slot, flushing on next completion"
  | flushTimed w buffered => "Writer " ++ w.display ++ " time-based flush (" ++
      toString buffered ++ " buffered)"
  | heldBack w reason buffered capacity inFlight limit => "Writer " ++ w.display ++
      " backpressure (" ++ reason.name ++ "): buffered=" ++ toString buffered ++ "/" ++
      capacity.text ++ " in_flight=" ++ toString inFlight ++ "/" ++ limit.text
  | busOpened => "FeedbackBus singleton initialized"
  | subscribed total => "Feedback subscriber added (total: " ++ toString total ++ ")"
  | unsubscribed total => "Feedback subscriber removed (total: " ++ toString total ++ ")"
  | publishing e => "Publishing feedback: writer=" ++ e.writer.display ++ " level=" ++
      e.level.name ++ " reason=" ++ e.reason.display ++ " buffer=" ++ e.buffered.display ++
      "/" ++ e.capacity.display ++ " in_flight=" ++ e.inFlight.display
  | subscriberFailed fault => "Feedback subscriber error (ignored): " ++ fault.kind ++ ": " ++
      fault.message
  | sendFailed entries fault => "Destination call failed for " ++ toString entries ++
      " entries: " ++ fault.quoted
  | jobFailed fault => "Destination call failed: " ++ fault.quoted
  | completionDropped batch => "Event loop closed, dropping completion for batch " ++
      batch.display

end Notice
end BatchWriter
