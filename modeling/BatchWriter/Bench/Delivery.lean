import BatchWriter.Bench.Basic

/-!
# Delivery of feedback

An event goes to the subscribers that its bus had when it was published, one after the
other. An ordinary fault of a subscriber is noticed and the next one has its turn.
-/

set_option autoImplicit false

namespace BatchWriter

inductive DeliveryProgress where
  | go (delivery : Delivery)
  | yield (delivery : Delivery)
  | sleep (delay : Option Nat) (delivery : Delivery)
  | done
  | stop (fault : Fault)

def Delivery.next (d : Delivery) : Delivery :=
  { d with remaining := d.remaining.drop 1, attention := .fresh }

/-- A pause of some milliseconds; none at all is one turn of the ready queue. -/
def pauseDelay (milliseconds : Number) : Except Fault (Option (Option Nat)) :=
  if milliseconds.le (.int 0) then .ok none else milliseconds.delayMilliseconds.map some

namespace Bench

/-- A subscriber's fault: an ordinary one is noticed and passed over. -/
def subscriberFault (b : Bench) (d : Delivery) (fault : Fault) : Bench × DeliveryProgress :=
  if fault.isOrdinary then (b.log (.subscriberFailed fault), .go d.next) else (b, .stop fault)

def handleOf (b : Bench) (destination : String) (call : Int) :
    Except Fault (Handle × List Value) :=
  match b.destinationIndex? destination with
  | none => .error (.missingKey (.text destination))
  | some i =>
    match b.destinations[i]? with
    | none => .error .indexOutOfRange
    | some d => (entryAt? d.calls call).elim (.error .indexOutOfRange) .ok

def react (b : Bench) (d : Delivery) : Reaction → Bench × DeliveryProgress
  | .collect => (b, .go d.next)
  | .raise fault => b.subscriberFault d fault
  | .sleep milliseconds =>
    match pauseDelay milliseconds with
    | .error fault => b.subscriberFault d fault
    | .ok none => (b, .yield { d with attention := .yields 0 })
    | .ok (some delay) => (b, .sleep delay { d with attention := .asleep })
  | .yield times => (b, .go { d with attention := .yields times })
  | .unsubscribe bus name => (b.unsubscribe bus name, .go d.next)
  | .subscribe bus name => (b.subscribe bus name, .go d.next)
  | .close name =>
    match b.names.get? name with
    | some writer => ((b.change writer (·.close b.now)).2, .go d.next)
    | none => b.subscriberFault d (.missingKey (.text name))
  | .complete destination call =>
    match b.handleOf destination call with
    | .ok found => (b.tellHandle found.1 (.completed []), .go d.next)
    | .error fault => b.subscriberFault d fault

def attend (b : Bench) (d : Delivery) : Bench × DeliveryProgress :=
  match d.remaining with
  | [] => (b, .done)
  | name :: _ =>
    match d.attention with
    | .asleep | .yields 0 => (b, .go d.next)
    | .yields (n + 1) => (b, .yield { d with attention := .yields n })
    | .fresh =>
      match d.event.row with
      | .error fault => b.subscriberFault d fault
      | .ok row =>
        let reaction := ((b.subscriber? name).map (·.reaction)).getD .collect
        (b.tell (.delivered name row)).react d reaction

end Bench
end BatchWriter
