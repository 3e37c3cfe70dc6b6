import BatchWriter.Fault

/-!
# Subscribers

What a subscriber of a feedback bus does once it has recorded an event.
-/

set_option autoImplicit false

namespace BatchWriter

inductive Reaction where
  | collect
  | raise (fault : Fault)
  | sleep (milliseconds : Number)
  | yield (times : Nat)
  | unsubscribe (bus name : String)
  | subscribe (bus name : String)
  | close (writer : String)
  /-- Reports a destination's call as completed. -/
  | complete (destination : String) (call : Int)

structure Subscriber where
  name : String
  reaction : Reaction

end BatchWriter
