import BatchWriter.Bench.Act

/-!
# Scenarios

A scenario names destinations and subscribers and lists acts. After each act the bench
settles, unless the act leaves what it scheduled on the ready queue.
-/

set_option autoImplicit false

namespace BatchWriter
namespace Bench

def since (b later : Bench) : List Happening :=
  (later.trace.take (later.trace.length - b.trace.length)).reverse

def overview (b : Bench) : List (String × Value) :=
  b.names.entries.filterMap fun n => (b.writers[n.2]?).map fun w => (n.1, w.overview b.metrics)

end Bench

structure Scenario where
  destinations : List Destination
  subscribers : List Subscriber
  /-- Acts in order, each with whether the bench settles after it. -/
  acts : List (Act × Bool)

structure Reply where
  result : Except Fault Value
  happenings : List Happening
  writers : List (String × Value)

namespace Scenario

def start (s : Scenario) : Bench :=
  { destinations := s.destinations, subscribers := s.subscribers }

def replies (fuel : Nat) : List (Act × Bool) → Bench → List Reply
  | [], _ => []
  | (a, settles) :: rest, b =>
    let answered := b.play fuel a settles
    ⟨answered.1, b.since answered.2, answered.2.overview⟩ :: replies fuel rest answered.2

def run (fuel : Nat) (s : Scenario) : List Reply := replies fuel s.acts s.start

end Scenario
end BatchWriter
