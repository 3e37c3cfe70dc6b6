import BatchWriter.InFlight
import BatchWriter.Timetable

/-!
# Sessions on batches in flight

Batches are opened, with an alarm or without, completed and cleared while the clock
moves. An alarm that rings is told and leaves its batch open.
-/

set_option autoImplicit false

namespace BatchWriter

inductive InFlightAct where
  /-- Opens a batch, with an alarm after some milliseconds if given. -/
  | openBatch (entries : List Value) (delay : Option Number)
  | complete (id : Value)
  | clear
  | cancelTimeout (id : Value)
  | age (id : Value)
  | advance (microseconds : Nat)

structure InFlightSession where
  inFlight : InFlight Value
  /-- Alarms by batch id. -/
  time : Timetable Nat := {}
  /-- When each batch was opened, in order of ids. -/
  openedAt : List Nat := []
  fired : List Nat := []

def Request.row (r : Request Value) : Value :=
  .list [.nat r.id, .list r.entries, .bool r.timed]

namespace InFlightSession

def ofLimit (limit : Value) : Except Fault InFlightSession := do
  return { inFlight := ← InFlight.ofLimit (← limit.asLimit) }

def cancelTimeout (s : InFlightSession) (id : Nat) : InFlightSession :=
  { s with
    inFlight := s.inFlight.update id fun r => { r with timed := false }
    time := s.time.cancel id }

def find? (s : InFlightSession) (id : Value) : Option (Request Value) :=
  s.inFlight.requests.find? fun r => id.same (.nat r.id)

def instantOf? (s : InFlightSession) (id : Value) : Option Nat :=
  ((s.openedAt.zipIdx 1).find? fun o => id.same (.nat o.2)).map (·.1)

def ringUntil (instant : Nat) : Nat → InFlightSession → InFlightSession
  | 0, s => { s with time := s.time.moveTo instant }
  | rounds + 1, s =>
    match s.time.ring? instant with
    | some (id, time) => ringUntil instant rounds { s with time, fired := s.fired ++ [id] }
    | none => { s with time := s.time.moveTo instant }

def openBatch (s : InFlightSession) (entries : List Value) (delay : Option Number) :
    Except Fault Value × InFlightSession :=
  let opened := s.inFlight.openBatch entries s.time.now
  let s := { s with inFlight := opened.2, openedAt := s.openedAt ++ [s.time.now] }
  match delay with
  | none => (.ok opened.1.row, s)
  | some milliseconds =>
    match milliseconds.delayMilliseconds with
    | .error fault => (.error fault, s)
    | .ok due =>
      (.ok (Request.row { opened.1 with timed := true }),
        { s with
          inFlight := s.inFlight.update opened.1.id fun r => { r with timed := true }
          time := s.time.set due opened.1.id })

def act (s : InFlightSession) : InFlightAct → Except Fault Value × InFlightSession
  | .openBatch entries delay => s.openBatch entries delay
  | .complete id =>
    match s.find? id with
    | none => (.ok .null, s)
    | some r =>
      (.ok (Request.row { r with timed := false }),
        { s with inFlight := s.inFlight.remove r.id, time := s.time.cancel r.id })
  | .clear =>
    (.ok (.list (s.inFlight.requests.map fun r => Request.row { r with timed := false })),
      { s with
        inFlight := s.inFlight.clear
        time := s.inFlight.requests.foldl (fun t r => t.cancel r.id) s.time })
  | .cancelTimeout id =>
    match s.instantOf? id, s.find? id with
    | none, _ => (.error (.missingKey id), s)
    | some _, none => (.ok .null, s)
    | some _, some r => (.ok .null, s.cancelTimeout r.id)
  | .age id =>
    match s.instantOf? id with
    | none => (.error (.missingKey id), s)
    | some openedAt =>
      let microseconds := (ageMilliseconds openedAt s.time.now).mul (Binary64.ofNat 1000)
      (.ok (.number (.int (microseconds.toInt?.getD 0))), s)
  | .advance microseconds =>
    (.ok .null, ringUntil (s.time.now + microseconds) s.time.alarms.length s)

def session : List InFlightAct → InFlightSession → List (Except Fault Value × InFlightSession)
  | [], _ => []
  | a :: rest, s =>
    let done := { s with fired := [] }.act a
    done :: session rest done.2

end InFlightSession
end BatchWriter
