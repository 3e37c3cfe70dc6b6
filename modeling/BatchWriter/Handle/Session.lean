import BatchWriter.Destination
import BatchWriter.Notice

/-!
# Sessions on a handle

A handle reports outcomes as callbacks of a loop that runs only when told to. A report
takes its own copy of what failed; once the loop is closed reports are dropped.
-/

set_option autoImplicit false

namespace BatchWriter

inductive HandleAct where
  | complete (failed : Value)
  | fail (fault : Fault)
  /-- Runs what is ready. -/
  | run
  | closeLoop
  /-- The handle's own text. -/
  | show

structure HandleSession where
  batch : Value
  loop : EventLoop Report := {}
  /-- What was reported in the last act, in order. -/
  got : List Report := []
  notices : List Notice := []

namespace HandleSession

def handleText (batch : Value) : String := "RequestResult(batch_id=" ++ batch.display ++ ")"

def tell (s : HandleSession) (report : Report) : HandleSession :=
  if s.loop.closed then { s with notices := s.notices ++ [.completionDropped s.batch] }
  else { s with loop := s.loop.post report }

def act (s : HandleSession) : HandleAct → Except Fault Value × HandleSession
  | .complete failed =>
    match failed.asMembers with
    | .error fault => (.error fault, s)
    | .ok entries => (.ok .null, s.tell (.completed entries))
  | .fail fault => (.ok .null, s.tell (.failed fault))
  | .run => (.ok .null, { s with got := s.loop.ready, loop := { s.loop with ready := [] } })
  | .closeLoop => (.ok .null, { s with loop := s.loop.close })
  | .show => (.ok (.text (handleText s.batch)), s)

def session : List HandleAct → HandleSession → List (Except Fault Value × HandleSession)
  | [], _ => []
  | a :: rest, s =>
    let done := { s with got := [], notices := [] }.act a
    done :: session rest done.2

end HandleSession
end BatchWriter
