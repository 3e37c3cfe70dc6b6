import BatchWriter.EventLoop
import BatchWriter.Fault
import BatchWriter.Ledger

/-!
# Destinations

A destination takes batches and reports their outcomes through a handle. It works in
one of three ways: it answers by hand, it sends each batch in a call on the loop, or
it runs a job on an executor. A script says how each of its calls behaves.
-/

set_option autoImplicit false

namespace BatchWriter

inductive Report where
  /-- The call went through; these entries were not persisted. -/
  | completed (failed : List Value)
  /-- The call failed as a whole. -/
  | failed (fault : Fault)

inductive Handle where
  /-- A writer's batch, on the loop on which it was handed over. -/
  | batch (writer : Nat) (loop : LoopName) (batch : Nat)
  /-- A handle that only records what it is told. -/
  | recorder (label : String)
  deriving DecidableEq, Repr

inductive Ending where
  | raises (fault : Fault)
  | returns (result : Value)
  /-- The entries at these places failed; places past the end are ignored. -/
  | fails (places : List Int)
  /-- The destination's rule decides. -/
  | byRule

inductive Response where
  | complete (places : List Int)
  | fail (fault : Fault)
  | raise (fault : Fault)
  /-- Empties the list of entries that it was handed. -/
  | clear

structure Behaviour where
  responses : List Response := []
  /-- How often a send gives way before anything else. -/
  yields : Nat := 0
  /-- Milliseconds that a send then sleeps. -/
  sleep : Option Number := none
  /-- Whether a send never goes on after that. -/
  hangs : Bool := false
  ending : Ending := .byRule
  /-- How a send ends that is cancelled on the way; without it, as cancelled. -/
  onCancel : Option Ending := none

/-- Whole entries divisible by `modulus` fail the first `times` times they are sent. -/
structure Rule where
  modulus : Int
  times : Nat

inductive Adapter where
  /-- It keeps each batch and is answered for by hand. -/
  | manual
  /-- It sends each batch in a call on the loop. -/
  | sender
  /-- An executor, owned by the destination or borrowed. -/
  | executor (owned : Bool)
  deriving DecidableEq, Repr

inductive JobState where
  | waiting
  | finished
  | cancelled
  deriving DecidableEq, Repr

structure Job where
  handle : Handle
  entries : List Value
  state : JobState := .waiting

structure Destination where
  name : String
  adapter : Adapter
  script : List Behaviour := []
  rule : Option Rule := none
  /-- How often each whole entry was sent under the rule. -/
  sent : Ledger Int Nat := {}
  /-- How many calls have reached the destination. -/
  reached : Nat := 0
  /-- Batches to be answered by hand, with their handles. -/
  calls : List (Handle × List Value) := []
  /-- Sends that have not been forgotten yet. -/
  pending : List Nat := []
  jobs : List Job := []
  shutDown : Bool := false

/-- The entry at a place; places below zero count from the end. -/
def entryAt? {α : Type} (entries : List α) (place : Int) : Option α :=
  if 0 ≤ place then entries[place.toNat]?
  else if -place ≤ entries.length then entries[(entries.length + place).toNat]?
  else none

def entriesAt {α : Type} (entries : List α) (places : List Int) : Except Fault (List α) :=
  places.mapM fun place => (entryAt? entries place).elim (.error .indexOutOfRange) .ok

theorem entriesAt_fault {α : Type} {entries : List α} {places : List Int} {fault : Fault}
    (fails : entriesAt entries places = .error fault) : fault = .indexOutOfRange := by
  induction places generalizing fault with
  | nil => cases fails
  | cons place rest ih =>
    rw [entriesAt, List.mapM_cons] at fails
    cases found : entryAt? entries place with
    | none =>
      rw [found] at fails
      cases fails
      rfl
    | some x =>
      rw [found] at fails
      cases others : entriesAt entries rest with
      | error other =>
        rw [entriesAt] at others
        rw [others] at fails
        cases fails
        exact ih others
      | ok xs =>
        rw [entriesAt] at others
        rw [others] at fails
        cases fails

namespace Destination

def behaviour (d : Destination) (call : Nat) : Behaviour := (d.script[call]?).getD {}

def applyRule (rule : Rule) : List Value → Ledger Int Nat → List Value × Ledger Int Nat
  | [], sent => ([], sent)
  | .number (.int n) :: rest, sent =>
    if n % rule.modulus = 0 then
      let counted := sent.alter n 0 (· + 1)
      let others := applyRule rule rest counted
      if counted.getD n 0 ≤ rule.times then (.number (.int n) :: others.1, others.2) else others
    else applyRule rule rest sent
  | _ :: rest, sent => applyRule rule rest sent

def conclude (d : Destination) (ending : Ending) (batch : List Value) :
    Except Fault Value × Destination :=
  match ending with
  | .raises fault => (.error fault, d)
  | .returns result => (.ok result, d)
  | .fails places =>
    ((entriesAt batch (places.filter (· < batch.length))).map .list, d)
  | .byRule =>
    match d.rule with
    | none => (.ok (.list []), d)
    | some rule =>
      let counted := applyRule rule batch d.sent
      (.ok (.list counted.1), { d with sent := counted.2 })

/-- What is reported for the result of a send: nothing failed when the result is
absent; anything else must be a collection. -/
def report (result : Value) : Except Fault Report :=
  result.initialMembers.map .completed

end Destination
end BatchWriter
