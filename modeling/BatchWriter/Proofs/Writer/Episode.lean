import BatchWriter.Proofs.InFlight
import BatchWriter.Proofs.Writer.Regular
import Mathlib.Logic.Relation

/-!
# Episodes of a writer

An episode is one entry of a writer's history together with what it does to the buffer
and to the open batches. Every change of a writer is a sequence of episodes, so a law
that ties the history to the buffer and to the batches is checked on episodes only.
-/

set_option autoImplicit false

namespace BatchWriter

def Milestone.lost? : Milestone → Option Nat
  | .refused batch _ => some batch
  | .reportedFailed batch _ => some batch
  | .expired batch _ => some batch
  | _ => none

def Milestone.Plain : Milestone → Prop
  | .flushed => True
  | .announced _ => True
  | _ => False

namespace Writer

/-- Nothing that the history accounts for changes. -/
structure Silent (w w' : Writer) : Prop where
  history : w'.history = w.history
  buffer : w'.buffer = w.buffer
  ids : w'.inFlight.ids = w.inFlight.ids
  issued : w'.inFlight.issued = w.inFlight.issued

/-- How a writer gets from one milestone to the next. -/
inductive Episode (w w' : Writer) : Prop where
  | silent (later : w.Later w') (quiet : w.Silent w')
  | told (now : Nat) (m : Milestone) (plain : m.Plain) (same : w' = w.note now m)
  /-- A write appends an entry. -/
  | accepted (now : Nat) (entry : Value) (later : w.Later w')
      (history : w'.history = (now, .accepted entry) :: w.history)
      (buffer : w'.buffer = w.buffer.append entry)
      (ids : w'.inFlight.ids = w.inFlight.ids)
      (issued : w'.inFlight.issued = w.inFlight.issued)
  /-- Entries leave the head of the buffer as a new batch; there was a free slot. -/
  | opened (now : Nat) (entries : List Value) (later : w.Later w')
      (usable : w.refusal? = none) (room : w.hasCapacity = true)
      (taken : w.buffer.take w.config.maxBatchSize = .ok (entries, w'.buffer))
      (some : entries ≠ [])
      (history : w'.history = (now, .opened (w.inFlight.issued + 1) entries) :: w.history)
      (ids : w'.inFlight.ids = w.inFlight.ids ++ [w.inFlight.issued + 1])
      (issued : w'.inFlight.issued = w.inFlight.issued + 1)
      (content : ∀ r ∈ w'.inFlight.requests, r.id ∈ w.inFlight.ids ∨ r.entries = entries)
  /-- The destination was called with the batch opened last. -/
  | handed (now batch : Nat) (entries : List Value) (later : w.Later w')
      (head : ∃ t earlier, w.history = (t, .opened batch entries) :: earlier)
      (isOpen : batch ∈ w.inFlight.ids)
      (history : w'.history = (now, .handed batch entries) :: w.history)
      (buffer : w'.buffer = w.buffer)
      (ids : w'.inFlight.ids = w.inFlight.ids)
      (issued : w'.inFlight.issued = w.inFlight.issued)
  /-- A batch is completed; what failed returns to the head of the buffer. -/
  | completed (now batch : Nat) (entries failed : List Value) (later : w.Later w')
      (isOpen : batch ∈ w.inFlight.ids)
      (history : w'.history = (now, .completed batch entries failed) :: w.history)
      (buffer : w'.buffer = w.buffer.prepend failed)
      (ids : w'.inFlight.ids = w.inFlight.ids.filter (· ≠ batch))
      (issued : w'.inFlight.issued = w.inFlight.issued)
  /-- A batch is lost and the writer fails. -/
  | lost (now batch : Nat) (m : Milestone) (loss : m.lost? = some batch) (later : w.Later w')
      (failed : w'.failure.isSome = true)
      (history : w'.history = (now, m) :: w.history)
      (buffer : w'.buffer = w.buffer)
      (ids : w'.inFlight.ids = w.inFlight.ids.filter (· ≠ batch))
      (issued : w'.inFlight.issued = w.inFlight.issued) (isOpen : batch ∈ w.inFlight.ids)
  /-- The writer is closed and gives up every open batch. -/
  | closed (now : Nat) (later : w.Later w') (isClosed : w'.closed = true)
      (history : w'.history = abandonments now w.inFlight.requests.reverse ++ w.history)
      (buffer : w'.buffer = w.buffer)
      (ids : w'.inFlight.ids = [])
      (issued : w'.inFlight.issued = w.inFlight.issued)

abbrev Episodes : Writer → Writer → Prop := Relation.ReflTransGen Episode

namespace Episode

variable {w w' : Writer}

theorem later (h : w.Episode w') : w.Later w' := by
  cases h with
  | told now m _ same => rw [same]; exact w.later_note now m
  | silent later | accepted _ _ later | opened _ _ later | handed _ _ _ later
  | completed _ _ _ _ later | lost _ _ _ _ later | closed _ later => exact later

/-- Every episode keeps the open batches distinct, issued and within the limit. -/
theorem sound (h : w.Episode w') (hs : w.inFlight.Sound) : w'.inFlight.Sound := by
  have hl := h.later.limit
  cases h with
  | silent _ quiet => exact hs.of_ids quiet.ids quiet.issued hl
  | told now m _ same => rw [same]; exact hs
  | accepted _ _ _ _ _ ids issued => exact hs.of_ids ids issued hl
  | opened _ _ _ _ room _ _ _ ids issued _ => exact hs.opened room ids issued hl
  | handed _ _ _ _ _ _ _ _ ids issued => exact hs.of_ids ids issued hl
  | completed _ _ _ _ _ _ _ _ ids issued => exact hs.filtered ids issued hl
  | lost _ _ _ _ _ _ _ _ ids issued _ => exact hs.filtered ids issued hl
  | closed _ _ _ _ _ ids issued =>
    have none : w'.inFlight.ids = w.inFlight.ids.filter fun _ => false := by
      rw [ids, List.filter_false]
    exact hs.filtered none issued hl

end Episode

namespace Episodes

variable {w w' : Writer} {P : Writer → Prop}

theorem keep (h : w.Episodes w') (step : ∀ u v, Episode u v → P u → P v) (hw : P w) :
    P w' := by
  induction h with
  | refl => exact hw
  | tail _ he ih => exact step _ _ he ih

theorem of_silent {c : Change} (hr : c.Regular w) (h : w.Silent c.writer) :
    w.Episodes c.writer :=
  .single (.silent hr.later h)

/-- The episodes of a sequence of changes are those of its parts. -/
theorem andThen {c : Change} {next : Writer → Change} (hc : w.Episodes c.writer)
    (hn : c.writer.Episodes (next c.writer).writer) : w.Episodes (c.andThen next).writer :=
  Change.of_parts (P := w.Episodes) hc fun _ => hc.trans hn

end Episodes
end Writer
end BatchWriter
