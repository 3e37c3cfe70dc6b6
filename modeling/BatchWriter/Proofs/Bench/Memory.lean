import BatchWriter.Proofs.Bench.Acceptance
import BatchWriter.Proofs.Bench.Safety

/-!
# Bounded memory

Where no subscriber keeps a write, what a writer holds stays within its limits, however
often failed entries return to the buffer.
-/

set_option autoImplicit false

namespace BatchWriter

open History

theorem Writer.Tracked.load {w : Writer} (h : w.Tracked) : w.history.load =
    (w.inFlight.requests.map fun r => (w.history.openedWith r.id).length).sum := by
  rw [load_eq, h.opened, InFlight.ids, List.map_map]
  rfl

namespace Bench

variable {b : Bench} {i : Nat} {w : Writer}

/-- **Bounded memory.** Where all subscribers are prompt and completions report no more
entries than their batches had, what is buffered and in flight together never exceeds what
the writer was built with, or else the buffer's capacity and full batches in all slots. The
tracker has each open batch as it was opened, unless the destination has emptied the list
that it was handed. -/
theorem bounded_memory (h : Reachable b) (prompt : b.Prompt) (hw : b.writers[i]? = some w)
    (modest : w.history.Modest) {capacity limit size : Int}
    (room : w.config.maxBuffered.whole? = some capacity)
    (slots : w.config.maxInFlight.whole? = some limit)
    (sizes : w.config.maxBatchSize.whole? = some size) :
    ((w.buffer.size + (w.inFlight.requests.map fun r =>
        (w.history.openedWith r.id).length).sum : Nat) : Int) ≤
      max (w.history.initial.length : Int) (capacity + limit * size) ∧
      ∀ r ∈ w.inFlight.requests, r.entries = w.history.openedWith r.id ∨ r.entries = [] := by
  have lawful := h.lawful hw
  refine ⟨?_, lawful.carried⟩
  rw [← lawful.tracked.load]
  exact lawful.held_le slots sizes modest (h.appends_below prompt hw room)

/-- The first of three entries has come back and is in flight once more. -/
def requeued : Bench :=
  run 5 ((run 5 (flushing [("max_batch_size", .nat 1), ("max_in_flight_requests", .nat 1),
    ("max_buffered_requests", .nat 2)] [.nat 1, .nat 2, .nat 3])).tellHandle
      (.batch 0 .main 1) (.completed [.nat 1]))

theorem reachable_requeued : Reachable requeued := by
  refine (((reachable_flushing rfl).run 5).move (.tell ?_ _)).run 5
  exact ⟨_, rfl, rfl⟩

theorem bounded_memory_requeued : ∃ w, requeued.writers[0]? = some w ∧ requeued.Prompt ∧
    w.history.Modest ∧ w.config.maxBuffered.whole? = some 2 ∧
    w.config.maxInFlight.whole? = some 1 ∧ w.config.maxBatchSize.whole? = some 1 ∧
    ((w.buffer.size + (w.inFlight.requests.map fun r =>
      (w.history.openedWith r.id).length).sum : Nat) : Int) ≤
        max (w.history.initial.length : Int) (2 + 1 * 1) := by
  obtain ⟨w, hw⟩ : ∃ w, requeued.writers[0]? = some w := ⟨_, rfl⟩
  have known : (requeued.writers[0]?).map (fun w => (w.config.maxBuffered.whole?,
      w.config.maxInFlight.whole?, w.config.maxBatchSize.whole?, w.history)) =
      some (some 2, some 1, some 1, [(0, .handed 2 [.nat 1]), (0, .opened 2 [.nat 1]),
        (0, .completed 1 [.nat 1] [.nat 1]), (0, .handed 1 [.nat 1]), (0, .opened 1 [.nat 1]),
        (0, .restored [.nat 1, .nat 2, .nat 3])]) := rfl
  rw [hw, Option.map_some, Option.some.injEq, Prod.mk.injEq, Prod.mk.injEq, Prod.mk.injEq] at known
  obtain ⟨room, slots, sizes, history⟩ := known
  have modest : w.history.Modest := by
    simp [history, modest_cons, modest_nil, openedWith]
  have prompt : requeued.Prompt := fun _ hs => absurd hs List.not_mem_nil
  exact ⟨w, hw, prompt, modest, room, slots, sizes,
    (bounded_memory reachable_requeued prompt hw modest room slots sizes).1⟩

end Bench
end BatchWriter
