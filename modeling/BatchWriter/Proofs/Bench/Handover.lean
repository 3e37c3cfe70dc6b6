import BatchWriter.Proofs.Bench.Timely
import BatchWriter.Proofs.Writer.Handover

/-!
# What leaves the buffer is handed over

In every run the destination is called with each batch in the very step that takes its entries
out of the buffer, provided that the clock accepts the time that batches are given. Where the
clock refuses that time, the batch is opened and its destination is never called.
-/

set_option autoImplicit false

namespace BatchWriter
namespace Bench

open Writer (Conveys)

variable {b b' : Bench} {i : Nat} {w w' : Writer} {loop : LoopName}

theorem Throughout.conveys (h : b.Throughout Conveys) (elsewhere : Elsewhere i b b')
    (own : ∀ w' : Writer, b'.writers[i]? = some w' → w'.Conveys) : b'.Throughout Conveys :=
  h.elsewhere (fun _ _ _ _ h => ⟨h.paired, h.silent⟩) elsewhere own

theorem conveys_change (h : b.Throughout Conveys) (i : Nat) {f : Writer → Change}
    (quiet : ∀ w : Writer, b.writers[i]? = some w →
      w.Later (f w).writer ∧ w.Unsent (f w).writer) : (b.change i f).2.Throughout Conveys := by
  refine h.conveys (.change b i f) fun w' hw' => ?_
  cases hw : b.writers[i]? with
  | none => rw [change_of_none hw, hw] at hw'; cases hw'
  | some w =>
    rw [writer_change hw, Option.some.injEq] at hw'
    exact hw' ▸ (h i w hw).of_unsent (quiet w hw).1 (quiet w hw).2

/-- What a dispatch opens it hands over, whether the destination refuses it or not. -/
theorem conveys_dispatch (h : b.Throughout Conveys) (own : b.Owned i loop) :
    (b.dispatch i loop).2.Throughout Conveys := by
  refine h.conveys (.dispatch b i loop) fun w' hw' => ?_
  obtain ⟨w, hw, bound⟩ := id own
  have before := h i w hw
  rcases dispatch_parts hw bound with
    ⟨same, kept, -⟩ | ⟨parcel, u, inFlight, r, some, opens, -, -, -, hu, same⟩
  · have moves : Writer.Motion b.now w (w.startDispatch loop b.now).1 := .startDispatch bound
    have config := moves.ceases.later.config
    rw [same, writer_change hw, Option.some.injEq] at hw'
    subst hw'
    rcases Writer.startDispatch_kept bound kept with history | ⟨refused, _, _, history⟩
    · exact before.of_unsent moves.ceases.later (.of_history history)
    · constructor
      · intro timeable
        exact absurd (config ▸ timeable) refused
      · intro _
        rw [history]
        exact before.silent refused
  · have timeable := Writer.timeable_of_parcel bound some
    rw [same, writer_change hu, Option.some.injEq] at hw'
    rw [← hw']
    refine before.concludeDispatch timeable ?_ ?_ r.1
    · show u.config = w.config
      rw [opens.same]
    · show u.history = (b.now, .opened parcel.batch parcel.entries) :: w.history
      rw [opens.same]

theorem WriterAction.conveys (s : WriterAction b b') (h : b.Throughout Conveys) :
    b'.Throughout Conveys := by
  cases s with
  | beside beside => exact h.of_writers beside.writers
  | plainChange i plain =>
    exact conveys_change h i fun w hw => ⟨(plain w hw).later, (plain w hw).unsent⟩
  | dispatch own => exact conveys_dispatch h own

theorem WriterActions.conveys (s : WriterActions b b') (h : b.Throughout Conveys) :
    b'.Throughout Conveys := by
  induction s with
  | refl => exact h
  | tail _ writerAction ih => exact writerAction.conveys ih

theorem BenchAction.conveys {sends : Nat → Prop} (s : BenchAction sends b b')
    (h : b.Throughout Conveys) :
    b'.Throughout Conveys := by
  cases s with
  | loopAction loopAction => exact loopAction.writerActions.conveys h
  | pass later alarms => exact h
  | @flush limit i time due own =>
    have rung := conveys_change (b := { b with time }) h i fun w _ =>
      ⟨(Writer.Ceases.bufferTimeOver w).later, Writer.Unsent.bufferTimeOver w⟩
    exact (WriterActions.bufferAlarm (b := { b with time }) own).conveys rung
  | @expire limit i batch time due =>
    exact conveys_change (b := { b with time }) h i fun w _ =>
      ⟨(Writer.Ceases.expire w _ _).later, Writer.Unsent.expire w _ _⟩
  | closeLoop name => exact h.of_writers (writers_setLoop _ _ _)
  | create name spec =>
    refine h.create name spec fun w fresh _ => ?_
    obtain ⟨now, entries, history, -⟩ := fresh.history
    constructor
    · intro _
      rw [history]
      exact .beside (by simp [Milestone.Submits]) .nil
    · intro _
      rw [history]
      rfl
  | work works => exact h.of_writers works.bypasses.writers

theorem Reachable.conveys (h : Reachable b) : b.Throughout Conveys :=
  h.by_actions (fun _ _ _ hw => absurd hw (by simp [Scenario.start])) fun _ _ _ benchAction ih =>
    benchAction.conveys ih

/-- Every open batch was handed over, if the clock accepts the time that batches are given. -/
theorem Reachable.handed_of_open (h : Reachable b) (hw : b.writers[i]? = some w)
    (timeable : w.config.Timeable) {batch : Nat} (isOpen : batch ∈ w.inFlight.ids) :
    ∃ now entries, (now, .handed batch entries) ∈ w.history := by
  rw [← (h.lawful hw).tracked.opened] at isOpen
  obtain ⟨now, entries, opened⟩ := History.opened_of_open isOpen
  exact ⟨now, entries, ((h.conveys i w hw).paired timeable).handed_of_opened opened⟩

/-! ## What becomes of entries that were taken out -/

/-- What became of the entries that have left a writer's buffer. -/
structure HandedOver (w : Writer) : Prop where
  /-- They make up the batches that were opened. -/
  departed : w.history.departed.map Prod.fst = w.history.batches.flatten
  /-- If the clock accepts the time that batches are given, the destination is called with each
  batch directly after it was opened, -/
  paired : w.config.Timeable → w.history.Paired
  /-- so that what has left the buffer is what it was called with, in order, -/
  called : w.config.Timeable →
    w.history.departed.map Prod.fst = w.history.deliveries.flatten
  /-- and every open batch was handed over with the entries that it was opened with. -/
  answerable : w.config.Timeable → ∀ batch ∈ w.inFlight.ids, ∃ now entries,
    (now, .opened batch entries) ∈ w.history ∧ (now, .handed batch entries) ∈ w.history
  /-- If it does not accept it, the destination is never called. -/
  silent : ¬ w.config.Timeable → w.history.deliveries = []

/-- **Atomic dispatch.** Between any two steps of any run the destination has been called with
whatever was taken out of the buffer, however the step that took it ended, unless the time that
batches are given is one that no clock accepts. -/
theorem taken_entries_are_handed_over (h : Reachable b) (hw : b.writers[i]? = some w) :
    HandedOver w := by
  have lawful := h.lawful hw
  have departed := lawful.inLine.batches
  have conveys := h.conveys i w hw
  refine ⟨departed, conveys.paired, fun timeable => ?_, fun timeable batch isOpen => ?_,
    conveys.silent⟩
  · rw [departed, (conveys.paired timeable).deliveries]
  · rw [← lawful.tracked.opened] at isOpen
    obtain ⟨now, entries, opened⟩ := History.opened_of_open isOpen
    exact ⟨now, entries, opened, (conveys.paired timeable).handed_of_opened opened⟩

def sent : Bench :=
  run 5 (flushing [("max_batch_size", .nat 2), ("request_timeout_sec", .nat 5)]
    [.nat 1, .nat 2, .nat 3])

theorem taken_entries_are_handed_over_sent : ∃ w, sent.writers[0]? = some w ∧ HandedOver w ∧
    w.config.Timeable ∧ w.inFlight.ids = [1, 2] ∧
    w.history.deliveries = [[.nat 1, .nat 2], [.nat 3]] := by
  obtain ⟨w, hw⟩ : ∃ w, sent.writers[0]? = some w := ⟨_, rfl⟩
  have handed := taken_entries_are_handed_over ((reachable_flushing rfl).run 5) hw
  cases hw
  refine ⟨_, rfl, handed, fun limit given => ?_, rfl, rfl⟩
  cases given
  exact ⟨_, rfl⟩

def unending : Bench :=
  flushing [("max_batch_size", .nat 1), ("request_timeout_sec", .nat ((10 ^ 200) ^ 2))]
    [.nat 1, .nat 2]

/-- The commit has ended and nothing is ready to run. The first entry is in an open batch with
which the destination was not called, and the writer has not failed. -/
theorem keeps_a_batch_to_itself : ∃ w, Reachable (run 5 unending) ∧
    (run 5 unending).step.isNone = true ∧ (run 5 unending).writers[0]? = some w ∧
    w.inFlight.ids = [1] ∧ w.buffer.size = 1 ∧ w.refusal?.isNone = true ∧
    w.history.deliveries = [] := by
  have built : (single [("max_batch_size", .nat 1), ("request_timeout_sec", .nat ((10 ^ 200) ^ 2))]
      [.nat 1, .nat 2]).writerIndex "w" = .ok 0 := rfl
  -- The limit is too large for the elaborator to compute with.
  have known : ((run 5 unending).writers[0]?).map (fun w => (w.inFlight.ids, w.buffer.size,
      w.refusal?.isNone, w.history.deliveries.length)) = some ([1], 1, true, 0) := by decide +kernel
  obtain ⟨w, hw, same⟩ := Option.map_eq_some_iff.1 known
  rw [Prod.mk.injEq, Prod.mk.injEq, Prod.mk.injEq] at same
  obtain ⟨isOpen, left, usable, calls⟩ := same
  exact ⟨w, (reachable_flushing built).run 5, by decide +kernel, hw, isOpen, left, usable,
    List.length_eq_zero_iff.1 calls⟩

end Bench
end BatchWriter
