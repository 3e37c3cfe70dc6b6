import BatchWriter.Proofs.Writer.Bounds
import BatchWriter.Proofs.Writer.Dispatch

/-!
# Changes that accept nothing

Only a write appends an entry on behalf of a caller. Every other change of a writer, in
whatever state it takes place, leaves the limits alone and adds no accepted entry to the
history. Nothing is asked of the writer here: a change that stops half way counts as well.
-/

set_option autoImplicit false

namespace BatchWriter
namespace Writer

structure Unfed (w w' : Writer) : Prop where
  config : w'.config = w.config
  history : ∃ newer : History, w'.history = newer ++ w.history ∧
    ∀ e ∈ newer, ∀ entry, e.2 ≠ .accepted entry

namespace Unfed

variable {u v w : Writer} {c : Change} {next : Writer → Change}

theorem of_history (config : v.config = u.config) (history : v.history = u.history) :
    u.Unfed v :=
  ⟨config, [], history, by simp⟩

theorem refl (w : Writer) : w.Unfed w := of_history rfl rfl

theorem trans (h : u.Unfed v) (h' : v.Unfed w) : u.Unfed w := by
  obtain ⟨older, he, quiet⟩ := h.history
  obtain ⟨newer, he', quiet'⟩ := h'.history
  refine ⟨h'.config.trans h.config, newer ++ older, ?_, ?_⟩
  · rw [he', he, List.append_assoc]
  · intro e hm
    rcases List.mem_append.1 hm with hm | hm
    · exact quiet' e hm
    · exact quiet e hm

theorem noted (w : Writer) (now : Nat) {m : Milestone} (other : ∀ entry, m ≠ .accepted entry) :
    w.Unfed (w.note now m) :=
  ⟨rfl, [(now, m)], rfl, fun e he entry => by rw [List.mem_singleton.1 he]; exact other entry⟩

theorem andThen (h : u.Unfed c.writer) (hn : c.writer.Unfed (next c.writer).writer) :
    u.Unfed (c.andThen next).writer :=
  Change.of_parts (P := u.Unfed) h fun _ => h.trans hn

/-- A moment at which an entry was accepted lies before all of this. -/
theorem accepted (h : u.Unfed v) {t : Nat} {entry : Value} {earlier : History}
    (hs : (t, .accepted entry) :: earlier <:+ v.history) :
    (t, .accepted entry) :: earlier <:+ u.history := by
  obtain ⟨newer, history, quiet⟩ := h.history
  rw [history] at hs
  exact History.suffix_of_append (fun hm => quiet _ hm entry rfl) hs

end Unfed

variable (w : Writer)

theorem unfed_armTimerIf (condition : Bool) : w.Unfed (w.armTimerIf condition).writer := by
  obtain ⟨armed, ha⟩ := w.writer_armTimerIf condition
  rw [ha]
  exact .of_history rfl rfl

theorem unfed_bind (loop : LoopName) : w.Unfed (w.bind loop).writer := by
  unfold bind
  split
  · have bound : w.Unfed { w with loop := some loop } := .of_history rfl rfl
    exact bound.trans (unfed_armTimerIf _ _)
  · split <;> exact .refl w

theorem unfed_checkUsable : w.Unfed w.checkUsable.writer := by
  rw [checkUsable]
  split <;> exact .refl w

theorem unfed_holdBack (reason : WaitReason) : w.Unfed (w.holdBack reason).writer := .refl w

theorem unfed_recordFailure (fault : Fault) : w.Unfed (w.recordFailure fault).writer := by
  refine .of_history ?_ (recordFailure_writer w fault).2.1
  exact (regular_recordFailure w fault).later.config

/-- A batch that is noted as lost and released fails the writer. -/
theorem unfed_lost (now batch : Nat) {m : Milestone} (other : ∀ entry, m ≠ .accepted entry)
    (fault : Fault) :
    w.Unfed ((note now m w).release batch |>.andThen (recordFailure fault)).writer :=
  .andThen ((Unfed.noted w now other).trans (.of_history rfl rfl)) (unfed_recordFailure _ _)

theorem unfed_openBatch (now : Nat) (entries : List Value) :
    w.Unfed (w.openBatch now entries).writer := by
  have opened := justOpened_openBatch w now entries
  exact ⟨opened.config, [_], opened.history, by simp⟩

theorem unfed_startDispatch (loop : LoopName) (now : Nat) :
    w.Unfed (w.startDispatch loop now).1.writer := by
  unfold startDispatch
  split
  · exact .refl w
  · split
    · exact .refl w
    · next entries rest _ =>
      dsimp only
      have taken : w.Unfed { w with buffer := rest, deferred := w.deferred && !rest.isEmpty } :=
        .of_history rfl rfl
      split
      · exact taken
      · exact .andThen (taken.trans (unfed_bind _ _)) (unfed_openBatch _ _ _)

theorem unfed_concludeDispatch (now : Nat) (parcel : Parcel) (refusal : Option Fault) :
    w.Unfed (w.concludeDispatch now parcel refusal).writer := by
  have handed := Unfed.noted w now (m := .handed parcel.batch parcel.entries) (by simp)
  unfold concludeDispatch
  split
  · exact handed
  · dsimp only
    split
    · exact handed.trans (.andThen (unfed_lost _ _ _ (by simp) _) (.refl _))
    · exact handed

theorem unfed_complete (now batch : Nat) (failed : List Value) :
    w.Unfed (w.complete now batch failed).writer := by
  unfold complete
  split
  · exact .refl w
  · next request _ =>
    have noted := Unfed.noted w now (m := .completed batch request.entries failed) (by simp)
    refine .andThen (.andThen (noted.trans (.of_history rfl rfl)) (.refl _)) ?_
    unfold requeue
    split
    · exact .refl _
    · exact .andThen (.andThen (.of_history rfl rfl) (.refl _)) (unfed_armTimerIf _ _)

theorem unfed_endTimedFlush : w.Unfed w.endTimedFlush.writer :=
  .andThen (.of_history rfl rfl) (unfed_armTimerIf _ _)

theorem unfed_reportFailed (now batch : Nat) (fault : Fault) :
    w.Unfed (w.reportFailed now batch fault).writer := by
  unfold reportFailed
  split
  · exact .refl w
  · exact unfed_lost _ _ _ (by simp) _

theorem unfed_expire (now batch : Nat) : w.Unfed (w.expire now batch).writer := by
  unfold expire
  split
  · exact unfed_lost _ _ _ (by simp) _
  · exact .refl w

theorem unfed_bufferTimeOver : w.Unfed w.bufferTimeOver.1.writer :=
  .of_history (regular_bufferTimeOver w).later.config (silent_bufferTimeOver w).history

theorem unfed_close (now : Nat) : w.Unfed (w.close now).writer := by
  by_cases isClosed : w.closed = true
  · rw [close, if_pos isClosed]
    exact .refl w
  · have episode := episode_close (w := w) (by simpa using isClosed) now
    refine ⟨episode.later.config, abandonments now w.inFlight.requests.reverse, ?_, ?_⟩
    · simp [close, isClosed, cancelTimer, abandonAll, note_abandoned, Change.andThen, notify,
        showGauges, measure, announce]
    · simp [abandonments]

/-- The bench's change of a writer that a call begins to wait for. -/
theorem unfed_wait (loop : LoopName) (call : Nat) :
    w.Unfed ((w.checkUsable.andThen (bind loop)).andThen (addWaiter call)).writer :=
  .andThen (.andThen w.unfed_checkUsable (unfed_bind _ _)) (.of_history rfl rfl)

theorem unfed_woken (call : Nat) :
    w.Unfed ((w.dropWaiter call).andThen checkUsable).writer :=
  .andThen (.of_history rfl rfl) (unfed_checkUsable _)

theorem unfed_enter (loop : LoopName) : w.Unfed ((w.bind loop).andThen checkUsable).writer :=
  .andThen (unfed_bind _ _) (unfed_checkUsable _)

end Writer
end BatchWriter
