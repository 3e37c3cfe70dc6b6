import BatchWriter.Proofs.Writer.Dispatch

/-!
# What keeps a caller waiting

Whoever waits for a writer waits for a free slot, for the end of a batch or for an empty
writer. Unless a turn wakes everybody, it makes nothing of this come true: the writer
still accepts work, has no fewer open batches and is as busy as it was.
-/

set_option autoImplicit false

namespace BatchWriter
namespace Writer

/-- Nothing that a caller could wait for has come about. -/
def Binds (w w' : Writer) : Prop :=
  w.refusal? = none →
    w'.refusal? = none ∧ w.inFlight.count ≤ w'.inFlight.count ∧
      (w.isBusy = true → w'.isBusy = true)

variable {w w' w'' : Writer}

theorem isBusy_iff (w : Writer) :
    w.isBusy = true ↔ 0 < w.inFlight.count ∨ w.buffer.entries ≠ [] := by
  simp [isBusy, Buffer.isEmpty]

namespace Binds

theorem refl (w : Writer) : w.Binds w := fun usable => ⟨usable, Nat.le_refl _, fun busy => busy⟩

theorem trans (h : w.Binds w') (h' : w'.Binds w'') : w.Binds w'' := by
  intro usable
  obtain ⟨usable', count, busy⟩ := h usable
  obtain ⟨usable'', count', busy'⟩ := h' usable'
  exact ⟨usable'', Nat.le_trans count count', busy' ∘ busy⟩

theorem of_same (buffer : w'.buffer = w.buffer) (ids : w'.inFlight.ids = w.inFlight.ids)
    (hr : w'.refusal? = w.refusal?) : w.Binds w' := by
  intro usable
  have count : w'.inFlight.count = w.inFlight.count := by
    rw [← InFlight.length_ids, ids, InFlight.length_ids]
  refine ⟨hr.trans usable, Nat.le_of_eq count.symm, fun busy => ?_⟩
  rw [isBusy_iff] at busy ⊢
  rwa [count, buffer]

theorem of_silent (hs : w.Silent w') (hr : w'.refusal? = w.refusal?) : w.Binds w' :=
  of_same hs.buffer hs.ids hr

theorem of_opened (hr : w'.refusal? = w.refusal?)
    (count : w'.inFlight.count = w.inFlight.count + 1) : w.Binds w' := by
  intro usable
  refine ⟨hr.trans usable, by omega, fun _ => ?_⟩
  rw [isBusy_iff]
  omega

end Binds

theorem waiters_recordFailure (w : Writer) (fault : Fault) :
    (w.recordFailure fault).writer.waiters = [] := by
  cases hf : w.failure <;>
    simp [recordFailure, keepFailure, hf, Change.andThen, Change.stay, announce, cancelTimer,
      showGauges, measure, notify]

theorem waiters_close (isOpen : w.closed = false) (now : Nat) :
    (w.close now).writer.waiters = [] := by
  simp [close, isOpen, cancelTimer, abandonAll, note_abandoned, Change.andThen, notify,
    showGauges, measure, announce]

theorem binds_accept (w : Writer) (now : Nat) (entry : Value) :
    w.Binds (w.accept now entry).writer := by
  unfold accept
  refine Change.keeps_andThen (P := fun u => w.Binds u) ?_ fun u h => h.trans ?_
  · refine fun usable => ⟨usable, Nat.le_refl _, fun _ => (isBusy_iff _).2 (.inr ?_)⟩
    simp [measure, note]
  · exact .of_silent (silent_armTimerIf _ _) (refusal?_armTimerIf _ _)

theorem binds_startDispatch {loop : LoopName} (now : Nat) (bound : w.loop = some loop) :
    w.Binds (w.startDispatch loop now).1.writer := by
  unfold startDispatch
  split
  · exact .refl w
  · split
    · exact .refl w
    · next entries rest taken =>
      dsimp only
      split
      · next empty =>
        obtain ⟨he, hc⟩ := Buffer.append_of_take taken
        rw [List.isEmpty_iff.1 empty, List.nil_append] at he
        refine .of_silent ⟨rfl, ?_, rfl, rfl⟩ rfl
        cases rest
        simp only at he hc
        subst he hc
        rfl
      · rw [bind_of_bound (by exact bound), stay_andThen]
        have opened := justOpened_openBatch
          { w with buffer := rest, deferred := w.deferred && !rest.isEmpty } now entries
        exact .of_opened opened.refusal opened.count

/-- A dispatch ends with everybody woken and a fault, or with nothing but its milestone. -/
theorem concludeDispatch_cases (w : Writer) (now : Nat) (parcel : Parcel)
    (refusal : Option Fault) :
    ((w.concludeDispatch now parcel refusal).writer.waiters = [] ∧
        (w.concludeDispatch now parcel refusal).fault ≠ none) ∨
      (w.concludeDispatch now parcel refusal).writer =
        w.note now (.handed parcel.batch parcel.entries) := by
  unfold concludeDispatch
  split
  · exact .inr rfl
  · dsimp only
    split
    · refine .inl ⟨?_, by simp⟩
      refine Change.keeps_andThen (P := fun u => u.waiters = []) ?_ fun _ h => h
      rw [Change.writer_andThen rfl]
      exact waiters_recordFailure _ _
    · exact .inr rfl

/-- A turn wakes whoever waits, or leaves them with what they wait for. -/
theorem Turn.binds {c : Change} (h : Turn w c) : c.writer.waiters = [] ∨ w.Binds c.writer := by
  induction h with
  | mild same => rw [same]; exact .inr (.refl _)
  | @andThen w c next first second hc hn =>
    unfold Change.andThen
    split
    · exact hc
    · rcases hn with hn | hn
      · exact .inl hn
      · rcases hc with hc | hc
        · exact .inl (List.sublist_nil.1 (hc ▸ second.regular.waiters))
        · exact .inr (hc.trans hn)
  | note | beginDeferredFlush | beginTimedFlush => exact .inr (.of_same rfl rfl rfl)
  | bind loop => exact .inr (.of_silent (silent_bind _ _) (refusal?_bind _ _))
  | accept now entry => exact .inr (binds_accept _ _ _)
  | startDispatch loop now bound => exact .inr (binds_startDispatch now bound)
  | emptyBatch batch =>
    exact .inr (.of_silent ⟨rfl, rfl, InFlight.ids_update _ _ fun _ => rfl, rfl⟩ rfl)
  | @concludeDispatch w now parcel refusal =>
    rcases concludeDispatch_cases w now parcel refusal with h | h
    · exact .inl h.1
    · rw [h]
      exact .inr (.of_same rfl rfl rfl)
  | @endTimedFlush w =>
    exact .inl (List.sublist_nil.1 (regular_armTimerIf w.notify.writer _).waiters)
  | endCompletion => exact .inl rfl
  | reportFailed now batch fault =>
    unfold Writer.reportFailed
    split
    · exact .inr (.refl _)
    · rw [Change.writer_andThen rfl]
      exact .inl (waiters_recordFailure _ _)
  | expire now batch =>
    unfold Writer.expire
    split
    · rw [Change.writer_andThen rfl]
      exact .inl (waiters_recordFailure _ _)
    · exact .inr (.refl _)
  | @bufferTimeOver w =>
    refine .inr (.of_silent (silent_bufferTimeOver w) ?_)
    unfold Writer.bufferTimeOver
    dsimp only
    split
    · rfl
    · split <;> rfl
  | @close w now =>
    by_cases hc : w.closed = true
    · unfold Writer.close
      rw [if_pos hc]
      exact .inr (.refl _)
    · exact .inl (waiters_close (by simpa using hc) now)

end Writer
end BatchWriter
