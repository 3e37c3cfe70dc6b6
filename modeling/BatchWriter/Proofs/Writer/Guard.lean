import BatchWriter.Proofs.Writer.Dispatch
import BatchWriter.Proofs.Writer.Terminal

/-!
# What sees to it that a buffer is flushed

Entries of a bounded stay in the buffer have either their alarm or a flush that was put off
until a slot is free. Only the alarm puts a flush off, and only when every slot is taken.
-/

set_option autoImplicit false

namespace BatchWriter
namespace Writer

/-- A flush is put off only while there is something to flush and no slot for it. -/
def Guarded (w : Writer) : Prop :=
  w.deferred = true → w.timerArmed = false ∧ w.buffer.entries ≠ [] ∧ w.hasCapacity = false ∧
    w.loop.isSome = true

/-- A usable writer with a limit has seen to it that its buffer will be flushed. -/
def Scheduled (w : Writer) : Prop :=
  w.refusal? = none → w.loop.isSome = true → w.config.maxTimeInBuffer.isSome = true →
    w.config.Tame → w.buffer.entries ≠ [] → w.timerArmed = true ∨ w.deferred = true

variable {now : Nat} {w u : Writer} {c : Change}

theorem Guarded.of_undeferred (h : w.deferred = false) : w.Guarded :=
  fun on => by rw [h] at on; cases on

theorem hasCapacity_of_ids {t t' : InFlight Value} (ids : t'.ids = t.ids)
    (limit : t'.limit = t.limit) : t'.hasCapacity = t.hasCapacity := by
  rw [InFlight.hasCapacity, InFlight.hasCapacity, ← InFlight.length_ids, ← InFlight.length_ids,
    ids, limit]

theorem Guarded.of_ids (h : w.Guarded) {inFlight : InFlight Value}
    (ids : inFlight.ids = w.inFlight.ids) (limit : inFlight.limit = w.inFlight.limit) :
    Guarded { w with inFlight } := by
  intro deferred
  obtain ⟨unarmed, filled, full, bound⟩ := h deferred
  exact ⟨unarmed, filled, (hasCapacity_of_ids ids limit).trans full, bound⟩

/-! ## Arming the timer -/

theorem armed_armTimerIf (usable : w.refusal? = none) (bound : w.loop.isSome = true)
    (limited : w.config.maxTimeInBuffer.isSome = true) (tame : w.config.Tame) :
    (w.armTimerIf true).writer.timerArmed = true := by
  obtain ⟨limit, hl⟩ := Option.isSome_iff_exists.1 limited
  obtain ⟨delay, hd⟩ := tame.flush limit hl
  obtain ⟨loop, hb⟩ := Option.isSome_iff_exists.1 bound
  unfold armTimerIf armTimer
  simp only [if_true, hl]
  split
  · next idle =>
    simp only [hb, Option.isNone_some, (refusal?_eq_none_iff.1 usable).1, Bool.or_false] at idle
    exact idle
  · rw [hd]

/-- A timer that is armed for a buffer that was empty, or not at all, leaves no flush put
off beside it. -/
theorem Guarded.armTimerIf (h : w.Guarded) {condition : Bool}
    (fresh : condition = true → w.deferred = false) : (w.armTimerIf condition).writer.Guarded := by
  cases condition with
  | false => exact h
  | true =>
    obtain ⟨armed, same⟩ := w.writer_armTimerIf true
    rw [same]
    exact of_undeferred (fresh rfl)

theorem Scheduled.armTimerIf {condition : Bool} (h : condition = false → w.Scheduled) :
    (w.armTimerIf condition).writer.Scheduled := by
  cases condition with
  | false => exact h rfl
  | true =>
    intro usable bound limited tame _
    obtain ⟨armed, same⟩ := w.writer_armTimerIf true
    rw [same] at usable bound limited tame
    exact .inl (armed_armTimerIf usable bound limited tame)

theorem Scheduled.of_empty (h : w.buffer.entries = []) : w.Scheduled :=
  fun _ _ _ _ filled => absurd h filled

theorem Scheduled.of_refused (h : w.refusal? ≠ none) : w.Scheduled := fun usable => absurd usable h

theorem Guarded.andThen {next : Writer → Change} (h : c.writer.Guarded)
    (hn : (next c.writer).writer.Guarded) : (c.andThen next).writer.Guarded :=
  Change.of_parts (P := Guarded) h fun _ => hn

/-! ## What calls, subscribers and destinations do -/

theorem Guarded.bind (h : w.Guarded) (loop : LoopName) : (w.bind loop).writer.Guarded := by
  unfold Writer.bind
  split
  · next free =>
    -- A writer that was never used has put nothing off.
    have undeferred : w.deferred = false := by
      by_contra on
      have bound := (h (by simpa using on)).2.2.2
      rw [free] at bound
      cases bound
    exact Guarded.armTimerIf (w := { w with loop := some loop }) (.of_undeferred undeferred)
      fun _ => undeferred
  · split <;> exact h

theorem Scheduled.bind (h : w.Scheduled) (loop : LoopName) : (w.bind loop).writer.Scheduled := by
  unfold Writer.bind
  split
  · refine Scheduled.armTimerIf (w := { w with loop := some loop }) fun empty => .of_empty ?_
    exact (Buffer.isEmpty_iff _).1 (by simpa using empty)
  · split <;> exact h

theorem Guarded.accept (h : w.Guarded) (now : Nat) (entry : Value) :
    (w.accept now entry).writer.Guarded := by
  have appended : Guarded
      (note now (.accepted entry) { w with buffer := w.buffer.append entry }) := fun on =>
    ⟨(h on).1, List.append_ne_nil_of_right_ne_nil _ (List.cons_ne_nil _ _), (h on).2.2⟩
  refine Guarded.andThen (c := Writer.measure _ _) appended (appended.armTimerIf fun empty => ?_)
  by_contra on
  exact (h ((Bool.not_eq_false _).mp on)).2.1 ((Buffer.isEmpty_iff _).1 empty)

theorem Scheduled.accept (h : w.Scheduled) (now : Nat) (entry : Value) :
    (w.accept now entry).writer.Scheduled := by
  unfold Writer.accept
  dsimp only
  rw [Change.writer_andThen rfl]
  refine Scheduled.armTimerIf fun filled usable bound limited tame _ =>
    h usable bound limited tame fun none => ?_
  rw [(Buffer.isEmpty_iff _).2 none] at filled
  cases filled

theorem CallChange.guarded (h : CallChange now w c) (hw : w.Guarded) : c.writer.Guarded := by
  induction h with
  | mild same => rwa [same]
  | andThen _ _ first second =>
    exact Change.of_parts (P := Guarded) (first hw) fun ok => second ok (first hw)
  | note event => exact hw
  | bind loop => exact hw.bind loop
  | accept entry => exact hw.accept now entry
  | emptyBatch batch =>
    exact hw.of_ids (InFlight.ids_update batch (fun r => { r with entries := [] }) fun _ => rfl) rfl
  | addWaiter call _ => exact hw
  | dropWaiter call => exact hw
  | @close w =>
    by_cases closed : w.closed = true
    · unfold Writer.close
      rwa [if_pos closed]
    · rw [writer_close (by simpa using closed)]
      exact .of_undeferred rfl

theorem CallChange.scheduled (h : CallChange now w c) (hw : w.Scheduled) : c.writer.Scheduled := by
  induction h with
  | mild same => rwa [same]
  | andThen _ _ first second =>
    exact Change.of_parts (P := Scheduled) (first hw) fun ok => second ok (first hw)
  | note event => exact hw
  | bind loop => exact hw.bind loop
  | accept entry => exact hw.accept now entry
  | emptyBatch batch => exact hw
  | addWaiter call _ => exact hw
  | dropWaiter call => exact hw
  | @close w =>
    by_cases closed : w.closed = true
    · unfold Writer.close
      rwa [if_pos closed]
    · rw [writer_close (by simpa using closed)]
      exact .of_refused (by simp [refusal?])

/-! ## Nothing but the alarm puts a flush off -/

def Undelaying (w : Writer) (c : Change) : Prop := w.deferred = false → c.writer.deferred = false

theorem Undelaying.andThen {next : Writer → Change} (h : Undelaying w c)
    (hn : Undelaying c.writer (next c.writer)) : Undelaying w (c.andThen next) := fun before =>
  Change.of_parts (P := (·.deferred = false)) (h before) fun _ => hn (h before)

theorem undelaying_armTimerIf (w : Writer) (condition : Bool) :
    Undelaying w (w.armTimerIf condition) := by
  intro before
  obtain ⟨armed, same⟩ := w.writer_armTimerIf condition
  rw [same]
  exact before

theorem undelaying_bind (w : Writer) (loop : LoopName) : Undelaying w (w.bind loop) := by
  intro before
  unfold bind
  split
  · exact undelaying_armTimerIf { w with loop := some loop } _ before
  · split <;> exact before

theorem CallChange.undelaying (h : CallChange now w c) : Undelaying w c := by
  induction h with
  | mild same => exact fun before => by rwa [same]
  | andThen _ _ first second =>
    exact fun before => Change.of_parts (P := (·.deferred = false)) (first before) fun ok =>
      second ok (first before)
  | bind loop => exact undelaying_bind _ _
  | @accept w entry =>
    refine Undelaying.andThen (c := Writer.measure _ _) (fun before => before) ?_
    exact undelaying_armTimerIf _ _
  | @close w =>
    intro before
    by_cases closed : w.closed = true
    · unfold Writer.close
      rwa [if_pos closed]
    · rw [writer_close (by simpa using closed)]
  | note | emptyBatch | addWaiter | dropWaiter => exact fun before => before

theorem PlainChange.undelaying (h : PlainChange now w c) : Undelaying w c := by
  cases h with
  | callChange h => exact h.undelaying
  | complete batch failed =>
    intro before
    unfold Writer.complete
    split
    · exact before
    · unfold Writer.requeue
      rw [Change.writer_andThen rfl, Change.writer_andThen rfl]
      split
      · exact before
      · refine Undelaying.andThen (c := Change.andThen _ _) (fun before => before) ?_ before
        exact undelaying_armTimerIf _ _
  | beginDeferredFlush => exact fun _ => rfl
  | beginTimedFlush => exact fun before => before
  | endTimedFlush =>
    refine Undelaying.andThen (c := Writer.notify _) (fun before => before) ?_
    exact undelaying_armTimerIf _ _
  | endCompletion => exact fun before => before
  | reportFailed batch fault =>
    intro before
    rcases w.writer_reportFailed now batch fault with same | ⟨r, -, same⟩
    · rw [same]; exact before
    · rw [same]; rfl

theorem Motion.undelaying (h : Motion now w c) : Undelaying w c := by
  cases h with
  | plainChange h => exact h.undelaying
  | @startDispatch loop bound =>
    intro before
    unfold Writer.startDispatch
    split
    · exact before
    · split
      · exact before
      · next entries rest _ =>
        dsimp only
        split
        · simp [Change.stay, before]
        · have taken : ({ w with buffer := rest
                                 deferred := w.deferred && !rest.isEmpty } : Writer).deferred =
              false := by simp [before]
          refine Undelaying.andThen (undelaying_bind _ _) (fun bound => ?_) taken
          obtain ⟨inFlight, writer⟩ := writer_openBatch (bind loop
            { w with buffer := rest, deferred := w.deferred && !rest.isEmpty }).writer now entries
          rw [writer]
          exact bound
  | concludeDispatch parcel refusal _ _ =>
    intro before
    rcases w.writer_concludeDispatch now parcel refusal with same | ⟨fault, -, same⟩
    · rw [same]; exact before
    · rw [same]; rfl

/-! ## Alarms and completions -/

/-- What returns to a buffer that holds entries already needs no timer. -/
theorem requeue_of_filled (filled : w.buffer.entries ≠ []) (batch size : Nat)
    (failed : List Value) :
    (w.requeue batch size failed).fault = none ∧
      (w.requeue batch size failed).writer = { w with buffer := w.buffer.prepend failed } := by
  have some : w.buffer.isEmpty = false := by simpa [Buffer.isEmpty] using filled
  unfold requeue
  split
  · next none =>
    rw [List.isEmpty_iff.1 none]
    exact ⟨rfl, rfl⟩
  · rw [some]
    exact ⟨rfl, rfl⟩

theorem complete_of_filled (filled : w.buffer.entries ≠ []) (now batch : Nat)
    (failed : List Value) : (w.complete now batch failed).fault = none ∧
      ∃ inFlight history front, (w.complete now batch failed).writer =
        { w with inFlight, history, buffer := w.buffer.prepend front } := by
  unfold complete
  split
  · exact ⟨rfl, w.inFlight, w.history, [], rfl⟩
  · next request _ =>
    rw [Change.fault_andThen rfl, Change.writer_andThen rfl]
    have returned := requeue_of_filled
      (w := ((note now (.completed batch request.entries failed) w).release batch).writer) filled
      batch request.entries.length failed
    exact ⟨returned.1, _, _, failed, returned.2⟩

theorem flushIsDue_complete (deferred : w.deferred = true) (filled : w.buffer.entries ≠ [])
    (now batch : Nat) (failed : List Value) :
    (w.complete now batch failed).writer.flushIsDue = true := by
  obtain ⟨-, inFlight, history, front, completed⟩ := complete_of_filled filled now batch failed
  have entries : (w.buffer.prepend front).entries ≠ [] := by
    rw [Buffer.entries_prepend]
    exact List.append_ne_nil_of_right_ne_nil _ filled
  simpa [completed, flushIsDue, deferred, Buffer.isEmpty] using entries

/-- The alarm puts the flush of what is buffered off when there is no slot. -/
theorem guarded_bufferTimeOver (before : w.deferred = false) (bound : w.loop.isSome = true) :
    w.bufferTimeOver.1.writer.Guarded := by
  unfold bufferTimeOver
  dsimp only
  split
  · exact .of_undeferred before
  · next live =>
    split
    · exact .of_undeferred before
    · next full =>
      simp only [Bool.or_eq_true, not_or] at live
      exact fun _ => ⟨rfl, fun none => live.2 ((Buffer.isEmpty_iff _).2 none),
        (Bool.not_eq_true _).mp full, bound⟩

theorem guarded_expire (h : w.Guarded) (now batch : Nat) : (w.expire now batch).writer.Guarded := by
  rcases w.writer_expire now batch with same | ⟨r, limit, -, same⟩
  · rwa [same]
  · rw [same]; exact .of_undeferred rfl

theorem guarded_reportFailed (h : w.Guarded) (now batch : Nat) (fault : Fault) :
    (w.reportFailed now batch fault).writer.Guarded := by
  rcases w.writer_reportFailed now batch fault with same | ⟨r, -, same⟩
  · rwa [same]
  · rw [same]; exact .of_undeferred rfl

theorem refused_losing (w : Writer) (now batch : Nat) (m : Milestone) (fault : Fault) :
    (w.losing now batch m fault).refusal? ≠ none :=
  fun usable => by simp [refusal?_eq_none_iff, losing] at usable

theorem scheduled_reportFailed (h : w.Scheduled) (now batch : Nat) (fault : Fault) :
    (w.reportFailed now batch fault).writer.Scheduled := by
  rcases w.writer_reportFailed now batch fault with same | ⟨r, -, same⟩
  · rwa [same]
  · rw [same]; exact .of_refused (refused_losing _ _ _ _ _)

theorem scheduled_expire (h : w.Scheduled) (now batch : Nat) :
    (w.expire now batch).writer.Scheduled := by
  rcases w.writer_expire now batch with same | ⟨r, limit, -, same⟩
  · rwa [same]
  · rw [same]; exact .of_refused (refused_losing _ _ _ _ _)

theorem scheduled_bufferTimeOver (stays : w.bufferTimeOver.2 = false) :
    w.bufferTimeOver.1.writer.Scheduled := by
  unfold bufferTimeOver at stays ⊢
  dsimp only at stays ⊢
  split
  · next idle =>
    intro usable _ _ _ filled
    have healthy := refusal?_eq_none_iff.1 usable
    simp only [Change.stay] at healthy filled
    simp [healthy.1, healthy.2, Buffer.isEmpty, filled] at idle
  · next live =>
    rw [if_neg live] at stays
    split
    · next room => simp [room] at stays
    · exact fun _ _ _ _ _ => .inr rfl

theorem scheduled_requeue (h : w.Scheduled) (batch size : Nat) (failed : List Value) :
    (w.requeue batch size failed).writer.Scheduled := by
  unfold requeue
  split
  · exact h
  · rw [Change.writer_andThen rfl, Change.writer_andThen rfl]
    refine Scheduled.armTimerIf fun filled usable bound limited tame _ =>
      h usable bound limited tame fun none => ?_
    rw [(Buffer.isEmpty_iff _).2 none] at filled
    cases filled

theorem scheduled_complete (h : w.Scheduled) (now batch : Nat) (failed : List Value) :
    (w.complete now batch failed).writer.Scheduled := by
  unfold complete
  split
  · exact h
  · next request _ =>
    rw [Change.writer_andThen rfl, Change.writer_andThen rfl]
    have released : ((note now (.completed batch request.entries failed) w).release
        batch).writer.Scheduled := h
    exact scheduled_requeue released batch request.entries.length failed

theorem scheduled_endTimedFlush (w : Writer) : w.endTimedFlush.writer.Scheduled := by
  unfold endTimedFlush
  rw [Change.writer_andThen rfl]
  exact Scheduled.armTimerIf fun empty =>
    .of_empty ((Buffer.isEmpty_iff _).1 (by simpa using empty))

/-- A batch that is refused with an ordinary fault fails the writer. -/
theorem concludeDispatch_ends (now : Nat) (parcel : Parcel) {refusal : Option Fault}
    (ordinary : ∀ fault, refusal = some fault → fault.isOrdinary = true) :
    (w.concludeDispatch now parcel refusal).fault = none ∨
      ∃ fault, (w.concludeDispatch now parcel refusal).fault = some fault ∧
        fault.isDestination = true ∧
        (w.concludeDispatch now parcel refusal).writer.refusal? ≠ none := by
  cases refusal with
  | none => exact .inl rfl
  | some fault =>
    refine .inr ⟨.submission parcel.batch fault, ?_, rfl, ?_⟩
    · simp [concludeDispatch, ordinary fault rfl]
    · rw [writer_concludeDispatch_refused _ _ _ (ordinary fault rfl)]
      exact refused_losing _ _ _ _ _

end Writer
end BatchWriter
