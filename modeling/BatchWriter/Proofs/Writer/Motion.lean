import BatchWriter.Proofs.Writer.Turn

/-!
# Motions of a writer

Every change that a writer goes through on a bench at an instant, one by one: what calls,
subscribers and destinations do to it, dispatches apart; the parts of a report or of an alarm; and
the beginning and the end of a dispatch. What every motion keeps holds in every state.
-/

set_option autoImplicit false

namespace BatchWriter
namespace Writer

/-- What calls, subscribers and destinations do to a writer, dispatches apart. -/
inductive CallChange (now : Nat) : Writer → Change → Prop
  | mild {w : Writer} {c : Change} (same : c.writer = w) (mild : ∀ e ∈ c.effects, e.Mild w) :
      CallChange now w c
  | andThen {w : Writer} {c : Change} {next : Writer → Change} (first : CallChange now w c)
      (second : c.fault = none → CallChange now c.writer (next c.writer)) :
      CallChange now w (c.andThen next)
  | note {w : Writer} (event : Event) : CallChange now w (.stay (w.note now (.announced event)))
  | bind {w : Writer} (loop : LoopName) : CallChange now w (w.bind loop)
  | accept {w : Writer} (entry : Value) : CallChange now w (w.accept now entry)
  | emptyBatch {w : Writer} (batch : Nat) : CallChange now w (w.emptyBatch batch)
  /-- Only a usable writer is waited for. -/
  | addWaiter {w : Writer} (call : Nat) (usable : w.refusal? = none) :
      CallChange now w (w.addWaiter call)
  | dropWaiter {w : Writer} (call : Nat) : CallChange now w (w.dropWaiter call)
  | close {w : Writer} : CallChange now w (w.close now)

/-- What calls do, or what a report or an alarm does to a writer beside dispatches. -/
inductive PlainChange (now : Nat) : Writer → Change → Prop
  | callChange {w : Writer} {c : Change} (h : CallChange now w c) : PlainChange now w c
  | complete {w : Writer} (batch : Nat) (failed : List Value) :
      PlainChange now w (w.complete now batch failed)
  | beginDeferredFlush {w : Writer} : PlainChange now w w.beginDeferredFlush
  | beginTimedFlush {w : Writer} : PlainChange now w (w.beginTimedFlush now)
  | endTimedFlush {w : Writer} : PlainChange now w w.endTimedFlush
  | endCompletion {w : Writer} : PlainChange now w w.endCompletion
  | reportFailed {w : Writer} (batch : Nat) (fault : Fault) :
      PlainChange now w (w.reportFailed now batch fault)

inductive Motion (now : Nat) : Writer → Change → Prop
  | plainChange {w : Writer} {c : Change} (h : PlainChange now w c) : Motion now w c
  | startDispatch {w : Writer} {loop : LoopName} (bound : w.loop = some loop) :
      Motion now w (w.startDispatch loop now).1
  /-- The writer is as usable as when the batch was opened. -/
  | concludeDispatch {w : Writer} (parcel : Parcel) (refusal : Option Fault)
      (usable : w.refusal? = none) (bound : w.loop.isSome = true) :
      Motion now w (w.concludeDispatch now parcel refusal)

/-! What becomes of a writer. -/

section Writer

variable (w : Writer)

theorem writer_recordFailure (fault : Fault) : (w.recordFailure fault).writer =
    { w with
      failure := some (w.failure.getD fault)
      deferred := false
      timerArmed := false
      waiters := [] } := by
  cases hf : w.failure <;>
    simp [recordFailure, keepFailure, hf, Change.andThen, Change.stay, announce, cancelTimer,
      showGauges, measure, notify]

def losing (now batch : Nat) (m : Milestone) (fault : Fault) : Writer :=
  { w with
    history := (now, m) :: w.history
    inFlight := w.inFlight.remove batch
    failure := some (w.failure.getD fault)
    deferred := false
    timerArmed := false
    waiters := [] }

theorem writer_lost (now batch : Nat) (m : Milestone) (fault : Fault) :
    ((note now m w).release batch |>.andThen (recordFailure fault)).writer =
      w.losing now batch m fault := by
  rw [Change.writer_andThen rfl, writer_recordFailure]
  rfl

theorem writer_reportFailed (now batch : Nat) (fault : Fault) :
    (w.reportFailed now batch fault).writer = w ∨ ∃ r, w.inFlight.find? batch = some r ∧
      (w.reportFailed now batch fault).writer = w.losing now batch
        (.reportedFailed batch r.entries) (.destination batch r.entries.length fault) := by
  unfold reportFailed
  split
  · exact .inl rfl
  · next r found => exact .inr ⟨r, found, writer_lost _ _ _ _ _⟩

theorem writer_expire (now batch : Nat) :
    (w.expire now batch).writer = w ∨ ∃ r limit, w.inFlight.find? batch = some r ∧
      (w.expire now batch).writer = w.losing now batch
        (.expired batch r.entries) (.timeout batch r.entries.length limit) := by
  unfold expire
  split
  · next r limit found _ => exact .inr ⟨r, limit, found, writer_lost _ _ _ _ _⟩
  · exact .inl rfl

/-- Opening a batch concerns the history and the batches only. -/
theorem writer_openBatch (now : Nat) (entries : List Value) :
    ∃ inFlight, (w.openBatch now entries).writer = { w with
      history := (now, .opened (w.inFlight.issued + 1) entries) :: w.history
      inFlight } := by
  unfold openBatch
  dsimp only
  refine Change.keeps_andThen (P := fun u => ∃ inFlight, u = { w with
    history := (now, .opened (w.inFlight.issued + 1) entries) :: w.history, inFlight }) ?_
    fun _ h => h
  refine Change.keeps_andThen (P := fun u => ∃ inFlight, u = { w with
    history := (now, .opened (w.inFlight.issued + 1) entries) :: w.history, inFlight }) ?_
    fun _ h => h
  unfold startTimeout
  split
  · exact ⟨_, rfl⟩
  · split <;> exact ⟨_, rfl⟩

theorem writer_concludeDispatch_refused (now : Nat) (parcel : Parcel) {fault : Fault}
    (ordinary : fault.isOrdinary = true) :
    (w.concludeDispatch now parcel (some fault)).writer =
      (w.note now (.handed parcel.batch parcel.entries)).losing now parcel.batch
        (.refused parcel.batch parcel.entries) (.submission parcel.batch fault) := by
  rw [← writer_lost]
  simp only [concludeDispatch, ordinary, if_true]
  unfold Change.andThen
  split <;> rfl

theorem writer_concludeDispatch (now : Nat) (parcel : Parcel) (refusal : Option Fault) :
    (w.concludeDispatch now parcel refusal).writer =
        w.note now (.handed parcel.batch parcel.entries) ∨
      ∃ fault, refusal = some fault ∧ (w.concludeDispatch now parcel refusal).writer =
        (w.note now (.handed parcel.batch parcel.entries)).losing now parcel.batch
          (.refused parcel.batch parcel.entries) (.submission parcel.batch fault) := by
  cases refusal with
  | none => exact .inl rfl
  | some fault =>
    by_cases ordinary : fault.isOrdinary = true
    · exact .inr ⟨fault, rfl, w.writer_concludeDispatch_refused now parcel ordinary⟩
    · left
      simp only [concludeDispatch, if_neg ordinary]
      rfl

end Writer

/-- What a closed or failed writer is done with. -/
structure Sealed (w : Writer) : Prop where
  waiters : w.refusal? ≠ none → w.waiters = []
  requests : w.closed = true → w.inFlight.requests = []
  timer : w.closed = true → w.timerArmed = false
  deferred : w.closed = true ∨ w.failure.isSome = true → w.deferred = false
  /-- Only a writer that was used from a loop has batches, a failure or an armed timer. -/
  bound : w.inFlight.requests ≠ [] ∨ w.failure.isSome = true ∨ w.timerArmed = true →
    w.loop.isSome = true
  /-- Only what became of a batch fails a writer. -/
  cause : ∀ fault, w.failure = some fault → fault.isDestination = true

variable {now : Nat} {w : Writer} {c : Change}

/-- No flush is put off on a writer that refuses work. -/
theorem Sealed.usable_of_deferred (sealed : w.Sealed) (deferred : w.deferred = true) :
    w.refusal? = none := by
  have settled : ¬ (w.closed = true ∨ w.failure.isSome = true) := fun refused => by
    rw [sealed.deferred refused] at deferred
    cases deferred
  simp only [not_or, Bool.not_eq_true, Option.isSome_eq_false_iff, Option.isNone_iff_eq_none]
    at settled
  exact refusal?_eq_none_iff.2 settled

theorem deferred_of_due (due : w.flushIsDue = true) : w.deferred = true :=
  ((Bool.and_eq_true _ _).mp due).1

theorem Sealed.andThen {next : Writer → Change} (hc : c.writer.Sealed)
    (hn : c.fault = none → (next c.writer).writer.Sealed) : (c.andThen next).writer.Sealed :=
  Change.of_parts (P := Sealed) hc hn

/-- A timer is armed only for a writer that is bound and not closed. -/
theorem Sealed.armTimerIf (h : w.Sealed) (condition : Bool) :
    (w.armTimerIf condition).writer.Sealed := by
  unfold Writer.armTimerIf armTimer
  split
  · split
    · exact h
    · split
      · exact h
      · next idle =>
        split
        · exact h
        · simp only [Bool.or_eq_true, not_or, Bool.not_eq_true, Option.isNone_eq_false_iff] at idle
          exact { h with
            timer := fun closed => by rw [idle.2] at closed; cases closed
            bound := fun _ => idle.1.2 }
  · exact h

theorem Sealed.bind (h : w.Sealed) (loop : LoopName) : (w.bind loop).writer.Sealed := by
  unfold Writer.bind
  split
  · refine Sealed.armTimerIf ?_ _
    exact { h with bound := fun _ => rfl }
  · split <;> exact h

theorem CallChange.sealed (h : CallChange now w c) (hw : w.Sealed) : c.writer.Sealed := by
  induction h with
  | mild same => exact same ▸ hw
  | andThen _ _ first second => exact (first hw).andThen fun ok => second ok (first hw)
  | note event => exact { hw with }
  | bind loop => exact hw.bind loop
  | accept entry =>
    refine Sealed.andThen (c := Writer.measure _ _) { hw with } fun _ => Sealed.armTimerIf ?_ _
    exact { hw with }
  | emptyBatch batch =>
    exact { hw with
      requests := fun closed => List.map_eq_nil_iff.2 (hw.requests closed)
      bound := fun h => hw.bound (h.imp_left fun some none => some (List.map_eq_nil_iff.2 none)) }
  | addWaiter call usable => exact { hw with waiters := fun refused => absurd usable refused }
  | dropWaiter call =>
    exact { hw with
      waiters := fun refused => by
        simp only [Writer.dropWaiter, Change.stay]
        rw [hw.waiters refused, List.filter_nil] }
  | @close w =>
    by_cases closed : w.closed = true
    · unfold Writer.close
      rwa [if_pos closed]
    · rw [writer_close (by simpa using closed)]
      exact { waiters := fun _ => rfl, requests := fun _ => rfl, timer := fun _ => rfl,
              deferred := fun _ => rfl, cause := hw.cause
              bound := fun h => hw.bound (.inr (.inl (by simpa [InFlight.clear] using h))) }

theorem bound_of_bind {loop : LoopName} (ok : (w.bind loop).fault = none) :
    (w.bind loop).writer.loop = some loop := by
  cases hl : w.loop with
  | none =>
    obtain ⟨armed, writer⟩ := writer_armTimerIf { w with loop := some loop } (!w.buffer.isEmpty)
    simp only [Writer.bind, hl]
    rw [writer]
  | some own =>
    simp only [Writer.bind, hl] at ok ⊢
    split at ok
    · next same => rw [if_pos same, ← same]; exact hl
    · cases ok

theorem callChange_checkUsable (w : Writer) : CallChange now w w.checkUsable := by
  unfold checkUsable
  split <;> exact .mild rfl (by simp [Change.stop, Change.stay])

theorem usable_of_checkUsable (ok : w.checkUsable.fault = none) :
    w.checkUsable.writer.refusal? = none := by
  unfold checkUsable at ok ⊢
  split
  · next refused =>
    rw [refused] at ok
    cases ok
  · next usable => exact usable

/-- Whoever begins to wait has found the writer usable. -/
theorem callChange_wait (w : Writer) (loop : LoopName) (call : Nat) :
    CallChange now w
    ((w.checkUsable.andThen (Writer.bind loop)).andThen (Writer.addWaiter call)) := by
  refine .andThen (.andThen w.callChange_checkUsable fun _ => .bind loop) fun ok =>
    .addWaiter call ?_
  cases checked : w.checkUsable.fault with
  | some fault =>
    rw [Change.andThen_of_fault checked, checked] at ok
    cases ok
  | none =>
    rw [Change.writer_andThen checked, refusal?_bind]
    exact usable_of_checkUsable checked

theorem Sealed.openBatch (h : w.Sealed) (usable : w.refusal? = none) (bound : w.loop.isSome = true)
    (now : Nat) (entries : List Value) : (w.openBatch now entries).writer.Sealed := by
  obtain ⟨inFlight, writer⟩ := w.writer_openBatch now entries
  rw [writer]
  exact { h with
    requests := fun closed => absurd closed (by simp [(refusal?_eq_none_iff.1 usable).1])
    bound := fun _ => bound }

theorem Sealed.startDispatch (h : w.Sealed) (loop : LoopName) (now : Nat) :
    (w.startDispatch loop now).1.writer.Sealed := by
  unfold Writer.startDispatch
  split
  · exact h
  · next usable =>
    split
    · exact h
    · next entries rest _ =>
      have taken : Sealed { w with buffer := rest, deferred := w.deferred && !rest.isEmpty } :=
        { h with deferred := fun done => by simp [h.deferred done] }
      dsimp only
      split
      · exact taken
      · refine (taken.bind loop).andThen fun ok => ?_
        exact (taken.bind loop).openBatch ((refusal?_bind _ _).trans usable)
          (by rw [bound_of_bind ok]; rfl) _ _

theorem Sealed.losing (h : w.Sealed) (bound : w.loop.isSome = true) (now batch : Nat)
    (m : Milestone) {fault : Fault} (kind : fault.isDestination = true) :
    (w.losing now batch m fault).Sealed where
  waiters _ := rfl
  requests closed := by simp [Writer.losing, InFlight.remove, h.requests closed]
  timer _ := rfl
  deferred _ := rfl
  bound _ := bound
  cause f hf := by
    cases first : w.failure with
    | none =>
      simp only [Writer.losing, first, Option.getD_none, Option.some.injEq] at hf
      exact hf ▸ kind
    | some g =>
      simp only [Writer.losing, first, Option.getD_some, Option.some.injEq] at hf
      exact h.cause f (by rw [first, hf])

theorem requests_ne_nil {batch : Nat} {r : Request Value}
    (found : w.inFlight.find? batch = some r) : w.inFlight.requests ≠ [] :=
  fun none => by simp [InFlight.find?, none] at found

theorem Sealed.requeue (h : w.Sealed) (batch size : Nat) (failed : List Value) :
    (w.requeue batch size failed).writer.Sealed := by
  unfold Writer.requeue
  split
  · exact h
  · refine Sealed.andThen (Sealed.andThen (c := Writer.measure _ _) { h with } fun _ => ?_)
      fun _ => Sealed.armTimerIf ?_ _
    all_goals exact { h with }

theorem Sealed.complete (h : w.Sealed) (now batch : Nat) (failed : List Value) :
    (w.complete now batch failed).writer.Sealed := by
  unfold Writer.complete
  split
  · exact h
  · next r found =>
    have released : Sealed
      ((w.note now (.completed batch r.entries failed)).release batch).writer :=
      { h with
        requests := fun closed => by simp [note, release, InFlight.remove, h.requests closed]
        bound := fun hb => h.bound (hb.imp_left fun _ => requests_ne_nil found) }
    exact Sealed.andThen (Sealed.andThen released fun _ => released) fun _ => released.requeue _ _ _

theorem PlainChange.sealed (h : PlainChange now w c) (hw : w.Sealed) : c.writer.Sealed := by
  cases h with
  | callChange h => exact h.sealed hw
  | complete batch failed => exact hw.complete now batch failed
  | beginDeferredFlush => exact { hw with deferred := fun _ => rfl }
  | beginTimedFlush => exact { hw with }
  | endTimedFlush =>
    have woken : w.notify.writer.Sealed := { hw with waiters := fun _ => rfl }
    exact woken.andThen fun _ => woken.armTimerIf _
  | endCompletion => exact { hw with waiters := fun _ => rfl }
  | reportFailed batch fault =>
    rcases w.writer_reportFailed now batch fault with same | ⟨r, found, same⟩
    · rw [same]; exact hw
    · rw [same]; exact hw.losing (hw.bound (.inl (requests_ne_nil found))) _ _ _ rfl

/-- Every motion leaves a closed or failed writer sealed. -/
theorem Motion.sealed (h : Motion now w c) (hw : w.Sealed) : c.writer.Sealed := by
  cases h with
  | plainChange h => exact h.sealed hw
  | startDispatch bound => exact hw.startDispatch _ _
  | concludeDispatch parcel refusal usable bound =>
    have noted : (w.note now (.handed parcel.batch parcel.entries)).Sealed := { hw with }
    rcases w.writer_concludeDispatch now parcel refusal with same | ⟨fault, -, same⟩
    · exact same ▸ noted
    · exact same ▸ noted.losing bound _ _ _ rfl

theorem Sealed.expire (h : w.Sealed) (now batch : Nat) : (w.expire now batch).writer.Sealed := by
  rcases w.writer_expire now batch with same | ⟨r, limit, found, same⟩
  · rw [same]; exact h
  · rw [same]; exact h.losing (h.bound (.inl (requests_ne_nil found))) _ _ _ rfl

theorem Sealed.bufferTimeOver (h : w.Sealed) : w.bufferTimeOver.1.writer.Sealed := by
  have rung : Sealed { w with timerArmed := false } :=
    { h with
      timer := fun _ => rfl
      bound := fun hb => h.bound (hb.imp_right (.imp_right (by simp))) }
  unfold Writer.bufferTimeOver
  dsimp only
  split
  · exact rung
  · next idle =>
    split
    · exact rung
    · simp only [Bool.or_eq_true, not_or, Bool.not_eq_true] at idle
      exact { rung with
        deferred := fun done => absurd done (by simp [announce, idle.1.1, idle.1.2]) }

/-- A closed writer has no batch open. -/
theorem Sealed.going (h : w.Sealed) {batch : Nat} (isOpen : batch ∈ w.inFlight.ids) :
    w.closed = false := by
  by_contra closed
  rw [InFlight.ids, h.requests (by simpa using closed)] at isOpen
  cases isOpen

structure Idle (w : Writer) : Prop where
  loop : w.loop = none
  requests : w.inFlight.requests = []
  waiters : w.waiters = []
  timer : w.timerArmed = false
  deferred : w.deferred = false
  failure : w.failure = none
  closed : w.closed = false

theorem idle_of_restore {now : Nat} {id : Value} {config : Config} {converter : Converter}
    {destination : Nat} {bus : Option String} {entries : List Value} {c : Change}
    (h : restore now id config converter destination bus entries = .ok c) : c.writer.Idle := by
  obtain ⟨buffer, inFlight, notices, -, -, tracker, writer, -⟩ := restored_spec h
  have none : inFlight.requests = [] := by
    unfold InFlight.ofLimit at tracker
    split at tracker <;> cases tracker
    rfl
  rw [writer]
  exact ⟨rfl, none, rfl, rfl, rfl, rfl, rfl⟩

theorem Idle.sealed (h : w.Idle) : w.Sealed where
  waiters _ := h.waiters
  requests _ := h.requests
  timer _ := h.timer
  deferred _ := h.deferred
  bound used := by simp [h.requests, h.failure, h.timer] at used
  cause f hf := by rw [h.failure] at hf; cases hf

end Writer
end BatchWriter
