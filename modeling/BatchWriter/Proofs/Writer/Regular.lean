import BatchWriter.Proofs.InFlight
import BatchWriter.Writer.Batch

/-!
# What every change of a writer respects

A later state of a writer keeps its identity, limits and loop, stays closed and failed,
and only adds to its history. A regular change leads to such a state and forgets no
waiting call without waking it. Every change is regular, except that a call starts
or stops waiting.
-/

set_option autoImplicit false

namespace BatchWriter
namespace Writer

/-- A writer accepts work while it is neither closed nor failed. -/
theorem refusal?_eq_none_iff {w : Writer} :
    w.refusal? = none ↔ w.closed = false ∧ w.failure = none := by
  unfold refusal?
  cases w.closed <;> simp

theorem refusal?_of_failed {w : Writer} (h : w.failure.isSome = true) : w.refusal? ≠ none := by
  intro hr
  rw [(refusal?_eq_none_iff.1 hr).2] at h
  cases h

theorem refusal?_of_closed {w : Writer} (h : w.closed = true) : w.refusal? ≠ none := by
  simp [refusal?, h]

/-- One writer at two moments, the second not before the first. -/
structure Later (w w' : Writer) : Prop where
  id : w'.id = w.id
  config : w'.config = w.config
  destination : w'.destination = w.destination
  limit : w'.inFlight.limit = w.inFlight.limit
  loop : ∀ l, w.loop = some l → w'.loop = some l
  issued : w.inFlight.issued ≤ w'.inFlight.issued
  carries : w.inFlight.Carries w'.inFlight
  closed : w.closed = true → w'.closed = true
  failure : ∀ f, w.failure = some f → w'.failure = some f
  history : w.history <:+ w'.history

namespace Later

variable {w w' w'' : Writer}

theorem refl (w : Writer) : w.Later w where
  id := rfl
  config := rfl
  destination := rfl
  limit := rfl
  loop _ h := h
  issued := Nat.le_refl _
  carries := .refl _
  closed h := h
  failure _ h := h
  history := List.suffix_refl _

theorem trans (h : w.Later w') (h' : w'.Later w'') : w.Later w'' where
  id := h'.id.trans h.id
  config := h'.config.trans h.config
  destination := h'.destination.trans h.destination
  limit := h'.limit.trans h.limit
  loop l hl := h'.loop l (h.loop l hl)
  issued := Nat.le_trans h.issued h'.issued
  carries := h.carries.trans h'.carries h.issued
  closed hc := h'.closed (h.closed hc)
  failure f hf := h'.failure f (h.failure f hf)
  history := h.history.trans h'.history

theorem usable (h : w.Later w') (hu : w'.refusal? = none) : w.refusal? = none := by
  rw [refusal?_eq_none_iff] at hu ⊢
  constructor
  · cases hc : w.closed with
    | false => rfl
    | true => exact absurd (h.closed hc) (by simp [hu.1])
  · cases hf : w.failure with
    | none => rfl
    | some f => exact absurd (h.failure f hf) (by simp [hu.2])

theorem isBound (h : w.Later w') (hl : w.loop.isSome = true) : w'.loop.isSome = true := by
  obtain ⟨l, hl⟩ := Option.isSome_iff_exists.1 hl
  rw [h.loop l hl]
  rfl

end Later
end Writer

def Effect.Quiet : Effect → Prop
  | .wake _ => False
  | .setAlarm _ _ => False
  | _ => True

/-- A change to a later state that leaves each waiting call in place or wakes it. -/
structure Change.Regular (w : Writer) (c : Change) : Prop where
  later : w.Later c.writer
  waiters : c.writer.waiters.Sublist w.waiters
  told : ∀ id ∈ w.waiters, id ∈ c.writer.waiters ∨ Effect.wake id ∈ c.effects
  woken : ∀ id, Effect.wake id ∈ c.effects → id ∈ w.waiters ∧ id ∉ c.writer.waiters
  alarm : ∀ d, Effect.setAlarm .flush d ∈ c.effects → c.writer.loop.isSome = true
  timeout : ∀ n d, Effect.setAlarm (.expire n) d ∈ c.effects →
    c.writer.config.requestTimeout.isSome = true

namespace Change.Regular

variable {w : Writer} {c : Change} {next : Writer → Change}

theorem of_quiet (later : w.Later c.writer) (waiters : c.writer.waiters = w.waiters)
    (quiet : ∀ e ∈ c.effects, e.Quiet) : Regular w c where
  later := later
  waiters := waiters ▸ List.Sublist.refl _
  told _ hid := .inl (by rwa [waiters])
  woken _ hid := (quiet _ hid).elim
  alarm _ hd := (quiet _ hd).elim
  timeout _ _ hd := (quiet _ hd).elim

/-- What holds of each part of a sequence of changes holds of the whole. -/
theorem andThen (hc : Regular w c) (hn : Regular c.writer (next c.writer)) :
    Regular w (c.andThen next) := by
  unfold Change.andThen
  split
  · exact hc
  · refine ⟨hc.later.trans hn.later, hn.waiters.trans hc.waiters, ?_, ?_, ?_, ?_⟩
    · intro id hid
      rcases hc.told id hid with h | h
      · rcases hn.told id h with h' | h'
        · exact .inl h'
        · exact .inr (List.mem_append_right _ h')
      · exact .inr (List.mem_append_left _ h)
    · intro id hid
      rcases List.mem_append.1 hid with h | h
      · obtain ⟨hw, hn'⟩ := hc.woken id h
        exact ⟨hw, fun hm => hn' (hn.waiters.subset hm)⟩
      · obtain ⟨hw, hn'⟩ := hn.woken id h
        exact ⟨hc.waiters.subset hw, hn'⟩
    · intro d hd
      rcases List.mem_append.1 hd with h | h
      · exact hn.later.isBound (hc.alarm d h)
      · exact hn.alarm d h
    · intro n d hd
      rcases List.mem_append.1 hd with h | h
      · rw [hn.later.config]
        exact hc.timeout n d h
      · exact hn.timeout n d h

end Change.Regular

namespace Writer

open Change (Regular)

variable (w : Writer)

theorem regular_stay : Regular w (.stay w) :=
  .of_quiet (.refl w) rfl (by simp [Change.stay])

theorem regular_stop (fault : Fault) : Regular w (.stop w fault) :=
  .of_quiet (.refl w) rfl (by simp [Change.stop])

theorem regular_announce (n : Notice) : Regular w (w.announce n) :=
  .of_quiet (.refl w) rfl (by simp [announce, Effect.Quiet])

theorem regular_measure (m : Measurement) : Regular w (w.measure m) :=
  .of_quiet (.refl w) rfl (by simp [measure, Effect.Quiet])

theorem regular_showGauges : Regular w w.showGauges := w.regular_measure _

theorem later_note (now : Nat) (m : Milestone) : w.Later (w.note now m) :=
  { Later.refl w with history := List.suffix_cons _ _ }

theorem regular_armTimer : Regular w w.armTimer := by
  unfold armTimer
  split
  · exact w.regular_stay
  · split
    · exact w.regular_stay
    · next h =>
      split
      · exact w.regular_stop _
      · refine ⟨{ Later.refl w with }, List.Sublist.refl _, fun _ h => .inl h, ?_, ?_, ?_⟩
        · simp
        · intro _ _
          cases hl : w.loop with
          | none => simp [hl] at h
          | some l => rfl
        · simp

theorem regular_armTimerIf (condition : Bool) : Regular w (w.armTimerIf condition) := by
  unfold armTimerIf
  split
  · exact w.regular_armTimer
  · exact w.regular_stay

theorem regular_cancelTimer : Regular w w.cancelTimer :=
  .of_quiet { Later.refl w with } rfl (by simp [cancelTimer, Effect.Quiet])

/-- A change of a later state that waits for the same calls is a change of the first. -/
theorem regular_of_later {w w' : Writer} {c : Change} (hc : Regular w' c) (h : w.Later w')
    (hw : w'.waiters = w.waiters) : Regular w c where
  later := h.trans hc.later
  waiters := hw ▸ hc.waiters
  told := hw ▸ hc.told
  woken := hw ▸ hc.woken
  alarm := hc.alarm
  timeout := hc.timeout

theorem regular_bind (loop : LoopName) : Regular w (w.bind loop) := by
  unfold bind
  split
  · next hl =>
    refine regular_of_later (regular_armTimerIf _ _) ?_ rfl
    exact { Later.refl w with loop := fun l h => by simp [hl] at h }
  · split
    · exact w.regular_stay
    · exact w.regular_stop _

theorem regular_notify : Regular w w.notify where
  later := { Later.refl w with }
  waiters := List.nil_sublist _
  told id hid := .inr (List.mem_map_of_mem hid)
  woken id hid := by
    obtain ⟨_, hm, he⟩ := List.mem_map.1 hid
    cases he
    exact ⟨hm, List.not_mem_nil⟩
  alarm d hd := by simp [notify] at hd
  timeout n d hd := by simp [notify] at hd

theorem regular_keepFailure (fault : Fault) : Regular w (w.keepFailure fault) := by
  unfold keepFailure
  split
  · exact w.regular_stay
  · next hf =>
    refine regular_of_later (regular_announce _ _) ?_ rfl
    exact { Later.refl w with failure := fun f h => by simp [hf] at h }

theorem regular_recordFailure (fault : Fault) : Regular w (w.recordFailure fault) :=
  (((w.regular_keepFailure fault).andThen (regular_cancelTimer _)).andThen
    (regular_showGauges _)).andThen (regular_notify _)

theorem regular_release (batch : Nat) : Regular w (w.release batch) :=
  .of_quiet { Later.refl w with carries := .remove batch } rfl (by simp [release, Effect.Quiet])

theorem regular_accept (now : Nat) (entry : Value) : Regular w (w.accept now entry) := by
  unfold accept
  refine Change.Regular.andThen ?_ (regular_armTimerIf _ _)
  exact regular_of_later (regular_measure _ _)
    { Later.refl w with history := List.suffix_cons _ _ } rfl

theorem regular_startTimeout (batch : Nat) : Regular w (w.startTimeout batch) := by
  unfold startTimeout
  split
  · exact w.regular_stay
  · next limit limited =>
    split
    · exact w.regular_stop _
    · refine ⟨{ Later.refl w with carries := ?_ }, List.Sublist.refl _, fun _ h => .inl h, ?_, ?_,
        fun _ _ _ => by rw [limited]; rfl⟩
      · exact .update batch (fun _ => rfl) fun _ => .inl rfl
      · simp
      · simp

theorem regular_openBatch (now : Nat) (entries : List Value) :
    Regular w (w.openBatch now entries) := by
  refine (Change.Regular.andThen ?_ (regular_measure _ _)).andThen (regular_announce _ _)
  refine regular_of_later (regular_startTimeout _ _) ?_ rfl
  exact { Later.refl w with
    issued := Nat.le_succ _
    carries := .openBatch entries now
    history := List.suffix_cons _ _ }

theorem regular_startDispatch (loop : LoopName) (now : Nat) :
    Regular w (w.startDispatch loop now).1 := by
  unfold startDispatch
  split
  · exact w.regular_stop _
  · split
    · exact w.regular_stop _
    · next entries rest _ =>
      have taken : w.Later { w with buffer := rest, deferred := w.deferred && !rest.isEmpty } :=
        { Later.refl w with }
      dsimp only
      split
      · exact regular_of_later (regular_stay _) taken rfl
      · exact regular_of_later ((regular_bind _ _).andThen (regular_openBatch _ _ _)) taken rfl

theorem regular_emptyBatch (batch : Nat) : Regular w (w.emptyBatch batch) := by
  refine .of_quiet { Later.refl w with carries := ?_ } rfl (by simp [emptyBatch, Change.stay])
  exact .update batch (fun _ => rfl) fun _ => .inr rfl

/-- The fault with which a change ends does not matter to its being regular. -/
theorem regular_with_fault {w : Writer} {c : Change} (h : Regular w c) (fault : Option Fault) :
    Regular w { c with fault } :=
  ⟨h.later, h.waiters, h.told, h.woken, h.alarm, h.timeout⟩

/-- The first thing that the end of a dispatch does is to note that the destination was
called, whatever it answered. -/
theorem regular_noted (now : Nat) (parcel : Parcel) (refusal : Option Fault) :
    Regular (w.note now (.handed parcel.batch parcel.entries))
      (w.concludeDispatch now parcel refusal) := by
  unfold concludeDispatch
  split
  · exact regular_showGauges _
  · dsimp only
    split
    · refine regular_with_fault (Regular.andThen ?_ (regular_showGauges _)) _
      refine Regular.andThen ?_ (regular_recordFailure _ _)
      exact regular_of_later (regular_release _ _)
        (later_note _ now (.refused parcel.batch parcel.entries)) rfl
    · exact regular_with_fault (regular_showGauges _) _

theorem regular_concludeDispatch (now : Nat) (parcel : Parcel) (refusal : Option Fault) :
    Regular w (w.concludeDispatch now parcel refusal) :=
  regular_of_later (w.regular_noted now parcel refusal) (later_note _ _ _) rfl

theorem handed_of_concludeDispatch (now : Nat) (parcel : Parcel) (refusal : Option Fault) :
    (now, .handed parcel.batch parcel.entries) ∈
      (w.concludeDispatch now parcel refusal).writer.history :=
  (w.regular_noted now parcel refusal).later.history.subset List.mem_cons_self

theorem regular_requeue (batch size : Nat) (failed : List Value) :
    Regular w (w.requeue batch size failed) := by
  unfold requeue
  split
  · exact w.regular_stay
  · refine (Change.Regular.andThen ?_ (regular_announce _ _)).andThen (regular_armTimerIf _ _)
    exact regular_of_later (regular_measure _ _) { Later.refl w with } rfl

theorem regular_complete (now batch : Nat) (failed : List Value) :
    Regular w (w.complete now batch failed) := by
  unfold complete
  split
  · exact w.regular_stay
  · refine (Change.Regular.andThen ?_ (regular_measure _ _)).andThen (regular_requeue _ _ _ _)
    exact regular_of_later (regular_release _ _) (later_note _ _ _) rfl

theorem regular_beginDeferredFlush : Regular w w.beginDeferredFlush :=
  .of_quiet { Later.refl w with } rfl (by simp [beginDeferredFlush, Change.stay])

theorem regular_beginTimedFlush (now : Nat) : Regular w (w.beginTimedFlush now) :=
  regular_of_later (regular_announce _ _) (w.later_note now .flushed) rfl

theorem regular_endTimedFlush : Regular w w.endTimedFlush :=
  w.regular_notify.andThen (regular_armTimerIf _ _)

theorem regular_endCompletion : Regular w w.endCompletion :=
  w.regular_showGauges.andThen (regular_notify _)

theorem regular_reportFailed (now batch : Nat) (fault : Fault) :
    Regular w (w.reportFailed now batch fault) := by
  unfold reportFailed
  split
  · exact w.regular_announce _
  · refine Change.Regular.andThen ?_ (regular_recordFailure _ _)
    exact regular_of_later (regular_release _ _) (later_note _ _ _) rfl

theorem regular_expire (now batch : Nat) : Regular w (w.expire now batch) := by
  unfold expire
  split
  · refine Change.Regular.andThen ?_ (regular_recordFailure _ _)
    exact regular_of_later (regular_release _ _) (later_note _ _ _) rfl
  · exact w.regular_stay

theorem regular_bufferTimeOver : Regular w w.bufferTimeOver.1 := by
  have rung : w.Later { w with timerArmed := false } := { Later.refl w with }
  unfold bufferTimeOver
  dsimp only
  split
  · exact regular_of_later (regular_stay _) rung rfl
  · split
    · exact regular_of_later (regular_stay _) rung rfl
    · exact regular_of_later (regular_announce _ _) { Later.refl w with } rfl

def abandonments (now : Nat) (requests : List (Request Value)) : History :=
  requests.map fun r => (now, .abandoned r.id r.entries)

theorem note_abandoned (now : Nat) (requests : List (Request Value)) (w : Writer) :
    requests.foldl (fun w r => note now (.abandoned r.id r.entries) w) w =
      { w with history := abandonments now requests.reverse ++ w.history } := by
  induction requests generalizing w with
  | nil => rfl
  | cons r rest ih =>
    rw [List.foldl_cons, ih]
    simp [note, abandonments]

/-- The batches are given up with their alarms, and what is left behind is told of, if anything
is. -/
theorem abandonAll_spec (w : Writer) (now : Nat) : ∃ notices : List Notice, w.abandonAll now =
    { writer := { w with
        inFlight := w.inFlight.clear
        history := abandonments now w.inFlight.requests.reverse ++ w.history }
      effects := w.inFlight.requests.map (fun r => .cancelAlarm (.expire r.id)) ++
        notices.map .notice } := by
  unfold abandonAll
  dsimp only
  rw [note_abandoned]
  split
  · exact ⟨[], rfl⟩
  · exact ⟨[_], rfl⟩

theorem writer_abandonAll (w : Writer) (now : Nat) : (w.abandonAll now).writer =
    { w with
      inFlight := w.inFlight.clear
      history := abandonments now w.inFlight.requests.reverse ++ w.history } :=
  note_abandoned _ _ _

theorem each_abandonAll {P : Effect → Prop} (w : Writer) (now : Nat)
    (cancels : ∀ batch, P (.cancelAlarm (.expire batch))) (tells : ∀ n, P (.notice n)) :
    ∀ e ∈ (w.abandonAll now).effects, P e := by
  obtain ⟨notices, same⟩ := abandonAll_spec w now
  intro e he
  rw [same] at he
  rcases List.mem_append.1 he with he | he
  · obtain ⟨r, -, rfl⟩ := List.mem_map.1 he
    exact cancels r.id
  · obtain ⟨n, -, rfl⟩ := List.mem_map.1 he
    exact tells n

theorem regular_abandonAll (now : Nat) : Regular w (w.abandonAll now) := by
  refine .of_quiet ?_ (by rw [writer_abandonAll])
    (each_abandonAll w now (fun _ => trivial) fun _ => trivial)
  rw [writer_abandonAll]
  exact { Later.refl w with
    carries := .of_subset fun _ h => by cases h
    history := List.suffix_append _ _ }

theorem regular_close (now : Nat) : Regular w (w.close now) := by
  unfold close
  split
  · exact w.regular_stay
  · have closing : w.Later { w with closed := true } := { Later.refl w with closed := fun _ => rfl }
    exact ((((regular_of_later (regular_cancelTimer _) closing rfl).andThen
      (regular_abandonAll _ _)).andThen (regular_notify _)).andThen
      (regular_showGauges _)).andThen (regular_announce _ _)

end Writer
end BatchWriter
