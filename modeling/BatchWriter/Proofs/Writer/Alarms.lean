import BatchWriter.Proofs.Writer.Motion

/-!
# The alarms of a writer

A writer remembers that its buffer's alarm is set, and the alarm that ends a batch's time is
set only while the batch is open. Every motion keeps it so, whatever alarms are set.
-/

set_option autoImplicit false

namespace BatchWriter

def Effect.alarms (set : WriterAlarm → Bool) : Effect → WriterAlarm → Bool
  | .setAlarm alarm _ => fun a => set a || decide (alarm = a)
  | .cancelAlarm alarm => fun a => set a && decide (a ≠ alarm)
  | _ => set

def Effect.Timeless : Effect → Prop
  | .setAlarm _ _ | .cancelAlarm _ => False
  | _ => True

theorem Effect.timeless_notices (notices : List Notice) :
    ∀ e ∈ notices.map Effect.notice, e.Timeless := by
  simp [Effect.Timeless]

theorem Effect.alarms_timeless {effects : List Effect} (timeless : ∀ e ∈ effects, e.Timeless)
    (set : WriterAlarm → Bool) : effects.foldl Effect.alarms set = set := by
  rw [List.foldl_ext _ (fun set _ => set) set, List.foldl_fixed]
  intro set e he
  cases e with
  | setAlarm _ _ | cancelAlarm _ => exact (timeless _ he).elim
  | _ => rfl

theorem Effect.alarms_cancelled (requests : List (Request Value)) (set : WriterAlarm → Bool)
    (a : WriterAlarm) :
    (requests.map fun r => Effect.cancelAlarm (.expire r.id)).foldl Effect.alarms set a =
      (set a && decide (∀ r ∈ requests, a ≠ .expire r.id)) := by
  induction requests generalizing set with
  | nil => simp
  | cons r rest ih =>
    rw [List.map_cons, List.foldl_cons, ih]
    simp [Effect.alarms, Bool.and_assoc]

namespace Writer

/-- The alarms that are set are those that the writer knows of; on a live loop all of them. -/
structure Timed (live : Prop) (w : Writer) (set : WriterAlarm → Bool) : Prop where
  flush : set .flush = true → w.timerArmed = true
  armed : live → w.timerArmed = true → set .flush = true
  expire : ∀ batch, set (.expire batch) = true → batch ∈ w.inFlight.ids

def Times (w : Writer) (c : Change) : Prop :=
  ∀ (live : Prop) (set : WriterAlarm → Bool), w.Timed live set →
    c.writer.Timed live (c.effects.foldl Effect.alarms set)

variable {now : Nat} {w : Writer} {c : Change}

namespace Times

theorem andThen {next : Writer → Change} (hc : Times w c)
    (hn : c.fault = none → Times c.writer (next c.writer)) : Times w (c.andThen next) := by
  intro live set timed
  unfold Change.andThen
  split
  · exact hc live set timed
  · next ok =>
    rw [List.foldl_append]
    exact hn ok live _ (hc live set timed)

theorem of_timeless (timeless : ∀ e ∈ c.effects, e.Timeless)
    (armed : c.writer.timerArmed = w.timerArmed) (ids : w.inFlight.ids ⊆ c.writer.inFlight.ids) :
    Times w c := by
  intro live set timed
  rw [Effect.alarms_timeless timeless]
  exact ⟨armed ▸ timed.flush, armed ▸ timed.armed, fun n hn => ids (timed.expire n hn)⟩

theorem of_same {w' : Writer} (h : Times w' c) (armed : w'.timerArmed = w.timerArmed)
    (ids : w.inFlight.ids ⊆ w'.inFlight.ids) : Times w c :=
  fun live set timed => h live set
    ⟨armed ▸ timed.flush, armed ▸ timed.armed, fun n hn => ids (timed.expire n hn)⟩

theorem stay (w : Writer) : Times w (.stay w) := fun _ _ timed => timed

theorem armTimerIf (w : Writer) (condition : Bool) : Times w (w.armTimerIf condition) := by
  unfold Writer.armTimerIf Writer.armTimer
  split
  · split
    · exact stay w
    · split
      · exact stay w
      · split
        · exact fun _ _ timed => timed
        · intro live set timed
          exact ⟨fun _ => rfl, fun _ _ => by simp [Effect.alarms], fun n hn =>
            timed.expire n (by simpa [Effect.alarms] using hn)⟩
  · exact stay w

theorem bind (w : Writer) (loop : LoopName) : Times w (w.bind loop) := by
  unfold Writer.bind
  split
  · exact (armTimerIf { w with loop := some loop } _).of_same rfl (List.Subset.refl _)
  · split <;> exact fun _ _ timed => timed

theorem cancelTimer (w : Writer) : Times w w.cancelTimer := by
  intro live set timed
  refine ⟨fun hs => ?_, fun _ armed => ?_, fun n hn => timed.expire n ?_⟩
  · simp [Writer.cancelTimer, Effect.alarms] at hs
  · cases armed
  · simpa [Writer.cancelTimer, Effect.alarms] using hn

theorem release (w : Writer) (batch : Nat) : Times w (w.release batch) := by
  intro live set timed
  refine ⟨fun hs => timed.flush ?_, fun on armed => ?_, fun n hn => ?_⟩
  · simpa [Writer.release, Effect.alarms] using hs
  · simpa [Writer.release, Effect.alarms] using timed.armed on armed
  · simp only [Writer.release, List.foldl_cons, List.foldl_nil, Effect.alarms, ne_eq,
      WriterAlarm.expire.injEq, Bool.and_eq_true, decide_eq_true_eq] at hn
    rw [Writer.release, InFlight.ids_remove]
    exact List.mem_filter.2 ⟨timed.expire n hn.1, by simpa using hn.2⟩

theorem notify (w : Writer) : Times w w.notify := by
  refine of_timeless (fun e he => ?_) rfl (List.Subset.refl _)
  obtain ⟨_, -, rfl⟩ := List.mem_map.1 he
  trivial

theorem announce (w : Writer) (n : Notice) : Times w (w.announce n) :=
  of_timeless (by simp [Writer.announce, Effect.Timeless]) rfl (List.Subset.refl _)

theorem measure (w : Writer) (m : Measurement) : Times w (w.measure m) :=
  of_timeless (by simp [Writer.measure, Effect.Timeless]) rfl (List.Subset.refl _)

theorem showGauges (w : Writer) : Times w w.showGauges := measure w _

theorem recordFailure (w : Writer) (fault : Fault) : Times w (w.recordFailure fault) := by
  have kept : Times w (w.keepFailure fault) := by
    unfold keepFailure
    split
    · exact stay w
    · exact (announce _ _).of_same rfl (List.Subset.refl _)
  exact ((kept.andThen fun _ => cancelTimer _).andThen fun _ => showGauges _).andThen
    fun _ => notify _

/-- A batch is noted as over, released, and the writer fails. -/
theorem lost (w : Writer) (now batch : Nat) (m : Milestone) (fault : Fault) :
    Times w ((note now m w).release batch |>.andThen (Writer.recordFailure fault)) := by
  have released : Times w ((note now m w).release batch) :=
    (release (note now m w) batch).of_same rfl (List.Subset.refl _)
  exact released.andThen fun _ => recordFailure _ _

theorem concludeDispatch (w : Writer) (now : Nat) (parcel : Parcel) (refusal : Option Fault) :
    Times w (w.concludeDispatch now parcel refusal) := by
  have shown : Times w (note now (.handed parcel.batch parcel.entries) w).showGauges :=
    (showGauges _).of_same rfl (List.Subset.refl _)
  unfold Writer.concludeDispatch
  split
  · exact shown
  · dsimp only
    split
    · next fault _ =>
      have refused := (lost (note now (.handed parcel.batch parcel.entries) w) now parcel.batch
        (.refused parcel.batch parcel.entries) (.submission parcel.batch fault)).of_same (w := w)
        rfl (List.Subset.refl _)
      exact refused.andThen fun _ => showGauges _
    · exact shown

theorem abandonAll (w : Writer) (now : Nat) : Times w (w.abandonAll now) := by
  intro live set timed
  obtain ⟨notices, same⟩ := abandonAll_spec w now
  rw [same, List.foldl_append, Effect.alarms_timeless (Effect.timeless_notices notices)]
  refine ⟨fun hs => timed.flush ?_, fun on armed => ?_, fun n hn => ?_⟩
  · simpa [Effect.alarms_cancelled] using hs
  · simpa [Effect.alarms_cancelled] using timed.armed on armed
  · simp only [Effect.alarms_cancelled, Bool.and_eq_true, decide_eq_true_eq, ne_eq,
      WriterAlarm.expire.injEq] at hn
    obtain ⟨r, hr, same⟩ := List.mem_map.1 (timed.expire n hn.1)
    exact absurd same.symm (hn.2 r hr)

theorem close (w : Writer) (now : Nat) : Times w (w.close now) := by
  unfold Writer.close
  split
  · exact stay w
  · have closing :=
      (cancelTimer { w with closed := true }).of_same (w := w) rfl (List.Subset.refl _)
    exact (((closing.andThen fun _ => abandonAll _ _).andThen fun _ => notify _).andThen
      fun _ => showGauges _).andThen fun _ => announce _ _

theorem startTimeout (w : Writer) {batch : Nat} (isOpen : batch ∈ w.inFlight.ids) :
    Times w (w.startTimeout batch) := by
  unfold Writer.startTimeout
  split
  · exact stay w
  · split
    · exact fun _ _ timed => timed
    · intro live set timed
      have ids := InFlight.ids_update (t := w.inFlight) batch (fun r => { r with timed := true })
        fun _ => rfl
      refine ⟨fun hs => timed.flush ?_, fun on armed => ?_, fun n hn => ?_⟩
      · simpa [Effect.alarms] using hs
      · simpa [Effect.alarms] using timed.armed on armed
      · simp only [List.foldl_cons, List.foldl_nil, Effect.alarms, Bool.or_eq_true,
          decide_eq_true_eq, WriterAlarm.expire.injEq] at hn
        rw [ids]
        exact hn.elim (timed.expire n) fun same => same ▸ isOpen

theorem openBatch (w : Writer) (now : Nat) (entries : List Value) :
    Times w (w.openBatch now entries) := by
  have ids := InFlight.ids_openBatch (t := w.inFlight) entries now
  refine Times.andThen (Times.andThen ?_ fun _ => measure _ _) fun _ => announce _ _
  refine (startTimeout _ ?_).of_same rfl ?_
  · show _ ∈ (w.inFlight.openBatch entries now).2.ids
    rw [ids]
    exact List.mem_append_right _ (List.mem_singleton_self _)
  · show _ ⊆ (w.inFlight.openBatch entries now).2.ids
    rw [ids]
    exact List.subset_append_left _ _

theorem startDispatch (w : Writer) (loop : LoopName) (now : Nat) :
    Times w (w.startDispatch loop now).1 := by
  unfold Writer.startDispatch
  split
  · exact fun _ _ timed => timed
  · split
    · exact fun _ _ timed => timed
    · dsimp only
      split
      · exact fun _ _ timed => ⟨timed.flush, timed.armed, timed.expire⟩
      · exact (Times.andThen (bind _ _) fun _ => openBatch _ _ _).of_same rfl (List.Subset.refl _)

theorem requeue (w : Writer) (batch size : Nat) (failed : List Value) :
    Times w (w.requeue batch size failed) := by
  unfold Writer.requeue
  split
  · exact stay w
  · refine ((Times.andThen ?_ fun _ => announce _ _).andThen fun _ => armTimerIf _ _)
    exact (measure _ _).of_same rfl (List.Subset.refl _)

theorem complete (w : Writer) (now batch : Nat) (failed : List Value) :
    Times w (w.complete now batch failed) := by
  unfold Writer.complete
  split
  · exact stay w
  · refine (Times.andThen ?_ fun _ => measure _ _).andThen fun _ => requeue _ _ _ _
    exact (release _ batch).of_same rfl (List.Subset.refl _)

theorem expire (w : Writer) (now batch : Nat) : Times w (w.expire now batch) := by
  unfold Writer.expire
  split
  · exact lost _ _ _ _ _
  · exact stay w

end Times

theorem timeless_bufferTimeOver (w : Writer) : ∀ e ∈ w.bufferTimeOver.1.effects, e.Timeless := by
  unfold Writer.bufferTimeOver
  dsimp only
  split
  · simp [Change.stay]
  · split <;> simp [Change.stay, announce, Effect.Timeless]

theorem Timed.bufferTimeOver {live : Prop} {set : WriterAlarm → Bool} (h : w.Timed live set) :
    w.bufferTimeOver.1.writer.Timed live
      (w.bufferTimeOver.1.effects.foldl Effect.alarms fun a => set a && decide (a ≠ .flush)) := by
  have armed : w.bufferTimeOver.1.writer.timerArmed = false := by
    unfold Writer.bufferTimeOver
    dsimp only
    split
    · rfl
    · split <;> rfl
  rw [Effect.alarms_timeless w.timeless_bufferTimeOver]
  refine ⟨fun hs => by simp at hs, fun _ on => absurd on (by simp [armed]), fun n hn => ?_⟩
  rw [w.silent_bufferTimeOver.ids]
  exact h.expire n (by simpa using hn)

theorem CallChange.times (h : CallChange now w c) : Times w c := by
  induction h with
  | @mild w c same mild =>
    refine .of_timeless (fun e he => ?_) (by rw [same]) (by rw [same]; exact List.Subset.refl _)
    have tells := mild e he
    cases e with
    | setAlarm _ _ | cancelAlarm _ => exact tells.elim
    | _ => trivial
  | andThen _ _ first second => exact first.andThen second
  | note event => exact fun _ _ timed => ⟨timed.flush, timed.armed, timed.expire⟩
  | bind loop => exact .bind _ _
  | accept entry =>
    refine Times.andThen ?_ fun _ => .armTimerIf _ _
    exact (Times.measure _ _).of_same rfl (List.Subset.refl _)
  | emptyBatch batch =>
    refine .of_timeless (by simp [Writer.emptyBatch, Change.stay]) rfl ?_
    exact (InFlight.ids_update batch (fun r => { r with entries := [] }) fun _ => rfl).symm ▸
      List.Subset.refl _
  | addWaiter call usable => exact fun _ _ timed => ⟨timed.flush, timed.armed, timed.expire⟩
  | dropWaiter call => exact fun _ _ timed => ⟨timed.flush, timed.armed, timed.expire⟩
  | close => exact .close _ _

theorem PlainChange.times (h : PlainChange now w c) : Times w c := by
  cases h with
  | callChange h => exact h.times
  | complete batch failed => exact .complete _ _ _ _
  | beginDeferredFlush => exact fun _ _ timed => ⟨timed.flush, timed.armed, timed.expire⟩
  | beginTimedFlush => exact (Times.announce _ _).of_same rfl (List.Subset.refl _)
  | endTimedFlush => exact (Times.notify _).andThen fun _ => .armTimerIf _ _
  | endCompletion => exact (Times.showGauges _).andThen fun _ => .notify _
  | reportFailed batch fault =>
    unfold Writer.reportFailed
    split
    · exact .announce _ _
    · exact .lost _ _ _ _ _

theorem Motion.times (h : Motion now w c) : Times w c := by
  cases h with
  | plainChange h => exact h.times
  | startDispatch bound => exact .startDispatch _ _ _
  | concludeDispatch parcel refusal => exact .concludeDispatch _ _ _ _

end Writer
end BatchWriter
