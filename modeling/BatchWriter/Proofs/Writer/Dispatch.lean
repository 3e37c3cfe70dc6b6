import BatchWriter.Proofs.Buffer
import BatchWriter.Proofs.Writer.Turn

/-!
# Dispatch and completion of a writer

What the parts of a dispatch and of a completion do to the batches, and which faults they
can end with. Limits that are whole and delays that are accepted leave them none.
-/

set_option autoImplicit false

namespace BatchWriter

/-- Limits under which no change of a writer fails by itself: batch sizes are whole and
delays are accepted. -/
structure Config.Tame (c : Config) : Prop where
  size : c.maxBatchSize.whole?.isSome = true
  flush : ∀ limit, c.maxTimeInBuffer = some limit → ∃ delay, limit.delayMilliseconds = .ok delay
  timeout : ∀ limit, c.requestTimeout = some limit → ∃ delay, limit.delaySeconds = .ok delay

/-- The clock accepts the time that a batch is given, if it is given one. -/
def Config.Timeable (c : Config) : Prop :=
  ∀ limit, c.requestTimeout = some limit → ∃ delay, limit.delaySeconds = .ok delay

theorem Buffer.take_ok {α : Type} (b : Buffer α) {limit : Number}
    (whole : limit.whole?.isSome = true) : ∃ taken, b.take limit = .ok taken := by
  obtain ⟨n, whole⟩ := Option.isSome_iff_exists.1 whole
  exact ⟨_, take_of_whole whole b⟩

namespace Writer

variable {w : Writer}

theorem fault_armTimerIf (tame : w.config.Tame) (condition : Bool) :
    (w.armTimerIf condition).fault = none := by
  unfold armTimerIf armTimer
  split
  · split
    · rfl
    · next limit hl =>
      obtain ⟨delay, hd⟩ := tame.flush limit hl
      split
      · rfl
      · rw [hd]
  · rfl

theorem fault_andThen_none {c : Change} {next : Writer → Change} (hc : c.fault = none)
    (hn : (next c.writer).fault = none) : (c.andThen next).fault = none := by
  rw [Change.fault_andThen hc, hn]

theorem fault_andThen_calm (c : Change) {next : Writer → Change}
    (calm : ∀ w : Writer, (next w).fault = none) : (c.andThen next).fault = c.fault := by
  cases first : c.fault with
  | none => rw [Change.fault_andThen first, calm]
  | some fault => rw [Change.andThen_of_fault first, first]

structure JustOpened (w : Writer) (now : Nat) (entries : List Value) (u : Writer) : Prop where
  history : u.history = (now, .opened (w.inFlight.issued + 1) entries) :: w.history
  ids : u.inFlight.ids = w.inFlight.ids ++ [w.inFlight.issued + 1]
  refusal : u.refusal? = w.refusal?
  config : u.config = w.config

theorem JustOpened.count {now : Nat} {entries : List Value} {u : Writer}
    (h : w.JustOpened now entries u) : u.inFlight.count = w.inFlight.count + 1 := by
  rw [← InFlight.length_ids, h.ids, List.length_append, InFlight.length_ids, List.length_singleton]

theorem justOpened_openBatch (w : Writer) (now : Nat) (entries : List Value) :
    w.JustOpened now entries (w.openBatch now entries).writer := by
  unfold openBatch
  refine Change.keeps_andThen (P := w.JustOpened now entries) ?_ fun _ h => ⟨h.1, h.2, h.3, h.4⟩
  refine Change.keeps_andThen (P := w.JustOpened now entries) ?_ fun _ h => ⟨h.1, h.2, h.3, h.4⟩
  unfold startTimeout
  split
  · exact ⟨rfl, InFlight.ids_openBatch _ _, rfl, rfl⟩
  · split
    · exact ⟨rfl, InFlight.ids_openBatch _ _, rfl, rfl⟩
    · refine ⟨rfl, ?_, rfl, rfl⟩
      rw [← InFlight.ids_openBatch entries now]
      exact InFlight.ids_update _ (fun r => { r with timed := true }) fun _ => rfl

/-- Opening a batch fails exactly where the clock refuses its time. -/
theorem fault_openBatch_iff (w : Writer) (now : Nat) (entries : List Value) :
    (w.openBatch now entries).fault = none ↔ w.config.Timeable := by
  unfold openBatch
  rw [fault_andThen_calm _ fun _ => rfl, fault_andThen_calm _ fun _ => rfl]
  unfold startTimeout
  cases time : w.config.requestTimeout with
  | none =>
    simp [note, time, Change.stay, Config.Timeable]
  | some limit =>
    cases delay : limit.delaySeconds with
    | error fault => simp [note, time, delay, Change.stop, Config.Timeable]
    | ok d => simp [note, time, delay, Config.Timeable]

theorem fault_openBatch (tame : w.config.Tame) (now : Nat) (entries : List Value) :
    (w.openBatch now entries).fault = none :=
  (fault_openBatch_iff w now entries).2 tame.timeout

/-- How a dispatch begins on the writer's own loop: there is nothing to dispatch, or a batch
was opened for what the destination is handed. -/
theorem startDispatch_cases {loop : LoopName} (bound : w.loop = some loop) (now : Nat) :
    ((w.startDispatch loop now).2 = none ∧
        (w.startDispatch loop now).1.writer.refusal? = w.refusal? ∧
        (w.refusal? = none → w.config.Tame → (w.startDispatch loop now).1.fault = none)) ∨
      ∃ parcel, (w.startDispatch loop now).2 = some parcel ∧
        (w.startDispatch loop now).1.fault = none ∧ w.refusal? = none ∧
        parcel.batch = w.inFlight.issued + 1 ∧
        w.JustOpened now parcel.entries (w.startDispatch loop now).1.writer := by
  unfold startDispatch
  split
  · next refused => exact .inl ⟨rfl, rfl, fun usable => by rw [usable] at refused; cases refused⟩
  · next usable =>
    split
    · next hf =>
      refine .inl ⟨rfl, rfl, fun _ tame => ?_⟩
      obtain ⟨taken, ht⟩ := w.buffer.take_ok tame.size
      rw [ht] at hf
      cases hf
    · next entries rest taken =>
      dsimp only
      split
      · exact .inl ⟨rfl, rfl, fun _ _ => rfl⟩
      · rw [bind_of_bound (by exact bound), stay_andThen]
        have opened := justOpened_openBatch
          { w with buffer := rest, deferred := w.deferred && !rest.isEmpty } now entries
        split
        · next ok =>
          refine .inr ⟨_, rfl, ?_, usable, rfl, ⟨opened.history, opened.ids, opened.refusal,
            opened.config⟩⟩
          exact Option.isNone_iff_eq_none.1 ok
        · refine .inl ⟨rfl, opened.refusal, fun _ tame => ?_⟩
          exact fault_openBatch (by exact tame) now entries

/-- The buffer's alarm asks for a flush only when there is a slot. -/
theorem bufferTimeOver_flush (h : w.bufferTimeOver.2 = true) :
    w.bufferTimeOver.1.writer = { w with timerArmed := false } ∧ w.hasCapacity = true := by
  unfold bufferTimeOver at h ⊢
  dsimp only at h ⊢
  split
  · next idle =>
    rw [if_pos idle] at h
    cases h
  · next idle =>
    rw [if_neg idle] at h
    split
    · next room => exact ⟨rfl, room⟩
    · next full =>
      rw [if_neg full] at h
      cases h

/-- The buffer's alarm asks for a flush only when a usable writer has something to flush. -/
theorem filled_of_flush (h : w.bufferTimeOver.2 = true) :
    w.refusal? = none ∧ w.buffer.entries ≠ [] := by
  unfold bufferTimeOver at h
  dsimp only at h
  split at h
  · cases h
  · next live =>
    simp only [Bool.or_eq_true, not_or, Bool.not_eq_true] at live
    exact ⟨refusal?_eq_none_iff.2 ⟨live.1.1, by simpa using live.1.2⟩, fun none => by
      simp [(Buffer.isEmpty_iff _).2 none] at live⟩

/-- With something to flush and a slot for it the buffer's alarm asks for a flush. -/
theorem flush_of_room (usable : w.refusal? = none) (filled : w.buffer.entries ≠ [])
    (room : w.hasCapacity = true) : w.bufferTimeOver.2 = true := by
  obtain ⟨going, sound⟩ := refusal?_eq_none_iff.1 usable
  have some : w.buffer.isEmpty = false := by simpa [Buffer.isEmpty] using filled
  unfold bufferTimeOver
  dsimp only
  split
  · next idle => simp [going, sound, some] at idle
  · split
    · rfl
    · next full => exact absurd room full

structure JustCompleted (w : Writer) (batch : Nat) (u : Writer) : Prop where
  inFlight : u.inFlight = w.inFlight.remove batch
  refusal : u.refusal? = w.refusal?
  config : u.config = w.config
  loop : u.loop = w.loop

theorem justCompleted_complete {batch : Nat} {r : Request Value}
    (found : w.inFlight.find? batch = some r) (now : Nat) (failed : List Value) :
    w.JustCompleted batch (w.complete now batch failed).writer := by
  unfold complete
  simp only [found]
  rw [Change.writer_andThen rfl, Change.writer_andThen rfl]
  unfold requeue
  split
  · exact ⟨rfl, rfl, rfl, rfl⟩
  · rw [Change.writer_andThen rfl, Change.writer_andThen rfl]
    obtain ⟨armed, ha⟩ := writer_armTimerIf _ _
    rw [ha]
    exact ⟨rfl, rfl, rfl, rfl⟩

theorem fault_complete (tame : w.config.Tame) (now batch : Nat) (failed : List Value) :
    (w.complete now batch failed).fault = none := by
  unfold complete
  split
  · rfl
  · refine fault_andThen_none (fault_andThen_none rfl rfl) ?_
    unfold requeue
    split
    · rfl
    · refine fault_andThen_none (fault_andThen_none rfl rfl) (fault_armTimerIf ?_ _)
      exact tame

end Writer
end BatchWriter
