import BatchWriter.Proofs.Writer.Episode

/-!
# Turns of a writer

A turn is a change of a writer as its surroundings bring it about, with what they have
made sure of beforehand. A completion is no turn: it frees a slot and leaves it to what
follows to wake whoever waits for one.
-/

set_option autoImplicit false

namespace BatchWriter

def Effect.Mild (w : Writer) : Effect → Prop
  | .notice _ => True
  | .measure (.wait _) => True
  | .measure (.gauges buffered inFlight) => buffered = w.buffer.size ∧ inFlight = w.inFlight.count
  | _ => False

namespace Writer

inductive Turn : Writer → Change → Prop where
  | mild {w : Writer} {c : Change} (same : c.writer = w) (mild : ∀ e ∈ c.effects, e.Mild w) :
      Turn w c
  | andThen {w : Writer} {c : Change} {next : Writer → Change} (first : Turn w c)
      (second : Turn c.writer (next c.writer)) : Turn w (c.andThen next)
  | note {w : Writer} (now : Nat) (event : Event) :
      Turn w (.stay (w.note now (.announced event)))
  | bind {w : Writer} (loop : LoopName) : Turn w (w.bind loop)
  | accept {w : Writer} (now : Nat) (entry : Value) : Turn w (w.accept now entry)
  /-- Whoever dispatches runs on the writer's loop and knows of a free slot. -/
  | startDispatch {w : Writer} (loop : LoopName) (now : Nat) (bound : w.loop = some loop)
      (room : w.hasCapacity = true) : Turn w (w.startDispatch loop now).1
  | emptyBatch {w : Writer} (batch : Nat) : Turn w (w.emptyBatch batch)
  /-- Nothing came between the opening of the batch and the call of the destination. -/
  | concludeDispatch {w : Writer} (now : Nat) (parcel : Parcel) (refusal : Option Fault)
      (head : ∃ t earlier, w.history = (t, .opened parcel.batch parcel.entries) :: earlier)
      (isOpen : parcel.batch ∈ w.inFlight.ids) : Turn w (w.concludeDispatch now parcel refusal)
  | beginDeferredFlush {w : Writer} : Turn w w.beginDeferredFlush
  | beginTimedFlush {w : Writer} (now : Nat) : Turn w (w.beginTimedFlush now)
  | endTimedFlush {w : Writer} : Turn w w.endTimedFlush
  | endCompletion {w : Writer} : Turn w w.endCompletion
  | reportFailed {w : Writer} (now batch : Nat) (fault : Fault) :
      Turn w (w.reportFailed now batch fault)
  | expire {w : Writer} (now batch : Nat) : Turn w (w.expire now batch)
  | bufferTimeOver {w : Writer} : Turn w w.bufferTimeOver.1
  | close {w : Writer} (now : Nat) : Turn w (w.close now)

theorem quiet_of_mild {w : Writer} {e : Effect} (h : e.Mild w) : e.Quiet := by
  cases e with
  | wake _ => exact h
  | setAlarm _ _ => exact h.elim
  | notice _ | measure _ | cancelAlarm _ => trivial

theorem Turn.regular {w : Writer} {c : Change} (h : Turn w c) : c.Regular w := by
  induction h with
  | mild same mild =>
    refine .of_quiet ?_ (by rw [same]) (fun e he => quiet_of_mild (mild e he))
    rw [same]
    exact .refl _
  | andThen _ _ hc hn => exact hc.andThen hn
  | note now event => exact regular_of_later (regular_stay _) (later_note _ _ _) rfl
  | bind loop => exact regular_bind _ _
  | accept now entry => exact regular_accept _ _ _
  | startDispatch loop now => exact regular_startDispatch _ _ _
  | emptyBatch batch => exact regular_emptyBatch _ _
  | concludeDispatch now parcel refusal => exact regular_concludeDispatch _ _ _ _
  | beginDeferredFlush => exact regular_beginDeferredFlush _
  | beginTimedFlush now => exact regular_beginTimedFlush _ _
  | endTimedFlush => exact regular_endTimedFlush _
  | endCompletion => exact regular_endCompletion _
  | reportFailed now batch fault => exact regular_reportFailed _ _ _ _
  | expire now batch => exact regular_expire _ _ _
  | bufferTimeOver => exact regular_bufferTimeOver _
  | close now => exact regular_close _ _

/-! Changes that the history does not account for. -/

section Silent

variable (w : Writer)

theorem silent_refl : w.Silent w := ⟨rfl, rfl, rfl, rfl⟩

theorem writer_armTimerIf (condition : Bool) :
    ∃ armed, (w.armTimerIf condition).writer = { w with timerArmed := armed } := by
  unfold armTimerIf armTimer
  split
  · split
    · exact ⟨_, rfl⟩
    · split
      · exact ⟨_, rfl⟩
      · split
        · exact ⟨_, rfl⟩
        · exact ⟨true, rfl⟩
  · exact ⟨_, rfl⟩

/-- Arming the timer changes nothing that makes a writer refuse work. -/
theorem refusal?_armTimerIf (condition : Bool) :
    (w.armTimerIf condition).writer.refusal? = w.refusal? := by
  obtain ⟨armed, h⟩ := w.writer_armTimerIf condition
  rw [h]
  rfl

theorem silent_armTimerIf (condition : Bool) : w.Silent (w.armTimerIf condition).writer := by
  obtain ⟨armed, h⟩ := w.writer_armTimerIf condition
  rw [h]
  exact ⟨rfl, rfl, rfl, rfl⟩

theorem silent_bind (loop : LoopName) : w.Silent (w.bind loop).writer := by
  unfold bind
  split
  · have h := silent_armTimerIf { w with loop := some loop } (!w.buffer.isEmpty)
    exact ⟨h.history, h.buffer, h.ids, h.issued⟩
  · split <;> exact w.silent_refl

theorem refusal?_bind (loop : LoopName) : (w.bind loop).writer.refusal? = w.refusal? := by
  unfold bind
  split
  · exact refusal?_armTimerIf _ _
  · split <;> rfl

theorem silent_startTimeout (batch : Nat) : w.Silent (w.startTimeout batch).writer := by
  unfold startTimeout
  split
  · exact w.silent_refl
  · split
    · exact w.silent_refl
    · exact ⟨rfl, rfl, InFlight.ids_update _ _ fun _ => rfl, rfl⟩

theorem silent_bufferTimeOver : w.Silent w.bufferTimeOver.1.writer := by
  unfold bufferTimeOver
  dsimp only
  split
  · exact ⟨rfl, rfl, rfl, rfl⟩
  · split <;> exact ⟨rfl, rfl, rfl, rfl⟩

end Silent

/-- The writer has failed, and the buffer and the batches are as they were. -/
theorem recordFailure_writer (w : Writer) (fault : Fault) :
    (w.recordFailure fault).writer.failure.isSome = true ∧
      (w.recordFailure fault).writer.history = w.history ∧
      (w.recordFailure fault).writer.buffer = w.buffer ∧
      (w.recordFailure fault).writer.inFlight = w.inFlight := by
  cases hf : w.failure <;>
    simp [recordFailure, keepFailure, hf, Change.andThen, Change.stay, announce, cancelTimer,
      showGauges, measure, notify]

/-- A batch that is noted as lost and released fails the writer. -/
theorem episode_lost {w : Writer} {now batch : Nat} {m : Milestone} (loss : m.lost? = some batch)
    (isOpen : batch ∈ w.inFlight.ids) (fault : Fault) :
    w.Episode ((note now m w).release batch |>.andThen (recordFailure fault)).writer := by
  have hr : Change.Regular (note now m w)
      ((note now m w).release batch |>.andThen (recordFailure fault)) :=
    (regular_release _ _).andThen (regular_recordFailure _ _)
  have later := (w.later_note now m).trans hr.later
  rw [Change.writer_andThen rfl] at later ⊢
  obtain ⟨failed, history, buffer, inFlight⟩ :=
    recordFailure_writer ((note now m w).release batch).writer fault
  refine .lost now batch m loss later failed history buffer ?_ ?_ isOpen
  · rw [inFlight]
    exact InFlight.ids_remove batch
  · rw [inFlight]
    rfl

theorem episodes_accept (w : Writer) (now : Nat) (entry : Value) :
    w.Episodes (w.accept now entry).writer := by
  unfold accept
  refine Episodes.andThen (.single ?_)
    (Episodes.of_silent (regular_armTimerIf _ _) (silent_armTimerIf _ _))
  exact .accepted now entry { Later.refl w with history := List.suffix_cons _ _ } rfl rfl rfl rfl

theorem episodes_openBatch {w : Writer} {rest : Buffer Value} {entries : List Value} (now : Nat)
    (deferred : Bool) (usable : w.refusal? = none) (room : w.hasCapacity = true)
    (taken : w.buffer.take w.config.maxBatchSize = .ok (entries, rest)) (some : entries ≠ []) :
    w.Episodes (openBatch now entries { w with buffer := rest, deferred }).writer := by
  unfold openBatch
  refine Episodes.andThen (Episodes.andThen ?_ ?_) ?_
  · refine Relation.ReflTransGen.trans (.single ?_)
      (Episodes.of_silent (regular_startTimeout _ _) (silent_startTimeout _ _))
    refine .opened now entries ?_ usable room taken some rfl (InFlight.ids_openBatch _ _) rfl ?_
    · exact { Later.refl w with
        issued := Nat.le_succ _
        carries := .openBatch entries now
        history := List.suffix_cons _ _ }
    · intro r hr
      rcases List.mem_append.1 hr with hr | hr
      · exact .inl (List.mem_map_of_mem hr)
      · exact .inr (by rw [List.mem_singleton.1 hr])
  · exact Episodes.of_silent (regular_measure _ _) (silent_refl _)
  · exact Episodes.of_silent (regular_announce _ _) (silent_refl _)

/-- On the loop that the writer is bound to, binding does nothing. -/
theorem bind_of_bound {w : Writer} {loop : LoopName} (h : w.loop = some loop) :
    w.bind loop = .stay w := by
  simp [bind, h]

theorem stay_andThen (w : Writer) (next : Writer → Change) :
    (Change.stay w).andThen next = next w := by
  simp [Change.andThen, Change.stay]

theorem episodes_startDispatch {w : Writer} {loop : LoopName} (now : Nat)
    (bound : w.loop = some loop) (room : w.hasCapacity = true) :
    w.Episodes (w.startDispatch loop now).1.writer := by
  unfold startDispatch
  split
  · exact .refl
  · next usable =>
    split
    · exact .refl
    · next entries rest taken =>
      dsimp only
      split
      · next empty =>
        refine .single (.silent { Later.refl w with } ⟨rfl, ?_, rfl, rfl⟩)
        obtain ⟨he, hc⟩ := Buffer.append_of_take taken
        rw [List.isEmpty_iff.1 empty] at he
        cases rest
        simp only [List.nil_append] at he hc
        subst he hc
        rfl
      · next filled =>
        rw [bind_of_bound (by exact bound), stay_andThen]
        exact episodes_openBatch now _ usable room taken (by simpa using filled)

theorem episodes_concludeDispatch {w : Writer} (now : Nat) (parcel : Parcel)
    (refusal : Option Fault)
    (head : ∃ t earlier, w.history = (t, .opened parcel.batch parcel.entries) :: earlier)
    (isOpen : parcel.batch ∈ w.inFlight.ids) :
    w.Episodes (w.concludeDispatch now parcel refusal).writer := by
  have handed : w.Episode (w.note now (.handed parcel.batch parcel.entries)) :=
    .handed now _ _ (later_note _ _ _) head isOpen rfl rfl rfl rfl
  unfold concludeDispatch
  split
  · exact .single handed
  · dsimp only
    split
    · refine Relation.ReflTransGen.trans (.single handed) (Episodes.andThen ?_ ?_)
      · exact .single (episode_lost (w := w.note now _) rfl isOpen _)
      · exact Episodes.of_silent (regular_showGauges _) (silent_refl _)
    · exact .single handed

/-- Failed entries go to the head of the buffer and nothing else is accounted for. -/
theorem silent_requeue (w : Writer) (batch size : Nat) (failed : List Value) :
    Silent { w with buffer := w.buffer.prepend failed } (w.requeue batch size failed).writer := by
  unfold requeue
  split
  · next empty =>
    rw [List.isEmpty_iff.1 empty]
    exact ⟨rfl, rfl, rfl, rfl⟩
  · dsimp only
    rw [Change.writer_andThen rfl, Change.writer_andThen rfl]
    exact silent_armTimerIf _ _

theorem episode_complete {w : Writer} {batch : Nat} {r : Request Value}
    (found : w.inFlight.find? batch = some r) (now : Nat) (failed : List Value) :
    w.Episode (w.complete now batch failed).writer := by
  have later := (regular_complete w now batch failed).later
  unfold complete at later ⊢
  simp only [found] at later ⊢
  rw [Change.writer_andThen rfl, Change.writer_andThen rfl] at later ⊢
  have h := silent_requeue ((note now (.completed batch r.entries failed) w).release batch).writer
    batch r.entries.length failed
  refine .completed now batch r.entries failed later (InFlight.mem_ids_of_find? found).1
    h.history h.buffer ?_ h.issued
  rw [← InFlight.ids_remove]
  exact h.ids

theorem writer_close {w : Writer} (isOpen : w.closed = false) (now : Nat) :
    (w.close now).writer =
      { w with
        closed := true
        deferred := false
        timerArmed := false
        inFlight := w.inFlight.clear
        waiters := []
        history := abandonments now w.inFlight.requests.reverse ++ w.history } := by
  simp [close, isOpen, cancelTimer, abandonAll, note_abandoned, Change.andThen, notify,
    showGauges, measure, announce]

theorem episode_close {w : Writer} (isOpen : w.closed = false) (now : Nat) :
    w.Episode (w.close now).writer := by
  have later := (regular_close w now).later
  rw [writer_close isOpen] at later ⊢
  exact .closed now later rfl rfl rfl rfl rfl

/-- A turn is a sequence of episodes. -/
theorem Turn.episodes {w : Writer} {c : Change} (h : Turn w c) : w.Episodes c.writer := by
  induction h with
  | mild same => rw [same]
  | andThen _ _ hc hn => exact Episodes.andThen hc hn
  | note now event => exact .single (.told now (.announced event) trivial rfl)
  | bind loop => exact Episodes.of_silent (regular_bind _ _) (silent_bind _ _)
  | accept now entry => exact episodes_accept _ _ _
  | startDispatch loop now bound room => exact episodes_startDispatch now bound room
  | emptyBatch batch =>
    exact Episodes.of_silent (regular_emptyBatch _ _)
      ⟨rfl, rfl, InFlight.ids_update _ _ fun _ => rfl, rfl⟩
  | concludeDispatch now parcel refusal head isOpen =>
    exact episodes_concludeDispatch now parcel refusal head isOpen
  | beginDeferredFlush =>
    exact Episodes.of_silent (regular_beginDeferredFlush _) ⟨rfl, rfl, rfl, rfl⟩
  | beginTimedFlush now => exact .single (.told now .flushed trivial rfl)
  | @endTimedFlush w =>
    refine Episodes.of_silent (regular_endTimedFlush _) ?_
    have h := silent_armTimerIf w.notify.writer (!w.notify.writer.buffer.isEmpty)
    exact ⟨h.history, h.buffer, h.ids, h.issued⟩
  | endCompletion => exact Episodes.of_silent (regular_endCompletion _) ⟨rfl, rfl, rfl, rfl⟩
  | @reportFailed w now batch fault =>
    unfold Writer.reportFailed
    split
    · exact .refl
    · next r found => exact .single (episode_lost rfl (InFlight.mem_ids_of_find? found).1 _)
  | @expire w now batch =>
    unfold Writer.expire
    split
    · next r limit found _ =>
      exact .single (episode_lost rfl (InFlight.mem_ids_of_find? found).1 _)
    · exact .refl
  | bufferTimeOver => exact Episodes.of_silent (regular_bufferTimeOver _) (silent_bufferTimeOver _)
  | @close w now =>
    by_cases hc : w.closed = true
    · unfold Writer.close
      rw [if_pos hc]
      exact .refl
    · exact .single (episode_close (by simpa using hc) now)

/-! ## Building a writer -/

/-- A writer that was built is as it was asked for, and has told what it looks like. -/
theorem restored_spec {now : Nat} {id : Value} {config : Config} {converter : Converter}
    {destination : Nat} {bus : Option String} {entries : List Value} {c : Change}
    (built : restore now id config converter destination bus entries = .ok c) :
    ∃ (buffer : Buffer Value) (inFlight : InFlight Value) (notices : List Notice),
      buffer.entries = entries ∧ buffer.capacity = config.maxBuffered ∧
      InFlight.ofLimit config.maxInFlight = .ok inFlight ∧
      c.writer = { id, config, converter, destination, bus, buffer, inFlight
                   history := [(now, .restored entries)] } ∧
      c.effects = notices.map .notice ++ [.measure (.gauges buffer.size inFlight.count)] := by
  unfold restore Buffer.ofEntries at built
  split at built
  · cases built
  · cases limit : (InFlight.ofLimit config.maxInFlight : Except Fault (InFlight Value)) with
    | error fault =>
      rw [limit] at built
      cases built
    | ok inFlight =>
      rw [limit] at built
      cases built
      refine ⟨⟨config.maxBuffered, entries⟩, inFlight, ?_⟩
      split
      · exact ⟨[], rfl, rfl, rfl, rfl, rfl⟩
      · exact ⟨[.restored id entries.length], rfl, rfl, rfl, rfl, rfl⟩

end Writer
end BatchWriter
