import BatchWriter.Proofs.Writer.Motion
import BatchWriter.Proofs.Writer.Turn

/-!
# What writes do in a writer's name

A write publishes events, has its element converted and appends the entry. A writer's history
tells of the events and of the entries, and each entry and each time that a caller was held back
is counted. Whatever else happens to a writer adds nothing to this and is not counted so.
-/

set_option autoImplicit false

namespace BatchWriter

/-- What a write does, apart from changes that others may bring about as well. -/
inductive Doing where
  | published (event : Event)
  /-- The converter was called, and this came of it. -/
  | converted (outcome : Except Fault Value)
  | appended (entry : Value)

inductive Meter where
  | written
  | held (reason : WaitReason)

def WaitReason.level : WaitReason → Level
  | .bufferFull => .hard
  | .inFlightLimit => .soft

def Doing.moves (m : Meter) : Doing → Bool
  | .published event => match m with
    | .held reason => event.level = reason.level
    | .written => false
  | .converted _ => false
  | .appended _ => match m with
    | .written => true
    | .held _ => false

def Measurement.moves (m : Meter) : Measurement → Bool
  | .written => match m with
    | .written => true
    | .held _ => false
  | .wait reason => match m with
    | .held known => reason = known
    | .written => false
  | _ => false

def Effect.moves (m : Meter) : Effect → Bool
  | .measure x => x.moves m
  | _ => false

def Milestone.doing? : Milestone → Option Doing
  | .accepted entry => some (.appended entry)
  | .announced event => some (.published event)
  | _ => none

namespace History

def doings (h : History) : List Doing := (h.filterMap fun e => e.2.doing?).reverse

theorem doings_append (newer : History) (others : ∀ e ∈ newer, e.2.doing? = none) (h : History) :
    doings (newer ++ h) = h.doings := by
  have none : newer.filterMap (fun e => e.2.doing?) = [] := List.filterMap_eq_nil_iff.2 others
  rw [doings, List.filterMap_append, none, List.nil_append, doings]

theorem doings_cons {now : ℕ} {m : Milestone} {d : Doing} (told : m.doing? = some d)
    (h : History) : doings ((now, m) :: h) = h.doings ++ [d] := by
  rw [doings, List.filterMap_cons_some (by exact told), List.reverse_cons, doings]

end History

def Effect.Still (e : Effect) : Prop := ∀ m, e.moves m = false

namespace Writer

variable {now : ℕ} {w : Writer} {c : Change}

/-- A change in which no write does anything and nobody is held back. -/
structure SaysNothing (w : Writer) (c : Change) : Prop where
  doings : c.writer.history.doings = w.history.doings
  still : ∀ e ∈ c.effects, e.Still

namespace SaysNothing

theorem of_same (history : c.writer.history = w.history) (still : ∀ e ∈ c.effects, e.Still) :
    SaysNothing w c := ⟨by rw [history], still⟩

theorem of_before {u : Writer} (hc : SaysNothing u c) (history : u.history = w.history) :
    SaysNothing w c := ⟨by rw [hc.doings, history], hc.still⟩

/-- A milestone of another kind is told before what follows. -/
theorem of_noted (w : Writer) (now : ℕ) (m : Milestone) (other : m.doing? = none)
    (hc : SaysNothing (w.note now m) c) : SaysNothing w c where
  doings := by
    rw [hc.doings]
    exact History.doings_append [(now, m)] (by simpa using other) w.history
  still := hc.still

theorem andThen {next : Writer → Change} (hc : SaysNothing w c)
    (hn : SaysNothing c.writer (next c.writer)) : SaysNothing w (c.andThen next) := by
  unfold Change.andThen
  split
  · exact hc
  · refine ⟨hn.doings.trans hc.doings, fun e hm => ?_⟩
    exact (List.mem_append.1 hm).elim (hc.still e) (hn.still e)

theorem stay {u : Writer} (history : u.history = w.history) : SaysNothing w (.stay u) :=
  of_same history fun _ he => by cases he

theorem stop {u : Writer} (history : u.history = w.history) (fault : Fault) :
    SaysNothing w (.stop u fault) :=
  of_same history fun _ he => by cases he

/-! Effects that no meter sees. -/

theorem announce (n : Notice) {u : Writer} (history : u.history = w.history) :
    SaysNothing w (u.announce n) :=
  of_same history (by simp [Writer.announce, Effect.Still, Effect.moves])

theorem measure {x : Measurement} (unseen : ∀ m, x.moves m = false) {u : Writer}
    (history : u.history = w.history) : SaysNothing w (u.measure x) :=
  of_same history (by simpa [Writer.measure, Effect.Still, Effect.moves] using unseen)

theorem showGauges (w : Writer) : SaysNothing w w.showGauges := measure (fun _ => rfl) rfl

theorem notify (w : Writer) : SaysNothing w w.notify :=
  of_same rfl (by simp [Writer.notify, Effect.Still, Effect.moves])

theorem cancelTimer (w : Writer) : SaysNothing w w.cancelTimer :=
  of_same rfl (by simp [Writer.cancelTimer, Effect.Still, Effect.moves])

theorem release (w : Writer) (batch : ℕ) : SaysNothing w (w.release batch) :=
  of_same rfl (by simp [Writer.release, Effect.Still, Effect.moves])

theorem checkUsable (w : Writer) : SaysNothing w w.checkUsable := by
  unfold Writer.checkUsable
  split
  · exact stop rfl _
  · exact stay rfl

theorem armTimerIf (w : Writer) (condition : Bool) : SaysNothing w (w.armTimerIf condition) := by
  refine of_same (w.silent_armTimerIf condition).history ?_
  unfold Writer.armTimerIf Writer.armTimer
  split
  · split
    · simp [Change.stay]
    · split
      · simp [Change.stay]
      · split <;> simp [Change.stop, Effect.Still, Effect.moves]
  · simp [Change.stay]

theorem bind (w : Writer) (loop : LoopName) : SaysNothing w (w.bind loop) := by
  unfold Writer.bind
  split
  · exact of_before (armTimerIf _ _) rfl
  · split
    · exact stay rfl
    · exact stop rfl _

theorem recordFailure (w : Writer) (fault : Fault) : SaysNothing w (w.recordFailure fault) := by
  have kept : SaysNothing w (w.keepFailure fault) := by
    unfold Writer.keepFailure
    split
    · exact stay rfl
    · exact announce _ rfl
  exact ((kept.andThen (cancelTimer _)).andThen (showGauges _)).andThen (notify _)

/-! Batches. -/

theorem lost (w : Writer) (now : ℕ) (m : Milestone) (other : m.doing? = none) (batch : ℕ)
    (fault : Fault) :
    SaysNothing w ((note now m w).release batch |>.andThen (Writer.recordFailure fault)) :=
  of_noted w now m other ((release _ _).andThen (recordFailure _ _))

theorem openBatch (w : Writer) (entries : List Value) :
    SaysNothing w (w.openBatch now entries) := by
  have timed : ∀ v : Writer, SaysNothing v (v.startTimeout (w.inFlight.issued + 1)) := by
    intro v
    refine of_same (v.silent_startTimeout _).history ?_
    unfold Writer.startTimeout
    split
    · simp [Change.stay]
    · split <;> simp [Change.stop, Effect.Still, Effect.moves]
  have noted : SaysNothing w ((note now (.opened (w.inFlight.issued + 1) entries)
      { w with inFlight := (w.inFlight.openBatch entries now).2 }).startTimeout
        (w.inFlight.issued + 1)) := by
    apply of_noted w now (.opened (w.inFlight.issued + 1) entries) rfl
    exact of_before (timed _) rfl
  exact (noted.andThen (measure (fun _ => rfl) rfl)).andThen (announce _ rfl)

theorem startDispatch (w : Writer) (loop : LoopName) (now : ℕ) :
    SaysNothing w (w.startDispatch loop now).1 := by
  unfold Writer.startDispatch
  split
  · exact stop rfl _
  · split
    · exact stop rfl _
    · next entries rest _ =>
      dsimp only
      split
      · exact stay rfl
      · exact SaysNothing.andThen (of_before (bind _ loop) rfl) (openBatch _ _)

theorem concludeDispatch (w : Writer) (now : ℕ) (parcel : Parcel) (refusal : Option Fault) :
    SaysNothing w (w.concludeDispatch now parcel refusal) := by
  have handed : ∀ {c : Change}, SaysNothing (w.note now (.handed parcel.batch parcel.entries)) c →
      SaysNothing w c := of_noted w now _ rfl
  unfold Writer.concludeDispatch
  split
  · exact handed (showGauges _)
  · dsimp only
    split
    · next fault _ =>
      have recorded := handed ((lost _ now (.refused parcel.batch parcel.entries) rfl parcel.batch
        (.submission parcel.batch fault)).andThen (showGauges _))
      exact ⟨recorded.doings, recorded.still⟩
    · have shown := handed (showGauges _)
      exact ⟨shown.doings, shown.still⟩

theorem complete (w : Writer) (now batch : ℕ) (failed : List Value) :
    SaysNothing w (w.complete now batch failed) := by
  unfold Writer.complete
  split
  · exact stay rfl
  · next r _ =>
    have timed : SaysNothing w
      (((note now (.completed batch r.entries failed) w).release batch).andThen
        (Writer.measure (.latency (ageMilliseconds r.openedAt now)))) :=
      of_noted w now (.completed batch r.entries failed) rfl
        ((release _ _).andThen (measure (fun _ => rfl) rfl))
    refine timed.andThen ?_
    unfold Writer.requeue
    split
    · exact stay rfl
    · exact SaysNothing.andThen (SaysNothing.andThen (measure (fun _ => rfl) rfl) (announce _ rfl))
        (armTimerIf _ _)

theorem reportFailed (w : Writer) (now batch : ℕ) (fault : Fault) :
    SaysNothing w (w.reportFailed now batch fault) := by
  unfold Writer.reportFailed
  split
  · exact announce _ rfl
  · exact lost _ _ _ rfl _ _

theorem expire (w : Writer) (now batch : ℕ) : SaysNothing w (w.expire now batch) := by
  unfold Writer.expire
  split
  · exact lost _ _ _ rfl _ _
  · exact stay rfl

/-! Flushes, and the end of a writer. -/

theorem bufferTimeOver (w : Writer) : SaysNothing w w.bufferTimeOver.1 := by
  unfold Writer.bufferTimeOver
  dsimp only
  split
  · exact stay rfl
  · split
    · exact stay rfl
    · exact announce _ rfl

theorem beginTimedFlush (w : Writer) (now : ℕ) : SaysNothing w (w.beginTimedFlush now) :=
  of_noted w now .flushed rfl (announce _ rfl)

theorem endTimedFlush (w : Writer) : SaysNothing w w.endTimedFlush :=
  (notify w).andThen (armTimerIf _ _)

theorem endCompletion (w : Writer) : SaysNothing w w.endCompletion :=
    (showGauges w).andThen (notify _)

theorem abandonAll (w : Writer) (now : ℕ) : SaysNothing w (w.abandonAll now) := by
  refine ⟨?_, each_abandonAll w now (fun _ _ => rfl) fun _ _ => rfl⟩
  rw [writer_abandonAll]
  exact History.doings_append _ (by simp [abandonments, Milestone.doing?]) _

theorem close (w : Writer) (now : ℕ) : SaysNothing w (w.close now) := by
  unfold Writer.close
  split
  · exact stay rfl
  · have given : SaysNothing w ((Writer.cancelTimer { w with closed := true }).andThen
        (Writer.abandonAll now)) := SaysNothing.andThen (of_before (cancelTimer _) rfl)
          (abandonAll _ _)
    exact ((given.andThen (notify _)).andThen (showGauges _)).andThen (announce _ rfl)

end SaysNothing

end Writer
end BatchWriter
