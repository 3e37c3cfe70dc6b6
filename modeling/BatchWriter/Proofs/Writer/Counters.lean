import BatchWriter.Proofs.Writer.Motion
import BatchWriter.Proofs.Writer.Order
import Mathlib.Algebra.BigOperators.Group.List.Basic

/-!
# What a writer counts

Entries written, batches dispatched, entries in them and entries that came back are counted
one by one, apart from the changes that they count. The history tells of the same changes,
and in every change of a writer the counts grow by what the history gains. The one exception
is a batch whose time the clock refuses: it is opened and not counted.
-/

set_option autoImplicit false

namespace BatchWriter

inductive Counter where
  | written
  | dispatched
  | sent
  | requeued

def Measurement.count : Counter → Measurement → Nat
  | .written, .written => 1
  | .dispatched, .batch _ => 1
  | .sent, .batch size => size
  | .requeued, .requeued entries => entries
  | _, _ => 0

def Effect.count (k : Counter) : Effect → Nat
  | .measure m => m.count k
  | _ => 0

def Milestone.count : Counter → Milestone → Nat
  | .written, .accepted _ => 1
  | .dispatched, .opened _ _ => 1
  | .sent, .opened _ entries => entries.length
  | .requeued, .completed _ _ failed => failed.length
  | _, _ => 0

def Effect.Uncounted (e : Effect) : Prop := ∀ k, e.count k = 0

theorem Effect.sum_uncounted {effects : List Effect} (uncounted : ∀ e ∈ effects, e.Uncounted)
    (k : Counter) : (effects.map (Effect.count k)).sum = 0 := by
  refine List.sum_eq_zero fun n hn => ?_
  obtain ⟨e, he, rfl⟩ := List.mem_map.1 hn
  exact uncounted e he k

theorem Effect.Mild.uncounted {w : Writer} {e : Effect} (h : e.Mild w) : e.Uncounted := by
  intro k
  cases e with
  | measure m =>
    cases m with
    | wait _ | gauges _ _ => cases k <;> rfl
    | _ => exact h.elim
  | _ => rfl

namespace History

def failures : History → List (List Value)
  | [] => []
  | (_, .completed _ _ failed) :: h => failures h ++ [failed]
  | _ :: h => failures h

def count (h : History) : Counter → Nat
  | .written => h.written.length
  | .dispatched => h.batches.length
  | .sent => h.batches.flatten.length
  | .requeued => h.failures.flatten.length

variable {h : History} {m : Milestone}

theorem count_cons (now : Nat) (m : Milestone) (h : History) (k : Counter) :
    count ((now, m) :: h) k = h.count k + m.count k := by
  cases k <;> cases m <;>
    simp [count, written, batches, failures, Milestone.count]

theorem count_inert (inert : m.Inert) (k : Counter) : m.count k = 0 := by
  cases m with
  | restored _ | accepted _ | opened _ _ | completed _ _ _ => exact inert.elim
  | _ => cases k <;> rfl

theorem count_append {newer : History} (inert : ∀ e ∈ newer, e.2.Inert) (h : History)
    (k : Counter) : (newer ++ h).count k = h.count k := by
  induction newer with
  | nil => rfl
  | cons e rest ih =>
    rw [List.cons_append, count_cons, count_inert (inert e List.mem_cons_self),
      ih fun x hx => inert x (List.mem_cons_of_mem _ hx), Nat.add_zero]

theorem puts_append {newer : History} (inert : ∀ e ∈ newer, e.2.Inert) (h : History) :
    (newer ++ h).puts = h.puts := by
  induction newer with
  | nil => rfl
  | cons e rest ih =>
    have others := ih fun x hx => inert x (List.mem_cons_of_mem _ hx)
    have first := inert e List.mem_cons_self
    obtain ⟨now, m⟩ := e
    cases m with
    | restored _ | accepted _ | opened _ _ | completed _ _ _ => exact first.elim
    | _ => exact others

/-- All that was put into the buffer has left it in a batch or is still there. -/
theorem puts_eq (h : History) : h.puts = h.departed.length + h.line.length := by
  have numbers := h.parade_numbers.length_eq
  rwa [List.length_map, List.length_range, List.length_append, eq_comm] at numbers

end History

namespace Writer

open History

variable {now : Nat} {w w' : Writer} {c : Change}

def Counts (w : Writer) (c : Change) : Prop :=
  ∀ k, c.writer.history.count k = w.history.count k + (c.effects.map (Effect.count k)).sum

namespace Counts

theorem andThen {next : Writer → Change} (hc : Counts w c)
    (hn : c.fault = none → Counts c.writer (next c.writer)) : Counts w (c.andThen next) := by
  unfold Change.andThen
  split
  · exact hc
  · next ok =>
    intro k
    rw [List.map_append, List.sum_append, hn ok k, hc k, Nat.add_assoc]

/-- A change that is not counted and tells of nothing that is. -/
theorem of_uncounted (history : c.writer.history = w.history)
    (uncounted : ∀ e ∈ c.effects, e.Uncounted) : Counts w c := by
  intro k
  rw [history, Effect.sum_uncounted uncounted, Nat.add_zero]

/-- A milestone that moves no entries, told without an effect or before others. -/
theorem of_noted {m : Milestone} (inert : m.Inert) (hc : Counts (w.note now m) c) :
    Counts w c := by
  intro k
  have same : (w.note now m).history.count k = w.history.count k := by
    rw [note, count_cons, count_inert inert, Nat.add_zero]
  rw [hc k, same]

/-- A milestone that is told first and counted by the last part of the change. -/
theorem of_owed (now : Nat) (m : Milestone) {next : Writer → Change} (ok : c.fault = none)
    (first : Counts (w.note now m) c)
    (history : ∀ k, (next c.writer).writer.history.count k = c.writer.history.count k)
    (counted : ∀ k, ((next c.writer).effects.map (Effect.count k)).sum = m.count k) :
    Counts w (c.andThen next) := by
  intro k
  have told := first k
  rw [note, count_cons] at told
  rw [Change.writer_andThen ok, Change.effects_andThen ok, history, told, List.map_append,
    List.sum_append, counted]
  omega

end Counts

theorem uncounted_armTimerIf (w : Writer) (condition : Bool) :
    ∀ e ∈ (w.armTimerIf condition).effects, e.Uncounted := by
  unfold armTimerIf armTimer
  split
  · split
    · simp [Change.stay]
    · split
      · simp [Change.stay]
      · split <;> simp [Change.stop, Effect.Uncounted, Effect.count]
  · simp [Change.stay]

namespace Counts

theorem announce (n : Notice) (w : Writer) : Counts w (w.announce n) :=
  .of_uncounted rfl (by simp [Writer.announce, Effect.Uncounted, Effect.count])

theorem showGauges (w : Writer) : Counts w w.showGauges := by
  refine .of_uncounted rfl ?_
  rintro e he k
  rw [List.mem_singleton.1 he]
  cases k <;> rfl

theorem notify (w : Writer) : Counts w w.notify :=
  .of_uncounted rfl (by simp [Writer.notify, Effect.Uncounted, Effect.count])

theorem stay {u : Writer} (history : u.history = w.history) : Counts w (.stay u) :=
  .of_uncounted history fun _ he => by cases he

theorem armTimerIf (w : Writer) (condition : Bool) : Counts w (w.armTimerIf condition) :=
  .of_uncounted (silent_armTimerIf w condition).history (uncounted_armTimerIf w condition)

theorem bind (w : Writer) (loop : LoopName) : Counts w (w.bind loop) := by
  refine .of_uncounted (silent_bind w loop).history ?_
  unfold Writer.bind
  split
  · exact uncounted_armTimerIf _ _
  · split <;> simp [Change.stay, Change.stop]

theorem cancelTimer (w : Writer) : Counts w w.cancelTimer :=
  .of_uncounted rfl (by simp [Writer.cancelTimer, Effect.Uncounted, Effect.count])

theorem release (w : Writer) (batch : Nat) : Counts w (w.release batch) :=
  .of_uncounted rfl (by simp [Writer.release, Effect.Uncounted, Effect.count])

theorem recordFailure (w : Writer) (fault : Fault) : Counts w (w.recordFailure fault) := by
  have kept : Counts w (w.keepFailure fault) := by
    unfold keepFailure
    split
    · exact stay rfl
    · exact .of_uncounted rfl (by simp [Writer.announce, Effect.Uncounted, Effect.count])
  exact ((kept.andThen fun _ => cancelTimer _).andThen fun _ => showGauges _).andThen
    fun _ => notify _

theorem lost (w : Writer) {batch : Nat} {m : Milestone} (inert : m.Inert) (fault : Fault) :
    Counts w ((note now m w).release batch |>.andThen (Writer.recordFailure fault)) :=
  .of_noted inert ((release _ _).andThen fun _ => recordFailure _ _)

/-! Entries are written. -/

theorem accept (w : Writer) (entry : Value) : Counts w (w.accept now entry) := by
  have appended : Counts w (Writer.measure .written
      (note now (.accepted entry) { w with buffer := w.buffer.append entry })) := by
    intro k
    simp only [Writer.measure, note, count_cons]
    cases k <;> rfl
  exact appended.andThen fun _ => armTimerIf _ _

/-! Batches are opened and end. -/

theorem startTimeout (w : Writer) (batch : Nat) : Counts w (w.startTimeout batch) := by
  refine .of_uncounted (silent_startTimeout w batch).history ?_
  unfold Writer.startTimeout
  split
  · simp [Change.stay]
  · split <;> simp [Change.stop, Effect.Uncounted, Effect.count]

theorem openBatch (timeable : w.config.Timeable) (entries : List Value) :
    Counts w (w.openBatch now entries) := by
  have opens := (fault_openBatch_iff w now entries).2 timeable
  unfold Writer.openBatch at opens ⊢
  rw [fault_andThen_calm _ fun _ => rfl, fault_andThen_calm _ fun _ => rfl] at opens
  have measured : Counts w (((note now (.opened (w.inFlight.issued + 1) entries)
      { w with inFlight := (w.inFlight.openBatch entries now).2 }).startTimeout
        (w.inFlight.issued + 1)).andThen (Writer.measure (.batch entries.length))) := by
    refine .of_owed now (.opened (w.inFlight.issued + 1) entries) opens
      (fun k => startTimeout _ _ k) (fun k => rfl) fun k => ?_
    cases k <;> simp [Writer.measure, Effect.count, Measurement.count, Milestone.count]
  exact measured.andThen fun _ => announce _ _

theorem startDispatch {loop : LoopName} (bound : w.loop = some loop)
    (timeable : w.config.Timeable) : Counts w (w.startDispatch loop now).1 := by
  unfold Writer.startDispatch
  split
  · exact stay rfl
  · split
    · exact stay rfl
    · next entries rest _ =>
      dsimp only
      split
      · exact stay rfl
      · rw [bind_of_bound (by exact bound), stay_andThen]
        exact openBatch (w := { w with buffer := rest, deferred := w.deferred && !rest.isEmpty })
          timeable entries

theorem sum_requeue (w : Writer) (batch size : Nat) (entries failed : List Value) (k : Counter) :
    ((w.requeue batch size failed).effects.map (Effect.count k)).sum =
      Milestone.count k (.completed batch entries failed) := by
  unfold requeue
  split
  · next empty =>
    rw [List.isEmpty_iff.1 empty]
    cases k <;> rfl
  · dsimp only
    rw [Change.effects_andThen rfl, Change.effects_andThen rfl, List.map_append, List.sum_append,
      Effect.sum_uncounted (uncounted_armTimerIf _ _)]
    cases k <;> simp [Writer.measure, Writer.announce, Effect.count, Measurement.count,
      Milestone.count]

theorem complete (w : Writer) (batch : Nat) (failed : List Value) :
    Counts w (w.complete now batch failed) := by
  unfold Writer.complete
  split
  · exact stay rfl
  · next r _ =>
    refine .of_owed now (.completed batch r.entries failed) rfl
      ((release _ _).andThen fun _ => .of_uncounted rfl ?_)
      (fun k => congrArg (count · k) (silent_requeue _ _ _ _).history)
      fun k => sum_requeue _ _ _ _ _ _
    rintro e he k
    rw [List.mem_singleton.1 he]
    cases k <;> rfl

theorem concludeDispatch (w : Writer) (parcel : Parcel) (refusal : Option Fault) :
    Counts w (w.concludeDispatch now parcel refusal) := by
  have handed : Milestone.Inert (.handed parcel.batch parcel.entries) := trivial
  unfold Writer.concludeDispatch
  split
  · exact .of_noted handed (showGauges _)
  · dsimp only
    split
    · next fault _ =>
      have recorded : Counts w (((note now (.refused parcel.batch parcel.entries)
          (note now (.handed parcel.batch parcel.entries) w)).release parcel.batch
            |>.andThen (Writer.recordFailure (.submission parcel.batch fault))).andThen
              Writer.showGauges) :=
        .of_noted handed ((lost _ (by exact trivial) _).andThen fun _ => showGauges _)
      exact fun k => recorded k
    · have shown : Counts w (note now (.handed parcel.batch parcel.entries) w).showGauges :=
        .of_noted handed (showGauges _)
      exact fun k => shown k

theorem reportFailed (w : Writer) (batch : Nat) (fault : Fault) :
    Counts w (w.reportFailed now batch fault) := by
  unfold Writer.reportFailed
  split
  · exact announce _ _
  · exact lost _ (by exact trivial) _

theorem expire (w : Writer) (batch : Nat) : Counts w (w.expire now batch) := by
  unfold Writer.expire
  split
  · exact lost _ (by exact trivial) _
  · exact stay rfl

theorem bufferTimeOver (w : Writer) : Counts w w.bufferTimeOver.1 := by
  unfold Writer.bufferTimeOver
  dsimp only
  split
  · exact stay rfl
  · split
    · exact stay rfl
    · exact .of_uncounted rfl (by simp [Writer.announce, Effect.Uncounted, Effect.count])

/-- The batches that a closing writer gives up were counted when they were opened. -/
theorem abandonAll (w : Writer) (now : Nat) : Counts w (w.abandonAll now) := by
  intro k
  rw [writer_abandonAll, count_append (by simp [abandonments, Milestone.Inert]),
    Effect.sum_uncounted, Nat.add_zero]
  exact each_abandonAll w now (fun _ _ => rfl) fun _ _ => rfl

theorem close (w : Writer) (now : Nat) : Counts w (w.close now) := by
  unfold Writer.close
  split
  · exact stay rfl
  · have cancelled : Counts w (Writer.cancelTimer { w with closed := true }) :=
      cancelTimer { w with closed := true }
    exact (((cancelled.andThen fun _ => abandonAll _ _).andThen fun _ => notify _).andThen
      fun _ => showGauges _).andThen fun _ => announce _ _

end Counts

/-- What calls, subscribers and destinations do is counted as it is told. -/
theorem CallChange.counts (h : CallChange now w c) : Counts w c := by
  induction h with
  | mild same mild => exact .of_uncounted (by rw [same]) fun e he => (mild e he).uncounted
  | andThen _ _ first second => exact first.andThen second
  | @note w event =>
    exact .of_noted (m := .announced event) trivial (.stay rfl)
  | bind loop => exact .bind _ _
  | accept entry => exact .accept _ _
  | emptyBatch | addWaiter | dropWaiter => exact .stay rfl
  | close => exact .close _ _

/-- Every motion is counted as it is told, if the clock accepts the time of the batches. -/
theorem Motion.counts (h : Motion now w c) (timeable : w.config.Timeable) : Counts w c := by
  cases h with
  | plainChange plainChange =>
    cases plainChange with
    | callChange callChange => exact callChange.counts
    | complete batch failed => exact .complete _ _ _
    | beginDeferredFlush => exact .stay rfl
    | beginTimedFlush => exact .of_noted (m := .flushed) trivial (.announce _ _)
    | endTimedFlush => exact (Counts.notify _).andThen fun _ => .armTimerIf _ _
    | endCompletion => exact (Counts.showGauges _).andThen fun _ => .notify _
    | reportFailed batch fault => exact .reportFailed _ _ _
  | startDispatch bound => exact .startDispatch bound timeable
  | concludeDispatch parcel refusal _ _ => exact .concludeDispatch _ _ _

/-! ## The balance of the buffer -/

/-- Entries were put into the buffer when the writer was built, by writes and by completions. -/
def Filled (w : Writer) : Prop :=
  w.history.puts = w.history.initial.length + w.history.count .written + w.history.count .requeued

theorem Filled.extend (h : w.Filled) {newer : History} (inert : ∀ e ∈ newer, e.2.Inert)
    (history : w'.history = newer ++ w.history) : w'.Filled := by
  rw [Filled, history, puts_append inert, (sameEntries_append inert w.history).initial,
    count_append inert, count_append inert]
  exact h

theorem Episode.filled (h : w.Episode w') (hf : w.Filled) : w'.Filled := by
  cases h with
  | silent _ quiet => rwa [Filled, quiet.history]
  | told now m plain same =>
    have inert : ∀ e ∈ [(now, m)], e.2.Inert := by simpa using plain.inert
    exact hf.extend inert (by rw [same]; rfl)
  | accepted now entry _ history =>
    rw [Filled, history, count_cons, count_cons, puts, initial, hf]
    · simp only [Milestone.count]
      omega
    all_goals simp
  | opened now entries _ _ _ _ _ history =>
    rw [Filled, history, count_cons, count_cons, puts, initial, hf]
    · rfl
    all_goals simp
  | handed now batch entries _ _ _ history =>
    have inert : ∀ e ∈ [(now, Milestone.handed batch entries)], e.2.Inert := by
      simp [Milestone.Inert]
    exact hf.extend inert history
  | completed now batch entries failed _ _ history =>
    rw [Filled, history, count_cons, count_cons, puts, initial, hf]
    · simp only [Milestone.count]
      omega
    all_goals simp
  | lost now batch m loss _ _ history =>
    have inert : ∀ e ∈ [(now, m)], e.2.Inert := by simpa using Milestone.inert_of_lost? loss
    exact hf.extend inert history
  | closed now _ _ history =>
    exact hf.extend (by simp [abandonments, Milestone.Inert]) history

theorem Lawful.filled (h : w.Lawful) : w.Filled := by
  refine h.keeps (fun u new => ?_) fun _ _ episode => episode.filled
  obtain ⟨now, entries, history, -⟩ := new.history
  rw [Filled, history]
  simp [puts, initial, count, written, failures]

/-- What a writer was given and what came back is in the buffer or has left it in a batch. -/
theorem Lawful.balance (h : w.Lawful) :
    w.history.initial.length + w.history.count .written + w.history.count .requeued =
      w.buffer.size + w.history.count .sent := by
  have buffered : w.history.line.length = w.buffer.size := by
    rw [Buffer.size, ← h.inLine.buffer, List.length_map]
  have left : w.history.departed.length = w.history.count .sent := by
    rw [count, ← h.inLine.batches, List.length_map]
  have filled := h.filled
  rw [Filled, puts_eq, buffered, left] at filled
  omega

end Writer
end BatchWriter
