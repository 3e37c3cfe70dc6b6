import BatchWriter.Proofs.Bench.Gauges
import BatchWriter.Proofs.Bench.Guard
import BatchWriter.Proofs.Bench.Shift
import BatchWriter.Proofs.Bench.VainReports
import BatchWriter.Proofs.Bench.Wakeups

/-!
# The callbacks of a writer end normally

A writer is called back for three reasons: a report of a batch, a batch whose time is over, and
the alarm of its buffer. Under limits that are accepted and with destinations that raise ordinary
faults only, none of these callbacks raises, and one that changes which batches are in flight
wakes whoever waits for the writer.
-/

set_option autoImplicit false

namespace BatchWriter
namespace Writer

variable {now batch : Nat} {w : Writer} {fault : Fault}

theorem fault_reportFailed (w : Writer) (now batch : Nat) (fault : Fault) :
    (w.reportFailed now batch fault).fault = none := by
  unfold reportFailed
  split
  · rfl
  · exact fault_andThen_none rfl (fault_recordFailure _ _)

theorem fault_expire (w : Writer) (now batch : Nat) : (w.expire now batch).fault = none := by
  unfold expire
  split
  · exact fault_andThen_none rfl (fault_recordFailure _ _)
  · rfl

theorem fault_bufferTimeOver (w : Writer) : w.bufferTimeOver.1.fault = none := by
  unfold bufferTimeOver
  dsimp only
  split
  · rfl
  · split <;> rfl

/-- An alarm that asks for no flush leaves the batches alone. -/
theorem inFlight_bufferTimeOver (w : Writer) : w.bufferTimeOver.1.writer.inFlight = w.inFlight := by
  unfold bufferTimeOver
  dsimp only
  split
  · rfl
  · split <;> rfl

end Writer

namespace Bench

variable {b b' : Bench} {i : Nat} {w : Writer} {loop : LoopName}

/-- The next callback is one of the writer at `i`, and this comes of it. -/
inductive Fires (b : Bench) (i : Nat) : Option Fault × Bench → Prop where
  | report {name : LoopName} {batch : Nat} {report : Report} {popped : Bench}
      (idle : b.running = none)
      (next : b.nextCallback? = some (name, .report i batch report, popped)) :
      Fires b i (popped.receive name i batch report)
  | expire {limit batch : Nat} {time : Timetable Ring} (idle : b.running = none)
      (due : b.time.Rings limit (.writer i (.expire batch)) time) :
      Fires b i (change { b with time } i (·.expire time.now batch))
  | flush {limit : Nat} {time : Timetable Ring} (idle : b.running = none)
      (due : b.time.Rings limit (.writer i .flush) time) :
      Fires b i (bufferAlarm { b with time } i)

theorem Fires.move {r : Option Fault × Bench} (fires : b.Fires i r) : Move b (endCallback r) := by
  cases fires with
  | report idle next => exact .step (step_of_next idle next)
  | expire idle due => exact .ring idle due
  | flush idle due => exact .ring idle due

def Roused (b : Bench) (i : Nat) : Prop :=
  ∀ w : Writer, b.writers[i]? = some w → w.refusal? ≠ none ∨ w.waiters = []

/-- A callback ends without a fault, and with nobody waiting unless it has left the batches as
they were. -/
structure EndsWell (w : Writer) (i : Nat) (r : Option Fault × Bench) : Prop where
  calm : r.1 = none
  rouses : (∀ w' : Writer, r.2.writers[i]? = some w' → w'.inFlight = w.inFlight) ∨ r.2.Roused i

theorem roused_change (hw : b.writers[i]? = some w) {f : Writer → Change}
    (wakes : (f w).writer.waiters = []) : (b.change i f).2.Roused i := fun w' hw' => by
  rw [writer_change hw, Option.some.injEq] at hw'
  exact .inr (hw' ▸ wakes)

/-- A timed flush of a usable writer on its own loop ends without a fault: what a civil
destination raises has failed the writer by then. -/
theorem timedFlush_ends (civil : b.Civil) (hw : b.writers[i]? = some w) (bound : w.loop = some loop)
    (usable : w.refusal? = none) (tame : w.config.Tame) :
    (b.timedFlush i loop).1 = none ∧ (b.timedFlush i loop).2.Roused i := by
  have begun := writer_change hw (·.beginTimedFlush b.now)
  have civil' : Civil (b.change i (·.beginTimedFlush b.now)).2 :=
    civil.of_scripts (by rw [destinations_change])
  obtain ⟨u, hu, later⟩ := WriterActions.extends (.single (.dispatch ⟨_, begun, bound⟩)) i _ begun
  unfold timedFlush
  dsimp only
  rcases dispatch_ends civil' begun bound usable tame with ok | ⟨fault, fails, kind, refused⟩
  · rw [ok]
    dsimp only
    constructor
    · rw [fault_change hu]
      exact Writer.fault_andThen_none rfl (Writer.fault_armTimerIf (later.config ▸ tame) _)
    · refine roused_change hu ?_
      rw [Writer.endTimedFlush, Change.writer_andThen rfl]
      obtain ⟨armed, same⟩ := u.notify.writer.writer_armTimerIf (!u.notify.writer.buffer.isEmpty)
      rw [same]
      rfl
  · rw [fails]
    simp only [kind, if_true]
    exact ⟨trivial, fun w' hw' => .inl (refused w' hw')⟩

theorem deferredFlush_calm (civil : b.Civil) (hw : b.writers[i]? = some w)
    (bound : w.loop = some loop) (sealed : w.Sealed) (tame : w.config.Tame) :
    (b.deferredFlush i loop).1 = none := by
  cases due : w.flushIsDue with
  | false => simp [deferredFlush, hw, due]
  | true =>
    rw [deferredFlush_of_due hw due]
    have usable := sealed.usable_of_deferred (Writer.deferred_of_due due)
    have civil' : Civil (b.change i (·.beginDeferredFlush)).2 :=
      civil.of_scripts (by rw [destinations_change])
    exact (timedFlush_ends civil' (writer_change hw _) bound usable tame).1

theorem receive_ends (civil : b.Civil) (hw : b.writers[i]? = some w) (bound : w.loop = some loop)
    (sealed : w.Sealed) (tame : w.config.Tame) (batch : Nat) (report : Report) :
    EndsWell w i (b.receive loop i batch report) := by
  cases report with
  | failed fault =>
    refine ⟨(fault_change hw _).trans (w.fault_reportFailed _ _ _), ?_⟩
    rcases w.writer_reportFailed b.now batch fault with same | ⟨r, -, same⟩
    · refine .inl fun w' hw' => ?_
      rw [receive, writer_change hw, Option.some.injEq] at hw'
      rw [← hw', same]
    · exact .inr (roused_change hw (congrArg Writer.waiters same))
  | completed failed =>
    simp only [receive, hw]
    split
    · refine ⟨rfl, .inl fun w' hw' => ?_⟩
      have same : b.writers[i]? = some w' := hw'
      rw [hw, Option.some.injEq] at same
      rw [same]
    · have completed := writer_change hw (·.complete b.now batch failed)
      have first : (b.change i (·.complete b.now batch failed)).1 = none := by
        rw [fault_change hw]
        exact Writer.fault_complete tame _ _ _
      have later := (w.regular_complete b.now batch failed).later
      have civil' : Civil (b.change i (·.complete b.now batch failed)).2 :=
        civil.of_scripts (by rw [destinations_change])
      have own := later.loop loop bound
      have second := deferredFlush_calm civil' completed own
        ((Writer.PlainChange.complete batch failed).sealed sealed) (later.config ▸ tame)
      obtain ⟨u, hu, -⟩ := (WriterActions.deferredFlush ⟨_, completed, own⟩).extends i _ completed
      simp only [thenDo, first, second]
      exact ⟨fault_change hu _, .inr (roused_change hu rfl)⟩

theorem bufferAlarm_ends (civil : b.Civil) (hw : b.writers[i]? = some w)
    (bound : w.loop = some loop) (tame : w.config.Tame) : EndsWell w i (b.bufferAlarm i) := by
  have rung := writer_change hw (·.bufferTimeOver.1)
  simp only [bufferAlarm, hw, bound, Option.getD_some]
  split
  · next flushes =>
    obtain ⟨same, -⟩ := Writer.bufferTimeOver_flush flushes
    rw [same] at rung
    have civil' : Civil (b.change i (·.bufferTimeOver.1)).2 :=
      civil.of_scripts (by rw [destinations_change])
    have flushed := timedFlush_ends civil' rung bound (Writer.filled_of_flush flushes).1 tame
    exact ⟨flushed.1, .inr flushed.2⟩
  · refine ⟨(fault_change hw _).trans w.fault_bufferTimeOver, .inl fun w' hw' => ?_⟩
    rw [rung, Option.some.injEq] at hw'
    rw [← hw', Writer.inFlight_bufferTimeOver]

theorem Fires.ends {r : Option Fault × Bench} (fires : b.Fires i r) (h : Reachable b)
    (civil : b.Civil) (hw : b.writers[i]? = some w) (tame : w.config.Tame) : EndsWell w i r := by
  have coherent := h.orderly.coherent
  cases fires with
  | @report name batch report popped idle next =>
    obtain ⟨tail, head, -, rfl⟩ := nextCallback?_eq_some.1 next
    have fits : b.Owned i name := coherent.callbacks name (.report i batch report) (by simp [head])
    obtain ⟨u, hu, bound⟩ := fits
    rw [hw, Option.some.injEq] at hu
    subst hu
    refine receive_ends (civil.of_scripts ?_) (by rw [writers_popped, hw]) bound
      (h.timely.sealed i w hw) tame batch report
    rw [popped]
    exact congrArg _ (destinations_setLoop b name _)
  | @expire limit batch time idle due =>
    refine ⟨(fault_change (b := { b with time }) hw _).trans (w.fault_expire _ _), ?_⟩
    rcases w.writer_expire time.now batch with same | ⟨r, limit, -, same⟩
    · refine .inl fun w' hw' => ?_
      rw [writer_change (b := { b with time }) hw, Option.some.injEq] at hw'
      rw [← hw', same]
    · exact .inr (roused_change (b := { b with time }) hw (congrArg Writer.waiters same))
  | @flush limit time idle due =>
    obtain ⟨-, -, a, ha, action⟩ := rung due
    have own : b.AlarmFits (.writer i .flush) := action ▸ coherent.alarms a ha
    obtain ⟨name, u, hu, bound⟩ := own
    rw [hw, Option.some.injEq] at hu
    subst hu
    exact bufferAlarm_ends (b := { b with time }) civil hw bound tame

/-- Calls stay where they are, but for those that are woken. -/
theorem Fires.noProgress {r : Option Fault × Bench} (fires : b.Fires i r) :
    NoProgress anyId b r.2 := by
  cases fires with
  | @report name batch report popped idle next =>
    obtain ⟨tail, head, -, rfl⟩ := nextCallback?_eq_some.1 next
    have taken : NoProgress anyId b (b.setLoop name { b.loop name with ready := tail }) :=
      noProgress_setLoop fun cb hm => .inl (head ▸ List.mem_cons_of_mem _ hm)
    have turned : NoProgress anyId (b.setLoop name { b.loop name with ready := tail })
        (b.popped name tail) := .of_same rfl rfl rfl rfl rfl rfl rfl rfl
    exact (taken.trans turned).trans (noProgress_receive _ _ _ _ _)
  | expire idle due =>
    exact (noProgress_time b _).trans (noProgress_change i fun w => w.unfed_expire _ _)
  | flush idle due => exact (noProgress_time b _).trans (noProgress_bufferAlarm _ i)

/-- A call that waited for a writer is queued once the writer has no waiting calls. -/
theorem queued_of_roused (h : Coherent none b') (noProgress : NoProgress anyId b b') {w' : Writer}
    (hw' : b'.writers[i]? = some w') (none : w'.waiters = []) {id : Nat} {c : Call}
    (waits : b.Suspended i id c) : ∃ c' interrupted, b'.calls[id]? = some c' ∧
      c'.program = c.program ∧ c'.status = .queued interrupted ∧ b'.Queued id c'.loop := by
  obtain ⟨hc, on, live, still⟩ := waits
  obtain ⟨c', hc', keeps⟩ := noProgress.kept id c hc
  have on' : c'.program.waitsOn? = some i := keeps.program ▸ on
  have live' : c'.isEnded = false := keeps.ended.trans live
  obtain ⟨-, stands⟩ := h.calls id c' hc' (by simp) live'
  unfold StatusFits at stands
  split at stands
  · next interrupted status => exact ⟨c', interrupted, hc', keeps.program, status, stands.2⟩
  · next running => exact absurd (keeps.running.1 running) still
  · obtain ⟨j, u, hj, hu, listed⟩ := stands
    rw [on', Option.some.injEq] at hj
    rw [← hj, hw', Option.some.injEq] at hu
    rw [← hu, none] at listed
    cases listed
  · rw [on'] at stands
    cases stands.2
  · next ended =>
    rw [Call.isEnded, ended] at live'
    cases live'

/-- **Callbacks that never raise.** Where the limits are accepted and destinations raise ordinary
faults only, every callback of a writer ends without a fault, and the run goes on with what the
callback has left. One that ends a batch or opens one queues every call that waits for the
writer. Reports come in on the writer's own loop, and the buffer's alarm is set only for a writer
that has one; whatever is flushed for the alarm or put off is flushed by a usable writer. -/
theorem callbacks_end_normally (h : Reachable b) (hw : b.writers[i]? = some w) (civil : b.Civil)
    (tame : w.config.Tame) :
    (∀ r, b.Fires i r → r.1 = none ∧ Move b r.2 ∧ ∃ w', r.2.writers[i]? = some w' ∧
      (w'.inFlight = w.inFlight ∨ w'.waiters = [] ∧ ∀ (id : Nat) (c : Call), b.Suspended i id c →
        ∃ c' interrupted, r.2.calls[id]? = some c' ∧ c'.program = c.program ∧
          c'.status = .queued interrupted ∧ r.2.Queued id c'.loop)) ∧
    (∀ name batch report, Callback.report i batch report ∈ (b.loop name).ready →
      w.loop = some name) ∧
    (b.time.isSet (.writer i .flush) = true → w.loop.isSome = true) ∧
    (w.deferred = true ∨ w.bufferTimeOver.2 = true → w.refusal? = none) := by
  have coherent := h.orderly.coherent
  refine ⟨fun r fires => ?_, fun name batch report ready => ?_, fun set => ?_, ?_⟩
  · obtain ⟨calm, rouses⟩ := fires.ends h civil hw tame
    have same : endCallback r = r.2 := by simp only [endCallback, calm]
    have move : Move b r.2 := same ▸ fires.move
    have reached := h.move move
    obtain ⟨w', hw', -⟩ := fires.noProgress.writers i w hw
    refine ⟨calm, move, w', hw', ?_⟩
    rcases rouses with kept | roused
    · exact .inl (kept w' hw')
    · have none : w'.waiters = [] :=
        (roused w' hw').elim (reached.timely.sealed i w' hw').waiters fun woken => woken
      exact .inr ⟨none, fun id c =>
        queued_of_roused reached.orderly.coherent fires.noProgress hw' none⟩
  · obtain ⟨u, hu, bound⟩ : b.Owned i name := coherent.callbacks name _ ready
    rw [hw, Option.some.injEq] at hu
    exact hu ▸ bound
  · obtain ⟨a, ha, action⟩ := List.any_eq_true.1 set
    have fits : b.AlarmFits (.writer i .flush) :=
      (of_decide_eq_true action : a.action = _) ▸ coherent.alarms a ha
    obtain ⟨name, u, hu, bound⟩ := fits
    rw [hw, Option.some.injEq] at hu
    rw [hu, bound, Option.isSome_some]
  · rintro (deferred | flushes)
    · exact (h.timely.sealed i w hw).usable_of_deferred deferred
    · exact (Writer.filled_of_flush flushes).1

def relieving : Bench := delaying.tellHandle (.batch 0 .main 1) (.completed [])

theorem reachable_relieving : Reachable relieving := by
  refine reachable_delaying.move (.tell ?_ _)
  exact ⟨_, rfl, rfl⟩

/-- The callback dispatches the next batch and wakes the commit. -/
theorem callbacks_end_normally_relieving : ∃ (w w' : Writer) (r : Option Fault × Bench),
    relieving.writers[0]? = some w ∧ w.inFlight.ids = [1] ∧ w.deferred = true ∧
      relieving.Fires 0 r ∧ r.1 = none ∧ r.2.writers[0]? = some w' ∧ w'.inFlight.ids = [2] ∧
      ∃ c interrupted, r.2.calls[0]? = some c ∧ c.status = .queued interrupted := by
  obtain ⟨w, hw⟩ : ∃ w, relieving.writers[0]? = some w := ⟨_, rfl⟩
  have known : (relieving.writers[0]?).map (fun w => (w.inFlight.ids, w.deferred, w.config)) =
      some ([1], true,
        { maxBatchSize := .int 1, maxInFlight := .int 1, maxBuffered := .int 4,
          maxTimeInBuffer := some (.int 5) }) := rfl
  rw [hw, Option.map_some, Option.some.injEq, Prod.mk.injEq, Prod.mk.injEq] at known
  obtain ⟨ids, deferred, config⟩ := known
  have civil : relieving.Civil := .of_unscripted rfl
  have tame : w.config.Tame := by
    rw [config]
    refine ⟨rfl, fun limit h => ?_, fun _ h => by cases h⟩
    cases h
    exact ⟨_, rfl⟩
  obtain ⟨popped, next⟩ : ∃ popped, relieving.nextCallback? =
      some (.main, .report 0 1 (.completed []), popped) := ⟨_, rfl⟩
  have fires : relieving.Fires 0 (popped.receive .main 0 1 (.completed [])) := .report rfl next
  obtain ⟨calm, -, w', hw', wakes⟩ :=
    (callbacks_end_normally reachable_relieving hw civil tame).1 _ fires
  have after : (relieving.nextCallback?).map (fun n => ((n.2.2.receive .main 0 1
      (.completed [])).2.writers[0]?).map (·.inFlight.ids)) = some (some [2]) := rfl
  rw [next, Option.map_some, hw', Option.map_some, Option.some.injEq, Option.some.injEq] at after
  obtain ⟨c, hc⟩ : ∃ c, relieving.calls[0]? = some c := ⟨_, rfl⟩
  have stands : (relieving.calls[0]?).map (fun c => (c.program.waitsOn?, c.isEnded, c.status)) =
      some (some 0, false, .waiting .change) := rfl
  rw [hc, Option.map_some, Option.some.injEq, Prod.mk.injEq, Prod.mk.injEq] at stands
  obtain ⟨on, live, status⟩ := stands
  have suspended : relieving.Suspended 0 0 c := ⟨hc, on, live, by simp [status]⟩
  obtain same | ⟨-, queued⟩ := wakes
  · rw [same, ids] at after
    cases after
  · obtain ⟨c', interrupted, hc', -, status', -⟩ := queued 0 c suspended
    exact ⟨w, w', _, hw, ids, deferred, fires, calm, hw', after, c', interrupted, hc', status'⟩

end Bench
end BatchWriter
