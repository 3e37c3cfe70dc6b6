import BatchWriter.Proofs.Bench.VainReports
import BatchWriter.Proofs.Bench.Terminal

/-!
# One outcome per batch, in every run

Whatever is reported of a batch, however often, from wherever and however late: the first
outcome that finds the batch open ends it, and no other one changes anything. A run is therefore
the same without the reports that come too late.
-/

set_option autoImplicit false

namespace BatchWriter
namespace Bench

variable {b b' : Bench} {i batch : Nat} {w : Writer} {loop : LoopName}

/-- What may end a batch of the writer at `i` between two steps, and the milestone for it. -/
inductive Ends (b : Bench) (i batch : Nat) : (List Value → Milestone) → Bench → Prop where
  | completion {loop : LoopName} (own : b.Owned i loop) (failed : List Value) :
      Ends b i batch (fun entries => .completed batch entries failed)
        (b.runCallback loop (.report i batch (.completed failed)))
  | failure {loop : LoopName} (own : b.Owned i loop) (fault : Fault) :
      Ends b i batch (.reportedFailed batch)
        (b.runCallback loop (.report i batch (.failed fault)))
  | expiry {limit : Nat} {time : Timetable Ring}
      (due : b.time.Rings limit (.writer i (.expire batch)) time) :
      Ends b i batch (.expired batch) (ring { b with time } (.writer i (.expire batch)))
  | closing : Ends b i batch (.abandoned batch) (b.change i (·.close b.now)).2

def handOver (b : Bench) (i : Nat) (loop : LoopName) (w : Writer) (parcel : Writer.Parcel) :
    Option Fault × Bench :=
  (b.change i fun w => (w.startDispatch loop b.now).1).2.submit w.destination (some loop)
    parcel.entries (.batch i loop parcel.batch)

def Records (b : Bench) (i : Nat) (m : List Value → Milestone) : Prop :=
  ∃ (w : Writer) (t : Nat) (entries : List Value),
    b.writers[i]? = some w ∧ (t, m entries) ∈ w.history

/-- Each batch of the writer at `i` has one outcome, the first one. -/
structure OneOutcome (b : Bench) (i : Nat) (w : Writer) : Prop where
  /-- No batch ends twice, -/
  once : w.history.endings.Nodup
  /-- and it is open until it ends. -/
  isOpen : ∀ batch, 0 < batch ∧ batch ≤ w.inFlight.issued →
    (batch ∈ w.inFlight.ids ↔ batch ∉ w.history.endings)
  /-- What comes first for an open batch takes effect, -/
  first : ∀ batch ∈ w.inFlight.ids, ∀ m b', Ends b i batch m b' → b'.Records i m
  /-- and before any of it the destination's refusal, in the dispatch that opens the batch. -/
  refused : ∀ loop parcel fault,
    (w.startDispatch loop b.now).2 = some parcel →
    (b.handOver i loop w parcel).1 = some fault → fault.isOrdinary = true →
      (b.dispatch i loop).2.Records i (.refused parcel.batch)
  /-- A report of any other batch changes nothing: a notice is told and that is all. -/
  later : ∀ batch, batch ∉ w.inFlight.ids → ∀ loop report, ∃ n : Notice, n.DismissesReport ∧
    b.runCallback loop (.report i batch report) = b.log n
  /-- The time of any other batch is never over. -/
  silent : ∀ batch, batch ∉ w.inFlight.ids → ∀ limit time,
    ¬ b.time.Rings limit (.writer i (.expire batch)) time

theorem writers_endCallback (r : Option Fault × Bench) :
    (endCallback r).writers = r.2.writers := by
  unfold endCallback
  split <;> rfl

theorem Records.of_change {f : Writer → Change} {m : List Value → Milestone} {t : Nat}
    {entries : List Value} (hw : b.writers[i]? = some w)
    (told : (t, m entries) ∈ (f w).writer.history) : (b.change i f).2.Records i m :=
  ⟨_, t, entries, writer_change hw f, told⟩

theorem Records.of_writers {m : List Value → Milestone} (h : b.Records i m)
    (writers : b'.writers = b.writers) : b'.Records i m := by
  obtain ⟨w, t, entries, hw, told⟩ := h
  exact ⟨w, t, entries, writers ▸ hw, told⟩

theorem Records.stills {m : List Value → Milestone} (h : b.Records i m) (stills : Stills b b') :
    b'.Records i m := by
  obtain ⟨w, t, entries, hw, told⟩ := h
  obtain ⟨w', hw', ceases⟩ := stills i w hw
  exact ⟨w', t, entries, hw', ceases.later.history.subset told⟩

/-- Once the batch is completed, what else a completion does undoes nothing. -/
theorem records_completion (hw : b.writers[i]? = some w) (bound : w.loop = some loop)
    {r : Request Value} (found : w.inFlight.find? batch = some r) (failed : List Value) :
    (thenDo (thenDo (b.change i (·.complete b.now batch failed)) (deferredFlush i loop))
      fun b => b.change i (·.endCompletion)).2.Records i
        fun entries => .completed batch entries failed := by
  have told : (b.change i (·.complete b.now batch failed)).2.Records i
      fun entries => .completed batch entries failed :=
    .of_change hw (Writer.completed_of_open found b.now failed)
  have own : (b.change i (·.complete b.now batch failed)).2.Owned i loop :=
    owned_change ⟨w, hw, bound⟩ fun w => (w.regular_complete b.now batch failed).later
  generalize b.change i (·.complete b.now batch failed) = completed at told own
  refine told.stills (BenchChanges.stills (.writerChanges (WriterActions.writerChanges ?_)))
  exact .thenDo (.thenDo .refl (.deferredFlush own)) (.plainChange i fun _ => .endCompletion)

theorem records_report (hw : b.writers[i]? = some w) (own : b.Owned i loop)
    (going : w.closed = false) {r : Request Value} (found : w.inFlight.find? batch = some r)
    (report : Report) : (b.runCallback loop (.report i batch report)).Records i (match report with
      | .completed failed => fun entries => .completed batch entries failed
      | .failed _ => .reportedFailed batch) := by
  refine Records.of_writers ?_ (writers_endCallback _)
  cases report with
  | completed failed =>
    obtain ⟨u, hu, bound⟩ := own
    rw [hw, Option.some.injEq] at hu
    subst hu
    have taken : w.completionIgnored? batch = none := by
      simp [Writer.completionIgnored?, going, found]
    simp only [receive, hw, taken]
    exact records_completion hw bound found failed
  | failed fault => exact .of_change hw (Writer.reportedFailed_of_open found b.now fault)

theorem Reachable.records (h : Reachable b) (hw : b.writers[i]? = some w)
    (isOpen : batch ∈ w.inFlight.ids) {m : List Value → Milestone} (ends : Ends b i batch m b') :
    b'.Records i m := by
  obtain ⟨r, found⟩ := InFlight.find?_of_mem isOpen
  have going := (h.timely.sealed i w hw).going isOpen
  cases ends with
  | completion own failed => exact records_report hw own going found (.completed failed)
  | failure own fault => exact records_report hw own going found (.failed fault)
  | @expiry limit time due =>
    obtain ⟨-, -, a, ha, action⟩ := rung due
    obtain ⟨u, hu, limited⟩ : b.AlarmFits (.writer i (.expire batch)) :=
      action ▸ h.orderly.coherent.alarms a ha
    rw [hw, Option.some.injEq] at hu
    subst hu
    refine Records.of_writers ?_ (writers_endCallback _)
    exact .of_change (b := { b with time }) hw (Writer.expired_of_open found limited _)
  | closing =>
    have same := (InFlight.mem_ids_of_find? found).2
    exact .of_change hw
      (same ▸ Writer.abandoned_of_open going (List.mem_of_find?_eq_some found) b.now)

/-- A refusal ends the batch before anything else can. -/
theorem records_refusal (hw : b.writers[i]? = some w) {parcel : Writer.Parcel} {fault : Fault}
    (opens : (w.startDispatch loop b.now).2 = some parcel)
    (raised : (b.handOver i loop w parcel).1 = some fault) (ordinary : fault.isOrdinary = true) :
    (b.dispatch i loop).2.Records i (.refused parcel.batch) := by
  have empties := Empties.submit (b.change i fun w => (w.startDispatch loop b.now).1).2
    w.destination (some loop) parcel.entries (.batch i loop parcel.batch)
  obtain ⟨inFlight, hu, -⟩ := empties.each i _ (writer_change hw _)
  unfold dispatch
  simp only [hw, opens]
  refine ⟨_, b.now, parcel.entries, writer_change hu _, ?_⟩
  rw [show (Bench.submit _ _ _ _ _).1 = some fault from raised]
  exact Writer.refused_of_ordinary ordinary _ _ _

theorem Reachable.oneOutcome (h : Reachable b) (hw : b.writers[i]? = some w) :
    b.OneOutcome i w where
  once := (h.lawful hw).endings_nodup
  isOpen _ issued := (h.lawful hw).isOpen_iff issued
  first _ isOpen _ _ ends := h.records hw isOpen ends
  refused _ _ _ opens raised ordinary := records_refusal hw opens raised ordinary
  later _ gone loop report := runCallback_report hw gone loop report
  silent batch gone limit time due := by
    obtain ⟨-, -, a, ha, action⟩ := rung due
    have set : b.alarmsOf i (.expire batch) = true := List.any_eq_true.2 ⟨a, ha, by simp [action]⟩
    exact gone ((h.timely.timed i w hw).expire batch set)

theorem Reachable.of_moves {s : Scenario} (unused : s.Unused) (moves : Moves s.start b) :
    Reachable b :=
  (Reachable.init s unused).moves moves

/-- **Each batch has one outcome, in every run.** The first outcome of a batch takes effect and
no later report changes anything: beside the run there is one that runs no vain report, and it
ends on the same bench, less the notices of vain reports. -/
theorem each_batch_ends_once {s : Scenario} (unused : s.Unused) (moves : Moves s.start b) :
    (∀ (i : Nat) (w : Writer), b.writers[i]? = some w → b.OneOutcome i w) ∧
      ∃ trace, Thinned Happening.DismissesReport b.trace trace ∧
        Relation.ReflTransGen Pace (s.start, s.start) (b, { b with trace }) := by
  refine ⟨fun i w hw => (Reachable.of_moves unused moves).oneOutcome hw, ?_⟩
  obtain ⟨ready, less, run⟩ := ThinnedRun.moves moves
  have none : ready = fun _ => [] := by
    funext name
    have less := less name
    cases name <;> exact less.of_nil
  have same : s.start.present.after ⟨ready, []⟩ = s.start := by
    rw [none]
    rfl
  exact same ▸ run [] .nil

def untouched : Scenario := ⟨[{ name := "sink", adapter := .manual }], [], []⟩

def contradicted : Bench :=
  run 5 (((run 5 (flushing [] [.nat 1])).tellHandle (.batch 0 .main 1) (.completed [])).tellHandle
    (.batch 0 .main 1) (.failed (.raised "ValueError" [])))

theorem moves_contradicted : Moves untouched.start contradicted := by
  have built : Moves untouched.start (single [] [.nat 1]) := .single (.create "w" _)
  have known : (single [] [.nat 1]).programOf "commit" (.commit "w" (.bool true)) =
      .ok (.commit { writer := 0, flush := .bool true } .start) := rfl
  have begun : Moves untouched.start (flushing [] [.nat 1]) := built.tail (.start .main known)
  refine (((begun.trans (moves_run _ 5)).tail (.tell ?_ _)).tail (.tell ?_ _)).trans (moves_run _ 5)
  · exact ⟨_, rfl, rfl⟩
  · exact ⟨_, rfl, rfl⟩

theorem each_batch_ends_once_contradicted : ∃ w trace, contradicted.writers[0]? = some w ∧
    w.history.endings = [1] ∧ w.failure = none ∧ contradicted.OneOutcome 0 w ∧
    Thinned Happening.DismissesReport contradicted.trace trace ∧
    Relation.ReflTransGen Pace (untouched.start, untouched.start)
      (contradicted, { contradicted with trace }) := by
  obtain ⟨w, hw⟩ : ∃ w, contradicted.writers[0]? = some w := ⟨_, rfl⟩
  have known : (contradicted.writers[0]?).map (fun w => (w.history.endings, w.failure)) =
      some ([1], none) := rfl
  rw [hw, Option.map_some, Option.some.injEq, Prod.mk.injEq] at known
  obtain ⟨outcomes, trace, told, beside⟩ := each_batch_ends_once (s := untouched)
    (fun d hd => by rw [List.mem_singleton.1 hd]; exact ⟨rfl, rfl⟩) moves_contradicted
  exact ⟨w, trace, hw, known.1, known.2, outcomes 0 w hw, told, beside⟩

end Bench
end BatchWriter
