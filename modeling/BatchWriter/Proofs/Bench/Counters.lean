import BatchWriter.Proofs.Bench.Gauges
import BatchWriter.Proofs.Bench.Handover
import BatchWriter.Proofs.Writer.Counters

/-!
# Counters

Writers of one label share their counters. Between moves these hold what the histories of all
writers of the label tell together, if the clock accepts the times that their batches are given;
those of a writer that is alone under its label are its own.
-/

set_option autoImplicit false

namespace BatchWriter
namespace Metrics

def count (m : Metrics) (label : String) : Counter → Nat
  | .written => m.written.getD label 0
  | .dispatched => m.dispatched.getD label 0
  | .sent => (m.batchSize.getD label emptyBatchSize).sum
  | .requeued => m.requeued.getD label 0

theorem count_record (m : Metrics) (label : String) (x : Measurement) (k : Counter) :
    (m.record label x).count label k = m.count label k + x.count k := by
  cases x <;> cases k <;>
    simp [count, record, Measurement.count, Ledger.getD, Ledger.get?_alter_self, Histogram.record]

theorem count_record_of_ne (m : Metrics) {label other : String} (apart : other ≠ label)
    (x : Measurement) (k : Counter) : (m.record label x).count other k = m.count other k := by
  cases x <;> cases k <;> simp [count, record, Ledger.getD, Ledger.get?_alter_of_ne _ apart]

theorem count_register (m : Metrics) (label other : String) (k : Counter) :
    (m.register label).count other k = m.count other k := by
  cases k <;> simp [count, register, Ledger.getD_ensure]

end Metrics

namespace Bench

open Writer (Counts)

variable {sends : Nat → Prop} {b b' : Bench} {i : Nat} {w : Writer} {k : Counter}
  {label : String}

theorem count_foldl (i : Nat) (label : String) (effects : List Effect) (b : Bench) (k : Counter) :
    (effects.foldl (perform i label) b).metrics.count label k =
      b.metrics.count label k + (effects.map (Effect.count k)).sum := by
  induction effects generalizing b with
  | nil => rfl
  | cons e rest ih =>
    have first : (perform i label b e).metrics.count label k =
        b.metrics.count label k + e.count k := by
      cases e with
      | measure m => exact Metrics.count_record _ _ _ _
      | wake call => exact congrArg (Metrics.count · label k) (metrics_wake b call)
      | _ => rfl
    rw [List.foldl_cons, ih, first, List.map_cons, List.sum_cons, Nat.add_assoc]

theorem count_foldl_of_ne (i : Nat) {label other : String} (apart : other ≠ label)
    (effects : List Effect) (b : Bench) (k : Counter) :
    (effects.foldl (perform i label) b).metrics.count other k = b.metrics.count other k := by
  induction effects generalizing b with
  | nil => rfl
  | cons e rest ih =>
    rw [List.foldl_cons, ih]
    cases e with
    | measure m => exact Metrics.count_record_of_ne _ apart _ _
    | wake call => exact congrArg (Metrics.count · other k) (metrics_wake b call)
    | _ => rfl

def share (label : String) (k : Counter) (w : Writer) : Nat :=
  if w.label = label then w.history.count k else 0

def total (b : Bench) (label : String) (k : Counter) : Nat :=
  (b.writers.map (share label k)).sum

def Timed (b : Bench) (label : String) : Prop :=
  ∀ w ∈ b.writers, w.label = label → w.config.Timeable

/-- The counters of each label show what its writers have to show. -/
def Tallied (b : Bench) : Prop :=
  ∀ (label : String) (k : Counter), b.Timed label → b.metrics.count label k = b.total label k

theorem sum_set {α : Type} (f : α → Nat) {xs : List α} {i : Nat} {x : α} (known : xs[i]? = some x)
    (y : α) : ((xs.set i y).map f).sum + f x = (xs.map f).sum + f y := by
  induction xs generalizing i with
  | nil => cases known
  | cons z rest ih =>
    cases i with
    | zero =>
      rw [List.getElem?_cons_zero, Option.some.injEq] at known
      subst known
      simp only [List.set_cons_zero, List.map_cons, List.sum_cons]
      omega
    | succ i =>
      have others := ih (by simpa using known)
      simp only [List.set_cons_succ, List.map_cons, List.sum_cons]
      omega

theorem sum_of_single {α : Type} {f : α → Nat} {xs : List α} {i : Nat} {x : α}
    (known : xs[i]? = some x)
    (others : ∀ (j : Nat) (y : α), xs[j]? = some y → j ≠ i → f y = 0) : (xs.map f).sum = f x := by
  induction xs generalizing i with
  | nil => cases known
  | cons z rest ih =>
    rw [List.map_cons, List.sum_cons]
    cases i with
    | zero =>
      rw [List.getElem?_cons_zero, Option.some.injEq] at known
      have none : (rest.map f).sum = 0 := List.sum_eq_zero fun n hn => by
        obtain ⟨y, hy, rfl⟩ := List.mem_map.1 hn
        obtain ⟨j, at_j⟩ := List.mem_iff_getElem?.1 hy
        exact others (j + 1) y (by rwa [List.getElem?_cons_succ]) (Nat.succ_ne_zero j)
      rw [none, known, Nat.add_zero]
    | succ i =>
      have first : f z = 0 := others 0 z rfl (Nat.succ_ne_zero i).symm
      rw [first, Nat.zero_add]
      refine ih (by simpa using known) fun j y hy other => others (j + 1) y ?_ (by omega)
      rwa [List.getElem?_cons_succ]

theorem Timed.before (timed : b'.Timed label) (grows : b.Extends b') : b.Timed label := by
  intro w hw same
  obtain ⟨i, known⟩ := List.mem_iff_getElem?.1 hw
  obtain ⟨w', hw', later⟩ := grows i w known
  have label' : w'.label = label := (congrArg Value.display later.id).trans same
  exact later.config ▸ timed w' (List.mem_of_getElem? hw') label'

namespace Tallied

theorem of_same (h : Tallied b) (writers : b'.writers = b.writers)
    (metrics : b'.metrics = b.metrics) : Tallied b' := by
  intro label k timed
  rw [Timed, writers] at timed
  rw [metrics, total, writers]
  exact h label k timed

theorem change (h : Tallied b) {f : Writer → Change}
    (later : ∀ u : Writer, b.writers[i]? = some u → u.Later (f u).writer)
    (counts : ∀ u : Writer, b.writers[i]? = some u → u.config.Timeable → Counts u (f u)) :
    Tallied (b.change i f).2 := by
  cases hw : b.writers[i]? with
  | none =>
    rw [change_of_none hw]
    exact h
  | some w =>
    intro label k timed
    have prior := h label k (timed.before (extends_change hw (later w hw)))
    have same : (f w).writer.label = w.label := congrArg Value.display (later w hw).id
    have moved := sum_set (share label k) hw (f w).writer
    rw [total, writers_change hw]
    simp only [Bench.change, hw]
    by_cases own : w.label = label
    · have told := counts w hw
        ((timed.before (extends_change hw (later w hw))) w (List.mem_of_getElem? hw) own) k
      rw [← own] at prior moved ⊢
      rw [count_foldl]
      simp only [share, same, if_true] at moved
      rw [total] at prior
      show b.metrics.count w.label k + _ = _
      omega
    · rw [count_foldl_of_ne i (Ne.symm own)]
      simp only [share, same, own, if_false] at moved
      rw [total] at prior
      show b.metrics.count label k = _
      omega

theorem create (h : Tallied b) (name : String) (spec : WriterSpec) :
    Tallied (b.create name spec).2 := by
  rcases create_cases b name spec with same | ⟨c, built⟩
  · rwa [same]
  · obtain ⟨entries, history⟩ := built.history
    have writers := built.writers
    have fresh : ∀ k, c.writer.history.count k = 0 := fun k => by
      rw [history]
      cases k <;> rfl
    intro label k timed
    have prior := h label k fun w hw => timed w (by rw [writers]; exact List.mem_append_left _ hw)
    have kept : (b.create name spec).2.metrics.count label k = b.metrics.count label k := by
      rw [built.same]
      by_cases own : label = c.writer.label
      · subst own
        rw [count_foldl, Effect.sum_uncounted fun e he => (built.mild e he).uncounted]
        exact Metrics.count_register _ _ _ _
      · rw [count_foldl_of_ne _ own]
        exact Metrics.count_register _ _ _ _
    rw [kept, prior, total, total, writers, List.map_append, List.sum_append, List.map_singleton,
      List.sum_singleton, share, fresh, ite_self, Nat.add_zero]

end Tallied

theorem BenchChange.tallied (t : BenchChange b b') (h : Tallied b) : Tallied b' := by
  cases t with
  | writerChange writerChange =>
    cases writerChange with
    | beside beside => exact h.of_same beside.writers beside.metrics
    | motion i moves =>
      exact h.change (fun u hu => (moves u hu).ceases.later)
        fun u hu timeable => (moves u hu).counts timeable
  | pass later alarms => exact h.of_same rfl rfl
  | @flush limit i time due =>
    have passed : Tallied { b with time } := h.of_same rfl rfl
    exact passed.change (fun u _ => u.regular_bufferTimeOver.later) fun u _ _ => .bufferTimeOver u
  | @expire limit i batch time due =>
    have passed : Tallied { b with time } := h.of_same rfl rfl
    exact passed.change (fun u _ => (u.regular_expire _ _).later) fun u _ _ => .expire u batch
  | closeLoop name => exact h.of_same (writers_setLoop _ _ _) (metrics_setLoop _ _ _)
  | create name spec => exact h.create name spec
  | work works => exact h.of_same works.bypasses.writers works.bypasses.metrics

theorem Reachable.tallied (h : Reachable b) : Tallied b := by
  refine h.by_actions (fun s label k _ => by cases k <;> rfl) fun b b' _ benchAction prior => ?_
  have touched : ∀ {c d : Bench}, BenchChanges c d → Tallied c → Tallied d := by
    intro c d benchChanges first
    induction benchChanges with
    | refl => exact first
    | tail _ benchChange ih => exact benchChange.tallied ih
  exact touched benchAction.benchChanges prior

/-- A writer that is alone under its label has its counters to itself. -/
theorem Reachable.count_of_alone (h : Reachable b) (hw : b.writers[i]? = some w)
    (alone : b.Alone i) (timeable : w.config.Timeable) (k : Counter) :
    b.metrics.count w.label k = w.history.count k := by
  have only : ∀ (j : Nat) (u : Writer), b.writers[j]? = some u → u.label = w.label → u = w := by
    intro j u hu same
    rw [alone j w u hw hu same, hw, Option.some.injEq] at hu
    exact hu.symm
  have timed : b.Timed w.label := fun u hu same => by
    obtain ⟨j, known⟩ := List.mem_iff_getElem?.1 hu
    rwa [only j u known same]
  have single : b.total w.label k = share w.label k w :=
    sum_of_single hw fun j u hu other => if_neg fun same => other (alone j w u hw hu same)
  rw [h.tallied w.label k timed, single, share, if_pos rfl]

/-- **Counters.** In every run, the counters of a writer that alone measures under its label and
whose batches are given a time that the clock accepts hold how many entries writes appended to
it, how often the destination was called with a batch of it, and how many entries the
completions that took effect reported as failed. What it was built with, what was written and
what came back is in its buffer or in the sum of the batch sizes. -/
theorem counters_add_up (h : Reachable b) (hw : b.writers[i]? = some w) (alone : b.Alone i)
    (timeable : w.config.Timeable) :
    b.metrics.written.getD w.label 0 = w.history.written.length ∧
      b.metrics.dispatched.getD w.label 0 = w.history.deliveries.length ∧
      b.metrics.requeued.getD w.label 0 = w.history.failures.flatten.length ∧
      w.history.initial.length + b.metrics.written.getD w.label 0 +
          b.metrics.requeued.getD w.label 0 =
        w.buffer.size + (b.metrics.batchSize.getD w.label Metrics.emptyBatchSize).sum := by
  have counted := h.count_of_alone hw alone timeable
  have written : b.metrics.written.getD w.label 0 = w.history.count .written := counted .written
  have requeued : b.metrics.requeued.getD w.label 0 = w.history.count .requeued :=
    counted .requeued
  have sent : (b.metrics.batchSize.getD w.label Metrics.emptyBatchSize).sum =
      w.history.count .sent := counted .sent
  have called := ((h.conveys i w hw).paired timeable).deliveries
  refine ⟨written, ?_, requeued, ?_⟩
  · rw [called]
    exact counted .dispatched
  · rw [written, requeued, sent]
    exact (h.lawful hw).balance

def recounting : Bench :=
  run 1 ((run 20 (enumerating [("max_batch_size", .nat 2)])).tellHandle (.batch 0 .main 1)
    (.completed [.nat 8]))

theorem reachable_recounting : Reachable recounting := by
  refine (((reachable_enumerating _ rfl).run 20).move (.tell ?_ _)).run 1
  exact ⟨_, rfl, rfl⟩

theorem counters_add_up_recounting : ∃ w, recounting.writers[0]? = some w ∧
    recounting.Alone 0 ∧ w.config.Timeable ∧ w.buffer.entries = [.nat 8, .nat 9] ∧
    recounting.metrics.written.getD w.label 0 = 3 ∧
    recounting.metrics.dispatched.getD w.label 0 = 1 ∧
    recounting.metrics.requeued.getD w.label 0 = 1 ∧
    w.history.initial.length + recounting.metrics.written.getD w.label 0 +
        recounting.metrics.requeued.getD w.label 0 =
      w.buffer.size + (recounting.metrics.batchSize.getD w.label Metrics.emptyBatchSize).sum := by
  obtain ⟨w, hw⟩ : ∃ w, recounting.writers[0]? = some w := ⟨_, rfl⟩
  have alone : recounting.Alone 0 := alone_of_length rfl
  have timeable : w.config.Timeable := by
    cases hw
    exact fun _ limited => (by cases limited)
  have known : w.buffer.entries = [.nat 8, .nat 9] ∧ w.history.written.length = 3 ∧
      w.history.deliveries.length = 1 ∧ w.history.failures.flatten.length = 1 := by
    cases hw
    exact ⟨rfl, rfl, rfl, rfl⟩
  obtain ⟨buffered, appended, calls, returned⟩ := known
  obtain ⟨written, dispatched, requeued, balance⟩ :=
    counters_add_up reachable_recounting hw alone timeable
  exact ⟨w, hw, alone, timeable, buffered, written.trans appended, dispatched.trans calls,
    requeued.trans returned, balance⟩

end Bench
end BatchWriter
