import BatchWriter.Proofs.Bench.Acceptance
import BatchWriter.Proofs.Bench.Terminal
import BatchWriter.Proofs.Writer.Gauges

/-!
# Gauges

The gauges of a writer that shares its label with no other hold the sizes that it showed last.
Every change of a writer's sizes shows them in the same move, but for an entry that a write has
appended: it is not shown before the write finds a slot or sees that it needs none.
-/

set_option autoImplicit false

namespace BatchWriter
namespace Metrics

def gauges (m : Metrics) (label : String) : Nat × Nat :=
  (m.buffered.getD label 0, m.inFlight.getD label 0)

theorem gauges_record (m : Metrics) (label : String) (x : Measurement) :
    (m.record label x).gauges label = Effect.gauges (m.gauges label) (.measure x) := by
  cases x with
  | gauges buffered inFlight =>
    simp [gauges, record, Effect.gauges, Ledger.getD, Ledger.get?_alter_self]
  | _ => rfl

theorem gauges_record_of_ne (m : Metrics) {label other : String} (apart : other ≠ label)
    (x : Measurement) : (m.record label x).gauges other = m.gauges other := by
  cases x with
  | gauges buffered inFlight => simp [gauges, record, Ledger.getD, Ledger.get?_alter_of_ne _ apart]
  | _ => rfl

theorem gauges_register (m : Metrics) (label other : String) :
    (m.register label).gauges other = m.gauges other :=
  Prod.ext (Ledger.getD_ensure _ _ _ _) (Ledger.getD_ensure _ _ _ _)

end Metrics

namespace Bench

open Writer (Gauged Gauges Shows CallChange)

variable {sends : Nat → Prop} {b b' b'' : Bench} {i j : Nat} {w w' : Writer} {loop : LoopName}

theorem metrics_setLoop (b : Bench) (name : LoopName) (l : EventLoop Callback) :
    (b.setLoop name l).metrics = b.metrics := by
  cases name <;> rfl

theorem metrics_wake (b : Bench) (call : Nat) : (b.wake call).metrics = b.metrics := by
  unfold wake
  split
  · split
    · exact metrics_setLoop _ _ _
    · rfl
  · rfl

theorem gauges_foldl (i : Nat) (label : String) (effects : List Effect) (b : Bench) :
    (effects.foldl (perform i label) b).metrics.gauges label =
      effects.foldl Effect.gauges (b.metrics.gauges label) := by
  induction effects generalizing b with
  | nil => rfl
  | cons e rest ih =>
    rw [List.foldl_cons, List.foldl_cons, ih]
    congr 1
    cases e with
    | measure m => exact Metrics.gauges_record _ _ _
    | wake call => exact congrArg (fun m => Metrics.gauges m label) (metrics_wake b call)
    | _ => rfl

theorem gauges_foldl_of_ne (i : Nat) {label other : String} (apart : other ≠ label)
    (effects : List Effect) (b : Bench) :
    (effects.foldl (perform i label) b).metrics.gauges other = b.metrics.gauges other := by
  induction effects generalizing b with
  | nil => rfl
  | cons e rest ih =>
    rw [List.foldl_cons, ih]
    cases e with
    | measure m => exact Metrics.gauges_record_of_ne _ apart _
    | wake call => exact congrArg (fun m => Metrics.gauges m other) (metrics_wake b call)
    | _ => rfl

def Alone (b : Bench) (i : Nat) : Prop :=
  ∀ (j : Nat) (w u : Writer), b.writers[i]? = some w → b.writers[j]? = some u →
    u.label = w.label → j = i

theorem Alone.before (alone : b'.Alone i) (grows : b.Extends b') : b.Alone i := by
  intro j w u hw hu same
  obtain ⟨w', hw', later⟩ := grows i w hw
  obtain ⟨u', hu', later'⟩ := grows j u hu
  refine alone j w' u' hw' hu' ?_
  unfold Writer.label at same ⊢
  rw [later.id, later'.id, same]

def gaugesOf (b : Bench) (w : Writer) : Nat × Nat := b.metrics.gauges w.label

/-- From the one bench to the other the gauges of the writer at `i` keep up. A writer that is
built in between shows its sizes. -/
structure Gauging (i : Nat) (b b' : Bench) : Prop where
  grows : b.Extends b'
  gauged : b'.Alone i → ∀ w w' : Writer, b.writers[i]? = some w → b'.writers[i]? = some w' →
    w.config.Tame → w.Gauged (b.gaugesOf w) w' (b'.gaugesOf w')
  built : b'.Alone i → ∀ w' : Writer, b.writers[i]? = none → b'.writers[i]? = some w' →
    w'.config.Tame → b'.gaugesOf w' = w'.sizes ∨ 0 < w'.history.written.length

def Shown (i : Nat) (b : Bench) : Prop :=
  ∀ w : Writer, b.writers[i]? = some w → w.config.Tame → b.gaugesOf w = w.sizes

theorem Stills.extends (h : Stills b b') : b.Extends b' := by
  intro i w hw
  obtain ⟨w', hw', ceases⟩ := h i w hw
  exact ⟨w', hw', ceases.later⟩

theorem WriterActions.extends (h : WriterActions b b') : b.Extends b' :=
  (BenchChanges.writerChanges h.writerChanges).stills.extends

/-- What is left when a writer's change has shown its sizes. -/
theorem shown_change {f : Writer → Change} (hw : b.writers[i]? = some w)
    (id : (f w).writer.id = w.id) (shows : Shows (f w)) : Shown i (b.change i f).2 := by
  intro w' hw' _
  rw [writer_change hw, Option.some.injEq] at hw'
  subst hw'
  have label : (f w).writer.label = w.label := congrArg Value.display id
  rw [gaugesOf, label]
  simp only [change, hw]
  exact (gauges_foldl i w.label _ _).trans (shows _)

namespace Gauging

theorem of_same (writers : b'.writers = b.writers) (metrics : b'.metrics = b.metrics) :
    Gauging i b b' where
  grows := .of_writers writers
  gauged _ w w' hw hw' _ := by
    rw [writers, hw, Option.some.injEq] at hw'
    subst hw'
    rw [gaugesOf, gaugesOf, metrics]
    exact .refl w _
  built _ w' none hw' := by
    rw [writers, none] at hw'
    cases hw'

theorem refl (b : Bench) : Gauging i b b := of_same rfl rfl

theorem beside (h : Beside b b') : Gauging i b b' := of_same h.writers h.metrics

theorem of_shown (h : Shown i b') (grows : b.Extends b') : Gauging i b b' where
  grows := grows
  gauged _ w w' hw hw' tame := by
    obtain ⟨u, hu, later⟩ := grows i w hw
    rw [hw', Option.some.injEq] at hu
    subst hu
    exact .shown (h w' hw' (later.config ▸ tame))
  built _ w' _ hw' tame := .inl (h w' hw' tame)

theorem trans (h : Gauging i b b') (h' : Gauging i b' b'') : Gauging i b b'' where
  grows := h.grows.trans h'.grows
  gauged alone w w'' hw hw'' tame := by
    obtain ⟨w', hw', later⟩ := h.grows i w hw
    obtain ⟨u, hu, later'⟩ := h'.grows i w' hw'
    rw [hw'', Option.some.injEq] at hu
    subst hu
    have first := h.gauged (alone.before h'.grows) w w' hw hw' tame
    exact first.trans (h'.gauged alone w' w'' hw' hw'' (later.config ▸ tame)) later later'
  built alone w'' none hw'' tame := by
    cases known : b'.writers[i]? with
    | none => exact h'.built alone w'' known hw'' tame
    | some w' =>
      obtain ⟨u, hu, later⟩ := h'.grows i w' known
      rw [hw'', Option.some.injEq] at hu
      subst hu
      have tame' : w'.config.Tame := later.config ▸ tame
      have more := History.length_written_le later.history
      have first := h.built (alone.before h'.grows) w' none known tame'
      cases h'.gauged alone w' w'' known hw'' tame' with
      | shown current => exact .inl current
      | level same level =>
        rcases first with current | fed
        · exact .inl (by rw [same, current, level.sizes])
        · exact .inr (by omega)
      | fed fed => exact .inr (by omega)

/-- A change of one writer, of which the gauges keep up with its own. -/
theorem change {f : Writer → Change}
    (later : ∀ u : Writer, b.writers[j]? = some u → u.Later (f u).writer)
    (own : j = i → ∀ u : Writer, b.writers[j]? = some u → u.config.Tame → ∀ held,
      u.Gauged held (f u).writer ((f u).effects.foldl Effect.gauges held)) :
    Gauging i b (b.change j f).2 := by
  cases hu : b.writers[j]? with
  | none =>
    rw [change_of_none hu]
    exact refl b
  | some u =>
    have grows := extends_change hu (later u hu)
    refine ⟨grows, fun alone w w' hw hw' tame => ?_, fun _ w' none hw' _ => ?_⟩
    · by_cases same : j = i
      · subst same
        rw [hu, Option.some.injEq] at hw
        subst hw
        rw [writer_change hu, Option.some.injEq] at hw'
        subst hw'
        have told := own rfl u hu tame (b.gaugesOf u)
        have label : (f u).writer.label = u.label := congrArg Value.display (later u hu).id
        rw [gaugesOf, gaugesOf, label]
        simp only [Bench.change, hu]
        rw [gauges_foldl]
        exact told
      · have apart : w.label ≠ u.label := fun label =>
          same ((alone.before grows) j w u hw hu label.symm)
        rw [writer_change_of_ne hu f (Ne.symm same), hw, Option.some.injEq] at hw'
        subst hw'
        rw [gaugesOf, gaugesOf]
        simp only [Bench.change, hu]
        rw [gauges_foldl_of_ne j apart]
        exact .refl w _
    · have known := (List.getElem?_eq_some_iff.1 hw').1
      rw [length_change] at known
      rw [List.getElem?_eq_none_iff] at none
      omega

theorem of_gauges (j : Nat) {f : Writer → Change}
    (each : ∀ u : Writer, b.writers[j]? = some u → Gauges u (f u)) :
    Gauging i b (b.change j f).2 :=
  change (fun u hu => (each u hu).1) fun _ u hu _ => (each u hu).2

theorem callActions (h : CallActions b b') : Gauging i b b' := by
  induction h with
  | refl => exact refl b
  | tail _ callAction ih =>
    refine ih.trans ?_
    cases callAction with
    | beside h => exact beside h
    | callChange j changes => exact of_gauges j fun u hu => (changes u hu).gauges

end Gauging

/-! ## Dispatches -/

/-- A dispatch of a writer whose limits are accepted shows its sizes if it opens a batch, and
leaves gauges and sizes alone if it does not. A fault of a usable writer comes of a batch. -/
theorem dispatch_told (hw : b.writers[i]? = some w) (bound : w.loop = some loop) :
    Shown i (b.dispatch i loop).2 ∨
      b.dispatch i loop = b.change i (fun w => (w.startDispatch loop b.now).1) ∧
        (w.startDispatch loop b.now).2 = none ∧
        (w.config.Tame → (∀ e ∈ (w.startDispatch loop b.now).1.effects, e.Dark) ∧
          w.Level (w.startDispatch loop b.now).1.writer ∧
          (w.refusal? = none → (b.dispatch i loop).1 = none)) := by
  rcases dispatch_parts hw bound with
    ⟨same, kept, idle⟩ | ⟨parcel, u, inFlight, r, -, opens, -, -, -, hu, same⟩
  · refine .inr ⟨same, kept, fun tame => ?_⟩
    rw [same, fault_change hw]
    by_cases usable : w.refusal? = none
    · rw [idle usable tame]
      refine ⟨fun _ he => ?_, .of_same rfl rfl rfl rfl, fun _ => rfl⟩
      cases he
    · obtain ⟨fault, refuses⟩ := Option.ne_none_iff_exists'.1 usable
      simp only [Writer.startDispatch, refuses]
      refine ⟨fun _ he => ?_, .refl w, fun none => ?_⟩
      · cases he
      · cases none
  · rw [same]
    have later := (Writer.regular_concludeDispatch { u with inFlight } b.now parcel r.1).later
    exact .inl (shown_change hu later.id (Writer.shows_concludeDispatch _ _ _ _))

theorem Gauging.dispatch (own : b.Owned j loop) : Gauging i b (b.dispatch j loop).2 := by
  have grows : b.Extends (b.dispatch j loop).2 := WriterActions.extends (.single (.dispatch own))
  obtain ⟨u, hu, bound⟩ := own
  by_cases same : j = i
  · subst same
    rcases dispatch_told hu bound with shown | ⟨same, -, told⟩
    · exact .of_shown shown grows
    · rw [same]
      refine .change (fun v _ => (v.regular_startDispatch loop b.now).later)
        fun _ v hv tame held => ?_
      rw [hu, Option.some.injEq] at hv
      subst hv
      obtain ⟨dark, level, -⟩ := told tame
      exact .level (Effect.gauges_dark dark held) level
  · have first : Gauging i b (b.change j fun w => (w.startDispatch loop b.now).1).2 :=
      .change (fun v _ => (v.regular_startDispatch loop b.now).later) fun own => absurd own same
    rcases dispatch_parts hu bound with ⟨idle, -⟩
      | ⟨parcel, v, inFlight, r, -, -, -, -, given, -, done⟩
    · rw [idle]
      exact first
    · have submitted : CallActions (b.change j fun w => (w.startDispatch loop b.now).1).2 r.2 :=
        given ▸ .submit _ _ _ _ _
      rw [done]
      refine (first.trans (.callActions submitted)).trans ?_
      exact .change (fun v _ => (v.regular_concludeDispatch b.now parcel _).later)
        fun own => absurd own same

/-- A fault leaves a timed flush of a usable writer only after a batch was dispatched. -/
theorem shown_timedFlush (hw : b.writers[i]? = some w) (bound : w.loop = some loop)
    (usable : w.refusal? = none) (tame : w.config.Tame)
    (fails : (b.timedFlush i loop).1 ≠ none) : Shown i (b.timedFlush i loop).2 := by
  have begun := writer_change hw (·.beginTimedFlush b.now)
  have grows : (b.change i (·.beginTimedFlush b.now)).2.Extends
      ((b.change i (·.beginTimedFlush b.now)).2.dispatch i loop).2 :=
    WriterActions.extends (.single (.dispatch ⟨_, begun, bound⟩))
  obtain ⟨u, hu, later⟩ := grows i _ begun
  unfold timedFlush at fails ⊢
  dsimp only at fails ⊢
  split at fails
  · next fault failed =>
    split at fails
    · exact absurd rfl fails
    · next other =>
      rw [if_neg other]
      rcases dispatch_told begun bound with shown | ⟨-, -, told⟩
      · exact shown
      · have through := (told tame).2.2 usable
        rw [failed] at through
        cases through
  · have ends : u.endTimedFlush.fault = none :=
      Writer.fault_andThen_none rfl (Writer.fault_armTimerIf (later.config ▸ tame) _)
    rw [fault_change hu] at fails
    exact absurd ends fails

theorem Gauging.timedFlush (own : b.Owned j loop) : Gauging i b (b.timedFlush j loop).2 := by
  have begun : Gauging i b (b.change j (·.beginTimedFlush b.now)).2 :=
    .of_gauges j fun u _ => .beginTimedFlush u b.now
  have flushed := begun.trans
    (.dispatch (owned_change own fun w => (w.regular_beginTimedFlush b.now).later))
  unfold Bench.timedFlush
  dsimp only
  split
  · split <;> exact flushed
  · exact flushed.trans (.of_gauges j fun u _ => .endTimedFlush u)

theorem Gauging.deferredFlush (own : b.Owned j loop) : Gauging i b (b.deferredFlush j loop).2 := by
  unfold Bench.deferredFlush
  split
  · exact refl b
  · split
    · have begun : Gauging i b (b.change j (·.beginDeferredFlush)).2 :=
        .of_gauges j fun u _ => .beginDeferredFlush u
      exact begun.trans (.timedFlush (owned_change own fun w => w.regular_beginDeferredFlush.later))
    · exact refl b

theorem shown_deferredFlush (hw : b.writers[i]? = some w) (bound : w.loop = some loop)
    (sealed : w.Sealed) (tame : w.config.Tame) (fails : (b.deferredFlush i loop).1 ≠ none) :
    Shown i (b.deferredFlush i loop).2 := by
  cases due : w.flushIsDue with
  | false =>
    rw [deferredFlush, hw] at fails
    simp [due] at fails
  | true =>
    have usable := sealed.usable_of_deferred (Writer.deferred_of_due due)
    have begun := writer_change hw (·.beginDeferredFlush)
    simp only [deferredFlush, hw, due, if_true] at fails ⊢
    exact shown_timedFlush begun bound usable tame fails

/-! ## Reports -/

theorem Gauging.thenDo {r : Option Fault × Bench} {next : Bench → Option Fault × Bench}
    (first : Gauging i b r.2) (second : Gauging i r.2 (next r.2).2) :
    Gauging i b (thenDo r next).2 := by
  unfold Bench.thenDo
  split
  · exact first
  · exact first.trans second

/-- A completion that takes effect ends with the sizes shown. -/
theorem shown_completion (timely : Timely b) (hw : b.writers[i]? = some w)
    (bound : w.loop = some loop) (tame : w.config.Tame) (batch : Nat) (failed : List Value) :
    Shown i (thenDo (thenDo (b.change i (·.complete b.now batch failed)) (deferredFlush i loop))
      fun b => b.change i (·.endCompletion)).2 := by
  have completed := writer_change hw (·.complete b.now batch failed)
  have later := (w.regular_complete b.now batch failed).later
  have sealed : (w.complete b.now batch failed).writer.Sealed :=
    (Writer.PlainChange.complete batch failed).sealed (timely.sealed i w hw)
  have first : (b.change i (·.complete b.now batch failed)).1 = none := by
    rw [fault_change hw]
    exact Writer.fault_complete tame _ _ _
  have own := owned_change (b := b) (j := i) ⟨w, hw, bound⟩ fun w =>
    (w.regular_complete b.now batch failed).later
  have grows := (WriterActions.deferredFlush own).extends
  obtain ⟨u, hu, -⟩ := grows i _ completed
  rw [Bench.thenDo, Bench.thenDo, first]
  dsimp only
  split
  · next fault fails =>
    refine shown_deferredFlush completed (later.loop loop bound) sealed (later.config ▸ tame) ?_
    rw [fails]
    exact Option.some_ne_none fault
  · have ends := (u.regular_endCompletion).later
    exact shown_change hu ends.id u.shows_endCompletion

theorem Gauging.receive (timely : Timely b) (own : b.Owned j loop) (batch : Nat) (report : Report) :
    Gauging i b (b.receive loop j batch report).2 := by
  have grows : b.Extends (b.receive loop j batch report).2 :=
    (WriterActions.receive own batch report).extends
  cases report with
  | failed fault => exact .of_gauges j fun u _ => .reportFailed u b.now batch fault
  | completed failed =>
    obtain ⟨u, hu, bound⟩ := id own
    rw [Bench.receive] at grows ⊢
    simp only [hu] at grows ⊢
    split
    · exact .beside (.log _ _)
    · next heard =>
      rw [heard] at grows
      by_cases same : j = i
      · subst same
        refine ⟨grows, fun _ w w' hw hw' tame => .shown ?_, fun _ w' none _ _ => ?_⟩
        · rw [hu, Option.some.injEq] at hw
          subst hw
          obtain ⟨v, hv, later⟩ := grows j _ hu
          rw [hw', Option.some.injEq] at hv
          subst hv
          exact shown_completion timely hu bound tame batch failed w' hw' (later.config ▸ tame)
        · rw [none] at hu
          cases hu
      · have completed : Gauging i b (b.change j (·.complete b.now batch failed)).2 :=
          .change (fun v _ => (v.regular_complete b.now batch failed).later) fun own =>
            absurd own same
        refine .thenDo (.thenDo completed (.deferredFlush ?_))
          (.change ?_ fun own => absurd own same)
        · exact owned_change own fun w => (w.regular_complete b.now batch failed).later
        · exact fun v _ => v.regular_endCompletion.later

/-! ## Actions of the bench -/

theorem Gauging.bufferAlarm (own : ∃ name, b.Owned j name) : Gauging i b (b.bufferAlarm j).2 := by
  obtain ⟨name, u, hu, bound⟩ := own
  have rung : Gauging i b (b.change j (·.bufferTimeOver.1)).2 :=
    .of_gauges j fun u _ => .bufferTimeOver u
  unfold Bench.bufferAlarm
  simp only [hu]
  split
  · refine rung.trans (.timedFlush ?_)
    rw [bound]
    exact owned_change ⟨u, hu, bound⟩ fun w => w.regular_bufferTimeOver.later
  · exact rung

theorem Gauging.create (name : String) (spec : WriterSpec) :
    Gauging i b (b.create name spec).2 := by
  rcases create_cases b name spec with same | ⟨c, built⟩
  · rw [same]
    exact refl b
  · obtain ⟨_, _, _, _, _, _, -, restored⟩ := built.restored
    have grows : b.Extends (b.create name spec).2 := fun k u hu => ⟨u, built.kept hu, .refl u⟩
    have shown : (b.create name spec).2.gaugesOf c.writer = c.writer.sizes := by
      rw [built.same, gaugesOf, gauges_foldl]
      exact Writer.shows_restore restored _
    refine ⟨grows, fun alone w w' hw hw' _ => ?_, fun _ w' none hw' _ => .inl ?_⟩
    · have kept := built.kept hw
      rw [kept, Option.some.injEq] at hw'
      subst hw'
      have apart : w.label ≠ c.writer.label := by
        intro label
        have new : (b.create name spec).2.writers[b.writers.length]? = some c.writer := by
          simp [built.writers]
        have known := (List.getElem?_eq_some_iff.1 hw).1
        have := alone b.writers.length w c.writer kept new label.symm
        omega
      rw [built.same, gaugesOf, gaugesOf, gauges_foldl_of_ne _ apart]
      exact .level (Metrics.gauges_register _ _ _) (.refl w)
    · rcases built.writer hw' with known | rfl
      · rw [none] at known
        cases known
      · exact shown

theorem BenchAction.gauging (s : BenchAction sends b b') (timely : Timely b) : Gauging i b b' := by
  cases s with
  | loopAction loopAction =>
    cases loopAction with
    | callAction callAction => exact .callActions (.single callAction)
    | dispatch turn hw bound room => exact .dispatch ⟨_, hw, bound⟩
    | receive own batch report => exact .receive timely own batch report
  | pass later alarms => exact .of_same rfl rfl
  | @flush limit j time due own =>
    have passed : Gauging i b { b with time } := .of_same rfl rfl
    exact passed.trans (.bufferAlarm own)
  | @expire limit j batch time due =>
    have passed : Gauging i b { b with time } := .of_same rfl rfl
    exact passed.trans (.of_gauges j fun u _ => .expire u _ _)
  | closeLoop name => exact .of_same (writers_setLoop _ _ _) (metrics_setLoop _ _ _)
  | create name spec => exact .create name spec
  | work works => exact .of_same works.bypasses.writers works.bypasses.metrics

theorem Reachable.gauging (h : Reachable b) (m : Move b b') : Gauging i b b' := by
  have kept : ∀ {c : Bench}, BenchActions b.Sends b c → Timely c ∧ Gauging i b c :=
    fun benchActions => by
    induction benchActions with
    | refl => exact ⟨h.timely, .refl b⟩
    | tail _ benchAction ih =>
      exact ⟨benchAction.benchChanges.timely ih.1, ih.2.trans (benchAction.gauging ih.1)⟩
  exact (kept (m.benchActions h.orderly)).2

/-! ## Gauges that lag -/

end Bench

def WritePoint.Files : WritePoint → Prop
  | .batching | .flush .batching | .dispatch .batching => True
  | _ => False

namespace Bench

variable {b b' : Bench} {i : Nat} {w w' : Writer}

/-- The running write has not yet shown the entry that it appended. -/
def Filing (b : Bench) (i : Nat) : Prop :=
  ∃ (id : Nat) (c : Call) (job : WriteJob) (point : WritePoint), b.running = some id ∧
    b.calls[id]? = some c ∧ c.program = .write job point ∧ job.writer = i ∧ point.Files

/-- How the gauges of the writer at `i` stand. That of its buffer lags behind only while a write
is filing its entry, the writer has no slot or it refuses work. -/
structure Gauge (b : Bench) (i : Nat) (w : Writer) : Prop where
  inFlight : (b.gaugesOf w).2 = w.inFlight.count
  buffered : (b.gaugesOf w).1 ≤ w.buffer.size
  lags : (b.gaugesOf w).1 < w.buffer.size →
    b.Filing i ∨ w.hasCapacity = false ∨ w.refusal? ≠ none
  usable : b.Prompt → (b.gaugesOf w).1 < w.buffer.size → w.refusal? = none

theorem Gauge.of_shown (shown : b.gaugesOf w = w.sizes) : b.Gauge i w := by
  have size : (b.gaugesOf w).1 = w.buffer.size := congrArg Prod.fst shown
  refine ⟨congrArg Prod.snd shown, size.le, fun lags => ?_, fun _ lags => ?_⟩
  · omega
  · omega

theorem gaugesOf_resolve (b : Bench) (id : Nat) (progress : Progress) (w : Writer) :
    (b.resolve id progress).gaugesOf w = b.gaugesOf w :=
  congrArg (fun m => Metrics.gauges m w.label) (Bypasses.resolve b id progress).metrics

/-- What was shown is still shown when the call has taken its progress. -/
theorem Shown.resolve (h : Shown i b) (id : Nat) (progress : Progress) :
    Shown i (b.resolve id progress) := by
  intro w hw tame
  rw [(Bypasses.resolve b id progress).writers] at hw
  rw [gaugesOf_resolve]
  exact h w hw tame

theorem filing_go {id : Nat} {c : Call} {job : WriteJob} {next : WritePoint}
    (hc : b.calls[id]? = some c) (files : next.Files) :
    (b.resolve id (.go (.write job next))).Filing job.writer := by
  have after := resolved hc (.go (.write job next))
  obtain ⟨c', hc', -, -, program⟩ := after.own
  exact ⟨id, c', job, next, after.running, hc', program, rfl, files⟩

/-- A write that files its entry goes on to do so, finds no slot or a writer that refuses work,
or shows what there is. -/
theorem Reachable.filed (h : Reachable b) (m : Move b b') (hw : b.writers[i]? = some w)
    (tame : w.config.Tame) (filled : w.buffer.entries ≠ []) (filing : b.Filing i) :
    Shown i b' ∨ b'.Filing i ∨ w.hasCapacity = false ∨ w.refusal? ≠ none := by
  obtain ⟨id, c, job, point, running, hc, program, rfl, files⟩ := filing
  cases h.shift m with
  | beside noProgress _ =>
    obtain ⟨c', hc', keeps⟩ := noProgress.kept id c hc
    exact .inr (.inl ⟨id, c', job, point, noProgress.running.trans running, hc',
      keeps.program.trans program, rfl, files⟩)
  | woken idle =>
    rw [idle] at running
    cases running
  | interrupted idle =>
    rw [idle] at running
    cases running
  | @advanced id' c' running' hc' same =>
    cases running.symm.trans running'
    cases hc.symm.trans hc'
    obtain ⟨-, -, fits, -⟩ := h.orderly.runs running hc
    rw [program] at fits same
    have goes : ∀ next : WritePoint, next.Files →
        b.advanceProgram id c.loop (.write job point) = (b, .go (.write job next)) →
        b'.Filing job.writer := by
      intro next files leads
      rw [same, leads]
      exact filing_go hc files
    cases point with
    | batching =>
      by_cases full : w.hasFullBatch = true
      · refine .inr (.inl (goes (.flush .batching) trivial ?_))
        rw [advanceProgram, writeStep, writeBatching, withWriter_some hw, if_pos full]
      · refine .inl ?_
        rw [same, advanceProgram, writeStep, writeBatching, withWriter_some hw, if_neg full]
        exact (shown_change hw rfl (.showGauges w)).resolve _ _
    | flush stage =>
      cases stage with
      | filling _ => exact files.elim
      | batching =>
        by_cases room : w.hasCapacity = true
        · refine .inr (.inl (goes (.dispatch .batching) trivial ?_))
          rw [advanceProgram, writeStep, writeFlush, withWriter_some hw, if_pos room]
        · exact .inr (.inr (.inl (Bool.eq_false_iff.2 room)))
    | dispatch stage =>
      cases stage with
      | filling _ => exact files.elim
      | batching =>
        obtain ⟨u, hu, bound⟩ : b.Owned job.writer c.loop := fits
        rw [hw, Option.some.injEq] at hu
        subst hu
        rcases dispatch_told hw bound with shown | ⟨-, none, -⟩
        · refine .inl ?_
          rw [same, advanceProgram, writeStep, writeDispatch]
          exact shown.resolve _ _
        · refine .inr (.inr (.inr fun usable => ?_))
          obtain ⟨parcel, some⟩ := Writer.parcel_of_filled b.now (h.lawful hw) bound usable tame
            filled
          rw [none] at some
          cases some
    | start | gate _ | slot _ | woken _ | accept | publishing _ _ => exact files.elim

theorem gaugesOf_accept (hw : b.writers[i]? = some w) (now : Nat) (entry : Value) :
    (b.change i (·.accept now entry)).2.gaugesOf (w.accept now entry).writer = b.gaugesOf w := by
  have label : (w.accept now entry).writer.label = w.label :=
    congrArg Value.display (w.regular_accept now entry).later.id
  simp only [gaugesOf, label, Bench.change, hw]
  rw [gauges_foldl, Effect.gauges_dark (w.dark_accept _ _)]

/-- An appended entry is not shown before its write has seen whether there is a batch to send.
Where subscribers are prompt, the writer accepts work then. -/
theorem Reachable.gauge_accept (h : Reachable b) (m : Move b b') (prior : b.Gauge i w)
    (hw : b.writers[i]? = some w) (hw' : b'.writers[i]? = some w') (tame : w.config.Tame)
    (fed : w.history.written.length < w'.history.written.length) : b'.Gauge i w' := by
  have prompt : b'.Prompt → b.Prompt := (prompt_iff (h.shift m).subscribers).1
  rcases (h.shift m).unfed_or with unfed | ⟨id, c, job, running, hc, program, -, same⟩
  · obtain ⟨u, hu, unfed⟩ := unfed.writers i w hw
    rw [hw', Option.some.injEq] at hu
    subst hu
    rw [unfed.written] at fed
    exact absurd fed (Nat.lt_irrefl _)
  · have writers := (Bypasses.resolve (b.writeAccept job).1 id (b.writeAccept job).2).writers
    rw [same, writers] at hw'
    rcases writer_writeAccept hw' with still | ⟨rfl, -⟩
    · rw [hw, Option.some.injEq] at still
      subst still
      exact absurd fed (Nat.lt_irrefl _)
    · have cleared := h.gated.current id c running hc
      rw [program] at cleared
      rw [writeAccept, withWriter_some hw] at same hw'
      split at hw'
      · rw [hw, Option.some.injEq] at hw'
        subst hw'
        exact absurd fed (Nat.lt_irrefl _)
      · next entry converts =>
        rw [changeThen, writer_change hw, Option.some.injEq] at hw'
        subst hw'
        obtain ⟨sizes, refusal⟩ := w.sizes_accept b.now entry
        have size : (w.accept b.now entry).writer.buffer.size = w.buffer.size + 1 :=
          congrArg Prod.fst sizes
        have count : (w.accept b.now entry).writer.inFlight.count = w.inFlight.count :=
          congrArg Prod.snd sizes
        have held : b'.gaugesOf (w.accept b.now entry).writer = b.gaugesOf w := by
          simp only [converts] at same
          rw [same, gaugesOf_resolve]
          exact gaugesOf_accept hw b.now entry
        refine ⟨?_, ?_, fun _ => .inl ?_, fun civil _ => ?_⟩
        · rw [held, count]
          exact prior.inFlight
        · rw [held, size]
          exact Nat.le_succ_of_le prior.buffered
        · simp only [converts, changeThen, fault_change hw, Writer.fault_accept tame] at same
          obtain ⟨c₁, hc₁, -⟩ :=
            (stays_advanceProgram (known_any b) id c.loop c.program).kept id c hc
          rw [program, advanceProgram, writeStep, writeAccept, withWriter_some hw] at hc₁
          simp only [converts, changeThen] at hc₁
          rw [same]
          exact filing_go hc₁ trivial
        · obtain ⟨u, hu, usable, -⟩ := cleared.resolve_right fun told => told.1 (prompt civil)
          rw [hw, Option.some.injEq] at hu
          subst hu
          rw [refusal]
          exact usable

theorem Reachable.gauge_built (h : Reachable b) (m : Move b b') (alone : b'.Alone i)
    (new : b.writers[i]? = none) (hw : b'.writers[i]? = some w) (tame : w.config.Tame) :
    b'.Gauge i w := by
  refine .of_shown (((h.gauging m).built alone w new hw tame).resolve_right fun fed => ?_)
  rcases (h.shift m).unfed_or with unfed | ⟨id, c, job, -, -, -, writers, -⟩
  · obtain ⟨v, fresh, unfed⟩ := unfed.built i w hw new
    rw [unfed.written, fresh.written] at fed
    cases fed
  · rw [writers] at hw
    rcases writer_writeAccept hw with some | ⟨-, v, -, some, -⟩
    · rw [new] at some
      cases some
    · rw [new] at some
      cases some

/-- The gauges stand as they did while the sizes that they show are the same. -/
theorem Reachable.gauge_level (h : Reachable b) (m : Move b b') (prior : b.Gauge i w)
    (hw : b.writers[i]? = some w) (hw' : b'.writers[i]? = some w') (tame : w.config.Tame)
    (tame' : w'.config.Tame) (same : b'.gaugesOf w' = b.gaugesOf w) (level : w.Level w') :
    b'.Gauge i w' := by
  have size : w'.buffer.size = w.buffer.size := congrArg Prod.fst level.sizes
  have count : w'.inFlight.count = w.inFlight.count := congrArg Prod.snd level.sizes
  have capacity : w'.hasCapacity = w.hasCapacity := by
    rw [Writer.hasCapacity, InFlight.hasCapacity, count, level.limit]
    rfl
  by_cases shown : b'.gaugesOf w' = w'.sizes
  · exact .of_shown shown
  refine ⟨?_, ?_, fun lags => ?_, fun civil lags => ?_⟩
  · rw [same, count]
    exact prior.inFlight
  · rw [same, size]
    exact prior.buffered
  · rw [same, size] at lags
    rw [capacity, ne_eq, level.usable]
    rcases prior.lags lags with filing | lasting
    · have filled : w.buffer.entries ≠ [] := by
        intro none
        rw [Buffer.size, none] at lags
        exact Nat.not_lt_zero _ lags
      exact (h.filed m hw tame filled filing).resolve_left fun told => shown (told w' hw' tame')
    · exact .inr lasting
  · rw [same, size] at lags
    rw [level.usable]
    exact prior.usable ((prompt_iff (h.shift m).subscribers).1 civil) lags

theorem Reachable.gauge (h : Reachable b) (alone : b.Alone i) (hw : b.writers[i]? = some w)
    (tame : w.config.Tame) : b.Gauge i w := by
  induction h generalizing w with
  | init s _ => cases hw
  | @move b b' h m ih =>
    have gauging : Gauging i b b' := h.gauging m
    cases known : b.writers[i]? with
    | none => exact h.gauge_built m alone known hw tame
    | some v =>
      obtain ⟨u, hu, later⟩ := gauging.grows i v known
      rw [hw, Option.some.injEq] at hu
      subst hu
      have tame' : v.config.Tame := later.config ▸ tame
      have prior := ih (alone.before gauging.grows) known tame'
      cases gauging.gauged alone v w known hw tame' with
      | shown current => exact .of_shown current
      | fed more => exact h.gauge_accept m prior known hw tame' more
      | level same level => exact h.gauge_level m prior known hw tame' tame same level

/-! Runs in which the gauges are read. -/

theorem alone_of_length (only : b.writers.length = 1) : b.Alone 0 := by
  intro j w u _ hu _
  have known := (List.getElem?_eq_some_iff.1 hu).1
  omega

def enumerating (config : Arguments) : Bench :=
  (single config []).start .main (some "write")
    (.write { writer := 0, elements := [.nat 7, .nat 8, .nat 9], counted := true } .start) []

theorem reachable_enumerating (config : Arguments)
    (built : (single config []).names.get? "w" = some 0) : Reachable (enumerating config) := by
  have known : (single config []).programOf "write" (.writeAll "w" [.nat 7, .nat 8, .nat 9]) =
      .ok (.write { writer := 0, elements := [.nat 7, .nat 8, .nat 9], counted := true }
        .start) := by
    rw [programOf, writerIndex, built]
    rfl
  exact (reachable_single _ _).move (.start .main known)

/-- **Gauges.** In every run, the gauge of open batches of a writer that alone measures under its
label and whose limits the clock accepts is exact at every step. The gauge of buffered entries
never exceeds the buffer; while no call runs it is exact as long as the writer accepts work and
has a slot, and also, where subscribers are prompt, once the writer refuses work. -/
theorem gauges_show_sizes (h : Reachable b) (hw : b.writers[i]? = some w) (alone : b.Alone i)
    (tame : w.config.Tame) :
    b.metrics.inFlight.getD w.label 0 = w.inFlight.count ∧
      b.metrics.buffered.getD w.label 0 ≤ w.buffer.size ∧
      (b.running = none → (w.hasCapacity = true ∧ w.refusal? = none) ∨
          (b.Prompt ∧ w.refusal? ≠ none) →
        b.metrics.buffered.getD w.label 0 = w.buffer.size) := by
  have gauge := h.gauge alone hw tame
  refine ⟨gauge.inFlight, gauge.buffered, fun rests settled => ?_⟩
  by_contra differs
  have lags : (b.gaugesOf w).1 < w.buffer.size := Nat.lt_of_le_of_ne gauge.buffered differs
  rcases settled with ⟨room, usable⟩ | ⟨prompt, refused⟩
  · rcases gauge.lags lags with ⟨id, c, job, point, running, -⟩ | full | refused
    · rw [rests] at running
      cases running
    · rw [room] at full
      cases full
    · exact refused usable
  · exact refused (gauge.usable prompt lags)

theorem gauges_show_sizes_pair : ∃ w : Writer,
    (run 20 (enumerating [("max_batch_size", .nat 2)])).writers[0]? = some w ∧
    w.buffer.size = 1 ∧ w.inFlight.count = 1 ∧
    (run 20 (enumerating [("max_batch_size", .nat 2)])).metrics.inFlight.getD w.label 0 = 1 ∧
    (run 20 (enumerating [("max_batch_size", .nat 2)])).metrics.buffered.getD w.label 0 = 1 := by
  obtain ⟨w, hw⟩ : ∃ w, (run 20 (enumerating [("max_batch_size", .nat 2)])).writers[0]? = some w :=
    ⟨_, rfl⟩
  have tame : w.config.Tame := by
    cases hw
    exact ⟨rfl, fun _ limited => (by cases limited), fun _ limited => (by cases limited)⟩
  have sizes : w.buffer.size = 1 ∧ w.inFlight.count = 1 ∧ w.hasCapacity = true ∧
      w.refusal? = none := by
    cases hw
    exact ⟨rfl, rfl, rfl, rfl⟩
  obtain ⟨size, count, room, usable⟩ := sizes
  obtain ⟨inFlight, -, buffered⟩ :=
    gauges_show_sizes ((reachable_enumerating _ rfl).run 20) hw (alone_of_length rfl) tame
  exact ⟨w, hw, size, count, inFlight.trans count,
    (buffered rfl (.inl ⟨room, usable⟩)).trans size⟩

/-- The second of the entries waits for the only slot, and the gauge does not show it. -/
theorem gauge_lags_behind_a_wait : ∃ (b : Bench) (w : Writer), Reachable b ∧
    b.writers[0]? = some w ∧ b.Alone 0 ∧ w.config.Tame ∧ b.running = none ∧ b.main.ready = [] ∧
    b.alt.ready = [] ∧ w.refusal? = none ∧ w.buffer.size = 1 ∧
    b.metrics.buffered.getD w.label 0 = 0 := by
  refine ⟨run 20 (enumerating [("max_batch_size", .nat 1), ("max_in_flight_requests", .nat 1)]), _,
    (reachable_enumerating _ rfl).run 20, rfl, alone_of_length rfl, ?_, rfl, rfl,
      rfl, rfl, rfl, rfl⟩
  exact ⟨rfl, fun _ limited => (by cases limited), fun _ limited => (by cases limited)⟩

end Bench
end BatchWriter
