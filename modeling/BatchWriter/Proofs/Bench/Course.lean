import BatchWriter.Proofs.Bench.Dues
import BatchWriter.Proofs.Bench.Guard

/-!
# The course of one writer

What an action of the bench comes to for one writer and its alarms: ticks at one instant, one of
its alarms that rings, a completion that does the flush that was put off, or the end of its loop.
-/

set_option autoImplicit false

namespace BatchWriter
namespace Bench

open Writer (Ticks Ticking Flushed)

variable {sends : Nat → Prop} {b b' : Bench} {i : Nat} {w w' : Writer} {loop : LoopName}

/-- The writer at `i` and its alarms after an action. -/
inductive Course (b : Bench) (i : Nat) (w : Writer) (b' : Bench) : Writer → Prop where
  | ticks {w' : Writer} (ticks : Ticks b'.now (w, b.duesOf i) (w', b'.duesOf i)) :
      Course b i w b' w'
  /-- The buffer's alarm rings and there is nothing to flush, or no slot. -/
  | lapse {due : Nat} (was : some due ∈ b.duesOf i .flush) (now : b'.now = max b.now due)
      (undeferred : w.deferred = false) (stays : w.bufferTimeOver.2 = false)
      (dues : b'.duesOf i = Effect.dues b'.now (b.duesOf i) (.cancelAlarm .flush)) :
      Course b i w b' w.bufferTimeOver.1.writer
  /-- The buffer's alarm rings for a flush. -/
  | flush {w' : Writer} {due : Nat} (was : some due ∈ b.duesOf i .flush)
      (now : b'.now = max b.now due) (undeferred : w.deferred = false)
      (flushes : w.bufferTimeOver.2 = true)
      (flushed : Flushed b'.now (w.bufferTimeOver.1.writer,
        Effect.dues b'.now (b.duesOf i) (.cancelAlarm .flush)) (w', b'.duesOf i)) :
      Course b i w b' w'
  /-- A completion does the flush that was put off. -/
  | deferred {u w' : Writer} {dues : Dues} (completed : Ticks b'.now (w, b.duesOf i) (u, dues))
      (due : u.flushIsDue = true) (unset : dues .flush = [])
      (flushed : Flushed b'.now ({ u with deferred := false }, dues) (w', b'.duesOf i)) :
      Course b i w b' w'
  /-- The alarm of an open batch rings, which it does for a writer whose batches have a limit. -/
  | expire {u w' : Writer} {due batch : Nat} {r : Request Value}
      (was : some due ∈ b.duesOf i (.expire batch)) (now : b'.now = max b.now due)
      (found : w.inFlight.find? batch = some r)
      (ends : u = w.outlived b'.now batch r.entries ∨ w.config.requestTimeout = none ∧ u = w)
      (ticks : Ticks b'.now (u, Effect.dues b'.now (b.duesOf i) (.cancelAlarm (.expire batch)))
        (w', b'.duesOf i)) : Course b i w b' w'
  /-- The writer's loop is closed, and its alarms with it. -/
  | closes {name : LoopName} (now : b'.now = b.now) (bound : w.loop = some name)
      (closed : (b'.loop name).closed = true) (dues : b'.duesOf i = fun _ => []) :
      Course b i w b' w

theorem Course.same (dues : b'.duesOf i = b.duesOf i) : Course b i w b' w :=
  .ticks (by rw [dues])

theorem Quietly.course (h : Quietly i b b') (hw : b.writers[i]? = some w) :
    ∃ w', b'.writers[i]? = some w' ∧ Course b i w b' w' := by
  obtain ⟨w', hw', ticks⟩ := h.2 w hw
  exact ⟨w', hw', .ticks (h.1.symm ▸ ticks)⟩

theorem Quietly.course_at {time : Timetable Ring} (h : Quietly i { b with time } b')
    (hw : b.writers[i]? = some w) (dues : duesOf { b with time } i = b.duesOf i) :
    ∃ w', b'.writers[i]? = some w' ∧ Course b i w b' w' := by
  obtain ⟨w', hw', ticks⟩ := h.2 w hw
  rw [dues] at ticks
  exact ⟨w', hw', .ticks (h.1.symm ▸ ticks)⟩

/-! ## Reports -/

theorem Quietly.deferredFlush {j : Nat}
    (calm : ∀ w : Writer, b.writers[j]? = some w → j = i → w.deferred = false) (loop : LoopName) :
    Quietly i b (b.deferredFlush j loop).2 := by
  unfold Bench.deferredFlush
  split
  · exact refl b
  · next u hu =>
    split
    · next due =>
      have other : j ≠ i := fun same => by simp [Writer.flushIsDue, calm u hu same] at due
      exact (change fun _ _ same => absurd same other).trans (timedFlush other loop)
    · exact refl b

/-- A report does no flush, unless one was put off. -/
theorem Quietly.receive {j : Nat}
    (calm : ∀ w : Writer, b.writers[j]? = some w → j = i → w.deferred = false) (loop : LoopName)
    (batch : Nat) (report : Report) : Quietly i b (b.receive loop j batch report).2 := by
  cases report with
  | failed fault => exact change fun w _ _ => .reportFailed w batch fault
  | completed failed =>
    rw [Bench.receive]
    split
    · exact refl b
    · next u hu =>
      split
      · exact beside (.log _ _)
      · have completed : Quietly i b (b.change j (·.complete b.now batch failed)).2 :=
          change fun w _ _ => .complete w batch failed
        refine thenDo (thenDo completed (deferredFlush (fun v hv same => ?_) loop))
          (change fun w _ _ => .endCompletion w)
        rw [writer_change hu, Option.some.injEq] at hv
        have motion : Writer.Motion b.now u (u.complete b.now batch failed) :=
          .plainChange (.complete batch failed)
        exact hv ▸ motion.undelaying (calm u hu same)

theorem flushed_deferredFlush (hw : b.writers[i]? = some w) (bound : w.loop = some loop)
    (due : w.flushIsDue = true) : ∃ w' : Writer,
      (b.deferredFlush i loop).2.writers[i]? = some w' ∧
      Flushed b.now ({ w with deferred := false }, b.duesOf i)
        (w', (b.deferredFlush i loop).2.duesOf i) := by
  have begun : (b.change i (·.beginDeferredFlush)).2.writers[i]? =
      some { w with deferred := false } := writer_change hw _
  have dues : (b.change i (·.beginDeferredFlush)).2.duesOf i = b.duesOf i :=
    (dues_change hw _ i).trans (if_pos rfl)
  obtain ⟨w', hw', flushed⟩ := flushed_timedFlush begun bound
  rw [dues, now_change] at flushed
  rw [deferredFlush_of_due hw due]
  exact ⟨w', hw', flushed⟩

/-- A completion for a writer whose flush was put off does that flush. -/
theorem course_completion (timely : Timely b) (hw : b.writers[i]? = some w)
    (bound : w.loop = some loop) (guarded : w.Guarded) (deferred : w.deferred = true) (batch : Nat)
    (failed : List Value) : ∃ w', (thenDo (thenDo (b.change i (·.complete b.now batch failed))
        (deferredFlush i loop)) fun b => b.change i (·.endCompletion)).2.writers[i]? = some w' ∧
      Course b i w (thenDo (thenDo (b.change i (·.complete b.now batch failed))
        (deferredFlush i loop)) fun b => b.change i (·.endCompletion)).2 w' := by
  obtain ⟨unarmed, filled, -, -⟩ := guarded deferred
  -- The buffer was not empty, so the completion sets no alarm.
  obtain ⟨ok, inFlight, history, front, completed⟩ :=
    Writer.complete_of_filled filled b.now batch failed
  have timely' : Timely (b.change i (·.complete b.now batch failed)).2 :=
    (BenchChange.writerChange (.motion i fun _ _ =>
      .plainChange (.complete batch failed))).timely timely
  have hu := writer_change hw (·.complete b.now batch failed)
  have dues := (dues_change hw (·.complete b.now batch failed) i).trans (if_pos rfl)
  have now := now_change b i (·.complete b.now batch failed)
  have ticks : Ticking b.now w (w.complete b.now batch failed) := .complete w batch failed
  have due := Writer.flushIsDue_complete deferred filled b.now batch failed
  have unset : (b.change i (·.complete b.now batch failed)).2.duesOf i .flush = [] := by
    by_contra set
    have armed := (timely'.timed i _ hu).flush ((alarmsOf_iff _ i .flush).2 set)
    rw [completed] at armed
    exact absurd armed (by simp [unarmed])
  obtain ⟨v, hv, flushed⟩ := flushed_deferredFlush hu (by rw [completed]; exact bound) due
  have first : thenDo (b.change i (·.complete b.now batch failed)) (deferredFlush i loop) =
      (b.change i (·.complete b.now batch failed)).2.deferredFlush i loop := by
    rw [thenDo, fault_change hw, ok]
  have rest : Quietly i ((b.change i (·.complete b.now batch failed)).2.deferredFlush i loop).2
      (thenDo ((b.change i (·.complete b.now batch failed)).2.deferredFlush i loop)
        fun b => b.change i (·.endCompletion)).2 :=
    .thenDo (.refl _) (.change fun w _ _ => .endCompletion w)
  obtain ⟨now', rest⟩ := rest
  obtain ⟨w', hw', more⟩ := rest v hv
  rw [now_deferredFlush, now] at now' more
  rw [now] at flushed
  rw [first]
  have done : Ticks b.now (w, b.duesOf i) ((w.complete b.now batch failed).writer,
      (b.change i (·.complete b.now batch failed)).2.duesOf i) := dues ▸ ticks (b.duesOf i)
  refine ⟨w', hw', .deferred (now'.symm ▸ done) due unset ?_⟩
  rw [now']
  exact flushed.andTicks more

theorem course_receive (own : b.Owned i loop) (timely : Timely b) (hw : b.writers[i]? = some w)
    (guarded : w.Guarded) (batch : Nat) (report : Report) :
    ∃ w', (b.receive loop i batch report).2.writers[i]? = some w' ∧
      Course b i w (b.receive loop i batch report).2 w' := by
  obtain ⟨v, hv, bound⟩ := own
  rw [hw, Option.some.injEq] at hv
  subst hv
  cases before : w.deferred with
  | false =>
    refine (Quietly.receive (fun v hv _ => ?_) loop batch report).course hw
    rw [hw, Option.some.injEq] at hv
    exact hv ▸ before
  | true =>
    cases report with
    | failed fault => exact (Quietly.change fun w _ _ => .reportFailed w batch fault).course hw
    | completed failed =>
      simp only [receive, hw]
      split
      · exact (Quietly.beside (.log _ _)).course hw
      · exact course_completion timely hw bound guarded before batch failed

/-! ## Alarms -/

/-- The buffer's alarm of the writer itself rings. It was set, so no flush was put off. -/
theorem course_ownFlush {limit : Nat} {time : Timetable Ring} (timely : Timely b)
    (due : b.time.Rings limit (.writer i .flush) time) (bound : w.loop = some loop)
    (hw : b.writers[i]? = some w) (guarded : w.Guarded) :
    ∃ w', (bufferAlarm { b with time } i).2.writers[i]? = some w' ∧
      Course b i w (bufferAlarm { b with time } i).2 w' := by
  obtain ⟨later, alarms, -⟩ := rung due
  obtain ⟨instant, clock, a, ha, action, was⟩ := rung_due due
  have rings := writer_change (b := { b with time }) hw (·.bufferTimeOver.1)
  have now := now_change { b with time } i (·.bufferTimeOver.1)
  have dues := dues_change (b := { b with time }) hw (·.bufferTimeOver.1) i
  rw [if_pos rfl, dues_cancel alarms i, if_pos rfl,
    Effect.dues_timeless w.timeless_bufferTimeOver] at dues
  have armed : w.timerArmed = true :=
    (timely.timed i w hw).flush (List.any_eq_true.2 ⟨a, ha, by simp [action]⟩)
  have undeferred : w.deferred = false := by
    by_contra on
    have unarmed := (guarded (by simpa using on)).1
    rw [armed] at unarmed
    cases unarmed
  have own : w.loop.getD .main = loop := by rw [bound]; rfl
  unfold bufferAlarm
  simp only [hw, own]
  split
  · next flushes =>
    have bound' : w.bufferTimeOver.1.writer.loop = some loop := by
      rw [(Writer.bufferTimeOver_flush flushes).1]
      exact bound
    obtain ⟨w', hw', flushed⟩ := flushed_timedFlush rings bound'
    rw [dues, now] at flushed
    have moves := now_timedFlush (change { b with time } i (·.bufferTimeOver.1)).2 i loop
    refine ⟨w', hw', .flush (mem_dues ha action was) ((moves.trans now).trans clock) undeferred
      flushes ?_⟩
    rw [moves, now]
    exact flushed
  · next stays =>
    exact ⟨_, rings, .lapse (mem_dues ha action was) (now.trans clock) undeferred
      (by simpa using stays) (by rw [now]; exact dues)⟩

theorem course_flush {j limit : Nat} {time : Timetable Ring} (timely : Timely b)
    (due : b.time.Rings limit (.writer j .flush) time) (own : ∃ name, b.Owned j name)
    (hw : b.writers[i]? = some w) (guarded : w.Guarded) :
    ∃ w', (bufferAlarm { b with time } j).2.writers[i]? = some w' ∧
      Course b i w (bufferAlarm { b with time } j).2 w' := by
  obtain ⟨name, u, hu, bound⟩ := own
  by_cases own : j = i
  · subst own
    rw [hw, Option.some.injEq] at hu
    subst hu
    exact course_ownFlush timely due bound hw guarded
  · obtain ⟨-, alarms, -⟩ := rung due
    have dues := (dues_cancel alarms i).trans (if_neg (Ne.symm own))
    have quiet : Quietly i { b with time } (change { b with time } j (·.bufferTimeOver.1)).2 :=
      .change fun _ _ same => absurd same own
    unfold bufferAlarm
    simp only [hu]
    split
    · exact (quiet.trans (.timedFlush own _)).course_at hw dues
    · exact quiet.course_at hw dues

theorem course_expire {j batch limit : Nat} {time : Timetable Ring} (timely : Timely b)
    (due : b.time.Rings limit (.writer j (.expire batch)) time)
    (hw : b.writers[i]? = some w) :
    ∃ w', (change { b with time } j (·.expire time.now batch)).2.writers[i]? = some w' ∧
      Course b i w (change { b with time } j (·.expire time.now batch)).2 w' := by
  obtain ⟨later, alarms, -⟩ := rung due
  obtain ⟨instant, clock, a, ha, action, was⟩ := rung_due due
  have dues := dues_cancel alarms i
  have now := now_change { b with time } j (·.expire time.now batch)
  by_cases own : j = i
  · subst own
    have dues' := dues_change (b := { b with time }) hw (·.expire time.now batch) j
    rw [if_pos rfl] at dues dues'
    rw [dues] at dues'
    have set : b.alarmsOf j (.expire batch) = true := List.any_eq_true.2 ⟨a, ha, by simp [action]⟩
    obtain ⟨r, found⟩ := InFlight.find?_of_mem ((timely.timed j w hw).expire batch set)
    refine ⟨_, writer_change (b := { b with time }) hw _, ?_⟩
    rcases Ticking.expire time.now found
        (Effect.dues time.now (b.duesOf j) (.cancelAlarm (.expire batch))) with
      ⟨stays, limitless⟩ | ticks
    · rw [stays] at dues'
      refine .expire (mem_dues ha action was) (now.trans clock) found (.inr ⟨limitless, rfl⟩) ?_
      rw [stays, dues', now]
      exact .refl
    · refine .expire (mem_dues ha action was) (now.trans clock) found (.inl rfl) ?_
      rw [dues', now]
      rw [Effect.dues_cancel_twice] at ticks
      exact ticks
  · rw [if_neg (Ne.symm own)] at dues
    have quiet : Quietly i { b with time } (change { b with time } j (·.expire time.now batch)).2 :=
      .change fun _ _ same => absurd same own
    exact quiet.course_at hw dues

theorem course_closeLoop (timely : Timely b) (name : LoopName) (hw : b.writers[i]? = some w) :
    Course b i w (b.closeLoop name) w := by
  have now : (b.closeLoop name).now = b.now := by cases name <;> rfl
  have sealed := timely.sealed i w hw
  by_cases own : ∀ alarm, b.loopOf (.writer i alarm) ≠ name
  · refine .same (funext fun alarm => ?_)
    rw [dues_closeLoop, if_neg (own alarm)]
  · obtain ⟨alarm, own⟩ := not_forall_not.1 own
    have none : (b.closeLoop name).duesOf i = fun _ => [] := by
      funext other
      rw [dues_closeLoop, if_pos (show b.loopOf (.writer i other) = name from own)]
    cases hl : w.loop with
    | some loop =>
      have same : loop = name := by simpa [loopOf, hw, hl] using own
      refine .closes now (same ▸ hl) ?_ none
      rw [Bench.closeLoop, loop_setLoop, if_pos rfl]
      rfl
    | none =>
      -- No alarm of a writer is set before it is used from a loop.
      refine .same (none.trans (funext fun other => ?_))
      by_contra set
      have timed := timely.timed i w hw
      have set := (alarmsOf_iff b i other).2 (Ne.symm set)
      have bound : w.loop.isSome = true := sealed.bound (by
        cases other with
        | flush => exact .inr (.inr (timed.flush set))
        | expire batch =>
          refine .inl fun empty => ?_
          have isOpen := timed.expire batch set
          rw [InFlight.ids, empty] at isOpen
          cases isOpen)
      rw [hl] at bound
      cases bound

theorem BenchAction.course (s : BenchAction sends b b') (timely : Timely b)
    (guarded : b.Throughout Writer.Guarded) (hw : b.writers[i]? = some w) :
    ∃ w', b'.writers[i]? = some w' ∧ Course b i w b' w' := by
  cases s with
  | loopAction h =>
    cases h with
    | callAction h => exact (Quietly.callActions (.single h)).course hw
    | dispatch turn hu bound room => exact (Quietly.dispatch ⟨_, hu, bound⟩).course hw
    | @receive j loop own batch report =>
      by_cases same : j = i
      · subst same
        exact course_receive own timely hw (guarded j w hw) batch report
      · exact (Quietly.receive (fun _ _ h => absurd h same) loop batch report).course hw
  | pass later alarms => exact ⟨w, hw, .same (dues_of_alarms alarms i)⟩
  | flush due own => exact course_flush timely due own hw (guarded i w hw)
  | expire due => exact course_expire timely due hw
  | closeLoop name =>
    exact ⟨w, (congrArg (fun ws : List Writer => ws[i]?) (writers_setLoop _ _ _)).trans hw,
      course_closeLoop timely name hw⟩
  | create name spec =>
    rcases create_cases b name spec with same | ⟨c, built⟩
    · rw [same]
      exact ⟨w, hw, .same rfl⟩
    · exact ⟨w, built.kept hw, .same (dues_of_alarms (by rw [built.told.time]; rfl) i)⟩
  | work works =>
    exact ⟨w, by rw [works.bypasses.writers, hw], .same (dues_of_alarms works.bypasses.alarms i)⟩

/-! ## Runs -/

/-- A writer that was not there before is new, and no alarm of it is set. -/
theorem create_builds (timely : Timely b) (name : String) (spec : WriterSpec)
    (before : b.writers[i]? = none) (hw : (b.create name spec).2.writers[i]? = some w) :
    w.Fresh ∧ w.Idle ∧ (∀ e ∈ w.history, e.1 = (b.create name spec).2.now) ∧
      (b.create name spec).2.duesOf i = fun _ => [] := by
  rcases create_cases b name spec with same | ⟨c, built⟩
  · rw [same, before] at hw
    cases hw
  rcases built.writer hw with old | rfl
  · rw [before] at old
    cases old
  obtain ⟨entries, history⟩ := built.history
  refine ⟨built.fresh, built.idle, fun e he => ?_, funext fun alarm => ?_⟩
  · rw [history, List.mem_singleton] at he
    rw [he, built.now]
  · have unset := timely.unset i before alarm
    by_contra set
    rw [dues_of_alarms (b := b) (by rw [built.told.time]; rfl) i] at set
    rw [(alarmsOf_iff b i alarm).2 set] at unset
    cases unset

/-- Only a creation brings a writer that was not there before. -/
theorem BenchAction.builds (s : BenchAction sends b b') (timely : Timely b)
    (before : b.writers[i]? = none) (hw : b'.writers[i]? = some w) :
    w.Fresh ∧ w.Idle ∧ (∀ e ∈ w.history, e.1 = b'.now) ∧ b'.duesOf i = fun _ => [] := by
  have known : b'.writers.length ≠ b.writers.length := fun same => by
    have there := (List.getElem?_eq_some_iff.1 hw).1
    rw [same] at there
    exact absurd (List.getElem?_eq_none_iff.1 before) (by omega)
  cases s with
  | loopAction h =>
    cases h with
    | callAction h =>
      cases h with
      | beside beside => exact absurd (congrArg List.length beside.writers) known
      | callChange j changes => exact absurd (length_change _ _ _) known
    | dispatch turn hu bound room => exact absurd (Elsewhere.dispatch _ _ _).length known
    | receive own batch report => exact absurd (Elsewhere.receive _ _ _ _ _).length known
  | pass later alarms => exact absurd rfl known
  | @flush limit j time due own =>
    exact absurd (Elsewhere.bufferAlarm { b with time } j).length known
  | @expire limit j batch time due =>
    exact absurd (length_change { b with time } j _) known
  | closeLoop name => exact absurd (congrArg List.length (writers_setLoop _ _ _)) known
  | create name spec => exact create_builds timely name spec before hw
  | work works => exact absurd (congrArg List.length works.bypasses.writers) known

/-- An action as the writer at `i` sees it. -/
structure Spell (i : Nat) (p q : Bench × Writer) : Prop where
  clock : p.1.now ≤ q.1.now
  opened : ∀ name, (q.1.loop name).closed = false → (p.1.loop name).closed = false
  later : p.2.Later q.2
  course : Course p.1 i p.2 q.1 q.2

abbrev Spells (i : Nat) : Bench × Writer → Bench × Writer → Prop := Relation.ReflTransGen (Spell i)

theorem Spell.live {p q : Bench × Writer} (s : Spell i p q) (live : q.1.Live q.2) : p.1.Live p.2 :=
  fun name bound => s.opened name (live name (s.later.loop name bound))

theorem BenchAction.spell (s : BenchAction sends b b') (timely : Timely b)
    (guarded : b.Throughout Writer.Guarded) (hw : b.writers[i]? = some w) :
    ∃ w', b'.writers[i]? = some w' ∧ Spell i (b, w) (b', w') := by
  obtain ⟨w', hw', course⟩ := s.course timely guarded hw
  obtain ⟨v, hv, ceases⟩ := s.benchChanges.stills i w hw
  rw [hw', Option.some.injEq] at hv
  subst hv
  exact ⟨w', hw', s.benchChanges.clock, fun _ => s.benchChanges.opened, ceases.later, course⟩

theorem Reachable.spells (h : Reachable b) (m : Move b b') (hw : b.writers[i]? = some w) :
    ∃ w', b'.writers[i]? = some w' ∧ Spells i (b, w) (b', w') := by
  have kept : ∀ {c : Bench}, BenchActions b.Sends b c → Timely c ∧ c.Throughout Writer.Guarded ∧
      ∃ u, c.writers[i]? = some u ∧ Spells i (b, w) (c, u) := fun benchActions => by
    induction benchActions with
    | refl => exact ⟨h.timely, h.guarded, w, hw, .refl⟩
    | tail _ benchAction ih =>
      obtain ⟨timely, guarded, u, hu, spells⟩ := ih
      obtain ⟨v, hv, spell⟩ := benchAction.spell timely guarded hu
      exact ⟨benchAction.benchChanges.timely timely, benchAction.guarded timely guarded, v, hv,
        spells.tail spell⟩
  exact (kept (m.benchActions h.orderly)).2.2

/-- What holds of a new writer without alarms, and whatever happens to a writer keeps, holds of
every writer in every state of a run. -/
theorem Reachable.by_spells {P : Bench × Writer → Prop} (h : Reachable b)
    (hw : b.writers[i]? = some w)
    (new : ∀ (c : Bench) (u : Writer), u.Fresh → u.Idle → (∀ e ∈ u.history, e.1 = c.now) →
      (c.duesOf i = fun _ => []) → P (c, u))
    (each : ∀ p q, Spell i p q → P p → P q) : P (b, w) := by
  have kept : b.Throughout Writer.Guarded ∧ ∀ u, b.writers[i]? = some u → P (b, u) := by
    refine h.by_actions
      (P := fun c => c.Throughout Writer.Guarded ∧ ∀ u, c.writers[i]? = some u → P (c, u))
      (fun _ => ⟨fun _ _ hu => absurd hu (by simp [Scenario.start]),
        fun _ hu => absurd hu (by simp [Scenario.start])⟩) fun c c' timely benchAction ih => ?_
    refine ⟨benchAction.guarded timely ih.1, fun v hv => ?_⟩
    cases hu : c.writers[i]? with
    | none =>
      obtain ⟨fresh, idle, stamped, unset⟩ := benchAction.builds timely hu hv
      exact new c' v fresh idle stamped unset
    | some u =>
      obtain ⟨v', hv', spell⟩ := benchAction.spell timely ih.1 hu
      rw [hv, Option.some.injEq] at hv'
      exact hv' ▸ each _ _ spell (ih.2 u hu)
  exact kept.2 w hw

end Bench
end BatchWriter
