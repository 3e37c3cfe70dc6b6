import BatchWriter.Proofs.Bench.Terminal
import BatchWriter.Proofs.Writer.Guard

/-!
# Entries that wait are flushed in time

In every state of a run a flush is put off only while there are entries and no slot for them.
With a limit of the time in the buffer, entries of a usable writer have their alarm set or their
flush put off, as long as no destination raises what is no ordinary fault while it is handed a
batch: such a fault leaves a timed flush before the alarm is set anew.
-/

set_option autoImplicit false

namespace BatchWriter

/-- It raises ordinary faults only while it is handed a batch. -/
def Destination.Civil (d : Destination) : Prop :=
  ∀ behaviour ∈ d.script, ∀ fault, Response.raise fault ∈ behaviour.responses →
    fault.isOrdinary = true

namespace Bench

open Writer (Guarded Scheduled)

variable {sends : Nat → Prop} {b b' b'' : Bench} {i : Nat} {w : Writer} {loop : LoopName}

def Civil (b : Bench) : Prop := ∀ d ∈ b.destinations, d.Civil

/-! ## Flushes that are put off -/

/-- Between two alarms of a buffer no flush of it is put off. -/
theorem WriterChanges.undeferred (h : WriterChanges b b') (hw : b.writers[i]? = some w)
    (before : w.deferred = false) : ∃ w', b'.writers[i]? = some w' ∧ w'.deferred = false := by
  induction h with
  | refl => exact ⟨w, hw, before⟩
  | @tail b₁ b₂ _ writerChange ih =>
    obtain ⟨u, hu, before⟩ := ih
    cases writerChange with
    | beside beside => exact ⟨u, by rw [beside.writers, hu], before⟩
    | @motion j f moves =>
      by_cases own : i = j
      · subst own
        exact ⟨_, writer_change hu f, (moves u hu).undelaying before⟩
      · refine ⟨u, ?_, before⟩
        cases hv : b₁.writers[j]? with
        | none => rw [change_of_none hv, hu]
        | some v => rw [writer_change_of_ne hv f own, hu]

theorem Throughout.guarded (h : b.Throughout Guarded) (elsewhere : Elsewhere i b b')
    (own : ∀ w' : Writer, b'.writers[i]? = some w' → w'.Guarded) : b'.Throughout Guarded :=
  h.elsewhere (fun _ _ ids limit h => h.of_ids ids limit) elsewhere own

/-- The writer has seen to it that its buffer will be flushed. -/
def SeenTo (b : Bench) (i : Nat) : Prop := ∀ w : Writer, b.writers[i]? = some w → w.Scheduled

theorem Throughout.scheduled (h : b.Throughout Scheduled) (elsewhere : Elsewhere i b b')
    (own : b'.SeenTo i) : b'.Throughout Scheduled :=
  h.elsewhere (fun _ _ _ _ h => h) elsewhere own

/-- Where the flush of a writer was not put off and no alarm rings, it still is not. -/
theorem guarded_of_writerChanges (writerChanges : WriterChanges b b') (hw : b.writers[i]? = some w)
    (before : w.deferred = false) {w' : Writer} (hw' : b'.writers[i]? = some w') : w'.Guarded := by
  obtain ⟨u, hu, after⟩ := writerChanges.undeferred hw before
  rw [hw', Option.some.injEq] at hu
  exact .of_undeferred (hu ▸ after)

theorem deferredFlush_of_due (hw : b.writers[i]? = some w) (due : w.flushIsDue = true) :
    b.deferredFlush i loop = (b.change i (·.beginDeferredFlush)).2.timedFlush i loop := by
  simp [deferredFlush, hw, due]

/-- A completion that frees a slot does the flush that was put off. -/
theorem guarded_receive (own : b.Owned i loop) (hw : b.writers[i]? = some w)
    (guarded : w.Guarded) (batch : Nat) (report : Report) {w' : Writer}
    (hw' : (b.receive loop i batch report).2.writers[i]? = some w') : w'.Guarded := by
  cases before : w.deferred with
  | false =>
    exact guarded_of_writerChanges (WriterActions.receive own batch report).writerChanges hw
      before hw'
  | true =>
    obtain ⟨-, filled, -, -⟩ := guarded before
    cases report with
    | failed fault =>
      rw [receive, writer_change hw, Option.some.injEq] at hw'
      exact hw' ▸ Writer.guarded_reportFailed guarded _ _ _
    | completed failed =>
      simp only [receive, hw] at hw'
      split at hw'
      · rw [← Option.some.inj (hw.symm.trans hw')]
        exact guarded
      · obtain ⟨ok, -⟩ := Writer.complete_of_filled filled b.now batch failed
        have hu := writer_change hw (·.complete b.now batch failed)
        have due := Writer.flushIsDue_complete before filled b.now batch failed
        have first : thenDo (b.change i (·.complete b.now batch failed)) (deferredFlush i loop) =
            (b.change i (·.complete b.now batch failed)).2.deferredFlush i loop := by
          rw [thenDo, fault_change hw, ok]
        rw [first, deferredFlush_of_due hu due] at hw'
        have owned := owned_change (j := i)
          (owned_change (j := i) own fun w => (w.regular_complete b.now batch failed).later)
          fun w => w.regular_beginDeferredFlush.later
        refine guarded_of_writerChanges (WriterActions.thenDo (.timedFlush owned) ?_).writerChanges
          (writer_change hu _)
          rfl hw'
        exact .plainChange i fun _ => .endCompletion

theorem LoopAction.guarded (s : LoopAction sends b b') (h : b.Throughout Guarded) :
    b'.Throughout Guarded := by
  cases s with
  | callAction callAction =>
    cases callAction with
    | beside beside => exact h.of_writers beside.writers
    | @callChange i f changes =>
      refine h.guarded (.change b i f) fun w' hw' => ?_
      cases hw : b.writers[i]? with
      | none => rw [change_of_none hw, hw] at hw'; cases hw'
      | some w =>
        rw [writer_change hw, Option.some.injEq] at hw'
        exact hw' ▸ (changes w hw).guarded (h i w hw)
  | @dispatch i w loop turn hw bound room =>
    refine h.guarded (.dispatch b i loop) fun w' hw' => ?_
    -- There is a slot, so the flush was not put off.
    have before : w.deferred = false := by
      by_contra on
      have full := (h i w hw (by simpa using on)).2.2.1
      rw [room] at full
      cases full
    exact guarded_of_writerChanges (.dispatch ⟨w, hw, bound⟩) hw before hw'
  | @receive i loop own batch report =>
    refine h.guarded (.receive b loop i batch report) fun w' hw' => ?_
    obtain ⟨w, hw, -⟩ := id own
    exact guarded_receive own hw (h i w hw) batch report hw'

/-- No action leaves a flush put off that need not be. -/
theorem BenchAction.guarded (s : BenchAction sends b b') (timely : Timely b)
    (h : b.Throughout Guarded) :
    b'.Throughout Guarded := by
  cases s with
  | loopAction loopAction => exact loopAction.guarded h
  | pass later alarms => exact h
  | @flush limit i time due own =>
    refine h.guarded (b := { b with time }) (.bufferAlarm { b with time } i) fun w' hw' => ?_
    obtain ⟨name, w, hw, bound⟩ := own
    obtain ⟨-, -, a, ha, action⟩ := rung due
    -- The alarm was set, so the flush was not put off.
    have armed : w.timerArmed = true :=
      (timely.timed i w hw).flush (List.any_eq_true.2 ⟨a, ha, by simp [action]⟩)
    have before : w.deferred = false := by
      by_contra on
      have unarmed := (h i w hw (by simpa using on)).1
      rw [armed] at unarmed
      cases unarmed
    have rings := writer_change (b := { b with time }) hw (·.bufferTimeOver.1)
    simp only [Bench.bufferAlarm, hw] at hw'
    split at hw'
    · next flushes =>
      have undeferred : w.bufferTimeOver.1.writer.deferred = false := by
        rw [(Writer.bufferTimeOver_flush flushes).1]
        exact before
      refine guarded_of_writerChanges
        (WriterActions.timedFlush ?_).writerChanges rings undeferred hw'
      rw [bound]
      exact owned_change (b := { b with time }) ⟨w, hw, bound⟩ fun w =>
        w.regular_bufferTimeOver.later
    · rw [rings, Option.some.injEq] at hw'
      exact hw' ▸ Writer.guarded_bufferTimeOver before (bound ▸ rfl)
  | @expire limit i batch time due =>
    refine h.guarded (b := { b with time }) (.change _ i _) fun w' hw' => ?_
    obtain ⟨w, hw⟩ := timely.known due
    rw [writer_change (b := { b with time }) hw, Option.some.injEq] at hw'
    exact hw' ▸ Writer.guarded_expire (h i w hw) _ _
  | closeLoop name => exact h.of_writers (writers_setLoop _ _ _)
  | create name spec => exact h.create name spec fun _ _ idle => .of_undeferred idle.deferred
  | work works => exact h.of_writers works.bypasses.writers

theorem Reachable.guarded (h : Reachable b) : b.Throughout Guarded :=
  h.by_actions (fun _ _ _ hw => absurd hw (by simp [Scenario.start]))
    fun _ _ timely benchAction ih =>
    benchAction.guarded timely ih

/-! ## Destinations that raise ordinary faults only -/

theorem Civil.of_scripts (h : b.Civil)
    (scripts : b'.destinations.map (·.script) = b.destinations.map (·.script)) : b'.Civil := by
  intro d hd
  have listed : d.script ∈ b.destinations.map (·.script) := scripts ▸ List.mem_map_of_mem hd
  obtain ⟨e, he, script⟩ := List.mem_map.1 listed
  have civil := h e he
  rwa [Destination.Civil, script] at civil

/-- Destinations without a script raise nothing at all. -/
theorem Civil.of_unscripted (plain : b.destinations.all (·.script.isEmpty) = true) : b.Civil := by
  intro d hd behaviour hb
  rw [List.isEmpty_iff.1 (List.all_eq_true.1 plain d hd)] at hb
  cases hb

theorem destinations_change (b : Bench) (i : Nat) (f : Writer → Change) :
    (b.change i f).2.destinations = b.destinations := by
  cases hw : b.writers[i]? with
  | none => rw [change_of_none hw]
  | some w => exact (enacts_change hw f).destinations

theorem BenchChange.scripts (t : BenchChange b b') :
    b'.destinations.map (·.script) = b.destinations.map (·.script) := by
  cases t with
  | writerChange writerChange =>
    cases writerChange with
    | beside beside => exact beside.scripts
    | motion i moves => rw [destinations_change]
  | pass later alarms => rfl
  | flush due | expire due => rw [destinations_change]
  | closeLoop name => rw [Bench.closeLoop, destinations_setLoop]
  | create name spec =>
    rcases create_cases b name spec with same | ⟨c, built⟩
    · rw [same]
    · rw [built.told.destinations]
      rfl
  | work works => exact works.bypasses.scripts

theorem BenchChanges.scripts (t : BenchChanges b b') :
    b'.destinations.map (·.script) = b.destinations.map (·.script) := by
  induction t with
  | refl => rfl
  | tail _ benchChange ih => exact benchChange.scripts.trans ih

theorem ordinary_respond {destination call : Nat} {handle : Handle} {responses : List Response}
    (civil : ∀ fault, Response.raise fault ∈ responses → fault.isOrdinary = true) {fault : Fault}
    (raised : (respond destination call handle responses b).1 = some fault) :
    fault.isOrdinary = true := by
  induction responses generalizing b with
  | nil => cases raised
  | cons response rest ih =>
    have others := fun fault hf => civil fault (List.mem_cons_of_mem _ hf)
    cases response with
    | complete places =>
      rw [respond] at raised
      split at raised
      · next missing =>
        rw [← Option.some.inj raised, entriesAt_fault missing]
        rfl
      · exact ih others raised
    | fail told => exact ih others raised
    | raise told =>
      rw [← Option.some.inj raised]
      exact civil _ List.mem_cons_self
    | clear => exact ih others raised

theorem ordinary_submit (civil : b.Civil) {destination : Nat} {loop : Option LoopName}
    {entries : List Value} {handle : Handle} {fault : Fault}
    (raised : (b.submit destination loop entries handle).1 = some fault) :
    fault.isOrdinary = true := by
  unfold submit at raised
  split at raised
  · cases raised
  · next d hd =>
    split at raised
    · refine ordinary_respond (fun fault hf => ?_) raised
      rw [Destination.behaviour] at hf
      cases hs : d.script[d.reached]? with
      | none => rw [hs] at hf; cases hf
      | some behaviour =>
        rw [hs] at hf
        exact civil d (List.mem_of_getElem? hd) behaviour (List.mem_of_getElem? hs) fault hf
    · cases raised; rfl
    · cases raised
    · split at raised
      · cases raised; rfl
      · cases raised

/-! ## Flushes that are seen to -/

/-- A dispatch to a civil destination ends with a fault only if it fails the writer. -/
theorem dispatch_ends (civil : b.Civil) (hw : b.writers[i]? = some w) (bound : w.loop = some loop)
    (usable : w.refusal? = none) (tame : w.config.Tame) : (b.dispatch i loop).1 = none ∨
      ∃ fault, (b.dispatch i loop).1 = some fault ∧ fault.isDestination = true ∧
        ∀ w' : Writer, (b.dispatch i loop).2.writers[i]? = some w' → w'.refusal? ≠ none := by
  rcases dispatch_parts hw bound with
    ⟨same, -, idle⟩ | ⟨parcel, u, inFlight, r, -, -, -, -, rfl, hu, same⟩
  · left
    rw [same, fault_change hw, idle usable tame]
    rfl
  · rw [same, fault_change hu]
    have civil' : Civil (b.change i fun w => (w.startDispatch loop b.now).1).2 :=
      civil.of_scripts (by rw [destinations_change])
    refine (Writer.concludeDispatch_ends b.now parcel fun _ raised =>
      ordinary_submit civil' raised).imp_right ?_
    rintro ⟨fault, fails, kind, refused⟩
    refine ⟨fault, fails, kind, fun w' hw' => ?_⟩
    rw [writer_change hu, Option.some.injEq] at hw'
    exact hw' ▸ refused

theorem seenTo_change (hw : b.writers[i]? = some w) {f : Writer → Change}
    (h : (f w).writer.Scheduled) : (b.change i f).2.SeenTo i := fun u hu => by
  rw [writer_change hw, Option.some.injEq] at hu
  exact hu ▸ h

theorem SeenTo.change (h : b.SeenTo i) {f : Writer → Change}
    (each : ∀ w : Writer, b.writers[i]? = some w → w.Scheduled → (f w).writer.Scheduled) :
    (b.change i f).2.SeenTo i := by
  cases hw : b.writers[i]? with
  | none => rwa [change_of_none hw]
  | some w => exact seenTo_change hw (each w hw (h w hw))

/-- Whatever was seen to before: after a timed flush what is left waits for its alarm. -/
theorem seenTo_timedFlush (civil : b.Civil) (own : b.Owned i loop) :
    (b.timedFlush i loop).2.SeenTo i := by
  intro w' hw'
  obtain ⟨w, hw, bound⟩ := id own
  by_cases fine : w.refusal? = none ∧ w.config.Tame
  · have begun := writer_change hw (·.beginTimedFlush b.now)
    have civil' : Civil (b.change i (·.beginTimedFlush b.now)).2 :=
      civil.of_scripts (by rw [destinations_change])
    unfold Bench.timedFlush at hw'
    dsimp only at hw'
    rcases dispatch_ends civil' begun bound fine.1 fine.2 with ok | ⟨fault, fails, kind, refused⟩
    · rw [ok] at hw'
      dsimp only at hw'
      generalize ((b.change i (·.beginTimedFlush b.now)).2.dispatch i loop).2 = flushed at hw'
      cases hu : flushed.writers[i]? with
      | none => rw [change_of_none hu, hu] at hw'; cases hw'
      | some u => exact seenTo_change hu u.scheduled_endTimedFlush w' hw'
    · rw [fails] at hw'
      simp only [kind, if_true] at hw'
      exact .of_refused (refused w' hw')
  · intro usable _ _ tame _
    obtain ⟨u, hu, ceases⟩ :=
      (BenchChanges.writerChanges (WriterActions.timedFlush own).writerChanges).stills i w hw
    rw [hw', Option.some.injEq] at hu
    subst hu
    exact absurd ⟨ceases.later.usable usable, ceases.later.config ▸ tame⟩ fine

theorem seenTo_dispatch (own : b.Owned i loop) (h : b.SeenTo i) :
    (b.dispatch i loop).2.SeenTo i := by
  intro w' hw'
  obtain ⟨w, hw, bound⟩ := id own
  obtain ⟨v, hv, ceases⟩ := (BenchChanges.writerChanges (.dispatch own)).stills i w hw
  rw [hw', Option.some.injEq] at hv
  subst hv
  rcases dispatch_parts hw bound with
    ⟨same, -, idle⟩ | ⟨parcel, u, inFlight, r, -, opens, -, -, -, hu, same⟩
  · rw [same, writer_change hw, Option.some.injEq] at hw'
    intro usable _ limited tame filled
    rw [idle (ceases.later.usable usable) (ceases.later.config ▸ tame)] at hw'
    subst hw'
    have kept := h w hw usable (bound ▸ rfl) limited tame filled
    have some : w.buffer.entries ≠ [] := filled
    simpa [Change.stay, Buffer.isEmpty, some] using kept
  · rw [same, writer_change hu, Option.some.injEq] at hw'
    rcases Writer.writer_concludeDispatch (w := { u with inFlight }) b.now parcel r.1 with
      handed | ⟨fault, -, lost⟩
    · rw [← hw', handed, opens.same]
      intro usable _ limited tame filled
      have before : w.buffer.entries ≠ [] := by
        rw [← (Buffer.append_of_take opens.taken).1]
        exact List.append_ne_nil_of_left_ne_nil opens.some _
      have kept := h w hw usable (bound ▸ rfl) limited tame before
      have left : u.buffer.isEmpty = false := by
        have some : u.buffer.entries ≠ [] := filled
        simpa [Buffer.isEmpty] using some
      simpa [Writer.note, left] using kept
    · rw [← hw', lost]
      exact .of_refused (Writer.refused_losing _ _ _ _ _)

theorem seenTo_deferredFlush (civil : b.Civil) (own : b.Owned i loop) (h : b.SeenTo i) :
    (b.deferredFlush i loop).2.SeenTo i := by
  unfold Bench.deferredFlush
  split
  · exact h
  · split
    · refine seenTo_timedFlush (civil.of_scripts (by rw [destinations_change])) ?_
      exact owned_change own fun w => w.regular_beginDeferredFlush.later
    · exact h

theorem SeenTo.thenDo {r : Option Fault × Bench} {next : Bench → Option Fault × Bench}
    (h : r.2.SeenTo i) (each : r.2.SeenTo i → (next r.2).2.SeenTo i) :
    (thenDo r next).2.SeenTo i := by
  unfold Bench.thenDo
  split
  · exact h
  · exact each h

theorem seenTo_receive (civil : b.Civil) (own : b.Owned i loop) (h : b.SeenTo i) (batch : Nat)
    (report : Report) : (b.receive loop i batch report).2.SeenTo i := by
  cases report with
  | failed fault => exact h.change fun w _ hw => Writer.scheduled_reportFailed hw _ _ _
  | completed failed =>
    rw [receive]
    split
    · exact h
    · split
      · exact h
      · have completed : (b.change i (·.complete b.now batch failed)).2.SeenTo i :=
          h.change fun w _ hw => Writer.scheduled_complete hw _ _ _
        have owned : (b.change i (·.complete b.now batch failed)).2.Owned i loop :=
          owned_change own fun w => (w.regular_complete b.now batch failed).later
        have civil' : Civil (b.change i (·.complete b.now batch failed)).2 :=
          civil.of_scripts (by rw [destinations_change])
        refine SeenTo.thenDo (SeenTo.thenDo completed (seenTo_deferredFlush civil' owned)) ?_
        exact fun flushed => flushed.change fun w _ hw => hw

theorem LoopAction.scheduled (s : LoopAction sends b b') (civil : b.Civil)
    (h : b.Throughout Scheduled) :
    b'.Throughout Scheduled := by
  cases s with
  | callAction callAction =>
    cases callAction with
    | beside beside => exact h.of_writers beside.writers
    | @callChange i f changes =>
      exact h.scheduled (.change b i f) (SeenTo.change (h i) fun w hw => (changes w hw).scheduled)
  | @dispatch i w loop turn hw bound room =>
    exact h.scheduled (.dispatch b i loop) (seenTo_dispatch ⟨w, hw, bound⟩ (h i))
  | @receive i loop own batch report =>
    exact h.scheduled (.receive b loop i batch report) (seenTo_receive civil own (h i) batch report)

/-- Every action leaves what is buffered with its alarm set or its flush put off. -/
theorem BenchAction.scheduled (s : BenchAction sends b b') (civil : b.Civil)
    (h : b.Throughout Scheduled) :
    b'.Throughout Scheduled := by
  cases s with
  | loopAction loopAction => exact loopAction.scheduled civil h
  | pass later alarms => exact h
  | @flush limit i time due own =>
    refine h.scheduled (b := { b with time }) (.bufferAlarm { b with time } i) ?_
    obtain ⟨name, w, hw, bound⟩ := own
    simp only [Bench.bufferAlarm, hw]
    split
    · next flushes =>
      rw [bound]
      refine seenTo_timedFlush (civil.of_scripts (by rw [destinations_change])) ?_
      exact owned_change (b := { b with time }) ⟨w, hw, bound⟩ fun w =>
        w.regular_bufferTimeOver.later
    · next stays =>
      exact seenTo_change (b := { b with time }) hw
        (Writer.scheduled_bufferTimeOver (by simpa using stays))
  | @expire limit i batch time due =>
    exact h.scheduled (b := { b with time }) (.change _ i _)
      (SeenTo.change (b := { b with time }) (h i) fun w _ hw => Writer.scheduled_expire hw _ _)
  | closeLoop name => exact h.of_writers (writers_setLoop _ _ _)
  | create name spec =>
    refine h.create name spec fun w _ idle _ bound _ _ _ => ?_
    rw [idle.loop] at bound
    cases bound
  | work works => exact h.of_writers works.bypasses.writers

theorem Reachable.scheduled (h : Reachable b) (civil : b.Civil) : b.Throughout Scheduled := by
  refine h.by_actions (P := fun b => b.Civil → b.Throughout Scheduled)
    (fun _ _ _ _ hw => absurd hw (by simp [Scenario.start])) (fun b b' _ benchAction ih civil => ?_)
    civil
  have before : b.Civil := civil.of_scripts benchAction.benchChanges.scripts.symm
  exact benchAction.scheduled before (ih before)

/-- **Timed flushes.** In every state of a run a flush is put off only while entries wait, their
alarm is not set and every slot is taken. Where the limits are accepted and destinations raise
ordinary faults only, the entries of a usable writer in use wait either for their alarm or for
the flush that was put off, and the alarm is set unless the writer's loop is closed. -/
theorem waiting_entries_are_guarded (h : Reachable b) (hw : b.writers[i]? = some w) :
    (w.deferred = true →
      w.buffer.entries ≠ [] ∧ w.timerArmed = false ∧ w.hasCapacity = false) ∧
    (b.Civil → w.config.Tame → w.config.maxTimeInBuffer.isSome = true → w.refusal? = none →
      ∀ loop, w.loop = some loop → w.buffer.entries ≠ [] →
        w.timerArmed = !w.deferred ∧
        ((b.loop loop).closed = false → b.time.isSet (.writer i .flush) = w.timerArmed)) := by
  have guarded := h.guarded i w hw
  refine ⟨fun deferred => ?_, fun civil tame limited usable loop bound filled =>
    ⟨?_, fun live => ?_⟩⟩
  · obtain ⟨unarmed, filled, full, -⟩ := guarded deferred
    exact ⟨filled, unarmed, full⟩
  · have seen := h.scheduled civil i w hw usable (bound ▸ rfl) limited tame filled
    cases deferred : w.deferred with
    | true => exact (guarded deferred).1
    | false => simpa [deferred] using seen
  · have timed := h.timely.timed i w hw
    have known : b.Live w := fun name own => by
      rw [bound, Option.some.injEq] at own
      exact own ▸ live
    exact Bool.eq_iff_iff.2 ⟨timed.flush, timed.armed known⟩

def rungBy (instant : Nat) (b : Bench) : Bench :=
  match b.time.ring? instant with
  | some (r, time) => ring { b with time } r
  | none => b

theorem Reachable.rungBy (h : Reachable b) (idle : b.running = none) (instant : Nat) :
    Reachable (b.rungBy instant) := by
  unfold Bench.rungBy
  split
  · next due => exact h.move (.ring idle (Timetable.rings_of_ring? due))
  · exact h

def delaying : Bench :=
  (run 5 (flushing [("max_batch_size", .nat 1), ("max_in_flight_requests", .nat 1),
    ("max_buffered_requests", .nat 4), ("max_time_in_buffer_ms", .nat 5)]
    [.nat 1, .nat 2, .nat 3])).rungBy 5000

theorem reachable_delaying : Reachable delaying := by
  refine Reachable.rungBy (.run (reachable_flushing rfl) 5) rfl _

/-- The first batch is in flight and the others wait for its completion. -/
theorem waiting_entries_are_guarded_delaying : ∃ w, delaying.writers[0]? = some w ∧
    w.deferred = true ∧ w.buffer.entries = [.nat 2, .nat 3] ∧ w.hasCapacity = false ∧
    w.timerArmed = !w.deferred ∧ delaying.time.isSet (.writer 0 .flush) = w.timerArmed := by
  obtain ⟨w, hw⟩ : ∃ w, delaying.writers[0]? = some w := ⟨_, rfl⟩
  have known : (delaying.writers[0]?).map (fun w => (w.deferred, w.buffer.entries, w.refusal?,
      w.loop, w.config)) = some (true, [.nat 2, .nat 3], none, some .main,
        { maxBatchSize := .int 1, maxInFlight := .int 1, maxBuffered := .int 4,
          maxTimeInBuffer := some (.int 5) }) := rfl
  rw [hw, Option.map_some, Option.some.injEq, Prod.mk.injEq, Prod.mk.injEq, Prod.mk.injEq,
    Prod.mk.injEq] at known
  obtain ⟨deferred, entries, usable, bound, config⟩ := known
  have civil : delaying.Civil := .of_unscripted rfl
  have tame : w.config.Tame := by
    rw [config]
    refine ⟨rfl, fun limit h => ?_, fun _ h => by cases h⟩
    cases h
    exact ⟨_, rfl⟩
  obtain ⟨full, guarded⟩ := waiting_entries_are_guarded reachable_delaying hw
  obtain ⟨scheduled, set⟩ := guarded civil tame (by rw [config]; rfl) usable .main bound
    (by rw [entries]; simp)
  exact ⟨w, hw, deferred, entries, (full deferred).2.2, scheduled, set rfl⟩

def fickle : Destination where
  name := "sink"
  adapter := .manual
  script := [{ responses := [.raise .cancelled] }]

def uncivil : Bench :=
  ((Scenario.start ⟨[fickle], [], []⟩).create "w"
    { config := [("max_batch_size", .nat 2), ("max_in_flight_requests", .nat 3),
        ("max_buffered_requests", .nat 4), ("max_time_in_buffer_ms", .nat 5)]
      initial := .list [.nat 1, .nat 2, .nat 3],
      destination := "sink" }).2

theorem reachable_uncivil : Reachable uncivil := by
  refine .move (.init _ ?_) (.create "w" _)
  intro d hd
  rw [List.mem_singleton.1 hd]
  exact ⟨rfl, rfl⟩

def stranded : Bench := (run 2 (uncivil.start .main (some "enter") (.enter 0) [])).rungBy 5000

/-- What the destination was not handed is left behind. -/
theorem strands_when_handed_uncivilly : ∃ w, Reachable stranded ∧
    stranded.writers[0]? = some w ∧ w.config.Tame ∧ w.config.maxTimeInBuffer = some (.int 5) ∧
    w.refusal? = none ∧ w.loop = some .main ∧ w.buffer.entries = [.nat 3] ∧
    w.timerArmed = false ∧ w.deferred = false ∧ stranded.time.alarms = [] := by
  have known : uncivil.programOf "enter" (.enter "w") = .ok (.enter 0) := rfl
  have reachable : Reachable stranded :=
    .rungBy (.run (reachable_uncivil.move (.start .main known)) 2) rfl _
  refine ⟨_, reachable, rfl, ⟨rfl, fun limit h => ?_, fun _ h => by cases h⟩, rfl, rfl, rfl, rfl,
    rfl, rfl, rfl⟩
  cases h
  exact ⟨_, rfl⟩

end Bench
end BatchWriter
