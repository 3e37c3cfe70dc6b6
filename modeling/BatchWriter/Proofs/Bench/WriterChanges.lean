import BatchWriter.Proofs.Bench.Actions

/-!
# Actions taken apart

An action of the bench is made of whole dispatches and plain changes of single writers, and these
of single motions of a writer, with what goes on beside them. A destination that is handed a batch
does nothing to the writers but empty lists of batches, so the writer is as usable at the end of a
dispatch as when the batch was opened.
-/

set_option autoImplicit false

namespace BatchWriter
namespace Writer

structure Opens (w : Writer) (now : Nat) (parcel : Parcel) (u : Writer) : Prop where
  usable : w.refusal? = none
  taken : w.buffer.take w.config.maxBatchSize = .ok (parcel.entries, u.buffer)
  some : parcel.entries ≠ []
  batch : parcel.batch = w.inFlight.issued + 1
  ids : u.inFlight.ids = w.inFlight.ids ++ [parcel.batch]
  limit : u.inFlight.limit = w.inFlight.limit
  same : u = { w with
    buffer := u.buffer
    deferred := w.deferred && !u.buffer.isEmpty
    inFlight := u.inFlight
    history := (now, .opened parcel.batch parcel.entries) :: w.history }

/-- How a dispatch on the writer's own loop begins. If no batch was opened, a usable writer of
tame limits had nothing to dispatch. -/
theorem startDispatch_opens {w : Writer} {loop : LoopName} (bound : w.loop = some loop)
    (now : Nat) : (∃ parcel, (w.startDispatch loop now).2 = some parcel ∧
        (w.startDispatch loop now).1.fault = none ∧
        w.Opens now parcel (w.startDispatch loop now).1.writer) ∨
      (w.startDispatch loop now).2 = none ∧ (w.refusal? = none → w.config.Tame →
        (w.startDispatch loop now).1 =
          .stay { w with deferred := w.deferred && !w.buffer.isEmpty }) := by
  unfold startDispatch
  split
  · next refused =>
    exact .inr ⟨rfl, fun usable => by rw [refused] at usable; cases usable⟩
  · next usable =>
    split
    · next untaken =>
      refine .inr ⟨rfl, fun _ tame => ?_⟩
      obtain ⟨taken, ht⟩ := w.buffer.take_ok tame.size
      rw [ht] at untaken
      cases untaken
    · next entries rest taken =>
      dsimp only
      split
      · next empty =>
        refine .inr ⟨rfl, fun _ _ => ?_⟩
        obtain ⟨whole, capacity⟩ := Buffer.append_of_take taken
        rw [List.isEmpty_iff.1 empty, List.nil_append] at whole
        have same : rest = w.buffer := by
          cases rest
          cases hb : w.buffer
          simp_all
        rw [same]
      · next filled =>
        rw [bind_of_bound (by exact bound), stay_andThen]
        split
        · next ok =>
          refine .inl ⟨_, rfl, Option.isNone_iff_eq_none.1 ok, ?_⟩
          have opened := justOpened_openBatch
            { w with buffer := rest, deferred := w.deferred && !rest.isEmpty } now entries
          have later := (regular_openBatch
            { w with buffer := rest, deferred := w.deferred && !rest.isEmpty } now entries).later
          obtain ⟨inFlight, writer⟩ := writer_openBatch
            { w with buffer := rest, deferred := w.deferred && !rest.isEmpty } now entries
          rw [writer] at opened later ⊢
          exact ⟨usable, taken, by simpa using filled, rfl, opened.ids, later.limit, rfl⟩
        · next fails =>
          refine .inr ⟨rfl, fun _ tame => absurd ?_ fails⟩
          rw [fault_openBatch (by exact tame)]
          rfl

end Writer

namespace Bench

open Writer (CallChange PlainChange Motion)

variable {b b' b'' : Bench} {i : Nat} {w : Writer} {loop : LoopName}

structure Empties (b b' : Bench) : Prop where
  length : b'.writers.length = b.writers.length
  each : ∀ (i : Nat) (w : Writer), b.writers[i]? = some w → ∃ inFlight : InFlight Value,
    b'.writers[i]? = some { w with inFlight } ∧ inFlight.ids = w.inFlight.ids ∧
      inFlight.limit = w.inFlight.limit

theorem length_change (b : Bench) (i : Nat) (f : Writer → Change) :
    (b.change i f).2.writers.length = b.writers.length := by
  cases hw : b.writers[i]? with
  | none => rw [change_of_none hw]
  | some w => rw [writers_change hw, List.length_set]

namespace Empties

theorem of_writers (h : b'.writers = b.writers) : Empties b b' :=
  ⟨by rw [h], fun _ w hw => ⟨w.inFlight, by rw [h, hw], rfl, rfl⟩⟩

theorem trans (h : Empties b b') (h' : Empties b' b'') : Empties b b'' := by
  refine ⟨h'.length.trans h.length, fun i w hw => ?_⟩
  obtain ⟨inFlight, hw', ids, limit⟩ := h.each i w hw
  obtain ⟨inFlight', hw'', ids', limit'⟩ := h'.each i _ hw'
  exact ⟨inFlight', hw'', ids'.trans ids, limit'.trans limit⟩

theorem emptyBatch (b : Bench) (i batch : Nat) :
    Empties b (b.change i (·.emptyBatch batch)).2 := by
  refine ⟨length_change _ _ _, fun j u hu => ?_⟩
  cases hw : b.writers[i]? with
  | none => rw [change_of_none hw]; exact ⟨u.inFlight, hu, rfl, rfl⟩
  | some w =>
    by_cases same : j = i
    · subst same
      rw [hw, Option.some.injEq] at hu
      subst hu
      exact ⟨_, writer_change hw _,
        InFlight.ids_update batch (fun r => { r with entries := [] }) fun _ => rfl, rfl⟩
    · exact ⟨u.inFlight, by rw [writer_change_of_ne hw _ same, hu], rfl, rfl⟩

theorem clearEntries (b : Bench) (destination call : Nat) (handle : Handle) :
    Empties b (b.clearEntries destination call handle) := by
  unfold Bench.clearEntries
  dsimp only
  split
  · refine trans (of_writers ?_) (emptyBatch _ _ _)
    split <;> rfl
  · refine of_writers ?_
    split <;> rfl

theorem respond (destination call : Nat) (handle : Handle) (responses : List Response)
    (b : Bench) : Empties b (respond destination call handle responses b).2 := by
  induction responses generalizing b with
  | nil => exact of_writers rfl
  | cons response rest ih =>
    cases response with
    | complete places =>
      rw [Bench.respond]
      split
      · exact of_writers rfl
      · exact (of_writers (writers_tellHandle _ _ _)).trans (ih _)
    | fail fault => exact (of_writers (writers_tellHandle _ _ _)).trans (ih _)
    | raise fault => exact of_writers rfl
    | clear => exact (clearEntries _ _ _ _).trans (ih _)

theorem submit (b : Bench) (destination : Nat) (loop : Option LoopName) (entries : List Value)
    (handle : Handle) : Empties b (b.submit destination loop entries handle).2 := by
  unfold Bench.submit
  split
  · exact of_writers rfl
  · split
    · have reached : ∀ d : Destination, Empties b (b.reach destination d entries) :=
        fun _ => of_writers rfl
      exact (reached _).trans (respond _ _ _ _ _)
    · exact of_writers rfl
    · exact of_writers (writers_setLoop _ _ _)
    · split <;> exact of_writers rfl

end Empties

/-- A dispatch on the writer's loop taken apart: nothing is handed over, or a batch is opened,
the destination is called with it, and the writer learns what came of that. -/
theorem dispatch_parts (hw : b.writers[i]? = some w) (bound : w.loop = some loop) :
    (b.dispatch i loop = b.change i (fun w => (w.startDispatch loop b.now).1) ∧
        (w.startDispatch loop b.now).2 = none ∧
        (w.refusal? = none → w.config.Tame → (w.startDispatch loop b.now).1 =
          .stay { w with deferred := w.deferred && !w.buffer.isEmpty })) ∨
      ∃ (parcel : Writer.Parcel) (u : Writer) (inFlight : InFlight Value)
        (r : Option Fault × Bench),
        (w.startDispatch loop b.now).2 = some parcel ∧ w.Opens b.now parcel u ∧
          inFlight.ids = u.inFlight.ids ∧ inFlight.limit = u.inFlight.limit ∧
        r = (b.change i fun w => (w.startDispatch loop b.now).1).2.submit w.destination (some loop)
          parcel.entries (.batch i loop parcel.batch) ∧
        r.2.writers[i]? = some { u with inFlight } ∧
        b.dispatch i loop = r.2.change i (·.concludeDispatch b.now parcel r.1) := by
  unfold dispatch
  simp only [hw]
  rcases Writer.startDispatch_opens bound b.now with ⟨parcel, some, -, opens⟩ | ⟨none, idle⟩
  · simp only [some]
    have empties := Empties.submit (b.change i fun w => (w.startDispatch loop b.now).1).2
      w.destination (Option.some loop) parcel.entries (.batch i loop parcel.batch)
    obtain ⟨inFlight, hu, ids, limit⟩ := empties.each i _ (writer_change hw _)
    exact .inr ⟨parcel, _, inFlight, _, rfl, opens, ids, limit, rfl, hu, rfl⟩
  · simp only [none]
    exact .inl ⟨trivial, trivial, idle⟩

inductive WriterAction (b : Bench) : Bench → Prop where
  | beside {b' : Bench} (h : Beside b b') : WriterAction b b'
  | plainChange (i : Nat) {f : Writer → Change}
      (plain : ∀ w : Writer, b.writers[i]? = some w → PlainChange b.now w (f w)) :
      WriterAction b (b.change i f).2
  | dispatch {i : Nat} {loop : LoopName} (own : b.Owned i loop) :
      WriterAction b (b.dispatch i loop).2

inductive WriterChange (b : Bench) : Bench → Prop where
  | beside {b' : Bench} (h : Beside b b') : WriterChange b b'
  | motion (i : Nat) {f : Writer → Change}
      (moves : ∀ w : Writer, b.writers[i]? = some w → Motion b.now w (f w)) :
      WriterChange b (b.change i f).2

/-- A change of one writer, or what comes from outside the loops: an alarm rings, the clock moves,
a loop is closed, a writer is built or a job goes on. -/
inductive BenchChange (b : Bench) : Bench → Prop where
  | writerChange {b' : Bench} (h : WriterChange b b') : BenchChange b b'
  | pass {time : Timetable Ring} (later : b.time.now ≤ time.now)
      (alarms : time.alarms.filter Alarm.isWriters = b.time.alarms.filter Alarm.isWriters) :
      BenchChange b { b with time }
  | flush {limit i : Nat} {time : Timetable Ring}
      (due : b.time.Rings limit (.writer i .flush) time) :
      BenchChange b (change { b with time } i (·.bufferTimeOver.1)).2
  | expire {limit i batch : Nat} {time : Timetable Ring}
      (due : b.time.Rings limit (.writer i (.expire batch)) time) :
      BenchChange b (change { b with time } i (·.expire time.now batch)).2
  | closeLoop (name : LoopName) : BenchChange b (b.closeLoop name)
  | create (name : String) (spec : WriterSpec) : BenchChange b (b.create name spec).2
  | work {b' : Bench} (works : b.Works b') : BenchChange b b'

abbrev WriterActions : Bench → Bench → Prop := Relation.ReflTransGen WriterAction

abbrev WriterChanges : Bench → Bench → Prop := Relation.ReflTransGen WriterChange

abbrev BenchChanges : Bench → Bench → Prop := Relation.ReflTransGen BenchChange

/-- What a writer's change leaves as it is: the loop that a writer is bound to. -/
theorem owned_change {j : Nat} (own : b.Owned i loop) {f : Writer → Change}
    (later : ∀ w : Writer, w.Later (f w).writer) : (b.change j f).2.Owned i loop := by
  cases hw : b.writers[j]? with
  | none => rwa [change_of_none hw]
  | some w => exact (extends_change hw (later w)).owned i loop own

namespace WriterActions

theorem plainChange (i : Nat) {f : Writer → Change}
    (plain : ∀ w : Writer, PlainChange b.now w (f w)) :
    WriterActions b (b.change i f).2 :=
  .single (.plainChange i fun w _ => plain w)

theorem callActions (h : CallActions b b') : WriterActions b b' := by
  refine Relation.ReflTransGen.mono (fun _ _ callAction => ?_) _ _ h
  cases callAction with
  | beside h => exact .beside h
  | callChange i changes => exact .plainChange i fun w hw => .callChange (changes w hw)

theorem timedFlush (own : b.Owned i loop) : WriterActions b (b.timedFlush i loop).2 := by
  have begun : WriterActions b (b.change i (·.beginTimedFlush b.now)).2 :=
    plainChange i fun _ => .beginTimedFlush
  have flushed := begun.tail
    (.dispatch (owned_change own fun w => (w.regular_beginTimedFlush b.now).later))
  unfold Bench.timedFlush
  dsimp only
  split
  · split <;> exact flushed
  · exact flushed.trans (plainChange i fun _ => .endTimedFlush)

theorem deferredFlush (own : b.Owned i loop) : WriterActions b (b.deferredFlush i loop).2 := by
  unfold Bench.deferredFlush
  split
  · exact .refl
  · split
    · have begun : WriterActions b (b.change i (·.beginDeferredFlush)).2 :=
        plainChange i fun _ => .beginDeferredFlush
      exact begun.trans (timedFlush (owned_change own fun w => w.regular_beginDeferredFlush.later))
    · exact .refl

theorem thenDo {r : Option Fault × Bench} {next : Bench → Option Fault × Bench}
    (first : WriterActions b r.2) (second : WriterActions r.2 (next r.2).2) :
    WriterActions b (thenDo r next).2 := by
  unfold Bench.thenDo
  split
  · exact first
  · exact first.trans second

theorem receive (own : b.Owned i loop) (batch : Nat) (report : Report) :
    WriterActions b (b.receive loop i batch report).2 := by
  cases report with
  | failed fault => exact plainChange i fun _ => .reportFailed _ _
  | completed failed =>
    rw [Bench.receive]
    split
    · exact .refl
    · split
      · exact .single (.beside (.log _ _))
      · have completed : WriterActions b (b.change i (·.complete b.now batch failed)).2 :=
          plainChange i fun _ => .complete _ _
        refine thenDo (thenDo completed (deferredFlush ?_)) (plainChange i fun _ => .endCompletion)
        exact owned_change own fun w => (w.regular_complete b.now batch failed).later

/-- What the buffer's alarm brings about once the writer has heard it. -/
theorem bufferAlarm (own : ∃ name, b.Owned i name) :
    WriterActions (b.change i (·.bufferTimeOver.1)).2 (b.bufferAlarm i).2 := by
  obtain ⟨name, w, hw, bound⟩ := own
  unfold Bench.bufferAlarm
  simp only [hw]
  split
  · rw [bound]
    exact timedFlush (owned_change ⟨w, hw, bound⟩ fun w => w.regular_bufferTimeOver.later)
  · exact .refl

end WriterActions

theorem WriterChanges.callActions (h : CallActions b b') : WriterChanges b b' := by
  refine Relation.ReflTransGen.mono (fun _ _ callAction => ?_) _ _ h
  cases callAction with
  | beside h => exact .beside h
  | callChange i changes => exact .motion i fun w hw => .plainChange (.callChange (changes w hw))

theorem WriterChanges.dispatch (own : b.Owned i loop) : WriterChanges b (b.dispatch i loop).2 := by
  obtain ⟨w, hw, bound⟩ := own
  have start : WriterChanges b (b.change i fun w => (w.startDispatch loop b.now).1).2 := by
    refine .single (.motion i fun u hu => .startDispatch ?_)
    rw [hw, Option.some.injEq] at hu
    exact hu ▸ bound
  rcases dispatch_parts hw bound with
    ⟨same, -⟩ | ⟨parcel, u, inFlight, r, -, opens, -, -, rfl, hu, same⟩
  · rw [same]
    exact start
  · rw [same]
    have handed := CallActions.submit (b.change i fun w => (w.startDispatch loop b.now).1).2
      w.destination (some loop) parcel.entries (.batch i loop parcel.batch)
    refine (start.trans (callActions handed)).tail (.motion i fun v hv => ?_)
    rw [hu, Option.some.injEq] at hv
    subst hv
    rw [handed.now, now_change]
    refine .concludeDispatch _ _ ?_ ?_
    · rw [opens.same]; exact opens.usable
    · rw [opens.same]; exact bound ▸ rfl

theorem WriterActions.writerChanges (h : WriterActions b b') : WriterChanges b b' := by
  induction h with
  | refl => exact .refl
  | tail _ writerAction ih =>
    refine ih.trans ?_
    cases writerAction with
    | beside h => exact .single (.beside h)
    | plainChange i plain => exact .single (.motion i fun w hw => .plainChange (plain w hw))
    | dispatch own => exact WriterChanges.dispatch own

theorem BenchChanges.writerChanges (h : WriterChanges b b') : BenchChanges b b' :=
  Relation.ReflTransGen.mono (fun _ _ writerChange => .writerChange writerChange) _ _ h

theorem LoopAction.writerActions {sends : Nat → Prop} (h : LoopAction sends b b') :
    WriterActions b b' := by
  cases h with
  | callAction h => exact .callActions (.single h)
  | dispatch turn hw bound room => exact .single (.dispatch ⟨_, hw, bound⟩)
  | receive own batch report => exact .receive own batch report

theorem BenchAction.benchChanges {sends : Nat → Prop} (h : BenchAction sends b b') :
    BenchChanges b b' := by
  cases h with
  | loopAction h => exact .writerChanges h.writerActions.writerChanges
  | pass later alarms => exact .single (.pass later alarms)
  | @flush limit i time due own =>
    have rung : BenchChanges b (change { b with time } i (·.bufferTimeOver.1)).2 :=
      .single (.flush due)
    exact rung.trans (BenchChanges.writerChanges
      (WriterActions.bufferAlarm (b := { b with time }) own).writerChanges)
  | expire due => exact .single (.expire due)
  | closeLoop name => exact .single (.closeLoop name)
  | create name spec => exact .single (.create name spec)
  | work works => exact .single (.work works)

theorem BenchActions.benchChanges {sends : Nat → Prop} (h : BenchActions sends b b') :
    BenchChanges b b' := by
  induction h with
  | refl => exact .refl
  | tail _ benchAction ih => exact ih.trans benchAction.benchChanges

/-! ## Other writers -/

structure Elsewhere (i : Nat) (b b' : Bench) : Prop where
  length : b'.writers.length = b.writers.length
  each : ∀ (j : Nat) (u : Writer), j ≠ i → b.writers[j]? = some u → ∃ inFlight : InFlight Value,
    b'.writers[j]? = some { u with inFlight } ∧ inFlight.ids = u.inFlight.ids ∧
      inFlight.limit = u.inFlight.limit

namespace Elsewhere

theorem of_empties (h : Empties b b') : Elsewhere i b b' :=
    ⟨h.length, fun j u _ hu => h.each j u hu⟩

theorem refl (b : Bench) : Elsewhere i b b := of_empties (.of_writers rfl)

theorem trans (h : Elsewhere i b b') (h' : Elsewhere i b' b'') : Elsewhere i b b'' := by
  refine ⟨h'.length.trans h.length, fun j u other hu => ?_⟩
  obtain ⟨inFlight, hu', ids, limit⟩ := h.each j u other hu
  obtain ⟨inFlight', hu'', ids', limit'⟩ := h'.each j _ other hu'
  exact ⟨inFlight', hu'', ids'.trans ids, limit'.trans limit⟩

theorem before (h : Elsewhere i b b') {j : Nat} {u' : Writer} (other : j ≠ i)
    (hu' : b'.writers[j]? = some u') : ∃ (u : Writer) (inFlight : InFlight Value),
      b.writers[j]? = some u ∧ u' = { u with inFlight } ∧ inFlight.ids = u.inFlight.ids ∧
        inFlight.limit = u.inFlight.limit := by
  have known := (List.getElem?_eq_some_iff.1 hu').1
  rw [h.length] at known
  obtain ⟨inFlight, same, rest⟩ := h.each j _ other (List.getElem?_eq_getElem known)
  rw [hu', Option.some.injEq] at same
  exact ⟨_, inFlight, List.getElem?_eq_getElem known, same, rest⟩

theorem change (b : Bench) (i : Nat) (f : Writer → Change) : Elsewhere i b (b.change i f).2 := by
  refine ⟨length_change _ _ _, fun j u other hu => ?_⟩
  cases hw : b.writers[i]? with
  | none => rw [change_of_none hw]; exact ⟨_, hu, rfl, rfl⟩
  | some w => exact ⟨_, (writer_change_of_ne hw f other).trans hu, rfl, rfl⟩

theorem dispatch (b : Bench) (i : Nat) (loop : LoopName) : Elsewhere i b (b.dispatch i loop).2 := by
  unfold Bench.dispatch
  split
  · exact refl b
  · dsimp only
    split
    · exact change _ _ _
    · exact ((change _ _ _).trans (of_empties (.submit _ _ _ _ _))).trans (change _ _ _)

theorem timedFlush (b : Bench) (i : Nat) (loop : LoopName) :
    Elsewhere i b (b.timedFlush i loop).2 := by
  have dispatched := (change b i (·.beginTimedFlush b.now)).trans (dispatch _ i loop)
  unfold Bench.timedFlush
  dsimp only
  split
  · split <;> exact dispatched
  · exact dispatched.trans (change _ _ _)

theorem deferredFlush (b : Bench) (i : Nat) (loop : LoopName) :
    Elsewhere i b (b.deferredFlush i loop).2 := by
  unfold Bench.deferredFlush
  split
  · exact refl b
  · split
    · exact (change _ _ _).trans (timedFlush _ _ _)
    · exact refl b

theorem thenDo {r : Option Fault × Bench} {next : Bench → Option Fault × Bench}
    (first : Elsewhere i b r.2) (second : Elsewhere i r.2 (next r.2).2) :
    Elsewhere i b (thenDo r next).2 := by
  unfold Bench.thenDo
  split
  · exact first
  · exact first.trans second

theorem receive (b : Bench) (loop : LoopName) (i batch : Nat) (report : Report) :
    Elsewhere i b (b.receive loop i batch report).2 := by
  cases report with
  | failed fault => exact change _ _ _
  | completed failed =>
    rw [Bench.receive]
    split
    · exact refl b
    · split
      · exact of_empties (.of_writers rfl)
      · exact thenDo (thenDo (change _ _ _) (deferredFlush _ _ _)) (change _ _ _)

theorem bufferAlarm (b : Bench) (i : Nat) : Elsewhere i b (b.bufferAlarm i).2 := by
  unfold Bench.bufferAlarm
  split
  · exact refl b
  · dsimp only
    split
    · exact (change _ _ _).trans (timedFlush _ _ _)
    · exact change _ _ _

end Elsewhere

end Bench
end BatchWriter
