import BatchWriter.Proofs.Bench.Timely
import BatchWriter.Proofs.Writer.Ticks

/-!
# When the alarms of a writer ring

The timetable as one writer sees it, and what a change of the bench comes to for one writer
and its alarms.
-/

set_option autoImplicit false

namespace BatchWriter
namespace Bench

open Writer (Ticks Ticking Flushed)

variable {b b' b'' : Bench} {i : Nat} {w : Writer}

def duesOf (b : Bench) (i : Nat) : Dues :=
  fun alarm => (b.time.alarms.filter fun a => a.action = .writer i alarm).map (·.due)

theorem alarmsOf_iff (b : Bench) (i : Nat) (alarm : WriterAlarm) :
    b.alarmsOf i alarm = true ↔ b.duesOf i alarm ≠ [] := by
  simp [alarmsOf, duesOf, Timetable.isSet, List.filter_eq_nil_iff]

/-! What a writer's change does to them. -/

theorem dues_of_alarms (alarms : b'.time.alarms.filter Alarm.isWriters =
    b.time.alarms.filter Alarm.isWriters) (i : Nat) : b'.duesOf i = b.duesOf i := by
  have kept : ∀ c : Bench, c.duesOf i = fun alarm =>
      ((c.time.alarms.filter Alarm.isWriters).filter fun a => a.action = .writer i alarm).map
        (·.due) := by
    intro c
    funext alarm
    rw [duesOf, List.filter_filter]
    congr 1
    refine List.filter_congr fun a _ => ?_
    cases ha : a.action <;> simp [Alarm.isWriters, ha]
  rw [kept, kept, alarms]

theorem dues_cancel {alarm : WriterAlarm} {time : Timetable Ring}
    (alarms : time.alarms = (b.time.cancel (.writer i alarm)).alarms) (j : Nat) :
    duesOf { b with time } j =
      if j = i then Effect.dues b.now (b.duesOf j) (.cancelAlarm alarm) else b.duesOf j := by
  funext other
  have left : duesOf { b with time } j other =
      ((b.time.alarms.filter fun a => a.action = .writer j other ∧ a.action ≠ .writer i alarm).map
        (·.due)) := by
    rw [duesOf]
    dsimp only
    rw [alarms, Timetable.cancel, List.filter_filter]
    simp
  rw [left]
  by_cases same : j = i ∧ other = alarm
  · obtain ⟨rfl, rfl⟩ := same
    simp [Effect.dues]
  · have kept : (b.time.alarms.filter fun a =>
        a.action = .writer j other ∧ a.action ≠ .writer i alarm) =
        b.time.alarms.filter fun a => a.action = .writer j other := by
      refine List.filter_congr fun a _ => ?_
      by_cases own : a.action = .writer j other
      · simp [own, same]
      · simp [own]
    rw [kept]
    split
    · next own => simp [Effect.dues, duesOf, show other ≠ alarm from fun h => same ⟨own, h⟩]
    · rfl

theorem dues_perform (b : Bench) (i j : Nat) (label : String) (e : Effect) :
    (perform i label b e).duesOf j =
      if j = i then e.dues b.now (b.duesOf j) else b.duesOf j := by
  cases e with
  | notice n | measure m => split <;> rfl
  | setAlarm other delay =>
    funext alarm
    by_cases own : j = i
    · subst own
      by_cases same : alarm = other
      · simp [duesOf, perform, Timetable.set, Effect.dues, same, now]
      · simp [duesOf, perform, Timetable.set, Effect.dues, same, Ne.symm same]
    · simp [duesOf, perform, Timetable.set, own, Ne.symm own]
  | cancelAlarm other => exact dues_cancel rfl j
  | wake call =>
    have same : (perform i label b (.wake call)).duesOf j = b.duesOf j := by
      unfold duesOf
      rw [perform, time_wake]
    rw [same]
    split <;> rfl

theorem dues_foldl (i j : Nat) (label : String) (effects : List Effect) (b : Bench) :
    (effects.foldl (perform i label) b).duesOf j =
      if j = i then effects.foldl (Effect.dues b.now) (b.duesOf j) else b.duesOf j := by
  induction effects generalizing b with
  | nil => split <;> rfl
  | cons e rest ih =>
    rw [List.foldl_cons, ih, dues_perform, now_perform]
    split <;> rfl

theorem dues_change (hw : b.writers[i]? = some w) (f : Writer → Change) (j : Nat) :
    (b.change i f).2.duesOf j =
      if j = i then (f w).effects.foldl (Effect.dues b.now) (b.duesOf j) else b.duesOf j := by
  simp only [change, hw]
  exact dues_foldl _ _ _ _ _

theorem dues_closeLoop (b : Bench) (name : LoopName) (i : Nat) (alarm : WriterAlarm) :
    (b.closeLoop name).duesOf i alarm =
      if b.loopOf (.writer i alarm) = name then [] else b.duesOf i alarm := by
  rw [duesOf, Bench.closeLoop, time_setLoop, List.filter_filter]
  split
  · next own =>
    refine List.map_eq_nil_iff.2 (List.filter_eq_nil_iff.2 fun a _ both => ?_)
    simp only [Bool.and_eq_true, decide_eq_true_eq] at both
    exact both.2 (both.1 ▸ own)
  · next other =>
    rw [duesOf]
    congr 1
    refine List.filter_congr fun a _ => ?_
    by_cases same : a.action = .writer i alarm <;> simp [same, other]

/-- An alarm that rings was set, and moves the clock to its instant unless that is past. -/
theorem rung_due {t time : Timetable Ring} {limit : Nat} {r : Ring}
    (due : t.Rings limit r time) : ∃ instant, time.now = max t.now instant ∧
      (∃ a ∈ t.alarms, a.action = r ∧ a.due = some instant) := by
  obtain ⟨instant, -, set, -, rfl⟩ := due
  exact ⟨instant, rfl, _, set, rfl, rfl⟩

theorem mem_dues {alarm : WriterAlarm} {due : Option Nat} {a : Alarm Ring}
    (ha : a ∈ b.time.alarms) (action : a.action = .writer i alarm) (instant : a.due = due) :
    due ∈ b.duesOf i alarm :=
  List.mem_map.2 ⟨a, List.mem_filter.2 ⟨ha, by simp [action]⟩, instant⟩

/-! ## At one instant -/

@[simp] theorem now_dispatch (b : Bench) (i : Nat) (loop : LoopName) :
    (b.dispatch i loop).2.now = b.now := by
  unfold dispatch
  split
  · rfl
  · dsimp only
    split
    · exact now_change _ _ _
    · rw [now_change, (CallActions.submit _ _ _ _ _).now, now_change]

@[simp] theorem now_timedFlush (b : Bench) (i : Nat) (loop : LoopName) :
    (b.timedFlush i loop).2.now = b.now := by
  unfold timedFlush
  dsimp only
  split
  · split <;> simp
  · simp

@[simp] theorem now_deferredFlush (b : Bench) (i : Nat) (loop : LoopName) :
    (b.deferredFlush i loop).2.now = b.now := by
  unfold deferredFlush
  split
  · rfl
  · split <;> simp

theorem now_ring (b : Bench) (r : Ring) : (ring b r).now = b.now := by
  have ends : ∀ r : Option Fault × Bench, (endCallback r).now = r.2.now := fun r => by
    unfold endCallback
    split <;> rfl
  unfold ring
  split
  · rw [ends, bufferAlarm]
    split
    · rfl
    · split <;> simp
  · rw [ends, now_change]
  · split
    · next c hc =>
      split
      · exact (Beside.queue hc rfl _).now
      · rfl
    · rfl

/-- What goes on at one instant comes to ticks for the writer at `i`. -/
def Quietly (i : Nat) (b b' : Bench) : Prop :=
  b'.now = b.now ∧ ∀ w : Writer, b.writers[i]? = some w → ∃ w' : Writer,
    b'.writers[i]? = some w' ∧ Ticks b.now (w, b.duesOf i) (w', b'.duesOf i)

namespace Quietly

theorem of_same (now : b'.now = b.now) (writers : b'.writers[i]? = b.writers[i]?)
    (dues : b'.duesOf i = b.duesOf i) : Quietly i b b' :=
  ⟨now, fun w hw => ⟨w, writers.trans hw, by rw [dues]⟩⟩

theorem refl (b : Bench) : Quietly i b b := of_same rfl rfl rfl

theorem trans (h : Quietly i b b') (h' : Quietly i b' b'') : Quietly i b b'' := by
  refine ⟨h'.1.trans h.1, fun w hw => ?_⟩
  obtain ⟨w', hw', ticks⟩ := h.2 w hw
  obtain ⟨w'', hw'', ticks'⟩ := h'.2 w' hw'
  exact ⟨w'', hw'', ticks.trans (h.1 ▸ ticks')⟩

theorem beside (h : Beside b b') : Quietly i b b' :=
  of_same h.now (by rw [h.writers]) (dues_of_alarms h.alarms i)

theorem change {j : Nat} {f : Writer → Change}
    (own : ∀ w : Writer, b.writers[j]? = some w → j = i → Ticking b.now w (f w)) :
    Quietly i b (b.change j f).2 := by
  cases hu : b.writers[j]? with
  | none => rw [change_of_none hu]; exact refl b
  | some u =>
    have dues := dues_change hu f i
    by_cases same : i = j
    · subst same
      refine ⟨now_change b i f, fun w hw => ⟨_, writer_change hw f, ?_⟩⟩
      rw [hu, Option.some.injEq] at hw
      subst hw
      rw [if_pos rfl] at dues
      exact dues ▸ own u hu rfl _
    · rw [if_neg same] at dues
      exact of_same (now_change b j f) (writer_change_of_ne hu f same) dues

theorem callActions (h : CallActions b b') : Quietly i b b' := by
  induction h with
  | refl => exact refl b
  | tail _ callAction ih =>
    refine ih.trans ?_
    cases callAction with
    | beside h => exact beside h
    | callChange j changes => exact change fun w hw _ => (changes w hw).ticking

theorem thenDo {r : Option Fault × Bench} {next : Bench → Option Fault × Bench}
    (first : Quietly i b r.2) (second : Quietly i r.2 (next r.2).2) :
    Quietly i b (thenDo r next).2 := by
  unfold Bench.thenDo
  split
  · exact first
  · exact first.trans second

theorem dispatched (b : Bench) (j : Nat) (loop : LoopName) :
    Quietly i (b.change j fun w => (w.startDispatch loop b.now).1).2 (b.dispatch j loop).2 := by
  unfold Bench.dispatch
  cases hu : b.writers[j]? with
  | none => rw [change_of_none hu]; exact refl b
  | some u =>
    dsimp only
    split
    · exact refl _
    · refine (callActions (.submit _ _ _ _ _)).trans (change fun w _ _ => ?_)
      rw [(CallActions.submit _ _ _ _ _).now, now_change]
      exact .concludeDispatch _ _ _

theorem dispatch {j : Nat} {loop : LoopName} (own : b.Owned j loop) :
    Quietly i b (b.dispatch j loop).2 := by
  obtain ⟨u, hu, bound⟩ := own
  refine (change fun w hw _ => ?_).trans (dispatched b j loop)
  rw [hu, Option.some.injEq] at hw
  exact .startDispatch (hw ▸ bound)

end Quietly

/-- A timed flush once its batch is taken out of the buffer. -/
theorem quietly_flushed (b : Bench) (j : Nat) (loop : LoopName) :
    Quietly i ((b.change j (·.beginTimedFlush b.now)).2.change j
      fun w => (w.startDispatch loop b.now).1).2 (b.timedFlush j loop).2 := by
  have dispatched := Quietly.dispatched (i := i) (b.change j (·.beginTimedFlush b.now)).2 j loop
  rw [now_change] at dispatched
  unfold timedFlush
  dsimp only
  split
  · split <;> exact dispatched
  · exact dispatched.trans (.change fun w _ _ => .endTimedFlush w)

theorem Quietly.timedFlush {j : Nat} (other : j ≠ i) (loop : LoopName) :
    Quietly i b (b.timedFlush j loop).2 :=
  ((change fun _ _ same => absurd same other).trans
    (change fun _ _ same => absurd same other)).trans
    (quietly_flushed b j loop)

theorem flushed_timedFlush {loop : LoopName} (hw : b.writers[i]? = some w)
    (bound : w.loop = some loop) : ∃ w' : Writer, (b.timedFlush i loop).2.writers[i]? = some w' ∧
      Flushed b.now (w, b.duesOf i) (w', (b.timedFlush i loop).2.duesOf i) := by
  have begun : (b.change i (·.beginTimedFlush b.now)).2.writers[i]? =
      some (w.note b.now .flushed) :=
    writer_change hw _
  have dues : (b.change i (·.beginTimedFlush b.now)).2.duesOf i = b.duesOf i :=
    (dues_change hw _ i).trans (if_pos rfl)
  have started := writer_change begun fun w => (w.startDispatch loop b.now).1
  have dues' := dues_change begun (fun w => (w.startDispatch loop b.now).1) i
  rw [if_pos rfl, dues, now_change] at dues'
  obtain ⟨now, rest⟩ := quietly_flushed (i := i) b i loop
  obtain ⟨w', hw', ticks⟩ := rest _ started
  rw [dues', now_change, now_change] at ticks
  refine ⟨w', hw', ?_, fun usable entries kept taken some => ?_⟩
  · exact (Ticking.startDispatch (w := w.note b.now .flushed) bound _).trans ticks
  · have opening : Writer.OpensFirst b.now (w.note b.now .flushed) entries
        ((w.note b.now .flushed).startDispatch loop b.now).1 :=
      .startDispatch bound usable taken some
    obtain ⟨u, opens, first⟩ := opening (b.duesOf i)
    exact ⟨u, opens, first.trans ticks⟩

/-- The clock never goes back. -/
theorem BenchChange.clock (t : BenchChange b b') : b.now ≤ b'.now := by
  cases t with
  | writerChange h =>
    cases h with
    | beside beside => exact beside.now.ge
    | motion j moves => exact (now_change b j _).ge
  | pass later alarms => exact later
  | @flush limit j time due => exact (rung due).1.trans (now_change { b with time } j _).ge
  | @expire limit j batch time due => exact (rung due).1.trans (now_change { b with time } j _).ge
  | closeLoop name => cases name <;> exact le_rfl
  | create name spec =>
    rcases create_cases b name spec with same | ⟨c, built⟩
    · rw [same]
    · exact built.now.ge
  | work works => exact works.bypasses.now.ge

theorem BenchChange.opened (t : BenchChange b b') {name : LoopName}
    (isOpen : (b'.loop name).closed = false) :
    (b.loop name).closed = false := by
  cases t with
  | writerChange h =>
    cases h with
    | beside beside => rwa [beside.closed] at isOpen
    | motion i moves => rwa [closed_change] at isOpen
  | pass later alarms => cases name <;> exact isOpen
  | flush due | expire due =>
    rw [closed_change] at isOpen
    cases name <;> exact isOpen
  | closeLoop other =>
    rw [Bench.closeLoop, loop_setLoop] at isOpen
    split at isOpen
    · cases isOpen
    · cases name <;> exact isOpen
  | create called spec =>
    rcases create_cases b called spec with same | ⟨c, built⟩
    · rwa [same] at isOpen
    · rw [built.told.loop] at isOpen
      cases name <;> exact isOpen
  | work works => rwa [works.bypasses.closed] at isOpen

theorem BenchChanges.clock (t : BenchChanges b b') : b.now ≤ b'.now := by
  induction t with
  | refl => exact le_rfl
  | tail _ t ih => exact ih.trans t.clock

theorem BenchChanges.opened (t : BenchChanges b b') {name : LoopName}
    (isOpen : (b'.loop name).closed = false) : (b.loop name).closed = false := by
  induction t with
  | refl => exact isOpen
  | tail _ t ih => exact ih (t.opened isOpen)

end Bench
end BatchWriter
