import BatchWriter.Proofs.Bench.WriterChanges
import BatchWriter.Proofs.Writer.Alarms
import BatchWriter.Proofs.Writer.Terminal

/-!
# Timely benches

In every state of a run the timetable holds the alarms that the writers know of and no others,
and a closed or failed writer is done with its calls, its batches and its alarms.
-/

set_option autoImplicit false

namespace BatchWriter
namespace Bench

open Writer (Motion Timed Times Ceases)

variable {b b' b'' : Bench} {i : Nat} {w : Writer} {f : Writer → Change}

def alarmsOf (b : Bench) (i : Nat) (alarm : WriterAlarm) : Bool := b.time.isSet (.writer i alarm)

def Live (b : Bench) (w : Writer) : Prop :=
    ∀ name, w.loop = some name → (b.loop name).closed = false

/-- The timetable is what the writers think it is. -/
structure Timely (b : Bench) : Prop where
  sealed : ∀ (i : Nat) (w : Writer), b.writers[i]? = some w → w.Sealed
  timed : ∀ (i : Nat) (w : Writer), b.writers[i]? = some w → w.Timed (b.Live w) (b.alarmsOf i)
  unset : ∀ i, b.writers[i]? = none → ∀ alarm, b.alarmsOf i alarm = false

/-! What a writer's change does to the timetable and to the loops. -/

theorem alarms_perform (b : Bench) (i j : Nat) (label : String) (e : Effect) :
    (perform i label b e).alarmsOf j =
      if j = i then e.alarms (b.alarmsOf j) else b.alarmsOf j := by
  funext alarm
  cases e with
  | notice n | measure m => split <;> rfl
  | setAlarm other delay =>
    rw [alarmsOf, perform, Timetable.isSet_set]
    by_cases same : j = i
    · subst same
      simp [Effect.alarms, alarmsOf]
    · simp [same, Ne.symm same, alarmsOf]
  | cancelAlarm other =>
    rw [alarmsOf, perform]
    by_cases same : Ring.writer j alarm = .writer i other
    · cases same
      simp [Timetable.isSet_cancel_self, Effect.alarms]
    · rw [Timetable.isSet_cancel_of_ne _ same]
      simp only [Ring.writer.injEq, not_and] at same
      split
      · next own => simp [Effect.alarms, alarmsOf, same own]
      · rfl
  | wake call =>
    rw [alarmsOf, perform, time_wake]
    split <;> rfl

theorem alarms_foldl (i j : Nat) (label : String) (effects : List Effect) (b : Bench) :
    (effects.foldl (perform i label) b).alarmsOf j =
      if j = i then effects.foldl Effect.alarms (b.alarmsOf j) else b.alarmsOf j := by
  induction effects generalizing b with
  | nil => split <;> rfl
  | cons e rest ih =>
    rw [List.foldl_cons, ih, alarms_perform]
    split <;> rfl

theorem closed_perform (b : Bench) (i : Nat) (label : String) (e : Effect) (name : LoopName) :
    ((perform i label b e).loop name).closed = (b.loop name).closed := by
  cases e with
  | wake call =>
    unfold perform wake
    dsimp only
    split
    · next c hc =>
      split
      · exact (Beside.queue hc rfl false).closed name
      · rfl
    · rfl
  | _ => cases name <;> rfl

theorem closed_foldl (i : Nat) (label : String) (effects : List Effect) (b : Bench)
    (name : LoopName) : ((effects.foldl (perform i label) b).loop name).closed =
      (b.loop name).closed := by
  induction effects generalizing b with
  | nil => rfl
  | cons e rest ih => rw [List.foldl_cons, ih, closed_perform]

theorem alarms_change (hw : b.writers[i]? = some w) (f : Writer → Change) (j : Nat) :
    (b.change i f).2.alarmsOf j =
      if j = i then (f w).effects.foldl Effect.alarms (b.alarmsOf j) else b.alarmsOf j := by
  simp only [change, hw]
  exact alarms_foldl _ _ _ _ _

theorem closed_change (b : Bench) (i : Nat) (f : Writer → Change) (name : LoopName) :
    ((b.change i f).2.loop name).closed = (b.loop name).closed := by
  unfold change
  split
  · rfl
  · rw [closed_foldl]
    cases name <;> rfl

/-! Every change keeps a bench timely. -/

theorem Timely.of_same (h : Timely b) (writers : b'.writers = b.writers)
    (alarms : ∀ i alarm, b'.alarmsOf i alarm = b.alarmsOf i alarm)
    (closed : ∀ name, (b'.loop name).closed = (b.loop name).closed) : Timely b' where
  sealed i w hw := h.sealed i w (writers ▸ hw)
  timed i w hw := by
    have timed := h.timed i w (writers ▸ hw)
    refine ⟨fun hs => timed.flush (by rwa [← alarms]), fun live armed => ?_, fun n hn => ?_⟩
    · rw [alarms]
      exact timed.armed (fun name bound => by rw [← closed]; exact live name bound) armed
    · exact timed.expire n (by rwa [← alarms])
  unset i hi alarm := by rw [alarms]; exact h.unset i (writers ▸ hi) alarm

/-- A change that is right for a writer's alarms is right for the timetable, also when one of
the writer's alarms has just rung. -/
theorem Timely.change {b₀ : Bench} (h : Timely b₀) (writers : b.writers = b₀.writers)
    (others : ∀ j, j ≠ i → b.alarmsOf j = b₀.alarmsOf j)
    (closed : ∀ name, (b.loop name).closed = (b₀.loop name).closed) (hw : b.writers[i]? = some w)
    (sealed : w.Sealed → (f w).writer.Sealed) (later : w.Later (f w).writer)
    (timed : ∀ live, w.Timed live (b₀.alarmsOf i) →
      (f w).writer.Timed live ((f w).effects.foldl Effect.alarms (b.alarmsOf i))) :
    Timely (b.change i f).2 := by
  have live : ∀ u v : Writer, u.Later v → (b.change i f).2.Live v → b₀.Live u :=
    fun u v later live name bound => by
      rw [← closed, ← closed_change b i f]
      exact live name (later.loop name bound)
  refine ⟨fun j u hu => ?_, fun j u hu => ?_, fun j hj alarm => ?_⟩
  · by_cases own : j = i
    · subst own
      rw [writer_change hw, Option.some.injEq] at hu
      exact hu ▸ sealed (h.sealed j w (writers ▸ hw))
    · rw [writer_change_of_ne hw f own, writers] at hu
      exact h.sealed j u hu
  · rw [alarms_change hw]
    by_cases own : j = i
    · subst own
      rw [writer_change hw, Option.some.injEq] at hu
      subst hu
      rw [if_pos rfl]
      have known := h.timed j w (writers ▸ hw)
      exact timed _ ⟨known.flush, fun on => known.armed (live _ _ later on), known.expire⟩
    · rw [writer_change_of_ne hw f own, writers] at hu
      rw [if_neg own, others j own]
      have known := h.timed j u hu
      exact ⟨known.flush, fun on => known.armed (live _ _ (.refl u) on), known.expire⟩
  · have unknown : j ≠ i := by
      rintro rfl
      rw [writer_change hw] at hj
      cases hj
    rw [writer_change_of_ne hw f unknown, writers] at hj
    rw [alarms_change hw, if_neg unknown, others j unknown]
    exact h.unset j hj alarm

/-- An alarm that rings is no longer set, and belongs to a writer that there is. -/
theorem alarms_rung {limit : Nat} {time : Timetable Ring} {alarm : WriterAlarm}
    (due : b.time.Rings limit (.writer i alarm) time) (j : Nat) :
    alarmsOf { b with time } j =
      if j = i then fun a => b.alarmsOf j a && decide (a ≠ alarm) else b.alarmsOf j := by
  obtain ⟨-, alarms, -⟩ := rung due
  funext a
  have set : ∀ r : Ring, time.isSet r = (b.time.cancel (.writer i alarm)).isSet r := fun r => by
    rw [Timetable.isSet, Timetable.isSet, alarms]
  rw [alarmsOf, set]
  by_cases same : Ring.writer j a = .writer i alarm
  · cases same
    simp [Timetable.isSet_cancel_self]
  · rw [Timetable.isSet_cancel_of_ne _ same]
    simp only [Ring.writer.injEq, not_and] at same
    split
    · next own => simp [same own, alarmsOf]
    · rfl

theorem Timely.known {limit : Nat} {time : Timetable Ring} {alarm : WriterAlarm} (h : Timely b)
    (due : b.time.Rings limit (.writer i alarm) time) :
    ∃ w : Writer, b.writers[i]? = some w := by
  obtain ⟨-, -, a, ha, action⟩ := rung due
  have set : b.alarmsOf i alarm = true := List.any_eq_true.2 ⟨a, ha, by simp [action]⟩
  refine Option.ne_none_iff_exists'.1 fun none => ?_
  rw [h.unset i none] at set
  cases set

theorem Timely.closeLoop (h : Timely b) (name : LoopName) : Timely (b.closeLoop name) := by
  have writers : (b.closeLoop name).writers = b.writers := writers_setLoop _ _ _
  have fewer : ∀ i alarm, (b.closeLoop name).alarmsOf i alarm = true →
    b.alarmsOf i alarm = true := by
    intro i alarm hs
    rw [alarmsOf, Bench.closeLoop, time_setLoop] at hs
    obtain ⟨a, ha, action⟩ := List.any_eq_true.1 hs
    exact List.any_eq_true.2 ⟨a, List.mem_of_mem_filter ha, action⟩
  refine ⟨fun i w hw => h.sealed i w (writers ▸ hw), fun i w hw => ?_, fun i hi alarm => ?_⟩
  · rw [writers] at hw
    have timed := h.timed i w hw
    refine ⟨fun hs => timed.flush (fewer _ _ hs), fun live armed => ?_, fun n hn =>
      timed.expire n (fewer _ _ hn)⟩
    -- The alarm is kept: its writer is bound to a loop that is open, hence another one.
    obtain ⟨own, bound⟩ := Option.isSome_iff_exists.1 ((h.sealed i w hw).bound (.inr (.inr armed)))
    have another : own ≠ name := by
      rintro rfl
      have isOpen := live own bound
      rw [Bench.closeLoop, loop_setLoop, if_pos rfl] at isOpen
      cases isOpen
    have before : b.Live w := fun name' bound' => by
      have isOpen := live name' bound'
      rw [bound, Option.some.injEq] at bound'
      rw [Bench.closeLoop, loop_setLoop, if_neg (bound' ▸ another)] at isOpen
      cases name' <;> exact isOpen
    obtain ⟨a, ha, action⟩ := List.any_eq_true.1 (timed.armed before armed)
    rw [alarmsOf, Bench.closeLoop, time_setLoop]
    refine List.any_eq_true.2 ⟨a, List.mem_filter.2 ⟨ha, ?_⟩, action⟩
    simp only [decide_eq_true_eq] at action
    simp [action, loopOf, hw, bound, another]
  · rw [writers] at hi
    by_contra set
    have was := fewer i alarm (by simpa using set)
    rw [h.unset i hi] at was
    cases was

theorem Built.idle {name : String} {c : Change} (h : Built b name c b') : c.writer.Idle := by
  obtain ⟨_, _, _, _, _, _, -, restored⟩ := h.restored
  exact Writer.idle_of_restore restored

theorem Timely.create (h : Timely b) (name : String) (spec : WriterSpec) :
    Timely (b.create name spec).2 := by
  rcases create_cases b name spec with same | ⟨c, built⟩
  · rwa [same]
  · have idle := built.idle
    have told := built.told
    refine Timely.of_same (b := b.withNew name c.writer) ⟨fun i w hw => ?_, fun i w hw => ?_,
      fun i hi alarm => ?_⟩ told.writers (fun i alarm => by rw [alarmsOf, told.time]; rfl)
      fun other => by rw [told.loop]
    · rcases writer_withNew hw with hw | rfl
      · exact h.sealed i w hw
      · exact idle.sealed
    · cases hb : b.writers[i]? with
      | some u =>
        have kept := (writer_kept hb name c.writer).symm.trans hw
        rw [Option.some.injEq] at kept
        subst kept
        have timed := h.timed i u hb
        refine ⟨timed.flush, fun live => timed.armed fun other bound => ?_, timed.expire⟩
        have isOpen := live other bound
        cases other <;> exact isOpen
      | none =>
        have unset : ∀ alarm, (b.withNew name c.writer).alarmsOf i alarm = false := h.unset i hb
        rcases writer_withNew hw with hw | rfl
        · rw [hb] at hw
          cases hw
        · exact ⟨fun hs => absurd hs (by simp [unset]), fun _ armed =>
            absurd armed (by simp [idle.timer]),
            fun n hn => absurd hn (by simp [unset])⟩
    · refine h.unset i ?_ alarm
      cases hb : b.writers[i]? with
      | none => rfl
      | some u => rw [writer_kept hb] at hi; cases hi

theorem BenchChange.timely (t : BenchChange b b') (h : Timely b) : Timely b' := by
  cases t with
  | writerChange writerChange =>
    cases writerChange with
    | beside beside =>
      exact h.of_same beside.writers (fun i alarm => beside.isSet i alarm) beside.closed
    | motion i moves =>
      cases hw : b.writers[i]? with
      | none => rwa [change_of_none hw]
      | some w =>
        have motion := moves w hw
        exact h.change rfl (fun _ _ => rfl) (fun _ => rfl) hw motion.sealed motion.ceases.later
          fun live timed => motion.times live _ timed
  | pass later alarms =>
    exact h.of_same rfl (fun i alarm => isSet_of_alarms alarms i alarm) fun name => by
      cases name <;> rfl
  | @flush limit i time due =>
    obtain ⟨w, hw⟩ := h.known due
    refine Timely.change h rfl (fun j other => ?_) (fun name => by cases name <;> rfl)
      (b := { b with time }) hw (·.bufferTimeOver) (Writer.Ceases.bufferTimeOver w).later
      fun live timed => ?_
    · rw [alarms_rung due, if_neg other]
    · rw [alarms_rung due, if_pos rfl]
      exact timed.bufferTimeOver
  | @expire limit i batch time due =>
    obtain ⟨w, hw⟩ := h.known due
    refine Timely.change h rfl (fun j other => ?_) (fun name => by cases name <;> rfl)
      (b := { b with time }) hw (·.expire _ _)
        (Writer.Ceases.expire w _ _).later fun live timed => ?_
    · rw [alarms_rung due, if_neg other]
    · rw [alarms_rung due, if_pos rfl]
      refine Times.expire w _ _ live _ ⟨fun hs => timed.flush ?_, fun on armed => ?_, fun n hn =>
        timed.expire n ?_⟩
      · simpa using hs
      · simpa using timed.armed on armed
      · simp only [Bool.and_eq_true] at hn
        exact hn.1
  | closeLoop name => exact h.closeLoop name
  | create name spec => exact h.create name spec
  | work works =>
    have bypasses := works.bypasses
    exact h.of_same bypasses.writers (fun i alarm => bypasses.isSet i alarm) bypasses.closed

theorem BenchChanges.timely (t : BenchChanges b b') (h : Timely b) : Timely b' := by
  induction t with
  | refl => exact h
  | tail _ benchChange ih => exact benchChange.timely ih

theorem Reachable.timely (h : Reachable b) : Timely b := by
  induction h with
  | init s unused =>
    exact ⟨fun _ _ hw => absurd hw (by simp [Scenario.start]),
      fun _ _ hw => absurd hw (by simp [Scenario.start]), fun _ _ _ => rfl⟩
  | move h m ih => exact (m.benchActions h.orderly).benchChanges.timely ih

def Throughout (P : Writer → Prop) (b : Bench) : Prop :=
  ∀ (i : Nat) (w : Writer), b.writers[i]? = some w → P w

theorem Throughout.of_writers {P : Writer → Prop} (h : b.Throughout P)
    (writers : b'.writers = b.writers) : b'.Throughout P :=
  fun i w hw => h i w (writers ▸ hw)

/-- What emptied lists of batches cannot disturb need only be seen to where something else was
done. -/
theorem Throughout.elsewhere {P : Writer → Prop}
    (emptied : ∀ (u : Writer) (inFlight : InFlight Value), inFlight.ids = u.inFlight.ids →
      inFlight.limit = u.inFlight.limit → P u → P { u with inFlight })
    {i : Nat} (h : b.Throughout P) (elsewhere : Elsewhere i b b')
    (own : ∀ w' : Writer, b'.writers[i]? = some w' → P w') : b'.Throughout P := by
  intro j u' hu'
  by_cases same : j = i
  · exact own u' (same ▸ hu')
  · obtain ⟨u, inFlight, hu, rfl, ids, limit⟩ := elsewhere.before same hu'
    exact emptied u inFlight ids limit (h j u hu)

theorem Throughout.create {P : Writer → Prop} (h : b.Throughout P) (name : String)
    (spec : WriterSpec) (new : ∀ w : Writer, w.Fresh → w.Idle → P w) :
    (b.create name spec).2.Throughout P := by
  rcases create_cases b name spec with same | ⟨c, built⟩
  · rwa [same]
  · intro i w hw
    rcases built.writer hw with hw | rfl
    · exact h i w hw
    · exact new _ built.fresh built.idle

/-- What holds at the start and every action keeps, holds in every state of a run. -/
theorem Reachable.by_actions {P : Bench → Prop} (h : Reachable b)
    (start : ∀ s : Scenario, P s.start)
    (each : ∀ {sends : Nat → Prop} (b b' : Bench), Timely b → BenchAction sends b b' →
      P b → P b') : P b := by
  induction h with
  | init s unused => exact start s
  | @move b₀ b₁ h m ih =>
    have kept : ∀ {c : Bench}, BenchActions b₀.Sends b₀ c → Timely c ∧ P c := fun benchActions => by
      induction benchActions with
      | refl => exact ⟨h.timely, ih⟩
      | tail _ benchAction ih =>
        exact ⟨benchAction.benchChanges.timely ih.1, each _ _ ih.1 benchAction ih.2⟩
    exact (kept (m.benchActions h.orderly)).2

end Bench
end BatchWriter
