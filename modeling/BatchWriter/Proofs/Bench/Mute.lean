import BatchWriter.Proofs.Bench.Course
import BatchWriter.Proofs.Bench.Order

/-!
# Writers that open no batch

A writer opens a batch when a call sends one, or when the time in the buffer is over. While the
buffer's alarm is unset and no flush is put off, whatever goes on leaves the batches of a writer
as they are, but for the call whose turn it is to send.
-/

set_option autoImplicit false

namespace BatchWriter
namespace Bench

open Writer (PlainChange)

variable {sends : Nat → Prop} {b b' b'' : Bench} {i j : Nat} {w : Writer} {loop : LoopName}

def historyOf (b : Bench) (i : Nat) : History := ((b.writers[i]?).map (·.history)).getD []

theorem historyOf_eq (hw : b.writers[i]? = some w) : b.historyOf i = w.history := by
  rw [historyOf, hw]
  rfl

theorem historyOf_congr (same : b'.writers[i]? = b.writers[i]?) :
    b'.historyOf i = b.historyOf i := by
  rw [historyOf, same, historyOf]

def Calm (b : Bench) (i : Nat) : Prop :=
  ∀ w : Writer, b.writers[i]? = some w → w.deferred = false

/-- A calm writer at `i` stays calm and opens no batch. -/
def Mute (i : Nat) (b b' : Bench) : Prop :=
  b.Calm i → b'.Calm i ∧ (b'.historyOf i).batches = (b.historyOf i).batches

namespace Mute

theorem of_writer (same : b'.writers[i]? = b.writers[i]?) : Mute i b b' := fun calm =>
  ⟨fun w hw => calm w (same ▸ hw), by rw [historyOf_congr same]⟩

theorem refl (b : Bench) : Mute i b b := of_writer rfl

theorem trans (h : Mute i b b') (h' : Mute i b' b'') : Mute i b b'' := fun calm =>
  ⟨(h' (h calm).1).1, (h' (h calm).1).2.trans (h calm).2⟩

theorem beside (h : Beside b b') : Mute i b b' := of_writer (by rw [h.writers])

theorem elsewhere (h : Elsewhere j b b') (other : i ≠ j) : Mute i b b' := by
  cases hw : b.writers[i]? with
  | none =>
    refine of_writer ?_
    rw [hw, List.getElem?_eq_none_iff, h.length]
    exact List.getElem?_eq_none_iff.1 hw
  | some w =>
    obtain ⟨inFlight, hw', -⟩ := h.each i w other hw
    refine fun calm => ⟨fun u hu => ?_, by rw [historyOf_eq hw', historyOf_eq hw]⟩
    rw [hw', Option.some.injEq] at hu
    exact hu ▸ calm w hw

/-- A change of this writer that opens no batch and puts no flush off. -/
theorem change {f : Writer → Change} (own : ∀ w : Writer, b.writers[j]? = some w → i = j →
    w.Unsent (f w).writer ∧ (w.deferred = false → (f w).writer.deferred = false)) :
    Mute i b (b.change j f).2 := by
  by_cases same : i = j
  · subst same
    cases hw : b.writers[i]? with
    | none => rw [change_of_none hw]; exact refl b
    | some w =>
      obtain ⟨⟨newer, history, quiet⟩, calm⟩ := own w hw rfl
      refine fun before => ⟨fun u hu => ?_, ?_⟩
      · rw [writer_change hw, Option.some.injEq] at hu
        exact hu ▸ calm (before w hw)
      · rw [historyOf_eq (writer_change hw f), historyOf_eq hw, history]
        exact (History.sent_append quiet _).2
  · exact elsewhere (.change b j f) same

theorem plainChange {f : Writer → Change}
    (plain : ∀ w : Writer, b.writers[j]? = some w → i = j → PlainChange b.now w (f w)) :
    Mute i b (b.change j f).2 :=
  change fun w hw same => ⟨(plain w hw same).unsent, (plain w hw same).undelaying⟩

theorem callActions (h : CallActions b b') : Mute i b b' := by
  induction h with
  | refl => exact refl b
  | tail _ callAction ih =>
    refine ih.trans ?_
    cases callAction with
    | beside h => exact beside h
    | callChange j changes => exact plainChange fun w hw _ => .callChange (changes w hw)

theorem thenDo {r : Option Fault × Bench} {next : Bench → Option Fault × Bench}
    (first : Mute i b r.2) (second : Mute i r.2 (next r.2).2) : Mute i b (thenDo r next).2 := by
  unfold Bench.thenDo
  split
  · exact first
  · exact first.trans second

/-- Without a flush that was put off a report sends nothing. -/
theorem deferredFlush : Mute i b (b.deferredFlush i loop).2 := fun calm => by
  have idle : (b.deferredFlush i loop).2 = b := by
    unfold Bench.deferredFlush
    split
    · rfl
    · next w hw => simp [Writer.flushIsDue, calm w hw]
  rw [idle]
  exact ⟨calm, rfl⟩

theorem receive (batch : Nat) (report : Report) : Mute i b (b.receive loop j batch report).2 := by
  by_cases same : i = j
  · subst same
    cases report with
    | failed fault => exact plainChange fun w _ _ => .reportFailed batch fault
    | completed failed =>
      rw [Bench.receive]
      split
      · exact refl b
      · split
        · exact beside (.log _ _)
        · refine thenDo (thenDo (plainChange fun w _ _ => .complete batch failed) deferredFlush) ?_
          exact plainChange fun w _ _ => .endCompletion
  · exact elsewhere (.receive b loop j batch report) same

theorem create (name : String) (spec : WriterSpec) : Mute i b (b.create name spec).2 := by
  rcases create_cases b name spec with same | ⟨c, built⟩
  · rw [same]
    exact .refl b
  · obtain ⟨entries, history⟩ := built.history
    cases hw : b.writers[i]? with
    | some w => exact .of_writer (by rw [hw, built.kept hw])
    | none =>
      -- If there is a writer now, it is new.
      cases hu : (b.create name spec).2.writers[i]? with
      | none => exact .of_writer (hu.trans hw.symm)
      | some u =>
        have new : u = c.writer := (built.writer hu).resolve_left (by simp [hw])
        subst new
        refine fun _ => ⟨fun v hv => ?_, ?_⟩
        · rw [hu, Option.some.injEq] at hv
          exact hv ▸ built.idle.deferred
        · rw [historyOf_eq hu, history, historyOf, hw]
          rfl

end Mute

theorem LoopAction.mute (h : LoopAction sends b b') (still : ¬sends i) : Mute i b b' := by
  cases h with
  | callAction h => exact .callActions (.single h)
  | dispatch turn hw bound room =>
    exact .elsewhere (.dispatch _ _ _) fun same => still (same ▸ turn)
  | receive own batch report => exact .receive batch report

theorem LoopActions.mute (h : LoopActions sends b b') (still : ¬sends i) : Mute i b b' := by
  induction h with
  | refl => exact .refl b
  | tail _ loopAction ih => exact ih.trans (loopAction.mute still)

def Unset (b : Bench) (i : Nat) : Prop :=
  ∀ w : Writer, b.writers[i]? = some w → ∀ due, some due ∉ b.duesOf i .flush

theorem BenchAction.mute (h : BenchAction sends b b') (still : ¬sends i) (unset : b.Unset i) :
    Mute i b b' := by
  cases h with
  | loopAction h => exact h.mute still
  | pass later alarms => exact .of_writer rfl
  | @flush limit j time due own =>
    have passed : Mute i b { b with time } := .of_writer rfl
    refine passed.trans (.elsewhere (.bufferAlarm { b with time } j) fun same => ?_)
    subst same
    obtain ⟨name, w, hw, -⟩ := own
    obtain ⟨instant, -, a, ha, action, was⟩ := rung_due due
    exact unset w hw instant (mem_dues ha action was)
  | @expire limit j batch time due =>
    have passed : Mute i b { b with time } := .of_writer rfl
    refine passed.trans (.change fun w _ _ => ⟨.expire w time.now batch, fun calm => ?_⟩)
    rcases w.writer_expire time.now batch with same | ⟨r, limit, -, same⟩
    · rw [same]
      exact calm
    · rw [same]
      rfl
  | closeLoop name => exact .of_writer (by rw [Bench.closeLoop, writers_setLoop])
  | create name spec => exact .create name spec
  | work works => exact .of_writer (by rw [works.bypasses.writers])

theorem OutsideFirst.mute (h : OutsideFirst sends b b') (still : ¬sends i) (unset : b.Unset i) :
    Mute i b b' := by
  cases h with
  | loopActions h => exact h.mute still
  | benchAction first rest => exact (first.mute still unset).trans (rest.mute still)

end Bench
end BatchWriter
