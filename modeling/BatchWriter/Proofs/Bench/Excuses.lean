import BatchWriter.Proofs.Bench.Mute
import BatchWriter.Proofs.Bench.Tended
import BatchWriter.Proofs.Writer.Short
import Mathlib.Data.Finset.Card

/-!
# Writes that have waited

A write looks for a full batch before it sends one. If it finds no slot it announces that it
waits, and does not look at the buffer again once there is one: it is excused for a batch that is
not full. Each excuse comes with an announcement and is spent on one batch.
-/

set_option autoImplicit false

namespace BatchWriter

/-- After a wait a write may send a batch that is not full. Without one it has seen that the
buffer holds enough. -/
def WritePoint.Excused (full : Prop) : WritePoint → Prop
  | .slot _ | .woken _ => True
  | .publishing _ next => next ≠ .accept
  | .flush _ | .dispatch _ => ¬full
  | .start | .gate _ | .accept | .batching => False

def Program.Excused (i : Nat) (full : Prop) : Program → Prop
  | .write job point => job.writer = i ∧ point.Excused full
  | _ => False

namespace Bench

variable {old : Nat → Prop} {b b' b₁ : Bench} {i n k id : Nat} {w : Writer} {c c' : Call}
  {name : LoopName} {job : WriteJob}

def Stocked (b : Bench) (i n : Nat) : Prop :=
  ∀ w : Writer, b.writers[i]? = some w → n ≤ w.buffer.size

def Excused (b : Bench) (i n id : Nat) : Prop :=
  ∃ c : Call, b.calls[id]? = some c ∧ c.isEnded = false ∧ c.program.Excused i (b.Stocked i n)

open scoped Classical in
noncomputable def excuses (b : Bench) (i n : Nat) : Finset Nat :=
  (Finset.range b.calls.length).filter (b.Excused i n)

open scoped Classical in
theorem mem_excuses : id ∈ b.excuses i n ↔ b.Excused i n id := by
  rw [excuses, Finset.mem_filter, Finset.mem_range]
  refine and_iff_right_of_imp fun excused => ?_
  obtain ⟨c, hc, -⟩ := excused
  exact (List.getElem?_eq_some_iff.1 hc).1

/-- For each batch that is not full and for each excuse there was a wait. -/
def Accounted (b : Bench) (i n : Nat) : Prop :=
  (b.historyOf i).short n + (b.excuses i n).card ≤ (b.historyOf i).waits

/-! ## The account -/

namespace Accounted

theorem keep (h : b.Accounted i n) (short : (b'.historyOf i).short n ≤ (b.historyOf i).short n)
    (waits : (b.historyOf i).waits ≤ (b'.historyOf i).waits)
    (fewer : ∀ k, b'.Excused i n k → b.Excused i n k) : b'.Accounted i n := by
  have card : (b'.excuses i n).card ≤ (b.excuses i n).card :=
    Finset.card_le_card fun k hk => mem_excuses.2 (fewer k (mem_excuses.1 hk))
  unfold Accounted at h ⊢
  omega

/-- A wait is announced, and at most one call is excused by it. -/
theorem announce (h : b.Accounted i n)
    (short : (b'.historyOf i).short n ≤ (b.historyOf i).short n)
    (waits : (b.historyOf i).waits < (b'.historyOf i).waits)
    (others : ∀ k, k ≠ id → b'.Excused i n k → b.Excused i n k) : b'.Accounted i n := by
  have card : (b'.excuses i n).card ≤ (b.excuses i n).card + 1 := by
    refine (Finset.card_le_card fun k hk => ?_).trans (Finset.card_insert_le id _)
    by_cases own : k = id
    · exact own ▸ Finset.mem_insert_self _ _
    · exact Finset.mem_insert_of_mem (mem_excuses.2 (others k own (mem_excuses.1 hk)))
  unfold Accounted at h ⊢
  omega

/-- A call sends a batch that is not full, and is excused for no other. -/
theorem spend (h : b.Accounted i n) (own : b.Excused i n id)
    (short : (b'.historyOf i).short n ≤ (b.historyOf i).short n + 1)
    (waits : (b.historyOf i).waits ≤ (b'.historyOf i).waits)
    (others : ∀ k, b'.Excused i n k → k ≠ id ∧ b.Excused i n k) : b'.Accounted i n := by
  have card : (b'.excuses i n).card ≤ ((b.excuses i n).erase id).card :=
    Finset.card_le_card fun k hk => by
      obtain ⟨other, was⟩ := others k (mem_excuses.1 hk)
      exact Finset.mem_erase.2 ⟨other, mem_excuses.2 was⟩
  have erased := Finset.card_erase_add_one (mem_excuses.2 own)
  unfold Accounted at h ⊢
  omega

end Accounted

/-! ## Calls that do not move -/

theorem stops_of_still (h : Coherent none b) (hc : b.calls[id]? = some c)
    (live : c.isEnded = false) (still : b.running ≠ some id) :
    c.program.Rests ∨ c.program.waitsOn?.isSome = true := by
  have fits := (h.calls id c hc (by simp) live).2
  unfold StatusFits at fits
  split at fits
  · exact .inl fits.1
  · exact absurd fits still
  · obtain ⟨j, w, waits, -⟩ := fits
    exact .inr (by rw [waits]; rfl)
  · exact .inl fits.1
  · next ended => simp [Call.isEnded, ended] at live

theorem excused_of_still (h : Coherent none b) (hc : b.calls[id]? = some c)
    (live : c.isEnded = false) (still : b.running ≠ some id) {full : Prop}
    (excused : c.program.Excused i full) : b.Excused i n id := by
  refine ⟨c, hc, live, ?_⟩
  -- No write stops where it is about to send.
  have rests := stops_of_still h hc live still
  cases hp : c.program with
  | write job point =>
    rw [hp] at rests excused
    cases point with
    | flush _ | dispatch _ => exact rests.elim False.elim fun waits => by cases waits
    | _ => exact excused
  | _ => rw [hp] at excused; exact excused.elim

theorem Stays.excused (stays : Stays old b b₁) (h : Coherent none b) (still : b.running ≠ some id)
    (hc : b₁.calls[id]? = some c) (live : c.isEnded = false) {full : Prop}
    (excused : c.program.Excused i full) : b.Excused i n id := by
  rcases stays.origin hc with ⟨c₀, hc₀, keeps⟩ | ⟨-, begins, -⟩
  · exact excused_of_still h hc₀ (keeps.ended ▸ live) still (keeps.program ▸ excused)
  · generalize c.program = p at begins excused
    cases p with
    | write job point =>
      obtain ⟨rfl, -⟩ := begins
      exact excused.2.elim
    | _ => exact excused.elim

theorem stocked_congr (same : b'.writers[i]? = b.writers[i]?) : b'.Stocked i n ↔ b.Stocked i n := by
  rw [Stocked, same, Stocked]

/-- A call that gets on is excused for what its progress says. -/
theorem excused_resolve {progress : Progress} (hc : b.calls[k]? = some c)
    (excused : (b.resolve k progress).Excused i n id) : id ≠ k ∧ b.Excused i n id ∨
      id = k ∧ ∃ q, progress.program? = some q ∧ q.Excused i (b.Stocked i n) := by
  have after := resolved hc progress
  obtain ⟨c', hc', live, excused⟩ := excused
  have stocked : (b.resolve k progress).Stocked i n = b.Stocked i n :=
    propext (stocked_congr (by rw [after.writers]))
  rw [stocked] at excused
  by_cases own : id = k
  · subst own
    have goes := after.isEnded hc'
    obtain ⟨-, -, program⟩ := after.call hc'
    rw [live] at goes
    cases leads : progress.program? with
    | none => simp [leads] at goes
    | some q =>
      rw [program, leads] at excused
      exact .inr ⟨rfl, q, rfl, excused⟩
  · rw [after.others id own] at hc'
    exact .inl ⟨own, c', hc', live, excused⟩

/-! ## Points of a write -/

/-- Where a point leads to, a call is excused only if it was or if a wait was announced. -/
def Earned (i n : Nat) (b : Bench) (before : Prop) (r : Bench × Progress) : Prop :=
  ∀ q, r.2.program? = some q → q.Excused i (r.1.Stocked i n) →
    before ∨ (b.historyOf i).waits < (r.1.historyOf i).waits

variable {before : Prop}

theorem earned_of_ends {r : Bench × Progress} (ends : r.2.program? = none) :
    Earned i n b before r := fun q leads => by
  rw [ends] at leads
  cases leads

theorem earned_of_program {r : Bench × Progress} {p : Program} (leads : r.2.program? = some p)
    (each : p.Excused i (r.1.Stocked i n) → before) :
    Earned i n b before r := fun q hq excused => by
  rw [leads, Option.some.injEq] at hq
  exact .inl (each (hq ▸ excused))

theorem earned_goUnless {fault : Option Fault} {p : Program}
    (each : p.Excused i (b'.Stocked i n) → before) :
    Earned i n b before (b', .goUnless fault p) := by
  cases fault with
  | none => exact earned_of_program rfl each
  | some fault => exact earned_of_ends rfl

theorem earned_withWriter {f : Writer → Bench × Progress}
    (each : ∀ w : Writer, b.writers[k]? = some w → Earned i n b before (f w)) :
    Earned i n b before (b.withWriter k f) := by
  cases hw : b.writers[k]? with
  | none =>
    rw [withWriter, hw]
    exact earned_of_ends rfl
  | some w =>
    rw [withWriter_some hw]
    exact each w hw

theorem earned_publishLevel (hw : b'.writers[job.writer]? = some w)
    (same : b.historyOf job.writer = w.history) {level : Level} (waits : level ≠ .ok)
    (reason : String) (next : WritePoint) :
    Earned job.writer n b before (b'.publishLevel job w level reason next) := fun _ _ _ => by
  have hu : (b'.publishLevel job w level reason next).1.writers[job.writer]? =
      some (w.note b'.now (.announced (w.event level reason))) := by
    rw [publishLevel]
    dsimp only
    rw [(Aside.publication _ _ _).writers]
    exact writer_change hw _
  have told : (Milestone.announced (w.event level reason)).isWait = true := by
    simpa [Milestone.isWait, Writer.event] using waits
  rw [historyOf_eq hu, same]
  simp [Writer.note, History.waits, told]

section Write

variable (lawful : ∀ w : Writer, b.writers[job.writer]? = some w → w.Lawful)
  (whole : ∀ w : Writer, b.writers[job.writer]? = some w →
    w.config.maxBatchSize.whole? = some (n : Int))

include lawful whole in
/-- Before the gate and after it a write sends when the buffer is full, or waits. -/
theorem earned_writeGate (blocked : Bool) :
    Earned job.writer n b before (b.writeGate job blocked) := by
  refine earned_withWriter fun w hw => ?_
  split
  · next full =>
    split
    · exact earned_publishLevel (writer_change hw (·.holdBack .bufferFull)) (historyOf_eq hw)
        (by simp) _ _
    · refine earned_of_program rfl fun excused => absurd (fun u hu => ?_) excused.2
      rw [hw, Option.some.injEq] at hu
      exact hu ▸ (lawful w hw).full_of_isFull (whole w hw) full
  · split
    · intro q leads excused
      unfold publishLevel at leads excused
      dsimp only at leads excused
      split at leads
      · cases leads
        exact excused.2.elim
      · cases leads
        exact absurd rfl excused.2
    · exact earned_of_program rfl fun excused => excused.2.elim

theorem earned_writeFlush (stage : Stage) :
    Earned job.writer n b (¬b.Stocked job.writer n) (b.writeFlush job stage) := by
  refine earned_withWriter fun w hw => ?_
  split
  · exact earned_of_program rfl fun excused => excused.2
  · exact earned_publishLevel (writer_change hw (·.holdBack .inFlightLimit)) (historyOf_eq hw)
      (by simp) _ _

include whole in
theorem earned_writeBatching : Earned job.writer n b before (b.writeBatching job) := by
  refine earned_withWriter fun w hw => ?_
  split
  · next full =>
    refine earned_of_program rfl fun excused => absurd (fun u hu => ?_) excused.2
    rw [hw, Option.some.injEq] at hu
    exact hu ▸ Writer.full_of_hasFullBatch (whole w hw) full
  · exact earned_goUnless fun excused => excused.2.elim

theorem earned_writePublishing (d : Delivery) (next : WritePoint) :
    Earned job.writer n b (next ≠ .accept) (b.writePublishing job d next) := by
  have resumes : ∀ full, next.Excused full → next ≠ .accept := by
    rintro full excused rfl
    exact excused
  unfold writePublishing
  dsimp only
  split
  · exact earned_of_program rfl fun excused => excused.2
  · exact earned_of_program rfl fun excused => excused.2
  · exact earned_of_program rfl fun excused => excused.2
  · exact earned_of_program rfl fun excused => resumes _ excused.2
  · exact earned_of_ends rfl

include lawful whole in
theorem earned_writeStep (point : WritePoint) : Earned job.writer n b
    (point.Excused (b.Stocked job.writer n)) (b.writeStep id name job point) := by
  cases point with
  | start =>
    rw [writeStep, writeStart]
    split
    · exact earned_of_ends rfl
    · exact earned_goUnless fun excused => excused.2.elim
  | gate blocked => exact earned_writeGate lawful whole blocked
  | flush stage => exact earned_writeFlush stage
  | slot stage | woken stage => exact fun _ _ _ => .inl trivial
  | dispatch stage =>
    refine earned_goUnless fun excused => ?_
    cases stage <;> exact excused.2.elim
  | accept =>
    refine earned_withWriter fun w _ => ?_
    split
    · exact earned_of_ends rfl
    · exact earned_goUnless fun excused => excused.2.elim
  | batching => exact earned_writeBatching whole
  | publishing d next => exact earned_writePublishing d next

end Write

theorem earned_advanceProgram (lawful : ∀ w : Writer, b.writers[i]? = some w → w.Lawful)
    (whole : ∀ w : Writer, b.writers[i]? = some w → w.config.maxBatchSize.whole? = some (n : Int))
    (p : Program) :
    Earned i n b (p.Excused i (b.Stocked i n)) (b.advanceProgram id name p) := by
  intro q leads excused
  have becomes := from_advanceProgram b id name p q leads
  cases q with
  | write next after =>
    cases p with
    | write job point =>
      have own : job.writer = i := becomes ▸ excused.1
      subst own
      exact (earned_writeStep lawful whole point _ leads excused).imp_left
        fun before => ⟨rfl, before⟩
    | _ => exact becomes.elim
  | _ => exact excused.elim

/-! ## What a dispatch sends -/

/-- A dispatch opens what the buffer yields as a batch, if anything. -/
theorem batches_dispatch (hw : b.writers[i]? = some w) (loop : LoopName) :
    ((b.dispatch i loop).2.historyOf i).batches = w.history.batches ∨ ∃ entries rest,
      w.buffer.take w.config.maxBatchSize = .ok (entries, rest) ∧
      ((b.dispatch i loop).2.historyOf i).batches = w.history.batches ++ [entries] := by
  have same : ((b.dispatch i loop).2.historyOf i).batches =
      (w.startDispatch loop b.now).1.writer.history.batches := by
    have hu := writer_change hw fun w => (w.startDispatch loop b.now).1
    unfold dispatch
    simp only [hw]
    split
    · rw [historyOf_eq hu]
    · next parcel _ =>
      obtain ⟨inFlight, hv, -⟩ := (Empties.submit (b.change i fun w =>
        (w.startDispatch loop b.now).1).2 w.destination (some loop) parcel.entries
        (.batch i loop parcel.batch)).each i _ hu
      rw [historyOf_eq (writer_change hv _), Writer.batches_concludeDispatch]
  rcases w.history_startDispatch loop b.now with none | ⟨batch, entries, rest, taken, opened⟩
  · exact .inl (by rw [same, none])
  · exact .inr ⟨entries, rest, taken, by rw [same, opened]; rfl⟩

end Bench
end BatchWriter
