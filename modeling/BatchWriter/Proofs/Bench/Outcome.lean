import BatchWriter.Proofs.Bench.Dispatch

/-!
# Outcomes and alarms

A completion frees a slot before it flushes in place of the buffer's alarm and before it
wakes anybody. The flush needs no check for a slot, since the completion has just freed
one; and when a fault cuts it short, the slot is taken again or everybody is awake.
-/

set_option autoImplicit false

namespace BatchWriter
namespace Bench

open Writer (Turn)

variable {hand : Option Nat} {b b' b'' : Bench} {i : Nat} {w : Writer} {loop : LoopName}

theorem timedFlush_spec (h : Coherent hand b) (hw : b.writers[i]? = some w)
    (bound : w.loop = some loop) (room : w.hasCapacity = true) :
    Passes hand b (b.timedFlush i loop).2 ∧ ∃ w', (b.timedFlush i loop).2.writers[i]? = some w' ∧
      Refilled w (b.timedFlush i loop).1 w' := by
  have begun : Passes hand b (b.change i (·.beginTimedFlush b.now)).2 :=
    passes_change h fun u _ => .beginTimedFlush b.now
  have hu := writer_change hw (·.beginTimedFlush b.now)
  obtain ⟨passes, v, hv, -, spec, -⟩ := dispatch_spec begun.coherent hu bound room
  unfold timedFlush
  dsimp only
  generalize Bench.dispatch _ i loop = dispatched at passes hv spec
  obtain ⟨fault, c⟩ := dispatched
  cases fault with
  | some fault =>
    dsimp only
    split
    · exact ⟨begun.trans passes, v, hv, fun hf => absurd rfl hf⟩
    · exact ⟨begun.trans passes, v, hv, spec⟩
  | none =>
    have ended : Passes hand c (c.change i (·.endTimedFlush)).2 :=
      passes_change passes.coherent fun u _ => .endTimedFlush
    refine ⟨(begun.trans passes).trans ended, _, writer_change hv _, fun _ _ _ => .inl ?_⟩
    exact List.sublist_nil.1 (Writer.regular_armTimerIf v.notify.writer _).waiters

theorem deferredFlush_spec (h : Coherent hand b) (hw : b.writers[i]? = some w)
    (bound : w.loop = some loop) (room : w.hasCapacity = true) :
    Passes hand b (b.deferredFlush i loop).2 ∧
      ∃ w', (b.deferredFlush i loop).2.writers[i]? = some w' ∧
        Refilled w (b.deferredFlush i loop).1 w' := by
  unfold deferredFlush
  simp only [hw]
  split
  · have begun : Passes hand b (b.change i (·.beginDeferredFlush)).2 :=
      passes_change h fun u _ => .beginDeferredFlush
    have hu := writer_change hw (·.beginDeferredFlush)
    obtain ⟨passes, v, hv, spec⟩ := timedFlush_spec begun.coherent hu bound room
    exact ⟨begun.trans passes, v, hv, spec⟩
  · exact ⟨.refl h, w, hw, fun hf => absurd rfl hf⟩

theorem found_of_not_ignored {batch : Nat} (h : w.completionIgnored? batch = none) :
    ∃ r, w.inFlight.find? batch = some r := by
  unfold Writer.completionIgnored? at h
  split at h
  · cases h
  · split at h
    · cases h
    · next hf =>
      rw [Option.isNone_iff_eq_none] at hf
      exact Option.ne_none_iff_exists'.1 hf

/-- A fault that cuts the flush short has woken everybody, or the flush has taken the slot
that the completion freed. -/
theorem mindsAt_of_refilled {batch : Nat} {u v : Writer} {fault : Fault} (hf : Follows hand b b')
    (hw : b.writers[i]? = some w) (hv : b'.writers[i]? = some v) (freed : w.JustCompleted batch u)
    (sound : w.inFlight.Sound) (isOpen : batch ∈ w.inFlight.ids)
    (refilled : Refilled u (some fault) v) : b.MindsAt b' i := by
  intro v' hv' tame
  rw [hv, Option.some.injEq] at hv'
  subst hv'
  obtain ⟨v', hv', later⟩ := hf.grows i w hw
  rw [hv, Option.some.injEq] at hv'
  subst hv'
  by_cases usable : w.refusal? = none
  · refine (refilled (by simp) (freed.refusal.trans usable) ?_).imp_right fun filled => ?_
    · rwa [freed.config, ← later.config]
    · have slot := sound.count_remove isOpen
      rw [freed.inFlight] at filled
      refine ⟨w, hw, later.config.symm, fun _ => ⟨filled.1, by omega, fun _ => ?_⟩⟩
      exact (Writer.isBusy_iff _).2 (.inl (by omega))
  · exact .inr ⟨w, hw, later.config.symm, fun hu => absurd hu usable⟩

/-- A completion passes the bench on: it leaves nobody waiting for what it has brought about. -/
theorem passes_completion (h : Coherent hand b) (hw : b.writers[i]? = some w)
    (bound : w.loop = some loop) {batch : Nat} {r : Request Value}
    (found : w.inFlight.find? batch = some r) (failed : List Value) :
    Passes hand b (thenDo (thenDo (b.change i (·.complete b.now batch failed))
      (deferredFlush i loop)) fun b => b.change i (·.endCompletion)).2 := by
  have freed := Writer.justCompleted_complete found b.now failed
  have sound := (h.writers w (List.mem_of_getElem? hw)).tracked.sound
  have isOpen := (InFlight.mem_ids_of_find? found).1
  have completed : Follows hand b (b.change i (·.complete b.now batch failed)).2 :=
    follows_change h hw (Writer.regular_complete _ _ _ _)
      (.single (Writer.episode_complete found b.now failed))
  have others : ∀ j, j ≠ i → b.MindsAt (b.change i (·.complete b.now batch failed)).2 j :=
    fun j hj => .of_writer (writer_change_of_ne hw _ hj)
  have hu := writer_change hw (·.complete b.now batch failed)
  have hf := fault_change hw (·.complete b.now batch failed)
  have room : (w.complete b.now batch failed).writer.hasCapacity = true := by
    rw [Writer.hasCapacity, freed.inFlight]
    exact sound.hasCapacity_remove isOpen
  obtain ⟨flushed, v, hv, refilled⟩ :=
    deferredFlush_spec completed.coherent hu (freed.loop.trans bound) room
  generalize Bench.change b i _ = first at completed others hu hf flushed hv refilled
  obtain ⟨fault, c⟩ := first
  dsimp only at completed others hu hf flushed hv refilled
  cases fault with
  | some fault =>
    refine ⟨completed, .of_rest others fun u hu' tame => ?_⟩
    -- With limits that are met the completion itself does not stop.
    rw [Option.some.inj (hu'.symm.trans hu), freed.config] at tame
    rw [Writer.fault_complete tame] at hf
    cases hf
  | none =>
    simp only [thenDo]
    generalize Bench.deferredFlush i loop c = second at flushed hv refilled
    obtain ⟨fault, d⟩ := second
    dsimp only at flushed hv refilled
    have through : Follows hand b d := completed.trans flushed.toFollows
    have beside : ∀ j, j ≠ i → b.MindsAt d j :=
      fun j hj => (others j hj).trans (flushed.minds j) flushed.toFollows
    cases fault with
    | some fault =>
      exact ⟨through, .of_rest beside
        (mindsAt_of_refilled through hw hv freed sound isOpen refilled)⟩
    | none =>
      have ended : Passes hand d (d.change i (·.endCompletion)).2 :=
        passes_change flushed.coherent fun _ _ => .endCompletion
      refine ⟨through.trans ended.toFollows,
        .of_rest (fun j (hj : j ≠ i) => ?_) fun v' hv' _ => ?_⟩
      · exact (beside j hj).trans (ended.minds j) ended.toFollows
      · rw [writer_change hv, Option.some.injEq] at hv'
        subst hv'
        exact .inl rfl

/-- Whatever is reported of whichever batch, on the writer's loop. -/
theorem passes_receive (h : Coherent hand b) (bound : b.Owned i loop) (batch : Nat)
    (report : Report) : Passes hand b (b.receive loop i batch report).2 := by
  obtain ⟨w, hw, hl⟩ := bound
  cases report with
  | failed fault => exact passes_change h fun _ _ => .reportFailed b.now batch fault
  | completed failed =>
    unfold receive
    simp only [hw]
    split
    · exact passes_of_aside h (.log _ _)
    · next wanted =>
      obtain ⟨r, found⟩ := found_of_not_ignored wanted
      exact passes_completion h hw hl found failed

theorem passes_endCallback {r : Option Fault × Bench} (h : Passes hand b r.2) :
    Passes hand b (endCallback r) := by
  unfold endCallback
  split
  · exact h.trans (passes_of_aside h.coherent (.tell _ _))
  · exact h

/-- The buffer's alarm flushes only when it has found a slot. -/
theorem passes_bufferAlarm (h : Coherent hand b) (bound : ∃ name, b.Owned i name) :
    Passes hand b (b.bufferAlarm i).2 := by
  obtain ⟨name, w, hw, hl⟩ := bound
  have rung : Passes hand b (b.change i (·.bufferTimeOver.1)).2 :=
    passes_change h fun _ _ => .bufferTimeOver
  unfold bufferAlarm
  simp only [hw]
  split
  · next flush =>
    have hu := writer_change hw (·.bufferTimeOver.1)
    obtain ⟨same, room⟩ := Writer.bufferTimeOver_flush flush
    rw [same] at hu
    rw [hl]
    exact rung.trans (timedFlush_spec rung.coherent hu hl room).1
  · exact rung

end Bench
end BatchWriter
