import BatchWriter.Proofs.Bench.Dues
import BatchWriter.Proofs.Bench.Once
import BatchWriter.Proofs.Timetable

/-!
# Punctual runs

On a virtual clock time passes only when nothing is left to run, and no alarm is missed: the
clock never goes past an instant at which one is set. What waits on a ready queue is therefore
run before any time passes.
-/

set_option autoImplicit false

namespace BatchWriter
namespace Bench

variable {b b' : Bench} {i : Nat} {w : Writer}

def Settled (b : Bench) : Prop := b.running = none ∧ ∀ name, (b.loop name).ready = []

/-- A move on the virtual clock. -/
structure Punctual (b b' : Bench) : Prop where
  move : Move b b'
  /-- Time passes only when nothing is left to run, -/
  settled : b'.now ≠ b.now → b.Settled
  /-- and up to the next alarm at most. -/
  early : b'.now ≠ b.now → ∀ a ∈ b.time.alarms, ∀ due, a.due = some due → b'.now ≤ due

abbrev Punctuals : Bench → Bench → Prop := Relation.ReflTransGen Punctual

theorem Punctuals.moves (h : Punctuals b b') : Moves b b' :=
  Relation.ReflTransGen.mono (fun _ _ m => m.move) _ _ h

theorem Punctual.ring (settled : b.Settled) {limit : Nat} {r : Ring} {time : Timetable Ring}
    (due : b.time.Rings limit r time) : Punctual b (ring { b with time } r) := by
  refine ⟨.ring settled.1 due, fun _ => settled, fun moves a ha instant set => ?_⟩
  have now : (Bench.ring { b with time } r).now = time.now := now_ring _ _
  exact now ▸ due.early (now ▸ moves) ha set

/-- Whatever is ready stays so until it is run, unless its loop is closed. -/
theorem Move.keeps_ready (m : Move b b') {name : LoopName} {callback : Callback}
    (ready : callback ∈ (b.loop name).ready) :
    callback ∈ (b'.loop name).ready ∨ b' = b.closeLoop name ∨
      ∃ tail, b' = (b.popped name tail).runCallback name callback := by
  obtain ⟨x, p, bare, rfl⟩ : ∃ x p, x.present = x ∧ b = x.after p :=
    ⟨b.present, b.past, rfl, (present_after_past b).symm⟩
  rw [ready_after, ready_of_present bare, List.append_nil] at ready
  rcases m.framed with next | ⟨other, idle, rfl⟩ | ⟨y, rfl, -⟩
  · cases runs : x.running with
    | some id =>
      rw [step_of_running (by exact runs), proceed_after] at next
      rw [← Option.some.inj next, ready_after]
      exact .inl (List.mem_append_left _ ready)
    | none =>
      have idle : (x.after p).running = none := runs
      rw [Bench.step, idle] at next
      obtain ⟨⟨other, first, popped⟩, pop, rfl⟩ := Option.map_eq_some_iff.1 next
      obtain ⟨tail, head, -, rfl⟩ := nextCallback?_eq_some.1 pop
      rw [ready_after, ready_of_present bare, List.append_nil] at head
      by_cases same : other = name ∧ first = callback
      · obtain ⟨rfl, rfl⟩ := same
        exact .inr (.inr ⟨tail, rfl⟩)
      · left
        dsimp only
        rw [popped_after bare, runCallback_after, ready_after]
        refine List.mem_append_left _ ?_
        dsimp only
        by_cases own : other = name
        · subst own
          rw [Function.update_self]
          rw [head] at ready
          exact (List.mem_cons.1 ready).resolve_left fun h => same ⟨rfl, h.symm⟩
        · rwa [Function.update_of_ne (Ne.symm own)]
  · by_cases own : other = name
    · exact .inr (.inl (own ▸ rfl))
    · refine .inl ?_
      rw [closeLoop_after, ready_after]
      refine List.mem_append_left _ ?_
      dsimp only
      rwa [Function.update_of_ne (Ne.symm own)]
  · rw [ready_after]
    exact .inl (List.mem_append_left _ ready)

end Bench
end BatchWriter
