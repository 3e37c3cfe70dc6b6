import BatchWriter.Proofs.Bench.Reachable

/-!
# Whoever waits is woken

Once a loop has nothing ready, a call that is suspended until its writer changes waits for
something that has not come about yet.
-/

set_option autoImplicit false

namespace BatchWriter
namespace Bench

variable {b : Bench} {i id : Nat} {w : Writer}

/-- The call stands where it waits for the writer at `i` to change, and does not run. -/
def Suspended (b : Bench) (i id : Nat) (c : Call) : Prop :=
  b.calls[id]? = some c ∧ c.program.waitsOn? = some i ∧ c.isEnded = false ∧ c.status ≠ .running

def Drained (b : Bench) (w : Writer) : Prop :=
  ∀ name, w.loop = some name → (b.loop name).ready = [] ∧ (b.loop name).closed = false

theorem owned_of_waitsOn {p : Program} {name : LoopName} (fits : p.Fits b name)
    (on : p.waitsOn? = some i) : b.Owned i name := by
  cases p with
  | write job point =>
    cases point with
    | woken _ => exact Option.some.inj on ▸ fits
    | _ => cases on
  | commit job point =>
    cases point with
    | woken => exact Option.some.inj on ▸ fits
    | _ => cases on
  | _ => cases on

/-- A suspended call has not been woken, and its writer knows of it. -/
theorem waits_of_suspended (h : Coherent none b) (hw : b.writers[i]? = some w)
    (drained : b.Drained w) {c : Call} (hs : b.Suspended i id c) :
    c.status = .waiting .change ∧ id ∈ w.waiters := by
  obtain ⟨hc, on, live, still⟩ := hs
  obtain ⟨fits, stands⟩ := h.calls id c hc (by simp) live
  obtain ⟨u, hu, bound⟩ := owned_of_waitsOn fits on
  rw [hw, Option.some.injEq] at hu
  subst hu
  unfold StatusFits at stands
  split at stands
  · obtain ⟨ready, isOpen⟩ := drained c.loop bound
    rcases stands.2 with closed | queued
    · rw [isOpen] at closed
      cases closed
    · rw [ready] at queued
      cases queued
  · next running => exact absurd running still
  · next waits =>
    obtain ⟨j, v, hj, hv, hid⟩ := stands
    rw [on, Option.some.injEq] at hj
    subst hj
    rw [hw, Option.some.injEq] at hv
    exact ⟨waits, hv ▸ hid⟩
  · rw [on] at stands
    cases stands.2
  · next ended =>
    rw [Call.isEnded, ended] at live
    cases live

/-- **No lost wake-up.** When nothing is ready on the loop of a writer, a write is suspended
only while all slots are taken, a commit that flushes only while a batch is open, and any
other commit only while there is a batch or an entry to wait for; nobody is suspended once
the writer is closed or failed. The writer's list has every suspended call, once, and no
other, and none of them was woken or cancelled. -/
theorem no_lost_wakeup (h : Reachable b) (hw : b.writers[i]? = some w) (drained : b.Drained w)
    (tame : w.config.Tame) {limit : Int} (slots : w.config.maxInFlight.whole? = some limit) :
    (∀ (id : Nat) (c : Call) (job : WriteJob) (stage : Stage), b.Suspended i id c →
        c.program = .write job (.woken stage) → (w.inFlight.count : Int) = limit) ∧
      (∀ (id : Nat) (c : Call) (job : CommitJob), b.Suspended i id c →
        c.program = .commit job .woken → job.flush.isPresent = true → 0 < w.inFlight.count) ∧
      (∀ (id : Nat) (c : Call) (job : CommitJob), b.Suspended i id c →
        c.program = .commit job .woken → job.flush.isPresent = false →
          0 < w.inFlight.count ∨ w.buffer.entries ≠ []) ∧
      (w.closed = true ∨ w.failure.isSome = true → ∀ (id : Nat) (c : Call), ¬ b.Suspended i id c) ∧
      w.waiters.Nodup ∧ (∀ id, id ∈ w.waiters ↔ ∃ c, b.Suspended i id c) ∧
      ∀ (id : Nat) (c : Call), b.Suspended i id c → c.status = .waiting .change := by
  have orderly := h.orderly
  have lawful := h.lawful hw
  have waits : ∀ {id : Nat} {c : Call}, b.Suspended i id c →
      c.status = .waiting .change ∧ id ∈ w.waiters := waits_of_suspended orderly.coherent hw drained
  have watched : ∀ {id : Nat} {c : Call}, b.Suspended i id c →
      w.refusal? = none ∧ c.program.Blocked w := fun hs =>
    orderly.watched _ _ i w hs.1 (waits hs).1 hs.2.1 hw tame
  have full := lawful.bounded.count_eq lawful.tracked slots
  refine ⟨?_, ?_, ?_, ?_, ?_, ?_, fun _ _ hs => (waits hs).1⟩
  · intro id c job stage hs at_
    have blocked := (watched hs).2
    rw [at_] at blocked
    exact (full blocked).1
  · intro id c job hs at_ flush
    have blocked := (watched hs).2
    rw [at_, Program.Blocked, if_pos flush] at blocked
    exact blocked.elim (fun count => count) fun room => (full room).2
  · intro id c job hs at_ flush
    have blocked := (watched hs).2
    rw [at_, Program.Blocked, if_neg (by simp [flush])] at blocked
    exact (Writer.isBusy_iff w).1 blocked
  · intro dead id c hs
    obtain ⟨isOpen, healthy⟩ := Writer.refusal?_eq_none_iff.1 (watched hs).1
    simp [isOpen, healthy] at dead
  · exact (orderly.coherent.waiters i w hw).1
  · intro id
    refine ⟨fun hid => ?_, fun known => known.elim fun _ hs => (waits hs).2⟩
    obtain ⟨c, hc, on, status⟩ := (orderly.coherent.waiters i w hw).2 id hid (by simp)
    refine ⟨c, hc, on, ?_, ?_⟩
    · rcases status with hs | hs <;> rw [Call.isEnded, hs]
    · rcases status with hs | hs <;> simp [hs]

def waiting : Bench := run 5 (flushing [("max_batch_size", .nat 2)] [.nat 1, .nat 2, .nat 3])

theorem no_lost_wakeup_waiting : ∃ c w, waiting.writers[0]? = some w ∧ waiting.Drained w ∧
    w.config.Tame ∧ w.config.maxInFlight.whole? = some 50 ∧ waiting.Suspended 0 0 c ∧
    c.status = .waiting .change ∧ 0 ∈ w.waiters ∧ 0 < w.inFlight.count := by
  obtain ⟨w, hw⟩ : ∃ w, waiting.writers[0]? = some w := ⟨_, rfl⟩
  have known : (waiting.writers[0]?).map (fun w => (w.loop, w.config)) =
      some (some .main, { maxBatchSize := .int 2 }) := rfl
  rw [hw, Option.map_some, Option.some.injEq, Prod.mk.injEq] at known
  obtain ⟨bound, config⟩ := known
  have drained : waiting.Drained w := by
    intro name hn
    rw [bound, Option.some.injEq] at hn
    subst hn
    exact ⟨rfl, rfl⟩
  have tame : w.config.Tame := by
    rw [config]
    exact ⟨rfl, fun _ h => (by cases h), fun _ h => (by cases h)⟩
  have slots : w.config.maxInFlight.whole? = some 50 := by rw [config]; rfl
  obtain ⟨c, hc⟩ : ∃ c, waiting.calls[0]? = some c := ⟨_, rfl⟩
  have stands : (waiting.calls[0]?).map (fun c => (c.program, c.status)) =
      some (.commit { writer := 0, flush := .bool true } .woken, .waiting .change) := rfl
  rw [hc, Option.map_some, Option.some.injEq, Prod.mk.injEq] at stands
  obtain ⟨commits, waits⟩ := stands
  have suspended : waiting.Suspended 0 0 c :=
    ⟨hc, by rw [commits]; rfl, by rw [Call.isEnded, waits], by simp [waits]⟩
  have reach : Reachable waiting := (reachable_flushing rfl).run 5
  obtain ⟨-, flushes, -, -, -, listed, pending⟩ := no_lost_wakeup reach hw drained tame slots
  exact ⟨c, w, hw, drained, tame, slots, suspended, pending 0 c suspended,
    (listed 0).2 ⟨c, suspended⟩, flushes 0 c _ suspended commits rfl⟩

end Bench
end BatchWriter
