import BatchWriter.Proofs.Bench.Course
import BatchWriter.Proofs.Bench.Punctual
import BatchWriter.Proofs.Writer.Places

/-!
# How long entries stay

On a virtual clock, while a writer has a free slot each time of its buffer ends with a batch. An
entry stays for one such time, and for another one for every full batch of those ahead of it.
-/

set_option autoImplicit false

namespace BatchWriter
namespace Bench

open Writer (Ticks Flushed)

variable {sends : Nat → Prop} {b b' : Bench} {i : Nat} {w w' : Writer}

structure Free (b : Bench) (w : Writer) : Prop where
  bound : w.loop.isSome = true
  live : b.Live w
  usable : w.refusal? = none
  room : w.hasCapacity = true

/-- A move on the virtual clock to a state in which the writer at `i` is free. -/
structure FreeMove (i : Nat) (p q : Bench × Writer) : Prop where
  move : Punctual p.1 q.1
  there : q.1.writers[i]? = some q.2
  free : q.1.Free q.2

abbrev FreeMoves (i : Nat) : Bench × Writer → Bench × Writer → Prop :=
  Relation.ReflTransGen (FreeMove i)

/-! ## Calm writers -/

/-- While no flush is put off, an action on the loops comes to ticks. -/
theorem LoopAction.quietly (h : LoopAction sends b b') (hw : b.writers[i]? = some w)
    (calm : w.deferred = false) : Quietly i b b' := by
  cases h with
  | callAction h => exact .callActions (.single h)
  | dispatch turn hu bound room => exact .dispatch ⟨_, hu, bound⟩
  | receive own batch report =>
    refine .receive (fun u hu same => ?_) _ batch report
    rw [same, hw, Option.some.injEq] at hu
    exact hu ▸ calm

theorem LoopActions.quietly (h : LoopActions sends b b') (hw : b.writers[i]? = some w)
    (calm : w.deferred = false) : Quietly i b b' := by
  induction h with
  | refl => exact .refl b
  | tail _ loopAction ih =>
    obtain ⟨u, hu, ticks⟩ := ih.2 w hw
    exact ih.trans (loopAction.quietly hu (ticks.undeferred calm))

/-- The buffer's alarm while the writer is free: it waits, or it rings and a batch is flushed. -/
inductive Stay (b : Bench) (i : Nat) (w : Writer) (b' : Bench) (w' : Writer) : Prop where
  | waits (same : b'.duesOf i .flush = b.duesOf i .flush)
  | flush {dues : Dues} (unset : dues .flush = [])
      (flushed : Flushed b'.now ({ w with timerArmed := false }, dues) (w', b'.duesOf i))

theorem Reachable.stay (h : Reachable b) (m : Move b b') (hw : b.writers[i]? = some w)
    (free : b.Free w) (filled : w.buffer.entries ≠ []) (armed : w.timerArmed = true)
    (calm : w.deferred = false) (hw' : b'.writers[i]? = some w') (free' : b'.Free w') :
    Stay b i w b' w' := by
  cases m.outsideFirst h.orderly with
  | loopActions loopActions =>
    obtain ⟨now, ticks⟩ := loopActions.quietly hw calm
    obtain ⟨u, hu, ticks⟩ := ticks w hw
    rw [hw', Option.some.injEq] at hu
    subst hu
    exact .waits (ticks.waits free'.usable armed).2
  | @benchAction c first rest =>
    obtain ⟨u, hu, course⟩ := first.course h.timely h.guarded hw
    -- After the action all that goes on comes to ticks.
    have ends (calm : u.deferred = false) :
        b'.now = c.now ∧ Ticks c.now (u, c.duesOf i) (w', b'.duesOf i) := by
      obtain ⟨now, ticks⟩ := rest.quietly hu calm
      obtain ⟨v, hv, ticks⟩ := ticks u hu
      rw [hw', Option.some.injEq] at hv
      exact ⟨now, hv ▸ ticks⟩
    cases course with
    | ticks ticks =>
      obtain ⟨-, more⟩ := ends (Ticks.undeferred ticks calm)
      exact .waits (Ticks.waits (ticks.trans more) free'.usable armed).2
    | lapse was now undeferred stays dues =>
      have flushes := Writer.flush_of_room free.usable filled free.room
      rw [stays] at flushes
      cases flushes
    | flush was now undeferred flushes flushed =>
      rw [(Writer.bufferTimeOver_flush flushes).1] at flushed
      obtain ⟨now, more⟩ := ends (Ticks.undeferred flushed.ticks undeferred)
      exact .flush (by simp [Effect.dues]) (now.symm ▸ flushed.andTicks more)
    | deferred completed due unset flushed =>
      have calm' := Ticks.undeferred completed calm
      dsimp only at calm'
      simp [Writer.flushIsDue, calm'] at due
    | @expire u₀ _ due batch r was now found lost ticks =>
      have same : u₀.timerArmed = w.timerArmed ∧ u₀.deferred = w.deferred := by
        rcases lost with rfl | ⟨-, rfl⟩ <;> exact ⟨rfl, rfl⟩
      obtain ⟨-, more⟩ := ends (Ticks.undeferred ticks (same.2.trans calm))
      have waits := (Ticks.waits (ticks.trans more) free'.usable (same.1.trans armed)).2
      exact .waits (waits.trans (by simp [Effect.dues]))
    | @closes name now bound closed dues =>
      -- The loop is open afterwards, so it was not closed.
      obtain ⟨v, hv, ceases⟩ := h.stills m i w hw
      rw [hw', Option.some.injEq] at hv
      subst hv
      have isOpen := free'.live name (ceases.later.loop name bound)
      rw [(OutsideFirst.loopActions rest).benchActions.benchChanges.opened isOpen] at closed
      cases closed

/-! ## When the alarm is due -/

section Limited

variable {delay : Nat}

theorem Spell.flushBy {p q : Bench × Writer} (s : Spell i p q)
    (limited : p.2.config.FlushesAfter delay) (h : (p.1.duesOf i).FlushBy (p.1.now + delay)) :
    (q.1.duesOf i).FlushBy (q.1.now + delay) := by
  obtain ⟨b, w⟩ := p
  obtain ⟨b', w'⟩ := q
  have h : (b.duesOf i).FlushBy (b'.now + delay) := h.mono (Nat.add_le_add_right s.clock delay)
  cases s.course with
  | ticks ticks => exact Ticks.flushBy ticks limited h
  | lapse was now undeferred stays dues => exact .of_unset (by simp [dues, Effect.dues]) _
  | flush was now undeferred flushes flushed =>
    rw [(Writer.bufferTimeOver_flush flushes).1] at flushed
    exact Ticks.flushBy flushed.ticks limited (.of_unset (by simp [Effect.dues]) _)
  | deferred completed due unset flushed =>
    exact Ticks.flushBy flushed.ticks (Ticks.config completed ▸ limited) (.of_unset unset _)
  | @expire u _ due batch r was now found lost ticks =>
    have config : u.config = w.config := by rcases lost with rfl | ⟨-, rfl⟩ <;> rfl
    exact Ticks.flushBy ticks (config ▸ limited) fun due set =>
      h due (by simpa [Effect.dues] using set)
  | closes now bound closed dues => exact .of_unset (by simp [dues]) _

/-- The buffer's alarm is never due later than a full time from now. -/
theorem Reachable.flushBy (h : Reachable b) (hw : b.writers[i]? = some w)
    (limited : w.config.FlushesAfter delay) : (b.duesOf i).FlushBy (b.now + delay) := by
  refine h.by_spells (P := fun p => p.2.config.FlushesAfter delay →
      (p.1.duesOf i).FlushBy (p.1.now + delay)) hw
    (fun _ _ _ _ _ unset _ => .of_unset (congrFun unset _) _)
    (fun p q spell ih limited => ?_) limited
  have limited := spell.later.config ▸ limited
  exact spell.flushBy limited (ih limited)

/-! ## Places in line -/

structure Served (i n delay : Nat) (p : Bench × Writer) : Prop where
  reachable : Reachable p.1
  there : p.1.writers[i]? = some p.2
  free : p.1.Free p.2
  civil : p.1.Civil
  tame : p.2.config.Tame
  limited : p.2.config.FlushesAfter delay
  whole : p.2.config.maxBatchSize.whole? = some (n : Int)

variable {n : Nat} {p q : Bench × Writer}

theorem Served.later (h : Served i n delay p) (m : FreeMove i p q) : p.2.Later q.2 := by
  obtain ⟨u, hu, ceases⟩ := h.reachable.stills m.move.move i p.2 h.there
  rw [m.there, Option.some.injEq] at hu
  exact hu ▸ ceases.later

theorem Served.move (h : Served i n delay p) (m : FreeMove i p q) : Served i n delay q := by
  have config := (h.later m).config
  have benchChanges := (m.move.move.benchActions h.reachable.orderly).benchChanges
  exact ⟨h.reachable.move m.move.move, m.there, m.free, h.civil.of_scripts benchChanges.scripts,
    config ▸ h.tame, config ▸ h.limited, config ▸ h.whole⟩

theorem Served.moves (h : Served i n delay p) (run : FreeMoves i p q) :
    Served i n delay q ∧ p.2.history <:+ q.2.history := by
  induction run with
  | refl => exact ⟨h, List.suffix_refl _⟩
  | tail _ m ih => exact ⟨ih.1.move m, ih.2.trans (ih.1.later m).history⟩

theorem Served.positive (h : Served i n delay p) : 0 < n := by
  obtain ⟨args, accepted⟩ := (h.reachable.lawful h.there).accepted
  exact Int.natCast_pos.1 (Config.pos_of_ofArguments accepted h.whole)

/-- The alarm is set for what the buffer holds, and no flush is put off. -/
theorem Served.armed (h : Served i n delay p) (filled : p.2.buffer.entries ≠ []) :
    p.2.timerArmed = true ∧ p.2.deferred = false ∧ p.1.duesOf i .flush ≠ [] := by
  have calm : p.2.deferred = false := by
    by_contra on
    have full := (h.reachable.guarded i p.2 h.there (by simpa using on)).2.2.1
    rw [h.free.room] at full
    cases full
  obtain ⟨limit, limited, -⟩ := h.limited
  have armed : p.2.timerArmed = true :=
    (h.reachable.scheduled h.civil i p.2 h.there h.free.usable h.free.bound (by rw [limited]; rfl)
      h.tame filled).resolve_right (by simp [calm])
  exact ⟨armed, calm, (alarmsOf_iff p.1 i .flush).1
    ((h.reachable.timely.timed i p.2 h.there).armed h.free.live armed)⟩

/-- Since a start an entry, which had `ahead` others before it, has seen `rounds` full batches
leave. The next one is due a time later. -/
structure Standing (i n delay start ahead returned rounds : Nat) (e : Value × Nat)
    (p : Bench × Writer) : Prop where
  place : ∃ k, p.2.history.line[k]? = some e ∧
    n * rounds + k + returned ≤ ahead + p.2.history.returned
  now : p.1.now ≤ start + (rounds + 1) * delay
  due : (p.1.duesOf i).FlushBy (start + (rounds + 1) * delay)

variable {start ahead returned rounds : Nat} {e : Value × Nat}

/-- Each move leaves the entry where it is, or one more batch of those ahead of it has left. -/
theorem Standing.move (st : Standing i n delay start ahead returned rounds e p)
    (h : Served i n delay p) (m : FreeMove i p q) (still : e ∈ q.2.history.line) :
    ∃ rounds, Standing i n delay start ahead returned rounds e q := by
  obtain ⟨k, place, count⟩ := st.place
  have lawful := h.reachable.lawful h.there
  have filled := lawful.inLine.filled (List.mem_of_getElem? place)
  obtain ⟨armed, calm, set⟩ := h.armed filled
  -- No alarm is missed, and this one is set.
  have now : q.1.now ≤ start + (rounds + 1) * delay := by
    by_cases moves : q.1.now = p.1.now
    · exact moves.le.trans st.now
    · obtain ⟨due, one⟩ := List.exists_mem_of_ne_nil _ set
      obtain ⟨t, early, rfl⟩ := st.due due one
      obtain ⟨a, ha, same⟩ := List.mem_map.1 one
      exact (m.move.early moves a (List.mem_of_mem_filter ha) t same).trans early
  cases h.reachable.stay m.move.move h.there h.free filled armed calm m.there m.free with
  | waits same =>
    obtain ⟨j, here, fewer⟩ := History.place_le (h.later m).history place still
    exact ⟨rounds, ⟨j, here, by omega⟩, now, fun due one => st.due due (same ▸ one)⟩
  | flush unset flushed =>
    obtain ⟨due, j, here, fewer⟩ := flushed.ahead (lawful.inLine.extend [] (by simp) rfl rfl)
      h.free.usable h.whole h.positive h.limited unset place still
    have later : q.1.now + delay ≤ start + (rounds + 1 + 1) * delay := by
      rw [Nat.succ_mul (rounds + 1)]
      omega
    refine ⟨rounds + 1, ⟨j, here, ?_⟩, (Nat.le_add_right _ _).trans later, due.mono later⟩
    rw [Nat.mul_succ]
    dsimp only at fewer
    omega

theorem Standing.moves (st : Standing i n delay start ahead returned rounds e p)
    (h : Served i n delay p) (run : FreeMoves i p q) (still : e ∈ q.2.history.line) :
    ∃ rounds, Standing i n delay start ahead returned rounds e q := by
  induction run with
  | refl => exact ⟨rounds, st⟩
  | tail run m ih =>
    obtain ⟨served, before⟩ := h.moves run
    obtain ⟨k, place, -⟩ := st.place
    have waits := History.stays_between before (served.later m).history
      (List.mem_of_getElem? place) still
    obtain ⟨rounds, standing⟩ := ih waits
    exact standing.move served m still

/-- **Stays are bounded.** On a virtual clock, with accepted limits and destinations that raise
ordinary faults only: while a writer is in use on an open loop, accepts work and has a free slot,
an entry stays in the buffer for the limit of the time in it, and as long again for each full
batch of those that are ahead of it, were they there or put back by completions meanwhile. -/
theorem stays_are_bounded (h : Reachable b) (hw : b.writers[i]? = some w) (civil : b.Civil)
    (tame : w.config.Tame) (limited : w.config.FlushesAfter delay)
    (whole : w.config.maxBatchSize.whole? = some (n : Int)) (free : b.Free w)
    (run : FreeMoves i (b, w) (b', w')) (place : w.history.line[ahead]? = some e)
    (still : e ∈ w'.history.line) :
    b'.now ≤ b.now + ((ahead + (w'.history.returned - w.history.returned)) / n + 1) * delay := by
  have served : Served i n delay (b, w) := ⟨h, hw, free, civil, tame, limited, whole⟩
  have first : Standing i n delay b.now ahead w.history.returned 0 e (b, w) :=
    ⟨⟨ahead, place, by simp⟩, by simp, by simpa using h.flushBy hw limited⟩
  obtain ⟨rounds, last⟩ := first.moves served run still
  obtain ⟨k, -, count⟩ := last.place
  have most : rounds ≤ (ahead + (w'.history.returned - w.history.returned)) / n := by
    rw [Nat.le_div_iff_mul_le served.positive, Nat.mul_comm]
    dsimp only at count
    omega
  exact last.now.trans (Nat.add_le_add_left (Nat.mul_le_mul_right delay (Nat.succ_le_succ most)) _)

end Limited

def entered : Bench :=
  run 2 ((single [("max_batch_size", .nat 2), ("max_in_flight_requests", .nat 3),
    ("max_buffered_requests", .nat 6), ("max_time_in_buffer_ms", .nat 5)]
    [.nat 1, .nat 2, .nat 3, .nat 4, .nat 5]).start .main (some "enter") (.enter 0) [])

theorem reachable_entered : Reachable entered := by
  have known : (single [("max_batch_size", .nat 2), ("max_in_flight_requests", .nat 3),
      ("max_buffered_requests", .nat 6), ("max_time_in_buffer_ms", .nat 5)]
      [.nat 1, .nat 2, .nat 3, .nat 4, .nat 5]).programOf "enter" (.enter "w") =
      .ok (.enter 0) := rfl
  exact .run ((reachable_single _ _).move (.start .main known)) 2

/-- On the virtual clock the first alarm rings once nothing is left to run. -/
theorem Punctual.rungBy {instant : Nat} (settled : b.Settled)
    (rings : (b.time.ring? instant).isSome = true) : Punctual b (b.rungBy instant) := by
  obtain ⟨⟨r, time⟩, due⟩ := Option.isSome_iff_exists.1 rings
  rw [Bench.rungBy, due]
  exact .ring settled (Timetable.rings_of_ring? due)

theorem free_of_known {name : LoopName} (hw : b.writers[i]? = some w)
    (known : (b.writers[i]?).map (fun w => (w.loop, w.refusal?, w.hasCapacity)) =
      some (some name, none, true)) (isOpen : (b.loop name).closed = false) : b.Free w := by
  rw [hw, Option.map_some, Option.some.injEq, Prod.mk.injEq, Prod.mk.injEq] at known
  obtain ⟨bound, usable, room⟩ := known
  exact ⟨by rw [bound]; rfl, fun l hl => by cases bound.symm.trans hl; exact isOpen, usable, room⟩

/-- The time of the buffer is over twice, and each time a batch leaves. The last entry stays. -/
theorem freeMoves_entered : ∃ w w' : Writer, entered.writers[0]? = some w ∧ entered.Free w ∧
    w.config.Tame ∧ w.config.FlushesAfter 5000 ∧ w.config.maxBatchSize = .int 2 ∧
    FreeMoves 0 (entered, w) ((entered.rungBy 5000).rungBy 10000, w') ∧
    w.history.line[4]? = some (.nat 5, 4) ∧ (.nat 5, 4) ∈ w'.history.line ∧
    w'.history.returned = w.history.returned := by
  obtain ⟨w, hw⟩ : ∃ w, entered.writers[0]? = some w := ⟨_, rfl⟩
  obtain ⟨u, hu⟩ : ∃ u, (entered.rungBy 5000).writers[0]? = some u := ⟨_, rfl⟩
  obtain ⟨w', hw'⟩ : ∃ w', ((entered.rungBy 5000).rungBy 10000).writers[0]? = some w' := ⟨_, rfl⟩
  have settled : entered.Settled := ⟨rfl, fun name => by cases name <;> rfl⟩
  have settled' : (entered.rungBy 5000).Settled := ⟨rfl, fun name => by cases name <;> rfl⟩
  have first : Punctual entered (entered.rungBy 5000) := .rungBy settled rfl
  have second : Punctual (entered.rungBy 5000) ((entered.rungBy 5000).rungBy 10000) :=
    .rungBy settled' rfl
  have early : FreeMove 0 (entered, w) (entered.rungBy 5000, u) :=
    ⟨first, hu, free_of_known hu rfl rfl⟩
  have late : FreeMove 0 (entered.rungBy 5000, u) ((entered.rungBy 5000).rungBy 10000, w') :=
    ⟨second, hw', free_of_known hw' rfl rfl⟩
  have before : (entered.writers[0]?).map (fun w => (w.config.maxBatchSize,
      w.config.maxTimeInBuffer, w.config.requestTimeout, w.history)) =
      some (.int 2, some (.int 5), none,
        [(0, .restored [.nat 1, .nat 2, .nat 3, .nat 4, .nat 5])]) := rfl
  have after : (((entered.rungBy 5000).rungBy 10000).writers[0]?).map
      (fun w => (w.history.line, w.history.returned)) = some ([(.nat 5, 4)], 0) := rfl
  rw [hw, Option.map_some, Option.some.injEq, Prod.mk.injEq, Prod.mk.injEq, Prod.mk.injEq] at before
  rw [hw', Option.map_some, Option.some.injEq, Prod.mk.injEq] at after
  obtain ⟨size, limit, timeless, history⟩ := before
  refine ⟨w, w', hw, free_of_known hw rfl rfl, ⟨by rw [size]; rfl, fun l hl => ?_, fun l hl => ?_⟩,
    ⟨_, limit, rfl⟩, size, .tail (.single early) late, by rw [history]; rfl, ?_, ?_⟩
  · cases limit.symm.trans hl
    exact ⟨_, rfl⟩
  · cases timeless.symm.trans hl
  · rw [after.1]
    exact List.mem_singleton_self _
  · rw [after.2, history]
    rfl

/-- Behind two full batches the last entry may stay for three times five milliseconds. -/
theorem stays_are_bounded_entered : ∃ w w' : Writer, entered.writers[0]? = some w ∧
    FreeMoves 0 (entered, w) ((entered.rungBy 5000).rungBy 10000, w') ∧
    w.history.line[4]? = some (.nat 5, 4) ∧ (.nat 5, 4) ∈ w'.history.line ∧
    ((entered.rungBy 5000).rungBy 10000).now ≤
      entered.now + ((4 + (w'.history.returned - w.history.returned)) / 2 + 1) * 5000 := by
  obtain ⟨w, w', hw, free, tame, limited, size, run, place, still, -⟩ := freeMoves_entered
  have civil : entered.Civil := .of_unscripted rfl
  exact ⟨w, w', hw, run, place, still, stays_are_bounded reachable_entered hw civil tame limited
    (by rw [size]; rfl) free run place still⟩

/-- It is still there after ten, and a slot was free all the time. -/
theorem stays_for_two_times : ∃ (w w' : Writer) (e : Value × Nat), Reachable entered ∧
    entered.writers[0]? = some w ∧ w.config.FlushesAfter 5000 ∧ entered.Free w ∧
    FreeMoves 0 (entered, w) ((entered.rungBy 5000).rungBy 10000, w') ∧
    e ∈ w.history.line ∧ e ∈ w'.history.line ∧
    entered.now + 5000 < ((entered.rungBy 5000).rungBy 10000).now := by
  obtain ⟨w, w', hw, free, -, limited, -, run, place, still, -⟩ := freeMoves_entered
  exact ⟨w, w', _, reachable_entered, hw, limited, free, run, List.mem_of_getElem? place, still,
    by decide⟩

end Bench
end BatchWriter
