import BatchWriter.Proofs.Bench.Course
import BatchWriter.Proofs.Writer.Awaited

/-!
# Timed flushes are waited for

In every run a timed flush is done when the limit of the time in the buffer has passed since the
buffer's alarm was set, for a buffer that held entries. An entry that was there then is still
there, unless all of them have left in other batches since: those do not stop the alarm.
-/

set_option autoImplicit false

namespace BatchWriter

/-- Some entry of the buffer has been there for a time, since it was last put there. -/
def History.Overdue (h : History) (delay now : Nat) : Prop :=
  ∃ e ∈ h.line, ∃ s, h.puttings[e.2]? = some s ∧ s + delay ≤ now

namespace Bench

open Writer (Patient AwaitedFrom)

variable {b b' : Bench} {i : Nat} {w : Writer}

theorem Spell.patient {p q : Bench × Writer} (s : Spell i p q)
    (h : Patient p.1.now p.2 (p.1.duesOf i)) : Patient q.1.now q.2 (q.1.duesOf i) := by
  obtain ⟨b, w⟩ := p
  obtain ⟨b', w'⟩ := q
  have h : Patient b'.now w (b.duesOf i) := h.later s.clock
  cases s.course with
  | ticks ticks => exact h.ticks ticks
  | lapse was now undeferred stays dues =>
    exact dues ▸ h.lapse was (now ▸ Nat.le_max_right _ _)
  | flush was now undeferred flushes flushed =>
    exact h.rung was (now ▸ Nat.le_max_right _ _) undeferred flushes flushed
  | deferred completed due unset flushed =>
    exact (Patient.ticks completed h).caughtUp due unset flushed
  | @expire u _ due batch r was now found ends ticks =>
    rcases ends with rfl | ⟨-, rfl⟩
    · exact (h.outlived _ _).ticks ticks
    · have fewer : Patient b'.now u
          (Effect.dues b'.now (b.duesOf i) (.cancelAlarm (.expire batch))) :=
        h.fewer rfl rfl rfl (fun due set => by simpa [Effect.dues] using set) fun on => on
      exact fewer.ticks ticks
  | closes now bound closed dues =>
    dsimp only
    rw [dues]
    exact h.fewer rfl rfl rfl (fun _ set => by cases set) fun on => on

theorem Reachable.patient (h : Reachable b) (hw : b.writers[i]? = some w) :
    Patient b.now w (b.duesOf i) := by
  refine h.by_spells (P := fun p => Patient p.1.now p.2 (p.1.duesOf i)) hw
    (fun c u fresh idle stamped unset => .of_idle fresh.lawful idle (fun e he => (stamped e he).le)
      (congrFun unset _) fun e he => ?_) fun _ _ spell => spell.patient
  obtain ⟨now, entries, history, -⟩ := fresh.history
  rw [history, List.mem_singleton] at he
  simp [he]

/-- **Timed flushes are waited for.** In every run, when a timed flush begins the buffer holds
entries, the limit of their time in it has passed since the alarm was set, for a buffer that held
entries too, and there was no other timed flush meanwhile. One of the entries has been there for
that time, or all that were there when the alarm was set have left. -/
theorem timed_flushes_are_waited_for (h : Reachable b) (hw : b.writers[i]? = some w) {t : Nat}
    {earlier : History} (flushed : (t, .flushed) :: earlier <:+ w.history) :
    earlier.line ≠ [] ∧ ∃ delay since begun, AwaitedFrom w.config earlier t delay since begun ∧
      (earlier.Overdue delay t ∨ ∀ e ∈ begun.line, e ∈ earlier.departed) := by
  obtain ⟨⟨delay, since, begun, awaited⟩, filled⟩ := (h.patient hw).flushes t earlier flushed
  refine ⟨filled, delay, since, begun, awaited, ?_⟩
  obtain ⟨newer, rfl, -⟩ := awaited.unflushed
  have still := History.parade_sublist (List.suffix_append newer begun)
  -- Whatever was there then and has not left is there still, and was put there no later.
  by_cases left : ∀ e ∈ begun.line, e ∈ (newer ++ begun).departed
  · exact .inr left
  · simp only [not_forall] at left
    obtain ⟨e, was, stays⟩ := left
    have there : e ∈ (newer ++ begun).line :=
      (List.mem_append.1 (still.subset (List.mem_append_right _ was))).resolve_left stays
    obtain ⟨s, early, put⟩ := History.put_by was (List.suffix_append newer begun) awaited.before
    exact .inl ⟨e, there, s, put, (Nat.add_le_add_right early delay).trans awaited.elapsed⟩

def beginWrite (n : Nat) (b : Bench) : Bench :=
  b.start .main (some "write") (.write { writer := 0, elements := [.nat n] } .start) []

theorem Reachable.beginWrite (h : Reachable b) (built : b.writerIndex "w" = .ok 0) (n : Nat) :
    Reachable (b.beginWrite n) := by
  have known : b.programOf "write" (.write "w" (.nat n) none) =
      .ok (.write { writer := 0, elements := [.nat n] } .start) := by
    rw [programOf, built]
    rfl
  exact h.move (.start .main known)

def unpaired : Bench :=
  run 9 (beginWrite 1 (single [("max_batch_size", .nat 2), ("max_in_flight_requests", .nat 2),
    ("max_buffered_requests", .nat 4), ("max_time_in_buffer_ms", .nat 5)] []))

/-- Nothing else happens, and the entry is flushed when its time is over. -/
theorem timed_flushes_are_waited_for_unpaired : ∃ (w : Writer) (earlier : History),
    (unpaired.rungBy 5000).writers[0]? = some w ∧ (5000, .flushed) :: earlier <:+ w.history ∧
    earlier.line = [(.nat 1, 0)] ∧ ∃ delay since begun,
      AwaitedFrom w.config earlier 5000 delay since begun ∧
      (earlier.Overdue delay 5000 ∨ ∀ e ∈ begun.line, e ∈ earlier.departed) := by
  obtain ⟨w, hw⟩ : ∃ w, (unpaired.rungBy 5000).writers[0]? = some w := ⟨_, rfl⟩
  have known : ((unpaired.rungBy 5000).writers[0]?).map (·.history) = some [
      (5000, .handed 1 [.nat 1]), (5000, .opened 1 [.nat 1]), (5000, .flushed),
      (0, .accepted (.nat 1)), (0, .restored [])] := rfl
  rw [hw, Option.map_some, Option.some.injEq] at known
  have flushed :
      (5000, .flushed) :: [(0, .accepted (.nat 1)), (0, .restored [])] <:+ w.history := by
    rw [known]
    exact ⟨[_, _], rfl⟩
  have reachable : Reachable (unpaired.rungBy 5000) :=
    .rungBy (((reachable_single _ _).beginWrite rfl 1).run 9) rfl _
  exact ⟨w, _, hw, flushed, rfl, (timed_flushes_are_waited_for reachable hw flushed).2⟩

def paired : Bench :=
  run 9 (beginWrite 2 { unpaired with time := unpaired.time.moveTo 3000 })

def hasty : Bench := (run 9 (beginWrite 3 paired)).rungBy 5000

theorem reachable_hasty : Reachable hasty := by
  have first : Reachable unpaired := ((reachable_single _ _).beginWrite rfl 1).run 9
  have second : Reachable paired := ((first.move (.wait 3000)).beginWrite rfl 2).run 9
  exact .rungBy ((second.beginWrite rfl 3).run 9) rfl _

/-- The third entry is flushed two milliseconds after it was written. -/
theorem flushes_a_young_entry : ∃ (w : Writer) (earlier : History), Reachable hasty ∧
    hasty.writers[0]? = some w ∧ w.config.maxTimeInBuffer = some (.int 5) ∧
    (Number.int 5).delayMilliseconds = .ok (some 5000) ∧
    (5000, .flushed) :: earlier <:+ w.history ∧ earlier.line = [(.nat 3, 2)] ∧
    ¬earlier.Overdue 5000 5000 := by
  obtain ⟨w, hw⟩ : ∃ w, hasty.writers[0]? = some w := ⟨_, rfl⟩
  have known : (hasty.writers[0]?).map (fun w => (w.config.maxTimeInBuffer, w.history)) =
      some (some (.int 5), [(5000, .handed 2 [.nat 3]), (5000, .opened 2 [.nat 3]),
        (5000, .flushed), (3000, .accepted (.nat 3)), (3000, .handed 1 [.nat 1, .nat 2]),
        (3000, .opened 1 [.nat 1, .nat 2]), (3000, .accepted (.nat 2)), (0, .accepted (.nat 1)),
        (0, .restored [])]) := rfl
  rw [hw, Option.map_some, Option.some.injEq, Prod.mk.injEq] at known
  refine ⟨w, w.history.drop 3, reachable_hasty, hw, known.1, rfl, ?_, ?_, ?_⟩
  · rw [known.2]
    exact ⟨[_, _], rfl⟩
  · rw [known.2]
    rfl
  · rintro ⟨e, he, s, put, early⟩
    rw [known.2] at he put
    rw [List.mem_singleton.1 he] at put
    cases put
    omega

end Bench
end BatchWriter
