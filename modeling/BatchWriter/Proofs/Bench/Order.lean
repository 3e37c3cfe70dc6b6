import BatchWriter.Proofs.Bench.Handover
import BatchWriter.Proofs.Bench.Safety
import BatchWriter.Proofs.Bench.Terminal
import BatchWriter.Proofs.Writer.SingleFlight

/-!
# Batches leave in order

In every run entries leave a buffer from its head, and those that return take their places
there before all others. Under limits that are accepted a dispatch calls the destination with
every batch that it opens; a delay that is not accepted stops it in between. With at most one
batch open at a time, retries never reorder what has still to be persisted.
-/

set_option autoImplicit false

namespace BatchWriter
namespace Bench

open Writer (Submitted)

variable {b b' : Bench} {i : Nat} {w w' : Writer}

/-- Under limits that are accepted the destination is called with every batch that is opened. -/
theorem Reachable.submitted (h : Reachable b) : b.Throughout Submitted :=
  fun i w hw tame => ((h.conveys i w hw).paired tame.timeout).deliveries

/-! ## The order of dispatch -/

/-- How entries leave the buffer of a writer on the way from one state of it to a later one.
Entries are told apart by the numbers they got when they were put into the buffer. -/
structure LeavesInOrder (w w' : Writer) : Prop where
  /-- The line is the buffer from its head, -/
  line : w.history.line.map Prod.fst = w.buffer.entries
  /-- and what has left it makes up the batches. -/
  departed : w'.history.departed.map Prod.fst = w'.history.batches.flatten
  numbered : (w'.history.departed ++ w'.history.line).Nodup
  /-- Of two in the buffer the one nearer its head leaves first. -/
  first : ∀ e f, [e, f].Sublist w.history.line → f ∈ w'.history.departed →
    [e, f].Sublist w'.history.departed
  /-- What a completion returned leaves in the order in which it was reported, before all that
  was in the buffer then and all that a write appended later. -/
  requeued : ∀ (now batch : Nat) (entries failed : List Value) (earlier : History),
    (now, .completed batch entries failed) :: earlier <:+ w'.history →
    ∀ e f, f ∈ w'.history.departed →
      [e, f].Sublist (failed.zipIdx earlier.puts) ∨ e ∈ failed.zipIdx earlier.puts ∧
        (f ∈ earlier.line ∨ ∃ (t : Nat) (entry : Value) (between : History),
          (t, .accepted entry) :: between <:+ w'.history ∧
          (now, .completed batch entries failed) :: earlier <:+ between ∧
          f = (entry, between.puts)) →
      [e, f].Sublist w'.history.departed
  /-- Without reports of failed entries nobody ever falls back. -/
  untroubled : w'.history.Untroubled → w'.history.batches.flatten ++ w'.buffer.entries =
    w'.history.initial ++ w'.history.written
  /-- The destination is called with the batches in turn, -/
  called : w'.history.deliveries.Sublist w'.history.batches
  /-- and with all of them if the limits are accepted. -/
  submitted : w'.config.Tame → w'.history.deliveries = w'.history.batches

/-- **Order.** In every run, whatever is reported, entries leave a buffer in the order in which
they stand there. -/
theorem entries_leave_in_order (h : Reachable b) (hw : b.writers[i]? = some w)
    (moves : Moves b b') (hw' : b'.writers[i]? = some w') : LeavesInOrder w w' := by
  have h' := h.moves moves
  have inLine := (h'.lawful hw').inLine
  obtain ⟨u, hu, ceases⟩ := h.stills_moves moves i w hw
  rw [hw', Option.some.injEq] at hu
  subst hu
  refine ⟨(h.lawful hw).inLine.buffer, inLine.batches, w'.history.parade_nodup,
    fun e f before gone => ?_,
    fun now batch entries failed earlier hs e f gone behind => ?_, inLine.untroubled,
    (h'.lawful hw').inTurn _ (List.suffix_refl _), h'.submitted i w' hw'⟩
  · exact History.departs_first (before.trans (List.sublist_append_right _ _))
      ceases.later.history gone
  · exact History.requeued_first hs gone behind

def overtaking : Bench :=
  run 1 ((run 5 (flushing [("max_batch_size", .nat 2), ("max_in_flight_requests", .nat 1),
    ("max_buffered_requests", .nat 4)] [.nat 1, .nat 2, .nat 3])).tellHandle
    (.batch 0 .main 1) (.completed [.nat 2]))

theorem reachable_overtaking : Reachable overtaking := by
  refine (((reachable_flushing rfl).run 5).move (.tell ?_ _)).run 1
  exact ⟨_, rfl, rfl⟩

theorem entries_leave_in_order_overtaking : ∃ w w', overtaking.writers[0]? = some w ∧
    (run 5 overtaking).writers[0]? = some w' ∧ LeavesInOrder w w' ∧
    w.history.line = [(.nat 2, 3), (.nat 3, 2)] ∧
    w'.history.departed = [(.nat 1, 0), (.nat 2, 1), (.nat 2, 3), (.nat 3, 2)] := by
  obtain ⟨w, hw⟩ : ∃ w, overtaking.writers[0]? = some w := ⟨_, rfl⟩
  obtain ⟨w', hw'⟩ : ∃ w', (run 5 overtaking).writers[0]? = some w' := ⟨_, rfl⟩
  have ordered := entries_leave_in_order reachable_overtaking hw (moves_run overtaking 5) hw'
  cases hw
  cases hw'
  exact ⟨_, _, rfl, rfl, ordered, rfl, rfl⟩

/-- **Single flight.** While a writer may have one open batch only and every completion reports
a subsequence of its own batch, the open batch followed by the buffer is a subsequence of what
the writer was built with followed by what was written to it, whether the writer still accepts
work or not. The same holds of the entries as the tracker has them. -/
theorem single_flight_keeps_order (h : Reachable b) (hw : b.writers[i]? = some w)
    (single : w.config.maxInFlight.same (.int 1) = true) (ordered : w.history.Ordered) :
    w.inFlight.count ≤ 1 ∧
      ((w.inFlight.requests.flatMap fun r => w.history.openedWith r.id) ++
        w.buffer.entries).Sublist (w.history.initial ++ w.history.written) ∧
      ((w.inFlight.requests.flatMap (·.entries)) ++ w.buffer.entries).Sublist
        (w.history.initial ++ w.history.written) := by
  have lawful := h.lawful hw
  have flies : w.SingleFlight := single
  have sequence := lawful.inSequence flies ordered
  have opened : w.history.underway =
      w.inFlight.requests.flatMap fun r => w.history.openedWith r.id := by
    rw [History.underway, lawful.tracked.opened, InFlight.ids, List.flatMap_map]
  rw [Writer.InSequence, Writer.backlog, opened] at sequence
  refine ⟨?_, sequence, List.Sublist.trans (List.Sublist.append_right ?_ _) sequence⟩
  · rw [← InFlight.length_ids]
    exact flies.length_ids_le lawful.bounded lawful.tracked
  · refine List.Sublist.flatMap_right _ fun r isOpen => ?_
    rcases lawful.carried r isOpen with same | emptied
    · rw [same]
    · rw [emptied]
      exact List.nil_sublist _

/-- The entry that returned is sent again together with the one behind it. -/
theorem single_flight_keeps_order_overtaking : ∃ w, (run 5 overtaking).writers[0]? = some w ∧
    w.config.maxInFlight.same (.int 1) = true ∧ w.history.Ordered ∧
    (w.inFlight.requests.flatMap fun r => w.history.openedWith r.id) = [.nat 2, .nat 3] ∧
    ((w.inFlight.requests.flatMap fun r => w.history.openedWith r.id) ++
      w.buffer.entries).Sublist (w.history.initial ++ w.history.written) := by
  obtain ⟨w, hw⟩ : ∃ w, (run 5 overtaking).writers[0]? = some w := ⟨_, rfl⟩
  have known : ((run 5 overtaking).writers[0]?).map (fun w =>
      (w.config.maxInFlight, w.history, w.inFlight.ids)) =
      some (.int 1, [(0, .handed 2 [.nat 2, .nat 3]), (0, .opened 2 [.nat 2, .nat 3]),
        (0, .completed 1 [.nat 1, .nat 2] [.nat 2]), (0, .handed 1 [.nat 1, .nat 2]),
        (0, .opened 1 [.nat 1, .nat 2]), (0, .restored [.nat 1, .nat 2, .nat 3])], [2]) := rfl
  rw [hw, Option.map_some, Option.some.injEq, Prod.mk.injEq, Prod.mk.injEq] at known
  obtain ⟨limit, history, isOpen⟩ := known
  have single : w.config.maxInFlight.same (.int 1) = true := by rw [limit]; rfl
  have ordered : w.history.Ordered := by
    simp [history, History.ordered_cons, History.ordered_nil, History.openedWith]
  have inFlight : (w.inFlight.requests.flatMap fun r => w.history.openedWith r.id) =
      [.nat 2, .nat 3] := by
    have ids : (w.inFlight.requests.flatMap fun r => w.history.openedWith r.id) =
        w.inFlight.ids.flatMap w.history.openedWith := by rw [InFlight.ids, List.flatMap_map]
    rw [ids, isOpen, history]
    rfl
  have kept := single_flight_keeps_order (reachable_overtaking.run 5) hw single ordered
  exact ⟨w, hw, single, ordered, inFlight, kept.2.1⟩

def overlong : Bench :=
  (single [("max_batch_size", .nat 1), ("request_timeout_sec", .nat ((10 ^ 200) ^ 2))]
    [.nat 1, .nat 2]).start .main (some "write")
      (.write { writer := 0, elements := [.nat 3] } .start) []

/-- The write has ended; the first entry has left the buffer, and no destination was called
with it. -/
theorem drops_when_delay_is_refused : ∃ w, Reachable (run 7 overlong) ∧
    (run 7 overlong).running = none ∧ (run 7 overlong).writers[0]? = some w ∧
    w.history.Untroubled ∧
    w.history.deliveries.flatten ++ w.buffer.entries ≠ w.history.initial ++ w.history.written := by
  have known : (single [("max_batch_size", .nat 1), ("request_timeout_sec", .nat ((10 ^ 200) ^ 2))]
      [.nat 1, .nat 2]).programOf "write" (.write "w" (.nat 3) none) =
        .ok (.write { writer := 0, elements := [.nat 3] } .start) := rfl
  -- The limit is too large for the elaborator to compute with.
  have counted : ((run 7 overlong).writers[0]?).map (fun w =>
      ((w.history.deliveries.flatten ++ w.buffer.entries).length,
        (w.history.initial ++ w.history.written).length, w.history.filterMap (·.2.ended?))) =
      some (2, 3, []) := by decide +kernel
  obtain ⟨w, hw, counts⟩ := Option.map_eq_some_iff.1 counted
  rw [Prod.mk.injEq, Prod.mk.injEq] at counts
  obtain ⟨left, given, ended⟩ := counts
  refine ⟨w, ((reachable_single _ _).move (.start .main known)).run 7, by decide +kernel, hw, ?_,
    fun same => ?_⟩
  · intro t batch entries failed hm
    have some : batch ∈ w.history.filterMap (·.2.ended?) := List.mem_filterMap.2 ⟨_, hm, rfl⟩
    rw [ended] at some
    cases some
  · rw [same, given] at left
    cases left

end Bench
end BatchWriter
