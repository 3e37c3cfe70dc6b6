import BatchWriter.Proofs.Bench.Reachable

/-!
# What becomes of the entries

In every run nothing is lost and nothing is sent twice, a commit returns when everything
that came before it is persisted, and the destination is called within the limits.
-/

set_option autoImplicit false

namespace BatchWriter
namespace Bench

open History

variable {b : Bench} {i id : Nat} {w : Writer}

/-- A batch and what it was opened with, over the open batches of the tracker. -/
theorem outstanding_eq (h : w.Tracked) : w.history.outstanding =
    (w.inFlight.requests.map fun r => (w.history.openedWith r.id : Multiset Value)).sum := by
  rw [outstanding, h.opened, InFlight.ids, List.map_map]
  rfl

/-- **Conservation.** While a writer is neither failed nor closed, what it was given is
persisted, in an open batch or in the buffer, each entry as often as it was given. The
tracker has each open batch as it was opened, unless the destination has emptied the list
that it was handed. -/
theorem conservation (h : Reachable b) (hw : b.writers[i]? = some w) (isOpen : w.closed = false)
    (healthy : w.failure = none) (faithful : w.history.Faithful) :
    w.history.admitted = w.history.persisted +
        (w.inFlight.requests.map fun r => (w.history.openedWith r.id : Multiset Value)).sum +
        (w.buffer.entries : Multiset Value) ∧
      ∀ r ∈ w.inFlight.requests, r.entries = w.history.openedWith r.id ∨ r.entries = [] := by
  have lawful := h.lawful hw
  have usable : w.refusal? = none := Writer.refusal?_eq_none_iff.2 ⟨isOpen, healthy⟩
  refine ⟨?_, lawful.carried⟩
  rw [← outstanding_eq lawful.tracked]
  exact lawful.balanced usable faithful

def returning : Bench :=
  run 1 ((run 5 (flushing [("max_batch_size", .nat 2)] [.nat 1, .nat 2, .nat 3])).tellHandle
    (.batch 0 .main 1) (.completed [.nat 2]))

theorem reachable_returning : Reachable returning := by
  refine (((reachable_flushing rfl).run 5).move (.tell ?_ _)).run 1
  exact ⟨_, rfl, rfl⟩

theorem conservation_returning : ∃ w, returning.writers[0]? = some w ∧ w.closed = false ∧
    w.failure = none ∧ w.history.Faithful ∧ w.history.admitted = w.history.persisted +
      (w.inFlight.requests.map fun r => (w.history.openedWith r.id : Multiset Value)).sum +
      (w.buffer.entries : Multiset Value) := by
  obtain ⟨w, hw⟩ : ∃ w, returning.writers[0]? = some w := ⟨_, rfl⟩
  have known : (returning.writers[0]?).map (fun w => (w.closed, w.failure, w.history)) =
      some (false, none, [(0, .completed 1 [.nat 1, .nat 2] [.nat 2]), (0, .handed 2 [.nat 3]),
        (0, .opened 2 [.nat 3]), (0, .handed 1 [.nat 1, .nat 2]), (0, .opened 1 [.nat 1, .nat 2]),
        (0, .restored [.nat 1, .nat 2, .nat 3])]) := rfl
  rw [hw, Option.map_some, Option.some.injEq, Prod.mk.injEq, Prod.mk.injEq] at known
  obtain ⟨isOpen, healthy, history⟩ := known
  have faithful : w.history.Faithful := by
    simp [history, faithful_cons, faithful_nil, openedWith]
  have proved := conservation reachable_returning hw isOpen healthy faithful
  exact ⟨w, hw, isOpen, healthy, faithful, proved.1⟩

/-! A commit returns only from an idle writer. -/

theorem goUnless_ne_ok (fault : Option Fault) (next : Program) (v : Value) :
    Progress.goUnless fault next ≠ .finish (.ok v) := by
  cases fault <;> simp [Progress.goUnless, Progress.stop]

theorem waitForChange_ne_ok (b : Bench) (id i : Nat) (loop : LoopName) (next : Program)
    (v : Value) : (b.waitForChange id i loop next).2 ≠ .finish (.ok v) := by
  unfold waitForChange
  dsimp only
  generalize Prod.fst _ = fault
  cases fault <;> simp [Progress.stop]

/-- A commit that returns has found its writer idle, and leaves it as it is. -/
theorem idle_of_commitStep {loop : LoopName} {job : CommitJob} {point : CommitPoint} {v : Value}
    (returns : (b.commitStep id loop job point).2 = .finish (.ok v)) :
    point = .drain ∧ ∃ w : Writer, b.writers[job.writer]? = some w ∧ w.isBusy = false ∧
      (b.commitStep id loop job point).1.writers[job.writer]? = some w := by
  cases point with
  | start | woken => exact absurd returns (goUnless_ne_ok _ _ _)
  | drain =>
    refine ⟨rfl, ?_⟩
    cases hw : b.writers[job.writer]? with
    | none =>
      rw [commitStep, commitDrain, withWriter, hw] at returns
      cases returns
    | some w =>
      rw [commitStep, commitDrain, withWriter_some hw] at returns ⊢
      split at returns
      · split at returns
        · exact absurd returns (goUnless_ne_ok _ _ _)
        · exact absurd returns (waitForChange_ne_ok _ _ _ _ _ _)
      · next idle =>
        rw [if_neg idle]
        exact ⟨w, rfl, by simpa using idle, writer_change hw _⟩

theorem writers_finish (b : Bench) (id : Nat) (outcome : Except Fault Value) :
    (b.finish id outcome).writers = b.writers := by
  have posts : ∀ (ws : List Watcher) (name : LoopName) (c : Bench),
      (ws.foldl (fun b w => b.post name (w.callback id)) c).writers = c.writers := by
    intro ws
    induction ws with
    | nil => exact fun _ _ => rfl
    | cons _ rest ih => exact fun name c => (ih name _).trans (writers_post _ _ _)
  unfold finish
  split
  · rfl
  · rw [posts]
    split <;> rfl

/-- **Checkpoint safety.** When a commit returns, its writer has nothing buffered and nothing
in flight, accepts work and has lost no batch; every entry that it was given went through in
the batch that it was dispatched in last. If completions reported entries of their own
batches only, all entries are persisted, each as often as it was given. -/
theorem commit_settles (h : Reachable b) {c : Call} {job : CommitJob} {point : CommitPoint}
    {v : Value} (running : b.running = some id) (hc : b.calls[id]? = some c)
    (commits : c.program = .commit job point)
    (returns : (b.advanceProgram id c.loop c.program).2 = .finish (.ok v)) :
    ∃ w : Writer, (b.proceed id).writers[job.writer]? = some w ∧
      w.buffer.entries = [] ∧ w.inFlight.requests = [] ∧ w.closed = false ∧ w.failure = none ∧
      (∀ e ∈ w.history, ¬ e.2.IsLoss) ∧ (∀ entry ∈ w.history.admitted, w.history.Delivered entry) ∧
      (w.history.Faithful → w.history.admitted = w.history.persisted) := by
  obtain ⟨c', hc', -, poised⟩ := h.orderly.current id running
  rw [hc, Option.some.injEq] at hc'
  rw [← hc', commits] at poised
  rw [commits] at returns
  obtain ⟨rfl, w, hw, idle, kept⟩ := idle_of_commitStep returns
  have lawful := h.lawful hw
  have usable : w.refusal? = none := poised w hw
  obtain ⟨empty, buffered⟩ : w.inFlight.requests = [] ∧ w.buffer.entries = [] := by
    rw [Bool.eq_false_iff, Ne, Writer.isBusy_iff, not_or, not_lt, not_not] at idle
    exact ⟨List.length_eq_zero_iff.1 (Nat.le_zero.1 idle.1), idle.2⟩
  have closed : w.inFlight.ids = [] := by rw [InFlight.ids, empty, List.map_nil]
  obtain ⟨isOpen, healthy⟩ := Writer.refusal?_eq_none_iff.1 usable
  refine ⟨w, ?_, buffered, empty, isOpen, healthy, lawful.unharmed usable, ?_, ?_⟩
  · rw [proceed]
    simp only [hc, commits]
    rw [returns, resolve, writers_finish]
    exact kept
  · intro entry given
    rcases lawful.placed usable entry given with waits | ⟨batch, sent, isOpen | settled⟩
    · rw [buffered] at waits
      cases waits
    · rw [closed] at isOpen
      cases isOpen
    · exact ⟨batch, sent, settled⟩
  · intro faithful
    have balance := lawful.balanced usable faithful
    rw [outstanding, lawful.tracked.opened, closed, buffered] at balance
    simpa using balance

def settling : Bench :=
  run 3 ((run 4 (flushing [] [.nat 1])).tellHandle (.batch 0 .main 1) (.completed []))

theorem reachable_settling : Reachable settling := by
  refine (((reachable_flushing rfl).run 4).move (.tell ?_ _)).run 3
  exact ⟨_, rfl, rfl⟩

theorem commit_settles_one : ∃ c w, settling.running = some 0 ∧ settling.calls[0]? = some c ∧
    c.program = .commit { writer := 0, flush := .bool true } .drain ∧
    (settling.advanceProgram 0 c.loop c.program).2 = .finish (.ok (.list [])) ∧
    (settling.proceed 0).writers[0]? = some w ∧ w.buffer.entries = [] ∧
    w.inFlight.requests = [] ∧ ∀ entry ∈ w.history.admitted, w.history.Delivered entry := by
  obtain ⟨c, hc⟩ : ∃ c, settling.calls[0]? = some c := ⟨_, rfl⟩
  have known : (settling.calls[0]?).map (fun c => (c.loop, c.program)) =
      some (.main, .commit { writer := 0, flush := .bool true } .drain) := rfl
  rw [hc, Option.map_some, Option.some.injEq, Prod.mk.injEq] at known
  obtain ⟨loop, commits⟩ := known
  have running : settling.running = some 0 := rfl
  have returns : (settling.advanceProgram 0 c.loop c.program).2 = .finish (.ok (.list [])) := by
    rw [loop, commits]
    rfl
  obtain ⟨w, hw, buffered, empty, -, -, -, delivered, -⟩ :=
    commit_settles reachable_settling running hc commits returns
  exact ⟨c, w, running, hc, commits, returns, hw, buffered, empty, delivered⟩

/-- **Bounds.** No more batches are open than the limit says. Each time the destination was
called, the batch had at least one entry and at most as many as the limit says, and it was
one of the open batches, of which there were no more than the limit says. -/
theorem batches_within_limits (h : Reachable b) (hw : b.writers[i]? = some w) {limit size : Int}
    (slots : w.config.maxInFlight.whole? = some limit)
    (sizes : w.config.maxBatchSize.whole? = some size) :
    (w.inFlight.count : Int) ≤ limit ∧ w.history.openBatches = w.inFlight.ids ∧
      ∀ (t batch : Nat) (entries : List Value) (earlier : History),
        (t, .handed batch entries) :: earlier <:+ w.history →
          1 ≤ entries.length ∧ (entries.length : Int) ≤ size ∧ batch ∈ earlier.openBatches ∧
            (earlier.openBatches.length : Int) ≤ limit := by
  have lawful := h.lawful hw
  refine ⟨lawful.bounded.count_le lawful.tracked slots, lawful.tracked.opened, ?_⟩
  intro t batch entries earlier called
  obtain ⟨⟨some, fits⟩, isOpen, room⟩ := lawful.bounded.handed t batch entries earlier called
  exact ⟨List.length_pos_iff.2 some, fits size sizes, isOpen, room limit slots⟩

theorem batches_within_limits_two : ∃ w, returning.writers[0]? = some w ∧
    w.config.maxInFlight.whole? = some 50 ∧ w.config.maxBatchSize.whole? = some 2 ∧
    ∀ (t batch : Nat) (entries : List Value) (earlier : History),
      (t, .handed batch entries) :: earlier <:+ w.history →
        1 ≤ entries.length ∧ (entries.length : Int) ≤ 2 ∧ batch ∈ earlier.openBatches ∧
          (earlier.openBatches.length : Int) ≤ 50 := by
  obtain ⟨w, hw⟩ : ∃ w, returning.writers[0]? = some w := ⟨_, rfl⟩
  have known : (returning.writers[0]?).map (fun w =>
      (w.config.maxInFlight.whole?, w.config.maxBatchSize.whole?)) = some (some 50, some 2) := rfl
  rw [hw, Option.map_some, Option.some.injEq, Prod.mk.injEq] at known
  obtain ⟨slots, sizes⟩ := known
  exact ⟨w, hw, slots, sizes, (batches_within_limits reachable_returning hw slots sizes).2.2⟩

end Bench
end BatchWriter
