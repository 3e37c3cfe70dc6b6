import BatchWriter.Proofs.Bench.Gate
import BatchWriter.Proofs.Bench.Tended
import BatchWriter.Proofs.Writer.Memory

/-!
# When an entry is accepted

In every run a write appends its entry to a writer that accepts work and has room, or told
subscribers that are not prompt that the buffer has recovered.
-/

set_option autoImplicit false

namespace BatchWriter

namespace Writer

def Accepts (w w' : Writer) : Prop :=
  ∃ (newer : History) (t : Nat) (entry : Value),
    w'.history = newer ++ w.history ∧ (t, .accepted entry) ∈ newer

variable {w w' : Writer}

theorem Unfed.not_accepts (h : w.Unfed w') : ¬ w.Accepts w' := by
  rintro ⟨newer, t, entry, history, hm⟩
  obtain ⟨quiet, history', none⟩ := h.history
  rw [history', List.append_left_inj] at history
  exact none _ (history ▸ hm) entry rfl

theorem history_accept (w : Writer) (now : Nat) (entry : Value) :
    (w.accept now entry).writer.history = (now, .accepted entry) :: w.history := by
  unfold accept
  rw [Change.writer_andThen rfl]
  exact (silent_armTimerIf _ _).history

theorem config_accept (w : Writer) (now : Nat) (entry : Value) :
    (w.accept now entry).writer.config = w.config :=
  (regular_accept w now entry).later.config

end Writer

namespace Bench

/-- A write that has told subscribers that are not prompt that the buffer has recovered is
about to append its entry. -/
def Recovering (b : Bench) (i : Nat) : Prop :=
  ¬ b.Prompt ∧ ∃ (id : Nat) (c : Call) (job : WriteJob), b.running = some id ∧
    b.calls[id]? = some c ∧ c.program = .write job .accept ∧ job.writer = i ∧
    job.published.getLast? = some .ok

variable {old : Nat → Prop} {b b' : Bench} {id i : Nat} {c : Call} {w w' : Writer}

/-- The running call has seen what it needs; nobody else stands where it would be lost. -/
structure Gated (b : Bench) : Prop where
  current : ∀ (id : Nat) (c : Call), b.running = some id → b.calls[id]? = some c →
    c.program.Cleared b
  others : ∀ (id : Nat) (c : Call), b.running ≠ some id → b.calls[id]? = some c →
    c.isEnded = false → c.program.Paused b

/-- Whatever does not take a call on leaves the others where they may stand. -/
theorem Gated.paused (h : Gated b) (stays : Stays old b b') {c' : Call}
    (hc' : b'.calls[id]? = some c') (other : b.running ≠ some id) (live : c'.isEnded = false) :
    c'.program.Paused b' := by
  rcases stays.origin hc' with ⟨c, hc, keeps⟩ | ⟨-, begins, -⟩
  · rw [keeps.program, paused_iff stays.subscribers]
    exact h.others id c other hc (keeps.ended.symm.trans live)
  · exact Begins.paused begins

theorem Gated.beside (h : Gated b) (noProgress : NoProgress old b b')
    (spares : b.running = none ∨ b.Spares b') :
    Gated b' where
  current id c' running hc' := by
    rw [noProgress.running] at running
    rcases spares with idle | spares
    · rw [idle] at running
      cases running
    · rcases noProgress.origin hc' with ⟨c, hc, keeps⟩ | ⟨-, begins, -⟩
      · rw [keeps.program]
        exact spares.cleared noProgress.subscribers (h.current id c running hc)
      · exact cleared_of_paused (Begins.paused begins)
  others id c' other hc' live := h.paused noProgress.toStays hc' (noProgress.running ▸ other) live

theorem gated_resolve (h : Gated b) (hc : b.calls[id]? = some c)
    (turn : b.running = none ∨ b.running = some id) (stays : Stays old b b') {progress : Progress}
    (checked : progress.Checked b') : Gated (b'.resolve id progress) := by
  obtain ⟨c₁, hc₁, -⟩ := stays.kept id c hc
  have after := resolved hc₁ progress
  have spares : b'.Spares (b'.resolve id progress) := .of_writers after.writers
  have others : ∀ (k : Nat) (c' : Call), k ≠ id → (b'.resolve id progress).calls[k]? = some c' →
      c'.isEnded = false → c'.program.Paused (b'.resolve id progress) := by
    intro k c' hk hc' live
    rw [paused_iff after.subscribers]
    refine h.paused stays ((after.others k hk).symm.trans hc') ?_ live
    rcases turn with idle | running
    · rw [idle]
      simp
    · rw [running]
      exact fun he => hk (Option.some.inj he).symm
  refine ⟨fun k c' running hc' => ?_, fun k c' other hc' live => ?_⟩
  · rw [after.running] at running
    split at running
    · next goesOn =>
      cases running
      obtain ⟨-, -, program⟩ := after.call hc'
      cases progress with
      | go p =>
        rw [program]
        exact spares.cleared after.subscribers checked
      | yield _ | sleep _ _ | wait _ _ | finish _ => cases goesOn
    · cases running
  · by_cases hk : k = id
    · subst hk
      obtain ⟨-, -, program⟩ := after.call hc'
      have goes := after.isEnded hc'
      rw [live] at goes
      cases progress with
      | finish _ => cases goes
      | go p =>
        rw [after.running] at other
        exact absurd rfl other
      | yield p | sleep _ p | wait _ p =>
        rw [program, paused_iff after.subscribers]
        exact checked
    · exact others k c' hk hc' live

theorem Shift.gated (h : Shift old b b') (orderly : Orderly b) (gated : Gated b) : Gated b' := by
  cases h with
  | beside noProgress spares => exact gated.beside noProgress spares
  | @woken id c b₀ idle hc queued noProgress spares calls same =>
    have still := gated.others id c (by rw [idle]; simp) hc (by rw [Call.isEnded, queued])
    rw [same]
    refine gated_resolve gated hc (.inl idle) noProgress.toStays ?_
    exact cleared_of_paused ((paused_iff noProgress.subscribers).2 still)
  | @advanced id c running hc same =>
    obtain ⟨-, -, fits, poised⟩ := orderly.runs running hc
    have checked := checked_advanceProgram (orderly.coherent.take (some id)) fits poised
      (gated.current id c running hc)
    rw [same]
    exact gated_resolve gated hc (.inr running) (stays_advanceProgram (known_any b) id _ _) checked
  | @interrupted id c b₀ idle hc queued noProgress calls same =>
    have ends := interruptProgram_ends b₀ id c.program
    rw [same]
    refine gated_resolve gated hc (.inl idle)
      (noProgress.toStays.trans (stays_interruptProgram b₀ id c.program)) ?_
    exact checked_of_other fun _ _ leads => by rw [ends] at leads; cases leads

theorem gated_start (s : Scenario) : Gated s.start where
  current id c _ hc := by cases hc
  others id c _ hc := by cases hc

theorem Reachable.gated (h : Reachable b) : Gated b := by
  induction h with
  | init s _ => exact gated_start s
  | move h m ih => exact (h.shift m).gated h.orderly ih

/-! Only a write that is about to append its entry has one accepted. -/

theorem Shift.unfed_or (h : Shift old b b') : Unfed b b' ∨
    ∃ (id : Nat) (c : Call) (job : WriteJob), b.running = some id ∧ b.calls[id]? = some c ∧
      c.program = .write job .accept ∧ b'.writers = (b.writeAccept job).1.writers ∧
      b' = (b.writeAccept job).1.resolve id (b.writeAccept job).2 := by
  cases h with
  | beside noProgress _ => exact .inl noProgress.toUnfed
  | @woken id c b₀ _ hc _ noProgress _ calls same =>
    rw [same]
    exact .inl (noProgress.toUnfed.trans (.of_writers (resolved (calls ▸ hc) _).writers))
  | @advanced id c running hc same =>
    obtain ⟨c', hc', -⟩ := (stays_advanceProgram (known_any b) id c.loop c.program).kept id c hc
    have writers := (resolved hc' (b.advanceProgram id c.loop c.program).2).writers
    rw [← same] at writers
    by_cases accepts : ∃ job, c.program = .write job .accept
    · obtain ⟨job, program⟩ := accepts
      rw [program] at writers same
      exact .inr ⟨id, c, job, running, hc, program, writers, same⟩
    · refine .inl ((unfed_advanceProgram fun job program => ?_).trans (.of_writers writers))
      exact accepts ⟨job, program⟩
  | @interrupted id c b₀ _ hc _ noProgress calls same =>
    have stays := noProgress.toStays.trans (stays_interruptProgram b₀ id c.program)
    obtain ⟨c', hc', -⟩ := stays.kept id c hc
    rw [same]
    exact .inl ((noProgress.toUnfed.trans (unfed_interruptProgram b₀ id c.program)).trans
      (.of_writers (resolved hc' _).writers))

/-- The point at which a write appends leaves a writer alone or appends one entry to it. -/
theorem writer_writeAccept {job : WriteJob} (hw' : (b.writeAccept job).1.writers[i]? = some w') :
    b.writers[i]? = some w' ∨ (job.writer = i ∧ ∃ (w : Writer) (entry : Value),
      b.writers[i]? = some w ∧ w'.config = w.config ∧
      w'.history = (b.now, .accepted entry) :: w.history) := by
  cases hw : b.writers[job.writer]? with
  | none =>
    rw [writeAccept, withWriter, hw] at hw'
    exact .inl hw'
  | some w =>
    rw [writeAccept, withWriter_some hw] at hw'
    split at hw'
    · exact .inl hw'
    · next entry _ =>
      by_cases same : i = job.writer
      · subst same
        rw [changeThen, writer_change hw, Option.some.injEq] at hw'
        exact .inr ⟨rfl, w, entry, hw, hw' ▸ w.config_accept _ _, hw' ▸ w.history_accept _ _⟩
      · rw [changeThen, writer_change_of_ne hw _ same] at hw'
        exact .inl hw'

/-- Whoever appends an entry has just seen that its writer accepts work and has room, or has
told subscribers that are not prompt that the buffer has recovered. -/
theorem Move.accepting (m : Move b b') (h : Reachable b) (hw : b.writers[i]? = some w)
    (hw' : b'.writers[i]? = some w') (accepts : w.Accepts w') :
    b.Admits i ∨ b.Recovering i := by
  rcases (h.shift m).unfed_or with unfed | ⟨id, c, job, running, hc, program, writers, -⟩
  · obtain ⟨u, hu, unfed⟩ := unfed.writers i w hw
    rw [hw', Option.some.injEq] at hu
    exact absurd accepts (hu ▸ unfed).not_accepts
  · rw [writers] at hw'
    rcases writer_writeAccept hw' with same | ⟨rfl, -⟩
    · rw [hw, Option.some.injEq] at same
      subst same
      exact absurd accepts (Writer.Unfed.refl w).not_accepts
    · have cleared := h.gated.current id c running hc
      rw [program] at cleared
      exact cleared.imp_right fun told => ⟨told.1, id, c, job, running, hc, program, rfl, told.2⟩

/-! Where all subscribers are prompt, every entry was appended to a buffer that had room. -/

theorem below_of_unfed {u v : Writer} (h : u.Unfed v) {capacity : Int}
    (below : u.history.Below capacity) : v.history.Below capacity :=
  fun t entry earlier hs => below t entry earlier (h.accepted hs)

theorem Reachable.appends_below (h : Reachable b) (prompt : b.Prompt) (hw : b.writers[i]? = some w)
    {capacity : Int} (whole : w.config.maxBuffered.whole? = some capacity) :
    w.history.Below capacity := by
  induction h generalizing i w capacity with
  | init s _ => cases hw
  | @move b b' h m ih =>
    have shift := h.shift m
    have prompt := (prompt_iff shift.subscribers).1 prompt
    rcases shift.unfed_or with unfed | ⟨id, c, job, running, hc, program, writers, -⟩
    · obtain ⟨u, known, unfed⟩ := unfed.origin hw
      rw [unfed.config] at whole
      rcases known with hu | fresh
      · exact below_of_unfed unfed (ih prompt hu whole)
      · obtain ⟨now, entries, history, -⟩ := fresh.history
        refine below_of_unfed unfed fun t entry earlier hs => ?_
        rw [history] at hs
        simpa using hs.subset List.mem_cons_self
    · rw [writers] at hw
      rcases writer_writeAccept hw with hw | ⟨rfl, u, entry, hu, config, history⟩
      · exact ih prompt hw whole
      · rw [config] at whole
        have cleared := h.gated.current id c running hc
        rw [program] at cleared
        obtain ⟨v, hv, -, room⟩ := cleared.resolve_right fun told => told.1 prompt
        rw [hu, Option.some.injEq] at hv
        subst hv
        have lawful := h.lawful hu
        intro t e earlier hs
        rw [history] at hs
        rcases List.suffix_cons_iff.1 hs with newest | older
        · cases newest
          rw [lawful.queue]
          exact lawful.below_of_room whole room
        · exact ih prompt hu whole t e earlier older

end Bench

def WritePoint.Looks (w : Writer) (name : LoopName) (job : WriteJob) : WritePoint → Prop
  | .start => job.elements ≠ [] ∧ w.loop = some name
  | .slot _ => w.hasCapacity = false
  | .woken _ | .dispatch _ => True
  | _ => False

namespace Bench

variable {b b' : Bench} {id i : Nat} {name : LoopName} {w w' : Writer}

/-- A write that finds its writer closed or failed ends with that fault. -/
theorem refused_writeStep {job : WriteJob} {point : WritePoint} {fault : Fault}
    (hw : b.writers[job.writer]? = some w) (refused : w.refusal? = some fault)
    (looks : point.Looks w name job) :
    (b.writeStep id name job point).2 = .finish (.error fault) := by
  have checked : ∀ u : Writer, u.refusal? = some fault → u.checkUsable = .stop u fault := by
    intro u hu
    rw [Writer.checkUsable, hu]
  cases point with
  | start =>
    obtain ⟨some, bound⟩ := looks
    rw [writeStep, writeStart]
    split
    · next none => exact absurd none some
    · rw [changeThen]
      dsimp only
      rw [fault_change hw, Writer.bind_of_bound bound, Writer.stay_andThen, checked w refused]
      rfl
  | slot stage =>
    have full : w.hasCapacity = false := looks
    rw [writeStep, writeSlot, withWriter_some hw, if_neg (by simp [full]), waitForChange]
    dsimp only
    rw [fault_change hw, checked w refused]
    rfl
  | woken stage =>
    rw [writeStep, afterWaiting, changeThen]
    dsimp only
    rw [fault_change hw, Writer.dropWaiter, Writer.stay_andThen,
      checked { w with waiters := w.waiters.filter (· ≠ id) } refused]
    rfl
  | dispatch stage =>
    have stops : (b.dispatch job.writer name).1 = some fault := by
      rw [dispatch, hw]
      simp only [Writer.startDispatch, refused]
      rw [fault_change hw]
      simp only [refused]
      rfl
    rw [writeStep, writeDispatch]
    dsimp only
    rw [stops]
    rfl
  | gate _ | flush _ | accept | batching | publishing _ _ => exact looks.elim

/-! Runs in which an entry is accepted. -/

def writing : Bench :=
  (single [("max_batch_size", .nat 1), ("max_buffered_requests", .nat 2)] []).start .main
    (some "write") (.write { writer := 0, elements := [.nat 8] } .start) []

theorem reachable_writing : Reachable writing := by
  have known : (single [("max_batch_size", .nat 1), ("max_buffered_requests", .nat 2)]
      []).programOf "write" (.write "w" (.nat 8) none) =
        .ok (.write { writer := 0, elements := [.nat 8] } .start) := rfl
  exact (reachable_single _ _).move (.start .main known)

theorem accepts_writing (hw : (run 3 writing).writers[0]? = some w)
    (hw' : (run 4 writing).writers[0]? = some w') : w.Accepts w' := by
  cases hw
  cases hw'
  exact ⟨[(0, .accepted (.nat 8))], 0, .nat 8, rfl, List.mem_singleton_self _⟩

def crowded : Bench :=
  ((Scenario.start ⟨[{ name := "sink", adapter := .manual }],
    [{ name := "slow", reaction := .yield 2 }], []⟩).create "w"
    { config := [("max_batch_size", .nat 1), ("max_in_flight_requests", .nat 1),
        ("max_buffered_requests", .nat 2)]
      initial := .list [.nat 1, .nat 2, .nat 3],
      destination := "sink" }).2.subscribe "global" "slow"

theorem reachable_crowded : Reachable crowded := by
  refine Reachable.move (.move (.init _ ?_) (.create "w" _)) (.subscribe "global" "slow")
  intro d hd
  rw [List.mem_singleton.1 hd]
  exact ⟨rfl, rfl⟩

def congested : Bench :=
  crowded.start .main (some "write") (.write { writer := 0, elements := [.nat 8] } .start) []

def recovering : Bench :=
  run 11 ((run 8 congested).tellHandle (.batch 0 .main 1) (.completed []))

theorem reachable_recovering : Reachable recovering := by
  have known : crowded.programOf "write" (.write "w" (.nat 8) none) =
      .ok (.write { writer := 0, elements := [.nat 8] } .start) := rfl
  refine (((reachable_crowded.move (.start .main known)).run 8).move (.tell ?_ _)).run 11
  exact ⟨_, rfl, rfl⟩

def closedMeanwhile : Bench := run 7 (recovering.start .main (some "close") (.close 0) [])

def filledMeanwhile : Bench :=
  run 13 (recovering.start .main (some "other")
    (.write { writer := 0, elements := [.nat 9] } .start) [])

/-- **Acceptance.** In every run, a writer that accepts an entry is neither closed nor failed,
but for a write that has told subscribers that are not prompt that the buffer has recovered.
A write that looks at a closed or failed writer ends with that fault. -/
theorem accepts_while_usable (h : Reachable b) (m : Move b b') (hw : b.writers[i]? = some w)
    (hw' : b'.writers[i]? = some w') :
    (w.Accepts w' → (w.closed = false ∧ w.failure = none) ∨ b.Recovering i) ∧
      ∀ (fault : Fault) (id : Nat) (c : Call) (job : WriteJob) (point : WritePoint),
        w.refusal? = some fault → b.running = some id → b.calls[id]? = some c →
        c.program = .write job point → job.writer = i → point.Looks w c.loop job →
          (b.advanceProgram id c.loop c.program).2 = .finish (.error fault) := by
  refine ⟨fun accepts => ?_, ?_⟩
  · refine (m.accepting h hw hw' accepts).imp_left ?_
    rintro ⟨u, hu, usable, -⟩
    rw [hw, Option.some.injEq] at hu
    exact Writer.refusal?_eq_none_iff.1 (hu ▸ usable)
  · rintro fault id c job point refused - - program rfl looks
    rw [program]
    exact refused_writeStep hw refused looks

theorem accepts_while_usable_writing : ∃ w w' : Writer, (run 3 writing).writers[0]? = some w ∧
    (run 4 writing).writers[0]? = some w' ∧ w.Accepts w' ∧
    ((w.closed = false ∧ w.failure = none) ∨ (run 3 writing).Recovering 0) := by
  obtain ⟨w, hw⟩ : ∃ w, (run 3 writing).writers[0]? = some w := ⟨_, rfl⟩
  obtain ⟨w', hw'⟩ : ∃ w', (run 4 writing).writers[0]? = some w' := ⟨_, rfl⟩
  have accepts := accepts_writing hw hw'
  have step : Move (run 3 writing) (run 4 writing) := .step rfl
  exact ⟨w, w', hw, hw', accepts,
    (accepts_while_usable (reachable_writing.run 3) step hw hw').1 accepts⟩

theorem accepts_when_closed : ∃ (b b' : Bench) (w w' : Writer), Reachable b ∧ Move b b' ∧
    b.writers[0]? = some w ∧ b'.writers[0]? = some w' ∧ w.closed = true ∧ w.Accepts w' := by
  have known : recovering.programOf "close" (.close "w") = .ok (.close 0) := rfl
  have reachable : Reachable closedMeanwhile :=
    (reachable_recovering.move (.start .main known)).run 7
  refine ⟨closedMeanwhile, closedMeanwhile.proceed 0, _, _, reachable, .step rfl, rfl, rfl, rfl, ?_⟩
  exact ⟨[(0, .accepted (.nat 8))], 0, .nat 8, rfl, List.mem_singleton_self _⟩

/-- **Buffer gate.** In every run, the buffer of a writer that accepts an entry holds fewer
entries than its capacity, but for a write that has told subscribers that are not prompt that
the buffer has recovered. Where all subscribers are prompt, that is so whenever an entry was
accepted. -/
theorem accepts_below_capacity (h : Reachable b) (hw : b.writers[i]? = some w) {capacity : Int}
    (whole : w.config.maxBuffered.whole? = some capacity) :
    (∀ (b' : Bench) (w' : Writer), Move b b' → b'.writers[i]? = some w' → w.Accepts w' →
      (w.buffer.size : Int) < capacity ∨ b.Recovering i) ∧
    w.history.queue = w.buffer.entries ∧ (b.Prompt → w.history.Below capacity) := by
  have lawful := h.lawful hw
  refine ⟨fun b' w' m hw' accepts => ?_, lawful.queue,
    fun prompt => h.appends_below prompt hw whole⟩
  refine (m.accepting h hw hw' accepts).imp_left ?_
  rintro ⟨u, hu, -, room⟩
  rw [hw, Option.some.injEq] at hu
  exact lawful.below_of_room whole (hu ▸ room)

theorem accepts_below_capacity_writing : ∃ w w' : Writer, (run 3 writing).writers[0]? = some w ∧
    w.config.maxBuffered.whole? = some 2 ∧ (run 4 writing).writers[0]? = some w' ∧
    w.Accepts w' ∧ ((w.buffer.size : Int) < 2 ∨ (run 3 writing).Recovering 0) := by
  obtain ⟨w, hw⟩ : ∃ w, (run 3 writing).writers[0]? = some w := ⟨_, rfl⟩
  obtain ⟨w', hw'⟩ : ∃ w', (run 4 writing).writers[0]? = some w' := ⟨_, rfl⟩
  have whole : w.config.maxBuffered.whole? = some 2 := by
    cases hw
    rfl
  have accepts := accepts_writing hw hw'
  have step : Move (run 3 writing) (run 4 writing) := .step rfl
  exact ⟨w, w', hw, whole, hw', accepts,
    (accepts_below_capacity (reachable_writing.run 3) hw whole).1 _ _ step hw' accepts⟩

theorem accepts_when_full : ∃ (b b' : Bench) (w w' : Writer), Reachable b ∧ Move b b' ∧
    b.writers[0]? = some w ∧ b'.writers[0]? = some w' ∧
    w.config.maxBuffered.whole? = some 2 ∧ w.buffer.size = 2 ∧ w.Accepts w' := by
  have known : recovering.programOf "other" (.write "w" (.nat 9) none) =
      .ok (.write { writer := 0, elements := [.nat 9] } .start) := rfl
  have reachable : Reachable filledMeanwhile :=
    (reachable_recovering.move (.start .main known)).run 13
  refine ⟨filledMeanwhile, filledMeanwhile.proceed 0, _, _, reachable, .step rfl, rfl, rfl, rfl,
    rfl, ?_⟩
  exact ⟨[(0, .accepted (.nat 8))], 0, .nat 8, rfl, List.mem_singleton_self _⟩

end Bench
end BatchWriter
