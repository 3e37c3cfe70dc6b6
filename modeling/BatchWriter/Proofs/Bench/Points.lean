import BatchWriter.Proofs.Bench.SendsAndJobs

/-!
# Points of a program

Each point of a write or a commit passes the bench on, or puts its call on the writer's
list. A dispatch comes right after the check for a slot, and a commit looks whether the
writer is usable whenever it was away.
-/

set_option autoImplicit false

namespace BatchWriter

namespace Writer

variable {w : Writer}

theorem turn_checkUsable : Turn w w.checkUsable := by
  unfold checkUsable
  split
  · exact .mild rfl (by simp [Change.stop])
  · exact .mild rfl (by simp [Change.stay])

theorem turn_showGauges : Turn w w.showGauges :=
  .mild rfl (by simp [showGauges, measure, Effect.Mild])

theorem turn_announce (n : Notice) : Turn w (w.announce n) :=
  .mild rfl (by simp [announce, Effect.Mild])

theorem turn_holdBack (reason : WaitReason) : Turn w (w.holdBack reason) :=
  .andThen (.mild rfl (by simp [measure, Effect.Mild])) (turn_announce _)

theorem fault_checkUsable (h : w.checkUsable.fault = none) : w.refusal? = none := by
  unfold checkUsable at h
  split at h
  · cases h
  · next usable => exact usable

theorem writer_checkUsable (w : Writer) : w.checkUsable.writer = w := by
  unfold checkUsable
  split <;> rfl

/-- A sequence without a fault is made of parts without one. -/
theorem fault_of_andThen {c : Change} {next : Writer → Change}
    (h : (c.andThen next).fault = none) : c.fault = none ∧ (next c.writer).fault = none := by
  unfold Change.andThen at h
  split at h
  · next fault hf => rw [hf] at h; cases h
  · next hf => exact ⟨hf, h⟩

/-- Whoever binds a writer without a fault runs on its loop. -/
theorem loop_bind {loop : LoopName} (h : (w.bind loop).fault = none) :
    (w.bind loop).writer.loop = some loop := by
  unfold bind at h ⊢
  cases hl : w.loop with
  | none =>
    obtain ⟨armed, ha⟩ := writer_armTimerIf { w with loop := some loop } (!w.buffer.isEmpty)
    exact congrArg Writer.loop ha
  | some own =>
    simp only [hl] at h ⊢
    by_cases same : own = loop
    · rw [if_pos same]
      exact same ▸ hl
    · rw [if_neg same] at h
      cases h

end Writer

namespace Bench

open Writer (Turn)

variable {b b' : Bench} {id : Nat} {name : LoopName} {i : Nat} {w : Writer}

theorem withWriter_some (hw : b.writers[i]? = some w) (f : Writer → Bench × Progress) :
    b.withWriter i f = f w := by
  simp [withWriter, hw]

/-- After a turn without a fault a program goes on where it may. -/
theorem goes_changeThen {f : Writer → Change} {next : Program} (h : Coherent (some id) b)
    (hw : b.writers[i]? = some w) (turn : Turn w (f w))
    (fits : (f w).fault = none → ∀ b' : Bench, b.Extends b' →
      b'.writers[i]? = some (f w).writer → next.Fits b' name ∧ next.Poised b') :
    GoesOn id name b (b.changeThen i f next) := by
  have passes : Passes (some id) b (b.change i f).2 := by
    refine passes_change h fun u hu => ?_
    rw [hw, Option.some.injEq] at hu
    exact hu ▸ turn
  refine ⟨passes, ?_⟩
  rw [changeThen]
  dsimp only
  rw [fault_change hw]
  cases hf : (f w).fault with
  | some fault => trivial
  | none => exact fits hf _ passes.grows (writer_change hw f)

/-- A usable writer's list takes the call; any other one stops it. -/
theorem leads_waitForChange {next : Program} (h : Coherent (some id) b)
    (hw : b.writers[i]? = some w) (bound : w.loop = some name) (blocked : next.Blocked w)
    (waits : next.waitsOn? = some i) (fits : next.Fits b name) :
    Leads id name b (b.waitForChange id i name next) := by
  cases hr : w.refusal? with
  | some fault =>
    have stops : ((w.checkUsable.andThen (Writer.bind name)).andThen (Writer.addWaiter id)) =
        .stop w fault := by
      simp [Writer.checkUsable, hr, Change.andThen, Change.stop]
    refine .on ⟨passes_change h fun u hu => ?_, ?_⟩
    · rw [hw, Option.some.injEq] at hu
      subst hu
      rw [stops]
      exact .mild rfl (by simp [Change.stop])
    · rw [waitForChange]
      dsimp only
      rw [fault_change hw, stops]
      trivial
  | none =>
    have goes : ((w.checkUsable.andThen (Writer.bind name)).andThen (Writer.addWaiter id)) =
        .stay { w with waiters := w.waiters ++ [id] } := by
      simp [Writer.checkUsable, hr, Change.andThen, Change.stay, Writer.bind_of_bound bound,
        Writer.addWaiter]
    have same : b.waitForChange id i name next =
        (b.relist i w (w.waiters ++ [id]), .wait .change next) := by
      simp only [waitForChange, change, hw, goes]
      rfl
    rw [same]
    exact .park hw hr blocked waits fits

/-! Points of a write. -/

/-- Where a write resumes after an event, it runs on its writer's loop and has checked
nothing yet. -/
theorem fits_of_resumes {job : WriteJob} {next : WritePoint} (resumes : next.Resumes)
    (owned : b.Owned job.writer name) :
    (Program.write job next).Fits b name ∧ (Program.write job next).Poised b := by
  cases next with
  | flush _ | slot _ | accept => exact ⟨owned, trivial⟩
  | start | gate _ | woken _ | dispatch _ | batching | publishing _ _ => exact resumes.elim

theorem goes_publishLevel (h : Coherent (some id) b) {job : WriteJob}
    (owned : b.Owned job.writer name) (next : WritePoint) (resumes : next.Resumes) (w : Writer)
    (level : Level)
    (reason : String) : GoesOn id name b (b.publishLevel job w level reason next) := by
  have noted : Passes (some id) b (b.change job.writer fun u =>
      .stay (u.note b.now (.announced (w.event level reason)))).2 :=
    passes_change h fun u _ => .note b.now _
  have published := noted.andThen fun h => passes_of_aside h
    (.publication _ (w.bus.getD "global") (w.event level reason))
  unfold publishLevel
  dsimp only
  refine ⟨published, ?_⟩
  have owned := published.grows.owned _ _ owned
  split
  · exact fits_of_resumes resumes owned
  · exact ⟨⟨owned, resumes⟩, trivial⟩

theorem goes_writeStart (h : Coherent (some id) b) {job : WriteJob} (held : b.Held job.writer) :
    GoesOn id name b (b.writeStart name job) := by
  obtain ⟨w, hw⟩ := held
  unfold writeStart
  split
  · exact ⟨.refl h, trivial⟩
  · refine goes_changeThen h hw (.andThen (.bind name) Writer.turn_checkUsable) ?_
    intro hf b' _ hw'
    have bound := Writer.loop_bind (Writer.fault_of_andThen hf).1
    rw [Change.writer_andThen (Writer.fault_of_andThen hf).1, Writer.writer_checkUsable] at hw'
    exact ⟨⟨_, hw', bound⟩, trivial⟩

theorem goes_writeGate (h : Coherent (some id) b) {job : WriteJob}
    (owned : b.Owned job.writer name) (blocked : Bool) :
    GoesOn id name b (b.writeGate job blocked) := by
  obtain ⟨w, hw, hl⟩ := owned
  have owned : b.Owned job.writer name := ⟨w, hw, hl⟩
  unfold writeGate
  rw [withWriter_some hw]
  dsimp only
  split
  · split
    · have held : Passes (some id) b (b.change job.writer (·.holdBack .bufferFull)).2 :=
        passes_change h fun _ _ => Writer.turn_holdBack _
      refine .after held fun h => ?_
      exact goes_publishLevel h (held.grows.owned _ _ owned) (.flush _) trivial _ _ _
    · exact ⟨.refl h, owned, trivial⟩
  · split
    · exact goes_publishLevel h owned .accept trivial _ _ _
    · exact ⟨.refl h, owned, trivial⟩

theorem goes_dispatch (h : Coherent (some id) b) {job : WriteJob}
    (hw : b.writers[job.writer]? = some w)
    (bound : w.loop = some name) (room : w.hasCapacity = true) (stage : Stage) :
    GoesOn id name b (b, .go (.write job (.dispatch stage))) := by
  refine ⟨.refl h, ⟨w, hw, bound⟩, fun u hu => ?_⟩
  rw [hw, Option.some.injEq] at hu
  exact hu ▸ room

theorem goes_writeFlush (h : Coherent (some id) b) {job : WriteJob}
    (owned : b.Owned job.writer name) (stage : Stage) :
    GoesOn id name b (b.writeFlush job stage) := by
  obtain ⟨w, hw, hl⟩ := owned
  unfold writeFlush
  rw [withWriter_some hw]
  dsimp only
  split
  · next room => exact goes_dispatch h hw hl room stage
  · have held : Passes (some id) b (b.change job.writer (·.holdBack .inFlightLimit)).2 :=
      passes_change h fun _ _ => Writer.turn_holdBack _
    exact .after held fun h =>
      goes_publishLevel h (held.grows.owned _ _ ⟨w, hw, hl⟩) (.slot _) trivial _ _ _

theorem leads_writeSlot (h : Coherent (some id) b) {job : WriteJob}
    (owned : b.Owned job.writer name) (stage : Stage) :
    Leads id name b (b.writeSlot id name job stage) := by
  obtain ⟨w, hw, hl⟩ := owned
  unfold writeSlot
  rw [withWriter_some hw]
  split
  · next room => exact .on (goes_dispatch h hw hl room stage)
  · next full =>
    have full : w.hasCapacity = false := by simpa using full
    exact leads_waitForChange h hw hl full rfl ⟨w, hw, hl⟩

theorem goes_writeDispatch (h : Coherent (some id) b) {job : WriteJob}
    (owned : b.Owned job.writer name)
    (room : ∀ w, b.writers[job.writer]? = some w → w.hasCapacity = true) (stage : Stage) :
    GoesOn id name b (b.writeDispatch name job stage) := by
  obtain ⟨w, hw, hl⟩ := owned
  have passes := (dispatch_spec h hw hl (room w hw)).1
  refine ⟨passes, ?_⟩
  have owned := passes.grows.owned _ _ ⟨w, hw, hl⟩
  unfold writeDispatch
  dsimp only
  cases (b.dispatch job.writer name).1 with
  | some fault => trivial
  | none => cases stage <;> exact ⟨owned, trivial⟩

theorem goes_writeAccept (h : Coherent (some id) b) {job : WriteJob}
    (owned : b.Owned job.writer name) : GoesOn id name b (b.writeAccept job) := by
  obtain ⟨w, hw, hl⟩ := owned
  unfold writeAccept
  rw [withWriter_some hw]
  split
  · exact ⟨.refl h, trivial⟩
  · refine goes_changeThen h hw (.accept b.now _) fun _ b' grows _ => ?_
    exact ⟨grows.owned _ _ ⟨w, hw, hl⟩, trivial⟩

theorem goes_writeBatching (h : Coherent (some id) b) {job : WriteJob}
    (owned : b.Owned job.writer name) : GoesOn id name b (b.writeBatching job) := by
  obtain ⟨w, hw, hl⟩ := owned
  unfold writeBatching
  rw [withWriter_some hw]
  split
  · exact ⟨.refl h, ⟨w, hw, hl⟩, trivial⟩
  · refine goes_changeThen h hw Writer.turn_showGauges fun _ b' _ hw' => ?_
    exact ⟨⟨_, hw'⟩, trivial⟩

theorem goes_writePublishing (h : Coherent (some id) b) {job : WriteJob} {next : WritePoint}
    (owned : b.Owned job.writer name) (resumes : next.Resumes) (d : Delivery) :
    GoesOn id name b (b.writePublishing job d next) := by
  have passes := passes_attend h d
  refine ⟨passes, ?_⟩
  have owned := passes.grows.owned _ _ owned
  unfold writePublishing
  dsimp only
  split
  · exact ⟨⟨owned, resumes⟩, trivial⟩
  · exact ⟨⟨owned, resumes⟩, trivial⟩
  · exact ⟨⟨owned, resumes⟩, trivial, rfl⟩
  · exact fits_of_resumes resumes owned
  · trivial

/-- A call that is in hand is on nobody's list, so there is nothing to take off. -/
theorem dropWaiter_of_apart (apart : b.Apart id) (hw : b.writers[i]? = some w) :
    w.dropWaiter id = .stay w := by
  have absent := apart w (List.mem_of_getElem? hw)
  have same : w.waiters.filter (· ≠ id) = w.waiters :=
    List.filter_eq_self.2 fun k hk => by simpa using fun he : k = id => absent (he ▸ hk)
  rw [Writer.dropWaiter, same]

theorem goes_afterWaiting {next : Program} (h : InHand b id name) (hw : b.writers[i]? = some w)
    (fits : w.refusal? = none → ∀ b' : Bench, b.Extends b' → b'.writers[i]? = some w →
      next.Fits b' name ∧ next.Poised b') : GoesOn id name b (b.afterWaiting id i next) := by
  have same : (w.dropWaiter id).andThen Writer.checkUsable = w.checkUsable := by
    rw [dropWaiter_of_apart h.apart hw, Writer.stay_andThen]
  refine goes_changeThen h.coherent hw (by rw [same]; exact Writer.turn_checkUsable) ?_
  rw [same, Writer.writer_checkUsable]
  exact fun hf b' grows hw' => fits (Writer.fault_checkUsable hf) b' grows hw'

theorem leads_writeStep (h : InHand b id name) {job : WriteJob} {point : WritePoint}
    (fits : (Program.write job point).Fits b name)
    (poised : (Program.write job point).Poised b) :
    Leads id name b (b.writeStep id name job point) := by
  have hc := h.coherent
  cases point with
  | start => exact .on (goes_writeStart hc fits)
  | gate blocked => exact .on (goes_writeGate hc fits blocked)
  | flush stage => exact .on (goes_writeFlush hc fits stage)
  | slot stage => exact leads_writeSlot hc fits stage
  | woken stage =>
    obtain ⟨w, hw, hl⟩ := fits
    exact .on (goes_afterWaiting h hw fun _ b' _ hw' => ⟨⟨w, hw', hl⟩, trivial⟩)
  | dispatch stage => exact .on (goes_writeDispatch hc fits poised stage)
  | accept => exact .on (goes_writeAccept hc fits)
  | batching => exact .on (goes_writeBatching hc fits)
  | publishing d next => exact .on (goes_writePublishing hc fits.1 fits.2 d)

/-! Points of a commit. -/

/-- A commit that goes on has seen that its writer is usable. -/
theorem fits_drain {job : CommitJob} (hw : b.writers[job.writer]? = some w)
    (bound : w.loop = some name) (usable : w.refusal? = none) :
    (Program.commit job .drain).Fits b name ∧ (Program.commit job .drain).Poised b := by
  refine ⟨⟨w, hw, bound⟩, fun u hu => ?_⟩
  rw [hw, Option.some.injEq] at hu
  exact hu ▸ usable

theorem goes_commitStart (h : Coherent (some id) b) {job : CommitJob} (held : b.Held job.writer) :
    GoesOn id name b (b.commitStart name job) := by
  obtain ⟨w, hw⟩ := held
  unfold commitStart
  refine goes_changeThen h hw
    (.andThen (.andThen (.bind name) Writer.turn_checkUsable) (Writer.turn_announce _)) ?_
  intro hf b' _ hw'
  have bound := Writer.fault_of_andThen (Writer.fault_of_andThen hf).1
  have usable := Writer.fault_checkUsable bound.2
  rw [Change.writer_andThen (Writer.fault_of_andThen hf).1, Change.writer_andThen bound.1,
    Writer.writer_checkUsable] at hw'
  exact fits_drain hw' (Writer.loop_bind bound.1) usable

/-- A busy writer without a batch to dispatch gives a commit something to wait for. -/
theorem blocked_commit {job : CommitJob} (busy : w.isBusy = true)
    (idle : ¬ (job.flush.isPresent && !w.buffer.isEmpty && w.hasCapacity) = true) :
    (Program.commit job .woken).Blocked w := by
  simp only [Program.Blocked]
  split
  · next flush =>
    rcases (Writer.isBusy_iff w).1 busy with open_ | filled
    · exact .inl open_
    · refine .inr ?_
      cases hc : w.hasCapacity with
      | false => rfl
      | true => exact absurd (by simp [flush, hc, Buffer.isEmpty, filled]) idle
  · exact busy

theorem leads_commitDrain (h : Coherent (some id) b) {job : CommitJob}
    (owned : b.Owned job.writer name)
    (usable : ∀ w, b.writers[job.writer]? = some w → w.refusal? = none) :
    Leads id name b (b.commitDrain id name job) := by
  obtain ⟨w, hw, hl⟩ := owned
  unfold commitDrain
  rw [withWriter_some hw]
  dsimp only
  split
  · next busy =>
    split
    · next room =>
      simp only [Bool.and_eq_true] at room
      obtain ⟨passes, w', hw', fine, -⟩ := dispatch_spec h hw hl room.2
      refine .on ⟨passes, ?_⟩
      dsimp only
      cases hf : (b.dispatch job.writer name).1 with
      | some fault => trivial
      | none =>
        obtain ⟨u, hu, later⟩ := passes.grows job.writer w hw
        rw [hw', Option.some.injEq] at hu
        subst hu
        exact fits_drain hw' (later.loop name hl) ((fine hf).trans (usable w hw))
    · next idle =>
      exact leads_waitForChange h hw hl (blocked_commit busy idle) rfl ⟨w, hw, hl⟩
  · refine .on ⟨passes_change h fun u _ => ?_, trivial⟩
    exact .andThen Writer.turn_showGauges (Writer.turn_announce _)

theorem leads_commitStep (h : InHand b id name) {job : CommitJob} {point : CommitPoint}
    (fits : (Program.commit job point).Fits b name)
    (poised : (Program.commit job point).Poised b) :
    Leads id name b (b.commitStep id name job point) := by
  cases point with
  | start => exact .on (goes_commitStart h.coherent fits)
  | drain => exact leads_commitDrain h.coherent fits poised
  | woken =>
    obtain ⟨w, hw, hl⟩ := fits
    exact .on (goes_afterWaiting h hw fun usable b' _ hw' => fits_drain hw' hl usable)

theorem leads_advanceProgram (h : InHand b id name) {p : Program} (fits : p.Fits b name)
    (poised : p.Poised b) : Leads id name b (b.advanceProgram id name p) := by
  have hc := h.coherent
  cases p with
  | write job point => exact leads_writeStep h fits poised
  | commit job point => exact leads_commitStep h fits poised
  | close writer => exact .on ⟨passes_change hc fun _ _ => .close b.now, trivial⟩
  | enter writer => exact .on ⟨passes_change hc fun _ _ => .bind name, trivial⟩
  | publish bus event =>
    refine .on ⟨passes_of_aside hc (.publication _ bus event), ?_⟩
    rw [advanceProgram]
    dsimp only
    cases (b.publication bus event).2 with
    | none => trivial
    | some d => exact ⟨trivial, trivial⟩
  | deliver d => exact .on (goes_deliverStep hc d)
  | send job point => exact .on (goes_sendStep hc fits point)
  | drainSends destination point => exact .on (goes_drainStep hc name destination point)
  | shutDown destination => exact .on ⟨passes_shutDown hc destination, trivial⟩
  | rest => exact .on ⟨.refl hc, trivial⟩
  | submit destination entries label =>
    refine .on ⟨?_, trivial⟩
    exact (hands_submit hc destination (some name) entries (.recorder label) trivial).1

end Bench
end BatchWriter
