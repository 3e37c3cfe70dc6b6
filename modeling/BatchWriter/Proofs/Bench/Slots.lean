import BatchWriter.Proofs.Bench.Command
import BatchWriter.Proofs.Bench.Custody
import BatchWriter.Proofs.Bench.Timeout

/-!
# No slot leaks at an executor

Every batch that is handed to an executor gets a job or is refused and lost. Until the batch ends
its job is yet to run, or what the job reported waits on the writer's loop. Only a closed loop
drops what is reported, so once the writer's loop is closed a batch may stay open for good.
-/

set_option autoImplicit false

namespace BatchWriter

namespace Bench

variable {b b' : Bench} {i batch : Nat} {w w' : Writer} {d : Destination}
  {loop name : LoopName}

/-! ## Every batch has a job -/

/-- An open batch at an executor has a job, if the clock accepts the time that batches are given. -/
theorem Reachable.employed (h : Reachable b) (hw : b.writers[i]? = some w)
    (hd : b.destinations[w.destination]? = some d) {owned : Bool}
    (executes : d.adapter = .executor owned) (timeable : w.config.Timeable)
    (isOpen : batch ∈ w.inFlight.ids) :
    ∃ name, w.loop = some name ∧ ∃ job ∈ d.jobs, job.handle = .batch i name batch := by
  have lawful := h.lawful hw
  obtain ⟨now, entries, handed⟩ := h.handed_of_open hw timeable isOpen
  obtain ⟨name, bound, taken⟩ | ⟨-, refused⟩ := h.handed_over hw hd handed
  · simp only [TakenUp, executes] at taken
    obtain ⟨job, hj, handle, -⟩ := taken
    exact ⟨name, bound, job, hj, handle⟩
  · have ended : batch ∈ w.history.endings := List.mem_filterMap.2 ⟨_, refused, rfl⟩
    exact absurd ended ((lawful.isOpen_iff (lawful.issued isOpen)).1 isOpen)

/-! ## Reports on their way -/

/-- What was reported of a batch waits to be heard, unless that is impossible or not needed any
more. -/
inductive Reported (b : Bench) (i : Nat) (name : LoopName) (batch : Nat) : Prop where
  | ready {report : Report} (ready : .report i batch report ∈ (b.loop name).ready)
  | closed (closed : (b.loop name).closed = true)
  | gone {w : Writer} (hw : b.writers[i]? = some w) (gone : batch ∉ w.inFlight.ids)

/-- On a loop that is not closed it waits from when it is told. -/
theorem Reported.told (b : Bench) (i : Nat) (name : LoopName) (batch : Nat) (report : Report) :
    Reported (b.tellHandle (.batch i name batch) report) i name batch := by
  by_cases closed : (b.loop name).closed = true
  · exact .closed (((Beside.tellHandle b _ report).closed name).trans closed)
  · exact .ready (ready_tellHandle (by simpa using closed) report)

theorem Reported.of_gone (h : Reachable b) (m : Move b b') (hw : b.writers[i]? = some w)
    (issued : batch ≤ w.inFlight.issued) (gone : batch ∉ w.inFlight.ids) :
    Reported b' i name batch := by
  obtain ⟨w', hw', ceases⟩ := h.stills m i w hw
  refine .gone hw' fun isOpen => gone ?_
  obtain ⟨r', hr', rfl⟩ := List.mem_map.1 isOpen
  obtain ⟨r, hr, same, -⟩ := ceases.later.carries r' hr' issued
  exact same ▸ List.mem_map_of_mem hr

theorem Reported.move (h : Reachable b) (m : Move b b') (issued : b.Issued (.batch i name batch))
    (r : Reported b i name batch) : Reported b' i name batch := by
  obtain ⟨w, hw, issued⟩ := issued
  cases r with
  | gone hu gone =>
    rw [hw, Option.some.injEq] at hu
    exact .of_gone h m hw issued (hu ▸ gone)
  | closed closed =>
    refine .closed (by_contra fun isOpen => ?_)
    have was := (m.benchActions h.orderly).benchChanges.opened (by simpa using isOpen)
    rw [closed] at was
    cases was
  | @ready report ready =>
    rcases m.keeps_ready ready with still | rfl | ⟨tail, rfl⟩
    · exact .ready still
    · exact .closed (by rw [Bench.closeLoop, loop_setLoop, if_pos rfl]; rfl)
    · by_cases isOpen : batch ∈ w.inFlight.ids
      · obtain ⟨u, hu, bound⟩ : b.Owned i name := h.orderly.coherent.callbacks name _ ready
        rw [hw, Option.some.injEq] at hu
        obtain ⟨w', t, m', hw', told, ended, -⟩ :=
          h.ended_told hw isOpen (hu ▸ bound) tail report
        obtain ⟨v, hv, ceases⟩ := h.stills m i w hw
        rw [hw', Option.some.injEq] at hv
        have known : 0 < batch ∧ batch ≤ w'.inFlight.issued :=
          ⟨((h.lawful hw).issued isOpen).1, issued.trans (hv ▸ ceases.later.issued)⟩
        refine .gone hw' fun still => (((h.move m).lawful hw').isOpen_iff known).1 still ?_
        exact List.mem_filterMap.2 ⟨_, told, ended⟩
      · exact .of_gone h m hw issued isOpen

/-- A job that has ended has reported what became of its batch. -/
theorem Reachable.reported (h : Reachable b) {k : Nat} (hd : b.destinations[k]? = some d)
    (collects : d.Collects) {job : Job} (hj : job ∈ d.jobs) (ended : job.state ≠ .waiting)
    (handle : job.handle = .batch i name batch) : Reported b i name batch := by
  induction h generalizing k d job with
  | init s unused =>
    rw [(unused d (List.mem_of_getElem? hd)).2] at hj
    cases hj
  | @move b b' h m ih =>
    -- A job that had ended before goes on waiting to be heard.
    have before : ∀ {k : Nat} {d : Destination}, b.destinations[k]? = some d → d.Collects →
        job ∈ d.jobs → Reported b' i name batch := fun hd collects hj => by
      have held : b.Holds (.batch i name batch) :=
        .inl ⟨_, List.mem_of_getElem? hd, .inr ⟨job, hj, handle⟩⟩
      exact (ih hd collects hj ended handle).move h m (h.twins.held _ held)
    obtain steady | works := m.steady h.orderly
    · obtain ⟨d₀, hd₀, later⟩ := steady.destinations k d hd
      obtain ⟨submitted, jobs, waiting⟩ := later.jobs
      rw [jobs] at hj
      rcases List.mem_append.1 hj with hj | hj
      · exact before hd₀ (collects.of_script later.script.symm) hj
      · exact absurd (waiting job hj) ended
    · obtain rfl | ⟨k₀, n, d₀, was, worked⟩ := works.cases
      · exact before hd collects hj
      · obtain ⟨-, hd₀⟩ | ⟨rfl, ends⟩ := worked.destination hd
        · exact before hd₀ collects hj
        · have collects := collects.of_script ends.script.symm
          obtain ⟨state, jobs, -⟩ := ends.jobs
          rw [jobs] at hj
          rcases List.mem_or_eq_of_mem_set hj with hj | rfl
          · exact before worked.known collects hj
          · obtain ⟨c, report, rfl, -⟩ | ⟨unfit, -⟩ := worked.told
            · rw [show was.handle = .batch i name batch from handle]
              exact .told c i name batch report
            · exact absurd collects unfit

/-! ## No slot leaks -/

/-- What becomes of the batches that the writer at `i` hands to its executor. -/
structure NoSlotLeaks (b : Bench) (i : Nat) (w : Writer) (d : Destination) : Prop where
  /-- An open batch has a job that is yet to run, or what was reported of it waits on the writer's
  loop, unless the loop was closed. -/
  pursued : ∀ r ∈ w.inFlight.requests, ∃ name, w.loop = some name ∧
    ((b.loop name).closed = false →
      (∃ job ∈ d.jobs, job.handle = .batch i name r.id ∧ job.state = .waiting) ∨
        ∃ report, .report i r.id report ∈ (b.loop name).ready)
  /-- A job that has run or was cancelled has told its handle once, any other one never. -/
  once : ∀ n job, d.jobs[n]? = some job →
    (b.answersOfJob w.destination n).length = if job.state = .waiting then 0 else 1
  /-- A batch that the executor refuses because it is shut down is not open any more when the
  dispatch ends, and the writer has failed for it. -/
  refused : d.shutDown = true → ∀ loop parcel, w.loop = some loop →
    (w.startDispatch loop b.now).2 = some parcel →
      (b.dispatch i loop).1 = some (.submission parcel.batch .executorShutDown) ∧
        ∃ w', (b.dispatch i loop).2.writers[i]? = some w' ∧ parcel.batch ∉ w'.inFlight.ids ∧
          w'.failure = some (.submission parcel.batch .executorShutDown)

/-- **No slot leaks.** In every state of every run, whatever order jobs are run and cancelled in and
whenever the executor is shut down. -/
theorem no_slot_leaks (h : Reachable b) (hw : b.writers[i]? = some w)
    (hd : b.destinations[w.destination]? = some d) {owned : Bool}
    (executes : d.adapter = .executor owned) (collects : d.Collects)
    (timeable : w.config.Timeable) : NoSlotLeaks b i w d where
  pursued r hr := by
    have isOpen : r.id ∈ w.inFlight.ids := List.mem_map_of_mem hr
    obtain ⟨name, bound, job, hj, handle⟩ := h.employed hw hd executes timeable isOpen
    refine ⟨name, bound, fun loopOpen => ?_⟩
    by_cases waits : job.state = .waiting
    · exact .inl ⟨job, hj, handle, waits⟩
    · cases h.reported hd collects hj waits handle with
      | ready ready => exact .inr ⟨_, ready⟩
      | closed closed =>
        rw [loopOpen] at closed
        cases closed
      | gone hu gone =>
        rw [hw, Option.some.injEq] at hu
        exact absurd isOpen (hu ▸ gone)
  once n job found := by
    have answers := h.answersOnce hd collects n
    split
    · next waits =>
      rw [answers.silent, List.length_nil]
      rintro ⟨other, found', ended⟩
      rw [found, Option.some.injEq] at found'
      exact ended (found' ▸ waits)
    · next ended => exact answers.once ⟨job, found, ended⟩
  refused shut loop parcel bound handed := by
    obtain ⟨fails, u, usable, lost⟩ := dispatch_turnsAway hw bound hd ⟨shut, owned, executes⟩ handed
    refine ⟨fails, _, lost, ?_, ?_⟩
    · simp [Writer.losing, InFlight.ids_remove]
    · simp [Writer.losing, (Writer.refusal?_eq_none_iff.1 usable).2]

def pooled : Bench :=
  (Scenario.start ⟨[{ name := "pool", adapter := .executor true }], [], []⟩).create "w"
    { config := [("max_batch_size", .nat 1)], initial := .list [.nat 1, .nat 2]
      destination := "pool" } |>.2

def halfway : Bench :=
  ((run 8 (pooled.start .main (some "commit")
    (.commit { writer := 0, flush := .bool true } .start) [])).runJob 0 0).2

theorem reachable_halfway : Reachable halfway := by
  have built : Reachable pooled := by
    refine .move (.init _ ?_) (.create "w" _)
    intro d hd
    rw [List.mem_singleton.1 hd]
    exact ⟨rfl, rfl⟩
  have known : pooled.programOf "commit" (.commit "w" (.bool true)) =
      .ok (.commit { writer := 0, flush := .bool true } .start) := rfl
  exact ((built.move (.start .main known)).run 8).move (.runJob 0 0)

/-- Both batches are open: what the first job reported waits, the second job is yet to run. -/
theorem no_slot_leaks_halfway : ∃ w d, halfway.writers[0]? = some w ∧
    halfway.destinations[w.destination]? = some d ∧ w.inFlight.ids = [1, 2] ∧
    d.jobs.map (·.state) = [.finished, .waiting] ∧ halfway.main.ready.length = 1 ∧
    NoSlotLeaks halfway 0 w d := by
  obtain ⟨w, hw⟩ : ∃ w, halfway.writers[0]? = some w := ⟨_, rfl⟩
  have known : (halfway.writers[0]?).map (fun w =>
      (w.destination, w.inFlight.ids, w.config.requestTimeout)) = some (0, [1, 2], none) := rfl
  rw [hw, Option.map_some, Option.some.injEq, Prod.mk.injEq, Prod.mk.injEq] at known
  obtain ⟨place, ids, limitless⟩ := known
  obtain ⟨d, hd⟩ : ∃ d, halfway.destinations[0]? = some d := ⟨_, rfl⟩
  have pool : (halfway.destinations[0]?).map (fun d => (d.adapter, d.jobs.map (·.state))) =
      some (.executor true, [.finished, .waiting]) := rfl
  have plain : (halfway.destinations[0]?).map (·.script) = some [] := rfl
  rw [hd, Option.map_some, Option.some.injEq] at pool plain
  obtain ⟨executes, states⟩ := Prod.mk.inj pool
  have collects : d.Collects := fun behaviour hb => by
    rw [plain] at hb
    cases hb
  have timeable : w.config.Timeable := fun limit given => by
    rw [limitless] at given
    cases given
  rw [← place] at hd
  exact ⟨w, d, hw, hd, ids, states, rfl,
    no_slot_leaks reachable_halfway hw hd executes collects timeable⟩

end Bench
end BatchWriter
