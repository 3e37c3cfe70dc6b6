import BatchWriter.Proofs.Bench.Standing

/-!
# Each element is accepted once

A write has each of its elements converted at most once and appends the entry to the tail of the
buffer, where it is counted. When the write returns it has appended one entry for each of them.
If the converter raises, the write ends with that fault and nothing else has changed.
-/

set_option autoImplicit false

namespace BatchWriter
namespace Doing

structure Sparing (ds : List Doing) : Prop where
  once : (outcomes ds).length ≤ 1
  appended : entries ds = (outcomes ds).filterMap Except.toOption

def Once (ds : List Doing) : Prop := ∃ entry, outcomes ds = [.ok entry] ∧ entries ds = [entry]

end Doing

theorem Phase.Shows.sparing {phase : Phase} {ds : List Doing} (h : phase.Shows ds) :
    Doing.Sparing ds := by
  cases phase with
  | fresh =>
    cases h
    exact ⟨Nat.zero_le 1, rfl⟩
  | blocked | recovered =>
    obtain ⟨-, none, empty⟩ := h
    exact ⟨by simp [none], by simp [none, empty]⟩
  | refused =>
    obtain ⟨-, ⟨fault, one⟩, empty⟩ := h
    exact ⟨by simp [one], by simp [one, empty, Except.toOption]⟩
  | accepted =>
    obtain ⟨-, entry, one, appended⟩ := h
    exact ⟨by simp [one], by simp [one, appended, Except.toOption]⟩

def WriteJob.total (job : WriteJob) : ℕ := job.written + job.elements.length

theorem Writer.buffer_accept (w : Writer) (now : ℕ) (entry : Value) :
    (w.accept now entry).writer.buffer = w.buffer.append entry := by
  rw [accept, Change.writer_andThen rfl, (silent_armTimerIf _ _).buffer]
  rfl

namespace Bench

variable {b b' : Bench} {log : Log} {id k : ℕ} {c c' : Call} {w : Writer} {job job' : WriteJob}
  {point point' : WritePoint}

/-! ## The elements of a write -/

theorem total_of_proceeds (proceeds : Proceeds w job point (.write job' point'))
    (element : point ≠ .start → job.elements ≠ []) : job'.total = job.total := by
  rcases proceeds with ⟨job₁, point₁, next, same, own, -, -⟩ | ⟨rfl, same⟩
  · obtain ⟨rfl, rfl⟩ := Program.write.inj same
    rw [WriteJob.total, own, WriteJob.total]
  · obtain ⟨rfl, rfl⟩ := Program.write.inj same
    have some := List.length_pos_iff.2 (element WritePoint.noConfusion)
    simp only [WriteJob.total, WriteJob.next, List.length_drop]
    omega

theorem Left.same (left : b.Left k c') (hc : b.calls[k]? = some c) :
    c'.program = c.program ∧ (c'.isEnded = c.isEnded ∨ c.status = .queued true) := by
  rcases left with ⟨c₀, hc₀, program, ended⟩ | ⟨new, -⟩
  · cases hc.symm.trans hc₀
    exact ⟨program, ended⟩
  · rw [hc] at new
    cases new

/-- A write keeps to its writer and to the elements that it was called with. -/
theorem Chronicle.total (h : Chronicle b log) (m : Move b b') (hc : b.calls[id]? = some c)
    (hp : c.program = .write job point) : ∃ c' job' point', b'.calls[id]? = some c' ∧
      c'.program = .write job' point' ∧ job'.writer = job.writer ∧ job'.total = job.total := by
  obtain ⟨c', hc', stays⟩ := (h.reachable.parts m).job hc
  have kept : c'.program = c.program → ∃ c' job' point', b'.calls[id]? = some c' ∧
      c'.program = .write job' point' ∧ job'.writer = job.writer ∧ job'.total = job.total :=
    fun same => ⟨c', job, point, hc', same.trans hp, rfl, rfl⟩
  by_cases next : ∃ k, b.running = some k ∧ b' = b.proceed k
  · obtain ⟨k, running, rfl⟩ := next
    obtain ⟨c₀, hc₀, -⟩ := h.reachable.orderly.current k running
    by_cases own : id = k
    · subst own
      rcases call_proceed hc hc' with ⟨same, -⟩ | leads
      · exact kept same
      · rcases stays with same | becomes
        · exact kept same
        · generalize hp' : c'.program = p at leads becomes
          rw [hp] at becomes
          cases p with
          | write job' point' =>
            obtain ⟨job₀, point₀, w, hp₀, -, -, proceeds⟩ :=
              write_of_leads h.reachable running hc leads
            obtain ⟨rfl, rfl⟩ := Program.write.inj (hp.symm.trans hp₀)
            have element := (h.accounts id c job point hc hp).element
            exact ⟨c', job', point', hc', hp', becomes, total_of_proceeds proceeds element⟩
          | _ => exact becomes.elim
    · exact kept ((left_proceed hc₀ own hc').same hc).1
  · have left := (h.reachable.left m fun k running same => next ⟨k, running, same⟩).1 id c' hc'
    exact kept (left.same hc).1

/-- A write ends at its next point, or because it was cancelled. -/
theorem Chronicle.ends (h : Chronicle b log) (m : Move b b') (hc : b.calls[id]? = some c)
    (live : c.isEnded = false) (hc' : b'.calls[id]? = some c') (ended : c'.isEnded = true) :
    (b.running = some id ∧ b' = b.proceed id) ∨ c.status = .queued true := by
  have cancelled : b.Left id c' → c.status = .queued true := by
    intro left
    obtain ⟨-, same⟩ := left.same hc
    refine same.resolve_left fun same => ?_
    rw [ended, live] at same
    cases same
  by_cases next : ∃ k, b.running = some k ∧ b' = b.proceed k
  · obtain ⟨k, running, rfl⟩ := next
    obtain ⟨c₀, hc₀, -⟩ := h.reachable.orderly.current k running
    by_cases own : id = k
    · exact .inl ⟨own ▸ running, own ▸ rfl⟩
    · exact .inr (cancelled (left_proceed hc₀ own hc'))
  · have left := (h.reachable.left m fun k running same => next ⟨k, running, same⟩).1 id c' hc'
    exact .inr (cancelled left)

/-! ## What the running write does -/

/-- What comes of the next point of a write: when it returns it has done with all elements, an
entry that it appends goes to the tail of the buffer, and a fault of the converter is all there
is to tell of it. -/
structure Converts (b : Bench) (id : ℕ) (c : Call) (w : Writer) (job : WriteJob)
    (point : WritePoint) : Prop where
  returns : ∀ result, (b.advanceProgram id c.loop c.program).2 = .finish (.ok result) →
    job.written = job.total
  appends : ∀ entry, .appended entry ∈ b.said id job point → w.conversion job = .ok entry ∧
    ∃ w', (b.proceed id).writers[job.writer]? = some w' ∧
      w'.buffer.entries = w.buffer.entries ++ [entry]
  faulty : ∀ fault, .converted (.error fault) ∈ b.said id job point →
    w.conversion job = .error fault ∧ b.proceed id = b.finish id (.error fault) ∧
      (b.proceed id).writers = b.writers ∧ (b.proceed id).metrics = b.metrics

theorem converts (hc : b.calls[id]? = some c) (hp : c.program = .write job point)
    (hw : b.writers[job.writer]? = some w) : b.Converts id c w job point where
  returns result returns := by
    rw [hp] at returns
    have none := (returns_writeStep hw returns).2
    rw [WriteJob.total, none, List.length_nil, Nat.add_zero]
  appends entry said := by
    rw [said_eq hc hp hw] at said
    obtain ⟨rfl, converts⟩ : point = .accept ∧ w.conversion job = .ok entry := by
      cases Writer.says_of_mem said with
      | appended converts => exact ⟨rfl, converts⟩
    have hw' : (b.proceed id).writers[job.writer]? = some (w.accept b.now entry).writer := by
      rw [writers_proceed hc, hp, advanceProgram, writeStep, writeAccept, withWriter_some hw,
        converts]
      exact writer_change hw _
    exact ⟨converts, _, hw', by rw [Writer.buffer_accept, Buffer.entries_append]⟩
  faulty fault said := by
    rw [said_eq hc hp hw] at said
    obtain ⟨rfl, converts⟩ : point = .accept ∧ w.conversion job = .error fault := by
      generalize same : Doing.converted (.error fault) = d at said
      cases Writer.says_of_mem said with
      | converted => exact ⟨rfl, (Doing.converted.inj same).symm⟩
      | _ => cases same
    have steps : b.advanceProgram id c.loop c.program = (b, .finish (.error fault)) := by
      rw [hp, advanceProgram, writeStep, writeAccept, withWriter_some hw, converts]
      rfl
    have ends : b.proceed id = b.finish id (.error fault) := by
      rw [proceed_eq hc, steps]
      rfl
    have same : (b.proceed id).metrics = b.metrics := by
      rw [proceed_eq hc, steps]
      exact (Bypasses.resolve b id _).metrics
    exact ⟨converts, ends, by rw [writers_proceed hc, steps], same⟩

/-- **Each element is accepted once.** In every run, however writes, subscribers, completions,
cancellations, failures and closes interleave, the converter is called at most once for each
element of a write, and what it returns is appended once: to the tail of the buffer, and counted.
A write ends at its own next point unless it was cancelled, and when it returns there it has
appended one entry for each element. Without an outcome of the converter nothing is appended, and
with a fault of it the write ends with this fault and leaves the writers and the counters as they
were. -/
theorem elements_are_accepted_once (h : Chronicle b log) (hc : b.calls[id]? = some c)
    (hp : c.program = .write job point) :
    (∀ k, Doing.Sparing (log.ofTurn id k)) ∧
      (∀ k < job.written, Doing.Once (log.ofTurn id k)) ∧
      (∀ i, (b.historyOf i).doings = (log.ofWriter i).filter Doing.told) ∧
      (∀ label, b.metrics.written.getD label 0 = b.heard log label .written) ∧
      (∀ b', Move b b' → ∃ c' job' point', b'.calls[id]? = some c' ∧
        c'.program = .write job' point' ∧ job'.writer = job.writer ∧ job'.total = job.total ∧
        (c.isEnded = false → c'.isEnded = true →
          (b.running = some id ∧ b' = b.proceed id) ∨ c.status = .queued true)) ∧
      (b.running = some id → ∃ w, b.writers[job.writer]? = some w ∧
        b.Converts id c w job point) := by
  have stands := h.accounts id c job point hc hp
  refine ⟨fun k => ?_, fun k hk => (stands.past k hk).2, h.doings,
    fun label => h.meters label .written, fun b' m => ?_, fun running => ?_⟩
  · rcases lt_trichotomy k job.written with earlier | rfl | later
    · exact (stands.past k earlier).sparing
    · obtain ⟨phase, shows, -⟩ := stands.present
      exact shows.sparing
    · have fresh : Phase.fresh.Shows (log.ofTurn id k) := stands.future k later
      exact fresh.sparing
  · obtain ⟨c', job', point', hc', hp', writer, total⟩ := h.total m hc hp
    exact ⟨c', job', point', hc', hp', writer, total, fun live => h.ends m hc live hc'⟩
  · obtain ⟨-, live, -, -⟩ := h.reachable.orderly.runs running hc
    obtain ⟨w, hw⟩ := h.reachable.writer_of_write hc live hp
    exact ⟨w, hw, converts hc hp hw⟩

theorem elements_are_accepted_once_writing : ∃ log, Chronicle (run 8 writing) log ∧
    Doing.Once (log.ofTurn 0 0) ∧ (∀ k, Doing.Sparing (log.ofTurn 0 k)) ∧
    (run 8 writing).heard log "default" .written = 1 := by
  obtain ⟨log, chronicle⟩ := (reachable_writing.run 8).chronicle
  obtain ⟨c, hc⟩ : ∃ c, (run 8 writing).calls[0]? = some c := ⟨_, rfl⟩
  have hp : c.program = .write { writer := 0, elements := [], written := 1 } .start := by
    cases hc
    rfl
  obtain ⟨sparing, once, -, counted, -⟩ := elements_are_accepted_once chronicle hc hp
  exact ⟨log, chronicle, once 0 (by decide), sparing, (counted "default").symm⟩

end Bench
end BatchWriter
