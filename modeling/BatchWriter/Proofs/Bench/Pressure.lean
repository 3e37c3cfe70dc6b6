import BatchWriter.Proofs.Bench.Conversion

/-!
# How writes tell of pressure

A write that the full buffer blocks tells so before it waits, then of each wait for a slot, and
once more when the buffer has recovered; after its element is accepted it tells of waits only.
Each of its events shows what the writer looked like when it was made, and each time that a
write was held back is counted.
-/

set_option autoImplicit false

namespace BatchWriter

theorem Phase.Shows.begins {phase : Phase} {ds : List Doing} (h : phase.Shows ds) :
    ∃ word, Level.Word word ∧ Doing.levels ds <+: word := by
  cases phase with
  | fresh =>
    cases h
    exact ⟨[], (Level.Bracket.word (.inl rfl)), List.nil_prefix⟩
  | blocked =>
    obtain ⟨⟨m, told⟩, -⟩ := h
    exact ⟨_, Level.Bracket.word (.inr ⟨m, rfl⟩), told ▸ List.prefix_append _ _⟩
  | recovered =>
    obtain ⟨told, -⟩ := h
    exact ⟨_, Level.Bracket.word (.inr told), List.prefix_refl _⟩
  | refused => exact ⟨_, h.1.word, List.prefix_refl _⟩
  | accepted => exact ⟨_, h.1, List.prefix_refl _⟩

/-- Whoever waits for a slot was told that the full buffer blocks it, or its element is
accepted. -/
theorem Phase.Shows.waits {phase : Phase} {ds : List Doing} {stage : Stage} (h : phase.Shows ds)
    (inside : (WritePoint.woken stage).In phase) :
    (Doing.levels ds).head? = some .hard ∨ ∃ entry, Doing.entries ds = [entry] := by
  cases stage with
  | filling blocked =>
    obtain ⟨rfl, rfl⟩ := inside
    obtain ⟨⟨m, told⟩, -⟩ := h
    exact .inl (by rw [told]; rfl)
  | batching =>
    cases inside
    obtain ⟨-, entry, -, appended⟩ := h
    exact .inr ⟨entry, appended⟩

/-- So many batches are in flight that there is no slot for another one. At a whole limit that
is the limit. -/
structure Config.Taken (config : Config) (count : ℕ) : Prop where
  full : (Number.ofNat count).lt config.maxInFlight = false
  allowed : ∀ n < count, (Number.ofNat n).lt config.maxInFlight = true
  whole : ∀ limit : ℤ, config.maxInFlight.whole? = some limit → (count : ℤ) = limit

namespace Writer

variable {w w' : Writer} {job : WriteJob} {point : WritePoint} {event : Event}
  {size count : ℕ}

/-- The event tells how much the writer buffers and how many batches are in flight, and its level
is right about that. -/
structure Presents (w : Writer) (event : Event) (size count : ℕ) : Prop where
  writer : event.writer = w.id
  buffered : event.buffered = .nat size
  capacity : event.capacity = .number w.config.maxBuffered
  inFlight : event.inFlight = .nat count
  crowded : event.level = .hard → w.config.maxBuffered.le (.ofNat size) = true
  roomy : event.level = .ok → w.config.maxBuffered.le (.ofNat size) = false
  taken : event.level ≠ .ok → w.config.Taken count

theorem Presents.later (h : w.Presents event size count) (later : w.Later w') :
    w'.Presents event size count where
  writer := later.id ▸ h.writer
  buffered := h.buffered
  capacity := later.config ▸ h.capacity
  inFlight := h.inFlight
  crowded := later.config ▸ h.crowded
  roomy := later.config ▸ h.roomy
  taken := later.config ▸ h.taken

theorem Lawful.taken (lawful : w.Lawful) (busy : w.hasCapacity = false) :
    w.config.Taken w.inFlight.count where
  full := lawful.bounded.limit ▸ busy
  allowed n hn := lawful.bounded.limit ▸ lawful.tracked.sound.room n hn
  whole _ whole := (lawful.bounded.count_eq lawful.tracked whole busy).1

theorem Lawful.presents (lawful : w.Lawful) (said : .published event ∈ w.utters job point) :
    w.Presents event w.buffer.size w.inFlight.count := by
  have shows : ∀ (level : BatchWriter.Level) (reason : String),
      (level = .hard → w.buffer.isFull = true) → (level = .ok → w.buffer.isFull = false) →
      (level ≠ .ok → w.hasCapacity = false) →
        w.Presents (w.event level reason) w.buffer.size w.inFlight.count := by
    intro level reason full room busy
    have isFull : w.config.maxBuffered.le (.ofNat w.buffer.size) = w.buffer.isFull := by
      rw [← lawful.capacity, Buffer.isFull]
    exact ⟨rfl, rfl, rfl, rfl, fun hard => isFull.trans (full hard),
      fun ok => isFull.trans (room ok), fun held => lawful.taken (busy held)⟩
  generalize same : Doing.published event = d at said
  cases says_of_mem said with
  | blocked full busy =>
    rw [Doing.published.inj same]
    exact shows _ _ (fun _ => full) (fun ok => by cases ok) fun _ => busy
  | recovered room =>
    rw [Doing.published.inj same]
    exact shows _ _ (fun hard => by cases hard) (fun _ => room) fun held => absurd rfl held
  | held busy =>
    rw [Doing.published.inj same]
    exact shows _ _ (fun hard => by cases hard) (fun ok => by cases ok) fun _ => busy
  | converted | appended => cases same

end Writer

namespace Bench

variable {b : Bench} {log : Log} {id : ℕ} {c : Call} {job : WriteJob} {point : WritePoint}

/-- Every event that a write published shows what its writer looked like. -/
theorem Chronicle.presents (h : Chronicle b log) : ∀ r ∈ log, ∀ event, r.doing = .published event →
    ∃ w size count, b.writers[r.writer]? = some w ∧ w.Presents event size count := by
  have moved : ∀ {b b' : Bench} {r : Remark} {event : Event}, Reachable b → Move b b' →
      (∃ w size count, b.writers[r.writer]? = some w ∧ w.Presents event size count) →
      ∃ w size count, b'.writers[r.writer]? = some w ∧ w.Presents event size count := by
    rintro b b' r event reachable m ⟨w, size, count, hw, presents⟩
    obtain ⟨w', hw', ceases⟩ := reachable.stills m r.writer w hw
    exact ⟨w', size, count, hw', presents.later ceases.later⟩
  induction h with
  | init s unused => simp
  | beside h m other ih =>
    exact fun r hr event told => moved h.reachable m (ih r hr event told)
  | @proceed b log id h running ih =>
    have m := move_proceed running
    intro r hr event told
    refine moved h.reachable m ?_
    rcases List.mem_append.1 hr with old | new
    · exact ih r old event told
    · rcases h.reachable.speaks running with ⟨c, job, point, w, hc, hp, -, hw⟩ | ⟨c, hc, other⟩
      · rw [remarks_write hc hp hw] at new
        obtain ⟨d, said, rfl⟩ := List.mem_map.1 new
        cases told
        exact ⟨w, _, _, hw, (h.reachable.lawful hw).presents said⟩
      · rw [remarks_other hc other] at new
        cases new

/-- **Backpressure.** In every run, however writes, subscribers, completions, cancellations,
failures and closes interleave: for each element a write publishes a beginning of a word of
levels, and the whole word if it goes on to the next element or returns. Nobody waits for a slot
who was not told that the full buffer blocks it, or whose element is accepted. Each event is right
about the writer, and the counters of waits are the numbers of events that told of them. -/
theorem writes_tell_of_pressure (h : Chronicle b log) :
    (∀ (id : ℕ) (c : Call) (job : WriteJob) (point : WritePoint), b.calls[id]? = some c →
      c.program = .write job point →
        (∀ k, ∃ word, Level.Word word ∧ Doing.levels (log.ofTurn id k) <+: word) ∧
        (∀ k < job.written, Level.Word (Doing.levels (log.ofTurn id k))) ∧
        (∀ result, b.running = some id →
          (b.advanceProgram id c.loop c.program).2 = .finish (.ok result) →
            job.written = job.total) ∧
        ∀ stage, c.isEnded = false → point = .woken stage →
          (Doing.levels (log.ofTurn id job.written)).head? = some .hard ∨
            ∃ entry, Doing.entries (log.ofTurn id job.written) = [entry]) ∧
      (∀ r ∈ log, ∀ event, r.doing = .published event → ∃ w size count,
        b.writers[r.writer]? = some w ∧ w.Presents event size count) ∧
      (∀ i, (b.historyOf i).doings = (log.ofWriter i).filter Doing.told) ∧
      ∀ label reason, b.metrics.waits.getD (reason, label) 0 =
        b.heard log label (.held reason) := by
  refine ⟨fun id c job point hc hp => ?_, h.presents, h.doings,
    fun label reason => h.meters label (.held reason)⟩
  have stands := h.accounts id c job point hc hp
  obtain ⟨phase, shows, inside⟩ := stands.present
  refine ⟨fun k => ?_, fun k hk => (stands.past k hk).1, fun result running returns => ?_,
    fun stage live woken => shows.waits (woken ▸ inside live)⟩
  · rcases lt_trichotomy k job.written with earlier | rfl | later
    · exact (stands.past k earlier).begins
    · exact shows.begins
    · have fresh : Phase.fresh.Shows (log.ofTurn id k) := stands.future k later
      exact fresh.begins
  · obtain ⟨-, live, -, -⟩ := h.reachable.orderly.runs running hc
    obtain ⟨w, hw⟩ := h.reachable.writer_of_write hc live hp
    exact (converts hc hp hw).returns result returns

/-- A write was blocked, and its subscribers are being told that the buffer has recovered. -/
theorem writes_tell_of_pressure_recovering : ∃ log, Chronicle recovering log ∧
    (∃ word, Level.Word word ∧ Doing.levels (log.ofTurn 0 0) <+: word) ∧
    recovering.heard log "default" (.held .bufferFull) = 1 := by
  obtain ⟨log, chronicle⟩ := reachable_recovering.chronicle
  obtain ⟨writes, -, -, counted⟩ := writes_tell_of_pressure chronicle
  obtain ⟨c, hc⟩ : ∃ c, recovering.calls[0]? = some c := ⟨_, rfl⟩
  obtain ⟨words, -⟩ := writes 0 c _ _ hc (by cases hc; rfl)
  exact ⟨log, chronicle, words 0, (counted "default" .bufferFull).symm⟩

end Bench
end BatchWriter
