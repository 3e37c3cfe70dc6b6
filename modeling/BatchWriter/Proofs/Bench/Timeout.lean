import BatchWriter.Proofs.Bench.Course
import BatchWriter.Proofs.Bench.Punctual
import BatchWriter.Proofs.Writer.Deadlines

/-!
# Deadlines are exact

With a limit of time the open batches of a writer are those whose alarm is set, which rings when
the limit has passed since the batch was opened. An outcome that is reported before that, on a
clock that misses nothing, is the batch's outcome.
-/

set_option autoImplicit false

namespace BatchWriter

namespace Bench

open Writer (Dated Spared)

variable {b b' : Bench} {i instant batch : Nat} {w w' : Writer} {name : LoopName}

/-! ## Open batches and alarms -/

theorem Spell.dated {p q : Bench × Writer} (s : Spell i p q)
    (h : Dated (p.1.Live p.2) p.2 (p.1.duesOf i)) : Dated (q.1.Live q.2) q.2 (q.1.duesOf i) := by
  obtain ⟨b, w⟩ := p
  obtain ⟨b', w'⟩ := q
  have h : Dated (b'.Live w') w (b.duesOf i) := h.weaken s.live
  cases s.course with
  | ticks ticks => exact h.ticks ticks
  | lapse was now undeferred stays dues => exact dues ▸ h.bufferTimeOver _
  | flush was now undeferred flushes flushed => exact (h.bufferTimeOver b'.now).flushed flushed
  | deferred completed due unset flushed =>
    exact (Dated.ticks completed h).undeferred.flushed flushed
  | @expire u _ due batch r was now found ends ticks =>
    rcases ends with rfl | ⟨limitless, -⟩
    · exact (h.outlived _ _ _).ticks ticks
    · exact absurd limitless (h.limited (List.ne_nil_of_mem was))
  | @closes name now bound closed dues =>
    dsimp only
    rw [dues]
    exact { h with
      gone := fun _ _ => rfl
      dated := fun _ _ => .inl rfl
      live := fun on => absurd (on name bound) (by simp [closed]) }

theorem Reachable.dated (h : Reachable b) (hw : b.writers[i]? = some w) :
    Dated (b.Live w) w (b.duesOf i) :=
  h.by_spells (P := fun p => Dated (p.1.Live p.2) p.2 (p.1.duesOf i)) hw
    (fun _ _ _ idle _ unset => .of_idle idle fun _ => congrFun unset _) fun _ _ spell => spell.dated

/-! ## Batches that are not expired -/

/-- The alarm of a batch does not ring while the clock is not past an instant before it. -/
theorem Spell.spared {p q : Bench × Writer} (s : Spell i p q) (early : q.1.now ≤ instant)
    (h : Spared instant batch p.2 (p.1.duesOf i)) : Spared instant batch q.2 (q.1.duesOf i) := by
  obtain ⟨b, w⟩ := p
  obtain ⟨b', w'⟩ := q
  cases s.course with
  | ticks ticks => exact h.ticks ticks
  | lapse was now undeferred stays dues => exact dues ▸ h.bufferTimeOver _
  | flush was now undeferred flushes flushed => exact (h.bufferTimeOver b'.now).flushed flushed
  | deferred completed due unset flushed =>
    exact (Spared.ticks completed h).undeferred.flushed flushed
  | @expire u _ due other r was now found ends ticks =>
    refine Spared.ticks ticks ?_
    have another : other ≠ batch := by
      rintro rfl
      have late := h.later due was
      have past : due ≤ b'.now := now ▸ Nat.le_max_right _ _
      exact absurd (late.trans_le past) (Nat.not_lt.2 early)
    have fewer : ∀ e ∈ Effect.dues b'.now (b.duesOf i) (.cancelAlarm (.expire other))
        (.expire batch), e ∈ b.duesOf i (.expire batch) := fun e he => by
      simpa [Effect.dues, Ne.symm another] using he
    rcases ends with rfl | ⟨-, rfl⟩
    · exact h.of_fewer le_rfl ⟨[(_, .expired other _)], rfl, by simp [another]⟩ fewer
    · exact h.of_fewer le_rfl ⟨[], rfl, by simp⟩ fewer
  | closes now bound closed dues =>
    exact dues ▸ h.of_fewer le_rfl ⟨[], rfl, by simp⟩ fun _ set => by cases set

theorem Reachable.spared (h : Reachable b) (m : Move b b') (early : b'.now ≤ instant)
    (hw : b.writers[i]? = some w) (spared : Spared instant batch w (b.duesOf i)) :
    ∃ w', b'.writers[i]? = some w' ∧ Spared instant batch w' (b'.duesOf i) := by
  have kept : ∀ {q : Bench × Writer}, Spells i (b, w) q → q.1.now ≤ instant →
      Spared instant batch q.2 (q.1.duesOf i) := fun spells => by
    induction spells with
    | refl => exact fun _ => spared
    | tail _ spell ih => exact fun early => spell.spared early (ih (spell.clock.trans early))
  obtain ⟨w', hw', spells⟩ := h.spells m hw
  exact ⟨w', hw', kept spells early⟩

/-- What became of a batch, or will, is not that its time was over. -/
inductive Heard (b : Bench) (i batch : Nat) : Prop where
  /-- It has ended otherwise, -/
  | ended {w : Writer} (hw : b.writers[i]? = some w) {t : Nat} {m : Milestone}
      (told : (t, m) ∈ w.history) (ended : m.ended? = some batch)
      (otherwise : ∀ entries, m ≠ .expired batch entries)
  /-- or its alarm is not set, -/
  | unset {w : Writer} (hw : b.writers[i]? = some w)
      (spared : ∀ instant, Spared instant batch w (b.duesOf i))
  /-- or its alarm has not rung, and a report waits to be heard. -/
  | waits {w : Writer} (hw : b.writers[i]? = some w) (isOpen : batch ∈ w.inFlight.ids)
      (spared : Spared b.now batch w (b.duesOf i)) {name : LoopName} {report : Report}
      (ready : .report i batch report ∈ (b.loop name).ready)

/-- A report that is run while its batch is open is the batch's outcome. -/
theorem Reachable.ended_told (h : Reachable b) (hw : b.writers[i]? = some w)
    (isOpen : batch ∈ w.inFlight.ids) (bound : w.loop = some name) (tail : List Callback)
    (report : Report) : ∃ (w' : Writer) (t : Nat) (m : Milestone),
      ((b.popped name tail).runCallback name (.report i batch report)).writers[i]? = some w' ∧
        (t, m) ∈ w'.history ∧ m.ended? = some batch ∧ ∀ entries, m ≠ .expired batch entries := by
  obtain ⟨r, found⟩ := InFlight.find?_of_mem isOpen
  have going := (h.timely.sealed i w hw).going isOpen
  have hw : (b.popped name tail).writers[i]? = some w := by rw [writers_popped, hw]
  have own : (b.popped name tail).Owned i name := ⟨w, hw, bound⟩
  have records := records_report hw own going found report
  cases report with
  | completed failed =>
    obtain ⟨w', t, entries, hw', told⟩ := records
    exact ⟨w', t, _, hw', told, rfl, by simp⟩
  | failed fault =>
    obtain ⟨w', t, entries, hw', told⟩ := records
    exact ⟨w', t, _, hw', told, rfl, by simp⟩

/-! A report that waits: it goes on waiting, its loop is closed, or it is heard. -/

section Waits

variable (h : Reachable b) (hw : b.writers[i]? = some w) (isOpen : batch ∈ w.inFlight.ids)
include h hw isOpen

/-- No time passes while the report waits. An outcome of the batch, if there is one now, is another
one. -/
theorem Heard.still (m : Move b b') (now : b'.now = b.now)
    (spared : Spared b.now batch w (b.duesOf i)) {report : Report}
    (ready : .report i batch report ∈ (b'.loop name).ready) : Heard b' i batch := by
  obtain ⟨w', hw', spared⟩ := h.spared m now.le hw spared
  rw [← now] at spared
  by_cases open' : batch ∈ w'.inFlight.ids
  · exact .waits hw' open' spared ready
  · have issued := ((h.lawful hw).issued isOpen).1
    have ended :=
      not_not.1 (mt (((h.move m).lawful hw').isOpen_iff ⟨issued, spared.issued⟩).2 open')
    obtain ⟨⟨t, m⟩, told, ends⟩ := List.mem_filterMap.1 ended
    exact .ended hw' told ends fun entries same => spared.going t entries (same ▸ told)

omit h isOpen in
theorem Heard.cut (bound : w.loop = some name) (spared : Spared b.now batch w (b.duesOf i)) :
    Heard (b.closeLoop name) i batch := by
  refine .unset ((congrArg (fun ws : List Writer => ws[i]?) (writers_setLoop _ _ _)).trans hw)
    fun instant => ⟨spared.issued, spared.going, fun due set => ?_⟩
  rw [dues_closeLoop, if_pos (by simp [loopOf, hw, bound])] at set
  cases set

theorem Heard.told (bound : w.loop = some name) (tail : List Callback) (report : Report) :
    Heard ((b.popped name tail).runCallback name (.report i batch report)) i batch := by
  obtain ⟨w', t, m, hw', told, ended, otherwise⟩ := h.ended_told hw isOpen bound tail report
  exact .ended hw' told ended otherwise

end Waits

theorem Heard.punctual (h : Reachable b) (p : Punctual b b') (a : Heard b i batch) :
    Heard b' i batch := by
  cases a with
  | ended hw told ended otherwise =>
    obtain ⟨w', hw', ceases⟩ := h.stills p.move i _ hw
    exact .ended hw' (ceases.later.history.subset told) ended otherwise
  | unset hw spared =>
    obtain ⟨w', hw', -⟩ := h.stills p.move i _ hw
    refine .unset hw' fun instant => ?_
    obtain ⟨v, hv, spared⟩ := h.spared p.move (Nat.le_max_left _ instant) hw (spared _)
    rw [hw', Option.some.injEq] at hv
    subst hv
    exact { spared with
      later := fun due set => (Nat.le_max_right _ _).trans_lt (spared.later due set) }
  | @waits w hw isOpen spared name report ready =>
    obtain ⟨u, hu, bound⟩ : b.Owned i name := h.orderly.coherent.callbacks name _ ready
    rw [hw, Option.some.injEq] at hu
    subst hu
    rcases p.move.keeps_ready ready with still | rfl | ⟨tail, rfl⟩
    · have now : b'.now = b.now := by
        by_contra passes
        have none := (p.settled passes).2 name
        rw [none] at ready
        cases ready
      exact .still h hw isOpen p.move now spared still
    · exact .cut hw bound spared
    · exact .told h hw isOpen bound tail report

theorem Heard.punctuals (h : Reachable b) (run : Punctuals b b') (a : Heard b i batch) :
    Heard b' i batch := by
  induction run with
  | refl => exact a
  | tail run p ih => exact ih.punctual (h.moves (Punctuals.moves run)) p

theorem Heard.going (a : Heard b i batch) (h : Reachable b) (hw : b.writers[i]? = some w)
    (t : Nat) (entries : List Value) : (t, .expired batch entries) ∉ w.history := by
  intro expired
  cases a with
  | ended hu told ended otherwise =>
    rw [hw, Option.some.injEq] at hu
    subst hu
    have same := (h.lawful hw).ended_once told expired ended rfl
    exact otherwise entries (Prod.ext_iff.1 same).2
  | unset hu spared =>
    rw [hw, Option.some.injEq] at hu
    subst hu
    exact (spared 0).going t entries expired
  | waits hu isOpen spared ready =>
    rw [hw, Option.some.injEq] at hu
    subst hu
    exact spared.going t entries expired

/-- What a batch's handle is told on an open loop waits to be heard. -/
theorem ready_tellHandle (isOpen : (b.loop name).closed = false) (report : Report) :
    .report i batch report ∈ ((b.tellHandle (.batch i name batch) report).loop name).ready := by
  rw [tellHandle, if_neg (by simp [isOpen]), post, loop_setLoop, if_pos rfl]
  simp [EventLoop.post, isOpen]

/-! ## Exact deadlines -/

/-- The batches of the writer at `i` are given the time that the limit says, and no more. -/
structure ExactTimeouts (b : Bench) (i : Nat) (w : Writer) (limit : Number) (delay : Option Nat) :
    Prop where
  distinct : w.inFlight.ids.Nodup
  /-- Every open batch was opened when it says it was. -/
  opened : ∀ r ∈ w.inFlight.requests, ∃ entries, (r.openedAt, .opened r.id entries) ∈ w.history
  /-- An alarm of a batch is one of an open batch, which has no other one and is due when its
  time is over; -/
  gone : ∀ batch, batch ∉ w.inFlight.ids → b.duesOf i (.expire batch) = []
  dated : ∀ r ∈ w.inFlight.requests, b.duesOf i (.expire r.id) = [] ∨
    b.duesOf i (.expire r.id) = [delay.map (r.openedAt + ·)]
  /-- and unless the writer's loop was closed every open batch has one. -/
  live : b.Live w → ∀ r ∈ w.inFlight.requests,
    b.duesOf i (.expire r.id) = [delay.map (r.openedAt + ·)]
  positive : ∀ d, delay = some d → 0 < d
  /-- When such an alarm rings its batch is open, and its time is over exactly then. The batch is
  given up, and the writer fails for it unless it had failed before. -/
  rings : ∀ upTo batch time, b.time.Rings upTo (.writer i (.expire batch)) time →
    ∃ r d w', w.inFlight.find? batch = some r ∧ delay = some d ∧
      time.now = max b.now (r.openedAt + d) ∧
      (ring { b with time } (.writer i (.expire batch))).writers[i]? = some w' ∧
      w'.history = (time.now, .expired batch r.entries) :: w.history ∧ batch ∉ w'.inFlight.ids ∧
      w'.failure = some (w.failure.getD (.timeout batch r.entries.length limit))
  /-- The time of a batch of which an outcome was reported before it was over never will be, -/
  answered : ∀ r ∈ w.inFlight.requests, (∀ d, delay = some d → b.now < r.openedAt + d) →
    ∀ name report, .report i r.id report ∈ (b.loop name).ready →
    ∀ b' w', Punctuals b b' → b'.writers[i]? = some w' →
      ∀ t entries, (t, .expired r.id entries) ∉ w'.history
  /-- also when the batch's handle is told the outcome just now, -/
  told : ∀ r ∈ w.inFlight.requests, (∀ d, delay = some d → b.now < r.openedAt + d) →
    ∀ name, w.loop = some name → (b.loop name).closed = false →
    ∀ report b' w', Punctuals (b.tellHandle (.batch i name r.id) report) b' →
      b'.writers[i]? = some w' → ∀ t entries, (t, .expired r.id entries) ∉ w'.history
  /-- and once all alarms that are due have rung, the time of no open batch is over. -/
  overdue : b.Live w → b.time.ring? b.now = none → ∀ r ∈ w.inFlight.requests,
    ∀ d, delay = some d → b.now < r.openedAt + d

section Accepted

variable {limit : Number} {delay : Option Nat}

/-- The time of an open batch was not over, and its alarm is as late as its deadline. -/
theorem Reachable.spared_open (h : Reachable b) (hw : b.writers[i]? = some w)
    (limited : w.config.requestTimeout = some limit) (accepted : limit.delaySeconds = .ok delay)
    {r : Request Value} (isOpen : r ∈ w.inFlight.requests)
    (before : ∀ d, delay = some d → instant < r.openedAt + d) :
    Spared instant r.id w (b.duesOf i) := by
  have lawful := h.lawful hw
  have known : r.id ∈ w.inFlight.ids := List.mem_map_of_mem isOpen
  have issued := lawful.issued known
  refine ⟨issued.2, fun t entries expired => ?_, fun due set => ?_⟩
  · exact (lawful.isOpen_iff issued).1 known (List.mem_filterMap.2 ⟨_, expired, rfl⟩)
  · rcases (h.dated hw).owes limited accepted isOpen with none | one
    · rw [none] at set
      cases set
    · rw [one, List.mem_singleton] at set
      obtain ⟨d, endless, rfl⟩ := Option.map_eq_some_iff.1 set.symm
      exact before d endless

/-- An alarm that rings for a batch finds it open, when its time is over. -/
theorem Reachable.rings_open (h : Reachable b) (hw : b.writers[i]? = some w)
    (limited : w.config.requestTimeout = some limit) (accepted : limit.delaySeconds = .ok delay)
    {upTo : Nat} {time : Timetable Ring}
    (due : b.time.Rings upTo (.writer i (.expire batch)) time) :
    ∃ r d, w.inFlight.find? batch = some r ∧ delay = some d ∧
      time.now = max b.now (r.openedAt + d) := by
  obtain ⟨instant, clock, a, ha, action, set⟩ := rung_due due
  have was := mem_dues ha action set
  have isOpen : batch ∈ w.inFlight.ids := by
    by_contra other
    rw [(h.dated hw).gone batch other] at was
    cases was
  obtain ⟨r, found⟩ := InFlight.find?_of_mem isOpen
  obtain ⟨-, same⟩ := InFlight.mem_ids_of_find? found
  rcases (h.dated hw).owes limited accepted (List.mem_of_find?_eq_some found) with none | one
  · rw [← same, none] at was
    cases was
  · rw [← same, one, List.mem_singleton] at was
    obtain ⟨d, endless, rfl⟩ := Option.map_eq_some_iff.1 was.symm
    exact ⟨r, d, found, endless, clock⟩

/-- **Deadlines are exact.** In every state of every run. -/
theorem request_timeouts_are_exact (h : Reachable b) (hw : b.writers[i]? = some w)
    (limited : w.config.requestTimeout = some limit) (accepted : limit.delaySeconds = .ok delay) :
    ExactTimeouts b i w limit delay where
  distinct := (h.dated hw).distinct
  opened r hr := (h.dated hw).opened _ (List.mem_map_of_mem hr)
  gone := (h.dated hw).gone
  dated _ hr := (h.dated hw).owes limited accepted hr
  live on _ hr := (h.dated hw).owed limited accepted on hr
  positive _ endless := Number.delaySeconds_pos (endless ▸ accepted)
  rings upTo batch time due := by
    obtain ⟨r, d, found, endless, clock⟩ := h.rings_open hw limited accepted due
    have ends : (ring { b with time } (.writer i (.expire batch))).writers[i]? = some (w.losing
        time.now batch (.expired batch r.entries) (.timeout batch r.entries.length limit)) := by
      rw [ring, writers_endCallback, writer_change (b := { b with time }) hw,
        Writer.expire_of_open found limited]
      rfl
    refine ⟨r, d, _, found, endless, clock, ends, rfl, ?_, rfl⟩
    simp [Writer.losing, InFlight.ids_remove]
  answered r hr before name report ready b' w' run hw' := by
    have waits : Heard b i r.id :=
      .waits hw (List.mem_map_of_mem hr) (h.spared_open hw limited accepted hr before) ready
    exact (waits.punctuals h run).going (h.moves (Punctuals.moves run)) hw'
  told r hr before name bound isOpen report b' w' run hw' := by
    have beside := Beside.tellHandle b (.batch i name r.id) report
    have fits : b.HandleFits (.batch i name r.id) := ⟨w, hw, bound⟩
    have told := h.move (.tell fits report)
    have now : (b.tellHandle (.batch i name r.id) report).now = b.now := beside.now
    have hu := (congrArg (fun ws : List Writer => ws[i]?) beside.writers).trans hw
    have waits : Heard (b.tellHandle (.batch i name r.id) report) i r.id :=
      .waits hu (List.mem_map_of_mem hr)
        (told.spared_open hu limited accepted hr (by rwa [now])) (ready_tellHandle isOpen report)
    exact (waits.punctuals told run).going (told.moves (Punctuals.moves run)) hw'
  overdue on silent r hr d endless := by
    have set : some (r.openedAt + d) ∈ b.duesOf i (.expire r.id) := by
      rw [(h.dated hw).owed limited accepted on hr, endless]
      exact List.mem_cons_self
    obtain ⟨a, ha, due⟩ := List.mem_map.1 set
    exact Timetable.later_of_silent silent (List.mem_of_mem_filter ha) due

end Accepted

def allotted : Bench := run 5 (flushing [("request_timeout_sec", .nat 1)] [.nat 1])

theorem request_timeouts_are_exact_allotted : ∃ w, allotted.writers[0]? = some w ∧
    w.inFlight.ids = [1] ∧ allotted.time.alarms.map (·.due) = [some 1000000] ∧
    ExactTimeouts allotted 0 w (.int 1) (some 1000000) := by
  obtain ⟨w, hw⟩ : ∃ w, allotted.writers[0]? = some w := ⟨_, rfl⟩
  have known : (allotted.writers[0]?).map (fun w => (w.inFlight.ids, w.config.requestTimeout)) =
      some ([1], some (.int 1)) := rfl
  rw [hw, Option.map_some, Option.some.injEq, Prod.mk.injEq] at known
  exact ⟨w, hw, known.1, rfl,
    request_timeouts_are_exact (.run (reachable_flushing rfl) 5) hw known.2 rfl⟩

end Bench
end BatchWriter
