import BatchWriter.Proofs.Bench.Tended
import BatchWriter.Proofs.Bench.Timely

/-!
# Failure and closing are final

Whatever happens after a writer has failed or was closed, it hands no batch over any more and
keeps its first failure. Every call that looks at it then is turned away with that failure, or
as at a closed writer once it is closed; and a closed writer has nothing left in flight, set or
waiting.
-/

set_option autoImplicit false

namespace BatchWriter

/-- The program looks at the writer before it does anything else: it begins, or it waited for
the writer to change. -/
def Program.Enters (i : Nat) : Program → Prop
  | .write job .start => job.writer = i ∧ job.elements ≠ []
  | .write job (.woken _) => job.writer = i
  | .commit job .start | .commit job .woken => job.writer = i
  | _ => False

namespace Bench

open Writer (Ceases)

variable {b b' b'' : Bench} {i id : Nat} {w : Writer} {c : Call} {fault : Fault} {p : Program}
  {name : LoopName}

/-! ## Writers -/

def Stills (b b' : Bench) : Prop :=
  ∀ (i : Nat) (w : Writer), b.writers[i]? = some w →
    ∃ w' : Writer, b'.writers[i]? = some w' ∧ w.Ceases w'

namespace Stills

theorem of_kept (h : ∀ (i : Nat) (w : Writer), b.writers[i]? = some w → b'.writers[i]? = some w) :
    Stills b b' :=
  fun i w hw => ⟨w, h i w hw, .refl w⟩

theorem of_writers (h : b'.writers = b.writers) : Stills b b' := of_kept fun _ _ hw => h ▸ hw

theorem trans (h : Stills b b') (h' : Stills b' b'') : Stills b b'' := by
  intro i w hw
  obtain ⟨w', hw', ceases⟩ := h i w hw
  obtain ⟨w'', hw'', ceases'⟩ := h' i w' hw'
  exact ⟨w'', hw'', ceases.trans ceases'⟩

theorem change {f : Writer → Change}
    (each : ∀ w : Writer, b.writers[i]? = some w → w.Ceases (f w).writer) :
    Stills b (b.change i f).2 := by
  cases hw : b.writers[i]? with
  | none => rw [change_of_none hw]; exact of_writers rfl
  | some w =>
    intro j u hu
    by_cases own : j = i
    · subst own
      rw [hw, Option.some.injEq] at hu
      exact hu ▸ ⟨_, writer_change hw f, each w hw⟩
    · exact ⟨u, by rw [writer_change_of_ne hw f own, hu], .refl u⟩

end Stills

theorem BenchChange.stills (t : BenchChange b b') : Stills b b' := by
  cases t with
  | writerChange h =>
    cases h with
    | beside beside => exact .of_writers beside.writers
    | motion i moves => exact .change fun w hw => (moves w hw).ceases
  | pass later alarms => exact .of_writers rfl
  | @flush limit i time due =>
    exact Stills.change (b := { b with time }) fun w _ => Ceases.bufferTimeOver w
  | @expire limit i batch time due =>
    exact Stills.change (b := { b with time }) fun w _ => Ceases.expire w _ _
  | closeLoop name => exact .of_writers (writers_setLoop _ _ _)
  | create name spec =>
    rcases create_cases b name spec with same | ⟨c, built⟩
    · exact .of_writers (by rw [same])
    · exact .of_kept fun _ _ => built.kept
  | work works => exact .of_writers works.bypasses.writers

theorem BenchChanges.stills (t : BenchChanges b b') : Stills b b' := by
  induction t with
  | refl => exact .of_writers rfl
  | tail _ benchChange ih => exact ih.trans benchChange.stills

theorem Reachable.stills (h : Reachable b) (m : Move b b') : Stills b b' :=
  (m.benchActions h.orderly).benchChanges.stills

theorem Reachable.stills_moves (h : Reachable b) (moves : Moves b b') : Stills b b' := by
  induction moves with
  | refl => exact .of_writers rfl
  | tail moves m ih => exact ih.trans ((h.moves moves).stills m)

/-! ## Calls that are turned away -/

/-- The call is about to look at the writer: it runs, or it is on the ready queue of its
loop. -/
def Entering (b : Bench) (i id : Nat) : Prop :=
  ∃ c : Call, b.calls[id]? = some c ∧ c.program.Enters i ∧
    (c.status = .running ∧ b.running = some id ∨ (∃ r, c.status = .queued r) ∧ b.Queued id c.loop)

/-- The call ends in this move. If it was not cancelled and runs on the writer's loop, what is
told of it is the fault for which the writer refuses work now. -/
def TurnsAway (i id : Nat) (b b' : Bench) : Prop :=
  ∃ (c : Call) (w : Writer) (fault : Fault), b.calls[id]? = some c ∧ b.writers[i]? = some w ∧
    w.refusal? = some fault ∧ b'.Ended id ∧
    (c.status = .queued true ∨ (∃ other, w.loop = some other ∧ other ≠ c.loop) ∨
      ∀ label, c.label = some label → b'.trace = .ended label (.error fault) :: b.trace)

theorem change_of_stop {f : Writer → Change} (hw : b.writers[i]? = some w)
    (none : (f w).effects = []) :
    b.change i f = ((f w).fault, { b with writers := b.writers.set i (f w).writer }) := by
  simp [change, hw, none]

theorem checkUsable_of_refused (refused : w.refusal? = some fault) :
    w.checkUsable = .stop w fault := by
  rw [Writer.checkUsable, refused]

/-- Whoever begins finds out, even if a closed writer was never used before. -/
theorem stops_enter (refused : w.refusal? = some fault)
    (own : w.loop = some name ∨ w.loop = none ∧ w.closed = true) :
    ((w.bind name).andThen Writer.checkUsable).fault = some fault ∧
      ((w.bind name).andThen Writer.checkUsable).effects = [] := by
  rcases own with bound | ⟨free, closed⟩
  · rw [Writer.bind_of_bound bound, Writer.stay_andThen, checkUsable_of_refused refused]
    exact ⟨rfl, rfl⟩
  · have unarmed : w.bind name = .stay { w with loop := some name } := by
      simp only [Writer.bind, free, Writer.armTimerIf, Writer.armTimer, closed,
        Bool.or_true, if_true]
      split
      · split <;> rfl
      · rfl
    have still : Writer.refusal? { w with loop := some name } = some fault := refused
    rw [unarmed, Writer.stay_andThen, checkUsable_of_refused still]
    exact ⟨rfl, rfl⟩

/-- A call that looks at a writer that refuses work ends at once, and only the writer's list
and its loop may have changed. -/
theorem advance_refused (id : Nat) (hw : b.writers[i]? = some w) (refused : w.refusal? = some fault)
    (enters : p.Enters i) (own : w.loop = some name ∨ w.loop = none ∧ w.closed = true) :
    ∃ writers, b.advanceProgram id name p = ({ b with writers }, .finish (.error fault)) := by
  have woken : ∀ next : Program, ∃ writers,
      b.afterWaiting id i next = ({ b with writers }, .finish (.error fault)) := by
    intro next
    have checked : (w.dropWaiter id).andThen Writer.checkUsable =
        .stop { w with waiters := w.waiters.filter (· ≠ id) } fault := by
      rw [Writer.dropWaiter, Writer.stay_andThen]
      exact checkUsable_of_refused refused
    rw [afterWaiting, changeThen, change_of_stop hw (by rw [checked]; rfl), checked]
    exact ⟨_, rfl⟩
  obtain ⟨stops, none⟩ := stops_enter refused own
  cases p with
  | write job point =>
    cases point with
    | start =>
      obtain ⟨rfl, some⟩ := enters
      rw [advanceProgram, writeStep, writeStart]
      split
      · next none => exact absurd none some
      · rw [changeThen, change_of_stop hw none, stops]
        exact ⟨_, rfl⟩
    | woken stage =>
      cases enters
      exact woken _
    | _ => exact enters.elim
  | commit job point =>
    cases point with
    | start =>
      cases enters
      have stopped : ((w.bind name).andThen Writer.checkUsable).andThen
          (fun w => w.announce (.draining w.id w.buffer.size w.inFlight.count job.flush)) =
          (w.bind name).andThen Writer.checkUsable := Change.andThen_of_fault stops _
      rw [advanceProgram, commitStep, commitStart, changeThen,
        change_of_stop hw (by rw [stopped]; exact none), stopped, stops]
      exact ⟨_, rfl⟩
    | woken =>
      cases enters
      exact woken _
    | drain => exact enters.elim
  | _ => exact enters.elim

/-- On another loop than the writer's a call that begins ends as well. -/
theorem advance_foreign (id : Nat) {other : LoopName} (hw : b.writers[i]? = some w)
    (bound : w.loop = some other) (foreign : other ≠ name) (enters : p.Enters i)
    (fits : p.Fits b name) : (b.advanceProgram id name p).2.program? = none := by
  have stopped : w.bind name = .stop w (.foreignLoop w.id) := by
    simp [Writer.bind, bound, foreign]
  have elsewhere : ¬ b.Owned i name := by
    rintro ⟨u, hu, own⟩
    rw [hw, Option.some.injEq] at hu
    rw [← hu, bound, Option.some.injEq] at own
    exact foreign own
  cases p with
  | write job point =>
    cases point with
    | start =>
      obtain ⟨rfl, some⟩ := enters
      rw [advanceProgram, writeStep, writeStart]
      split
      · rfl
      · rw [changeThen]
        dsimp only
        rw [fault_change hw, stopped]
        rfl
    | woken stage => cases enters; exact absurd fits elsewhere
    | _ => exact enters.elim
  | commit job point =>
    cases point with
    | start =>
      cases enters
      rw [advanceProgram, commitStep, commitStart, changeThen]
      dsimp only
      rw [fault_change hw, stopped]
      rfl
    | woken => cases enters; exact absurd fits elsewhere
    | drain => exact enters.elim
  | _ => exact enters.elim

theorem trace_finish (hc : b.calls[id]? = some c) (plain : fault.isCancelled = false)
    {label : String} (labelled : c.label = some label) :
    (b.finish id (.error fault)).trace = .ended label (.error fault) :: b.trace := by
  unfold finish
  simp only [hc, labelled]
  rw [posted_watchers (·.trace) (fun b name cb => by cases name <;> rfl)]
  simp [plain, tell, setCall]

/-- A writer's refusal is never told as a cancellation. -/
theorem plain_of_refusal (sealed : w.Sealed) (refused : w.refusal? = some fault) :
    fault.isCancelled = false := by
  unfold Writer.refusal? at refused
  split at refused
  · cases refused
    rfl
  · have kind := sealed.cause fault refused
    simp only [Fault.isDestination, Fault.destinationKinds, List.contains_cons,
      List.contains_nil, Bool.or_false, Bool.or_eq_true, beq_iff_eq] at kind
    rcases kind with kind | kind <;> simp [Fault.isCancelled, kind]

/-- A call about to enter that is not waiting for anything stands where it should. -/
theorem Coherent.entering (h : Coherent none b) (hc : b.calls[id]? = some c)
    (enters : c.program.Enters i) (ready : c.status = .running ∨ ∃ r, c.status = .queued r) :
    b.Entering i id := by
  have stands := (h.calls id c hc (by simp) (by rcases ready with s | ⟨r, s⟩ <;>
    rw [Call.isEnded, s])).2
  refine ⟨c, hc, enters, ready.imp (fun s => ⟨s, ?_⟩) fun s => ⟨s, ?_⟩⟩
  · rwa [StatusFits, s] at stands
  · obtain ⟨r, s⟩ := s
    rw [StatusFits, s] at stands
    exact stands.2

/-- A running call that is about to enter is turned away in its next step. -/
theorem turnsAway_advance (h : Reachable b) (hw : b.writers[i]? = some w)
    (refused : w.refusal? = some fault) (running : b.running = some id)
    (hc : b.calls[id]? = some c) (enters : c.program.Enters i) :
    b.TurnsAway i id ((b.advanceProgram id c.loop c.program).1.resolve id
      (b.advanceProgram id c.loop c.program).2) := by
  obtain ⟨-, -, fits, -⟩ := h.orderly.runs running hc
  have sealed := h.timely.sealed i w hw
  -- A writer that was never used has not failed, so it must be closed.
  have used : w.loop = none → w.closed = true := fun free => by
    by_contra opened
    rw [Writer.refusal?, if_neg opened] at refused
    have bound := sealed.bound (.inr (.inl (by rw [refused]; rfl)))
    rw [free] at bound
    cases bound
  have ends : ∀ {a : Bench} {progress : Progress} {k : Call}, a.calls[id]? = some k →
      progress.program? = none → (a.resolve id progress).Ended id := by
    intro a progress k hk ends
    obtain ⟨k', hk', -⟩ := (resolved hk progress).own
    exact ⟨k', hk', by rw [(resolved hk progress).isEnded hk', ends]; rfl⟩
  obtain ⟨k, hk, -⟩ := (stays_advanceProgram (known_any b) id c.loop c.program).kept id c hc
  by_cases own : w.loop = some c.loop ∨ w.loop = none ∧ w.closed = true
  · obtain ⟨writers, same⟩ := advance_refused id hw refused enters own
    rw [same] at hk ⊢
    refine ⟨c, w, fault, hc, hw, refused, ends hk rfl, .inr (.inr fun label labelled => ?_)⟩
    exact trace_finish (b := { b with writers }) hc (plain_of_refusal sealed refused) labelled
  · cases bound : w.loop with
    | none => exact absurd (.inr ⟨bound, used bound⟩) own
    | some other =>
      have foreign : other ≠ c.loop := fun same => own (.inl (same ▸ bound))
      have stops := advance_foreign id hw bound foreign enters fits
      exact ⟨c, w, fault, hc, hw, refused, ends hk stops, .inr (.inl ⟨other, bound, foreign⟩)⟩

/-- In every move a call that is about to enter stays where it is or is turned away. -/
theorem Reachable.turned (h : Reachable b) (hw : b.writers[i]? = some w)
    (refused : w.refusal? ≠ none) (entering : b.Entering i id) (m : Move b b') :
    b'.Entering i id ∨ b.TurnsAway i id b' := by
  obtain ⟨fault, refuses⟩ := Option.ne_none_iff_exists'.1 refused
  obtain ⟨c, hc, enters, ready⟩ := entering
  have coherent := (h.move m).orderly.coherent
  -- Whoever does not move stands where it stood.
  have stands : ∀ {c' : Call}, b'.calls[id]? = some c' → b.Keeps anyId c c' →
      b'.Entering i id := by
    intro c' hc' keeps
    refine coherent.entering hc' (keeps.program ▸ enters) (ready.imp (fun run => ?_) ?_)
    · exact keeps.running.2 run.1
    · rintro ⟨⟨r, queued⟩, -⟩
      exact keeps.queued r queued
  cases h.shift m with
  | beside noProgress _ =>
    obtain ⟨c', hc', keeps⟩ := noProgress.kept id c hc
    exact .inl (stands hc' keeps)
  | @woken k u b₀ _ hu queued noProgress _ calls same =>
    have after := resolved (calls ▸ hu) (.go u.program) (b := b₀)
    rw [← same] at after
    by_cases own : id = k
    · subst own
      cases hc.symm.trans hu
      obtain ⟨c', hc', -, status, program⟩ := after.own
      exact .inl (coherent.entering hc' (program ▸ enters) (.inl status))
    · exact .inl (stands (by rw [after.others id own, calls, hc]) (.refl b c))
  | @advanced k u running hu same =>
    by_cases own : id = k
    · subst own
      cases hc.symm.trans hu
      rw [same]
      exact .inr (turnsAway_advance h hw refuses running hc enters)
    · have stays := stays_advanceProgram (known_any b) k u.loop u.program
      obtain ⟨v, hv, -⟩ := stays.kept k u hu
      obtain ⟨c', hc', keeps⟩ := stays.kept id c hc
      rw [same] at stands ⊢
      refine .inl (stands ?_ keeps)
      rw [(resolved hv _).others id own, hc']
  | @interrupted k u b₀ _ hu queued noProgress calls same =>
    have stays := noProgress.toStays.trans (stays_interruptProgram b₀ k u.program)
    obtain ⟨v, hv, -⟩ := stays.kept k u hu
    have after := resolved hv (b₀.interruptProgram k u.program).2
    rw [← same] at after
    by_cases own : id = k
    · subst own
      cases hc.symm.trans hu
      obtain ⟨c', hc', -⟩ := after.own
      have ended : b'.Ended id :=
        ⟨c', hc', by rw [after.isEnded hc', interruptProgram_ends]; rfl⟩
      exact .inr ⟨c, w, fault, hc, hw, refuses, ended, .inl queued⟩
    · obtain ⟨c', hc', keeps⟩ := stays.kept id c hc
      exact .inl (stands (by rw [after.others id own, hc']) keeps)

/-- So over a run: it has not looked yet, or it was turned away on the way. -/
theorem Reachable.turned_moves (h : Reachable b) (hw : b.writers[i]? = some w)
    (refused : w.refusal? ≠ none) (entering : b.Entering i id) (moves : Moves b b') :
    b'.Entering i id ∨ ∃ b₁ b₂, Moves b b₁ ∧ Move b₁ b₂ ∧ Moves b₂ b' ∧ b₁.TurnsAway i id b₂ := by
  induction moves with
  | refl => exact .inl entering
  | @tail b₁ b₂ moves m ih =>
    rcases ih with entering | ⟨a₁, a₂, before, turned, after, away⟩
    · obtain ⟨w₁, hw₁, ceases⟩ := h.stills_moves moves i w hw
      have refused₁ : w₁.refusal? ≠ none := fun usable => refused (ceases.later.usable usable)
      refine ((h.moves moves).turned hw₁ refused₁ entering m).imp_right fun away => ?_
      exact ⟨b₁, b₂, moves, m, .refl, away⟩
    · exact .inr ⟨a₁, a₂, before, turned, after.tail m, away⟩

theorem Reachable.entering_of_waits (h : Reachable b) (hw : b.writers[i]? = some w)
    (refused : w.refusal? ≠ none) (hc : b.calls[id]? = some c) (live : c.isEnded = false)
    (on : c.program.waitsOn? = some i) : b.Entering i id := by
  have none := (h.timely.sealed i w hw).waiters refused
  have enters : c.program.Enters i := by
    generalize c.program = p at on
    cases p with
    | write job point => cases point <;> cases on; rfl
    | commit job point => cases point <;> cases on; rfl
    | _ => cases on
  have coherent := h.orderly.coherent
  refine coherent.entering hc enters ?_
  have stands := (coherent.calls id c hc (by simp) live).2
  unfold StatusFits at stands
  cases status : c.status with
  | running => exact .inl rfl
  | queued r => exact .inr ⟨r, rfl⟩
  | ended => rw [Call.isEnded, status] at live; cases live
  | waiting kind =>
    rw [status] at stands
    cases kind with
    | change =>
      obtain ⟨j, u, hj, hu, hid⟩ := stands
      rw [on, Option.some.injEq] at hj
      rw [← hj, hw, Option.some.injEq] at hu
      rw [← hu, none] at hid
      cases hid
    | alarm | forever | calls _ _ =>
      rw [on] at stands
      cases stands.2

/-- A task that is started takes its place on the ready queue. -/
theorem Reachable.entering_start (h : Reachable b) {label : String} {task : Task} {p : Program}
    (name : LoopName) (known : b.programOf label task = .ok p) (enters : p.Enters i) :
    (b.start name (some label) p []).Entering i b.calls.length := by
  have placed : (b.start name (some label) p []).calls[b.calls.length]? =
      some { label := some label, loop := name, program := p, watchers := [] } := by
    rw [start, post, calls_setLoop, List.getElem?_append_right (Nat.le_refl _), Nat.sub_self]
    rfl
  exact (h.move (.start name known)).orderly.coherent.entering placed enters (.inr ⟨false, rfl⟩)

/-! ## What is final -/

/-- What became of the writer `w` after it refused work. -/
structure Final (i : Nat) (w : Writer) (b : Bench) (w' : Writer) : Prop where
  /-- No batch was opened or handed over any more. -/
  unsent : w.Unsent w'
  failure : ∀ fault, w.failure = some fault → w'.failure = some fault
  closed : w.closed = true → w'.closed = true
  /-- Whoever waited for the writer has been woken, -/
  woken : ∀ (id : Nat) (c : Call), b.calls[id]? = some c → c.isEnded = false →
    c.program.waitsOn? = some i → b.Entering i id
  /-- and whoever begins is about to look at it as well. -/
  begun : ∀ {label : String} {task : Task} {p : Program} (name : LoopName),
    b.programOf label task = .ok p → p.Enters i →
      (b.start name (some label) p []).Entering i b.calls.length
  /-- Who is about to look at the writer is turned away as soon as it runs, -/
  ends : ∀ id, b.Entering i id → b.running = some id →
    ∃ b', b.step = some b' ∧ b.TurnsAway i id b'
  /-- and nothing else becomes of it. -/
  turned : ∀ (id : Nat) (b' : Bench), b.Entering i id → Moves b b' → b'.Entering i id ∨
    ∃ b₁ b₂, Moves b b₁ ∧ Move b₁ b₂ ∧ Moves b₂ b' ∧ b₁.TurnsAway i id b₂
  /-- A closed writer has no batch, no timer and nobody who waits. -/
  done : w'.closed = true → w'.inFlight.requests = [] ∧ w'.timerArmed = false ∧
    w'.deferred = false ∧ w'.waiters = [] ∧ ∀ alarm, b.time.isSet (.writer i alarm) = false

/-- **Failure and closing are final.** -/
theorem failure_and_close_are_final (h : Reachable b) (hw : b.writers[i]? = some w)
    (done : w.closed = true ∨ w.failure.isSome = true) (moves : Moves b b') :
    ∃ w' : Writer, b'.writers[i]? = some w' ∧ b'.Final i w w' := by
  have refused : w.refusal? ≠ none := by
    rw [Ne, Writer.refusal?_eq_none_iff]
    rintro ⟨opened, healthy⟩
    rcases done with closed | failed
    · rw [opened] at closed; cases closed
    · rw [healthy] at failed; cases failed
  obtain ⟨w', hw', ceases⟩ := h.stills_moves moves i w hw
  have h' := h.moves moves
  have refused' : w'.refusal? ≠ none := fun usable => refused (ceases.later.usable usable)
  have sealed := h'.timely.sealed i w' hw'
  have timed := h'.timely.timed i w' hw'
  refine ⟨w', hw', ceases.unsent refused, ceases.later.failure, ceases.later.closed,
    fun id c hc live on => h'.entering_of_waits hw' refused' hc live on,
    fun name known enters => h'.entering_start name known enters, fun id entering running => ?_,
    fun id b'' entering later => h'.turned_moves hw' refused' entering later, fun closed => ?_⟩
  · obtain ⟨c, hc, enters, -⟩ := entering
    obtain ⟨fault, refuses⟩ := Option.ne_none_iff_exists'.1 refused'
    have away := turnsAway_advance h' hw' refuses running hc enters
    refine ⟨_, ?_, away⟩
    rw [step, running]
    dsimp only
    rw [proceed, hc]
  · have none := sealed.requests closed
    refine ⟨none, sealed.timer closed, sealed.deferred (.inl closed), sealed.waiters refused',
      fun alarm => Bool.eq_false_iff.2 fun set => ?_⟩
    cases alarm with
    | flush =>
      have armed := timed.flush set
      rw [sealed.timer closed] at armed
      cases armed
    | expire batch =>
      have isOpen := timed.expire batch set
      rw [InFlight.ids, none] at isOpen
      cases isOpen

def failing : Bench :=
  run 1 ((run 5 (flushing [("max_batch_size", .nat 2)] [.nat 1, .nat 2, .nat 3])).tellHandle
    (.batch 0 .main 1) (.failed (.raised "ValueError" [])))

theorem reachable_failing : Reachable failing := by
  refine (((reachable_flushing rfl).run 5).move (.tell ?_ _)).run 1
  exact ⟨_, rfl, rfl⟩

/-- The commit looks at the writer next, and is told of the failure. -/
theorem failure_and_close_are_final_failing : ∃ w w',
    failing.writers[0]? = some w ∧ w.closed = false ∧
    w.failure = some (.destination 1 2 (.raised "ValueError" [])) ∧
    (run 1 failing).writers[0]? = some w' ∧ (run 1 failing).Final 0 w w' ∧
    (run 1 failing).Entering 0 0 ∧ (run 1 failing).running = some 0 ∧
    (run 2 failing).trace.head? =
      some (.ended "commit" (.error (.destination 1 2 (.raised "ValueError" [])))) := by
  obtain ⟨w, hw⟩ : ∃ w, failing.writers[0]? = some w := ⟨_, rfl⟩
  have known : (failing.writers[0]?).map (fun w => (w.closed, w.failure)) =
      some (false, some (.destination 1 2 (.raised "ValueError" []))) := rfl
  rw [hw, Option.map_some, Option.some.injEq, Prod.mk.injEq] at known
  obtain ⟨opened, failed⟩ := known
  obtain ⟨w', hw', final⟩ := failure_and_close_are_final reachable_failing hw
    (.inr (by rw [failed]; rfl)) (moves_run failing 1)
  obtain ⟨c, hc⟩ : ∃ c, (run 1 failing).calls[0]? = some c := ⟨_, rfl⟩
  have stands : ((run 1 failing).calls[0]?).map (fun c => (c.program.waitsOn?, c.isEnded)) =
      some (some 0, false) := rfl
  rw [hc, Option.map_some, Option.some.injEq, Prod.mk.injEq] at stands
  exact ⟨w, w', hw, opened, failed, hw', final, final.woken 0 c hc stands.2 stands.1, rfl, rfl⟩

end Bench
end BatchWriter
