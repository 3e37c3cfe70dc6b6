import BatchWriter.Proofs.Bench.Advance
import BatchWriter.Proofs.Feedback.Point

/-!
# Who uses the buses

Only subscribing, unsubscribing and publishing, and what subscribers ask for when they are
called, has to do with the buses. Nothing else that a bench does touches them, and the points of
a program are sorted by what they do: a point leaves the buses alone, or begins a delivery, or
is one point of a delivery.
-/

set_option autoImplicit false

namespace BatchWriter

def Program.delivery? : Program → Option Delivery
  | .deliver d => some d
  | .write _ (.publishing d _) => some d
  | _ => none

def Progress.delivery? (progress : Progress) : Option Delivery :=
  progress.program?.bind Program.delivery?

def Stand.delivery? : Stand → Option Delivery
  | .delivering d => some d
  | _ => none

namespace Bench

variable {b b' : Bench} {i id : ℕ} {loop : LoopName}

/-! ## What leaves the buses alone -/

@[simp]
theorem buses_setLoop (b : Bench) (name : LoopName) (l : EventLoop Callback) :
    (b.setLoop name l).buses = b.buses := by
  cases name <;> rfl

@[simp]
theorem buses_post (b : Bench) (name : LoopName) (cb : Callback) :
    (b.post name cb).buses = b.buses :=
  (NobodyCalled.post b name cb).buses

@[simp]
theorem buses_setCall (b : Bench) (id : ℕ) (c : Call) : (b.setCall id c).buses = b.buses := rfl

@[simp]
theorem buses_setDestination (b : Bench) (i : ℕ) (d : Destination) :
    (b.setDestination i d).buses = b.buses := rfl

@[simp]
theorem buses_tell (b : Bench) (h : Happening) : (b.tell h).buses = b.buses := rfl

@[simp]
theorem buses_log (b : Bench) (n : Notice) : (b.log n).buses = b.buses := rfl

@[simp]
theorem buses_start (b : Bench) (name : LoopName) (label : Option String) (p : Program)
    (watchers : List Watcher) : (b.start name label p watchers).buses = b.buses :=
  buses_post _ _ _

@[simp]
theorem buses_queue (b : Bench) (id : ℕ) (c : Call) (interrupted : Bool) :
    (b.queue id c interrupted).buses = b.buses :=
  buses_post _ _ _

@[simp]
theorem buses_change (b : Bench) (i : ℕ) (f : Writer → Change) :
    (b.change i f).2.buses = b.buses :=
  (NobodyCalled.change b i f).buses

@[simp]
theorem buses_tellHandle (b : Bench) (handle : Handle) (report : Report) :
    (b.tellHandle handle report).buses = b.buses :=
  (NobodyCalled.tellHandle b handle report).buses

theorem buses_foldl {α : Type} (f : Bench → α → Bench)
    (same : ∀ (b : Bench) (a : α), (f b a).buses = b.buses) (as : List α) (b : Bench) :
    (as.foldl f b).buses = b.buses := by
  induction as generalizing b with
  | nil => rfl
  | cons a rest ih => exact (ih _).trans (same b a)

/-! Batches -/

@[simp]
theorem buses_clearEntries (b : Bench) (destination call : ℕ) (handle : Handle) :
    (b.clearEntries destination call handle).buses = b.buses := by
  unfold clearEntries
  dsimp only
  cases handle with
  | batch i _ batch =>
    rw [buses_change]
    split <;> rfl
  | recorder _ =>
    dsimp only
    split <;> rfl

@[simp]
theorem buses_respond (destination call : ℕ) (handle : Handle) (responses : List Response)
    (b : Bench) : (respond destination call handle responses b).2.buses = b.buses := by
  induction responses generalizing b with
  | nil => rfl
  | cons response rest ih =>
    cases response with
    | complete places =>
      rw [respond]
      split
      · rfl
      · rw [ih, buses_tellHandle]
    | fail fault => rw [respond, ih, buses_tellHandle]
    | raise fault => rfl
    | clear => rw [respond, ih, buses_clearEntries]

@[simp]
theorem buses_submit (b : Bench) (destination : ℕ) (loop : Option LoopName)
    (entries : List Value) (handle : Handle) :
    (b.submit destination loop entries handle).2.buses = b.buses := by
  unfold submit
  split
  · rfl
  · dsimp only
    split
    · rw [buses_respond]
      rfl
    · rfl
    · rw [buses_start]
      rfl
    · split <;> rfl

@[simp]
theorem buses_dispatch (b : Bench) (i : ℕ) (loop : LoopName) :
    (b.dispatch i loop).2.buses = b.buses := by
  unfold dispatch
  split
  · rfl
  · dsimp only
    split <;> simp only [buses_change, buses_submit]

@[simp]
theorem buses_timedFlush (b : Bench) (i : ℕ) (loop : LoopName) :
    (b.timedFlush i loop).2.buses = b.buses := by
  unfold timedFlush
  dsimp only
  split
  · split <;> simp only [buses_dispatch, buses_change]
  · simp only [buses_dispatch, buses_change]

@[simp]
theorem buses_deferredFlush (i : ℕ) (loop : LoopName) (b : Bench) :
    (deferredFlush i loop b).2.buses = b.buses := by
  unfold deferredFlush
  split
  · rfl
  · split
    · rw [buses_timedFlush, buses_change]
    · rfl

theorem buses_thenDo {r : Option Fault × Bench} {next : Bench → Option Fault × Bench}
    (same : ∀ b : Bench, (next b).2.buses = b.buses) : (thenDo r next).2.buses = r.2.buses := by
  unfold thenDo
  split
  · rfl
  · exact same _

@[simp]
theorem buses_receive (b : Bench) (loop : LoopName) (i batch : ℕ) (report : Report) :
    (b.receive loop i batch report).2.buses = b.buses := by
  cases report with
  | failed fault => exact buses_change _ _ _
  | completed failed =>
    rw [receive]
    split
    · rfl
    · split
      · rfl
      · rw [buses_thenDo fun b => buses_change b _ _, buses_thenDo (buses_deferredFlush _ _),
          buses_change]

@[simp]
theorem buses_endCallback (r : Option Fault × Bench) : (endCallback r).buses = r.2.buses := by
  unfold endCallback
  split <;> rfl

@[simp]
theorem buses_bufferAlarm (b : Bench) (i : ℕ) : (b.bufferAlarm i).2.buses = b.buses := by
  unfold bufferAlarm
  split
  · rfl
  · dsimp only
    split <;> simp only [buses_timedFlush, buses_change]

/-! Sends and jobs -/

@[simp]
theorem buses_interruptOne (b : Bench) (id : ℕ) : (b.interruptOne id).2.buses = b.buses := by
  unfold interruptOne
  split
  · rfl
  · split <;> simp

@[simp]
theorem buses_interruptAll (b : Bench) (ids : List ℕ) : (b.interruptAll ids).buses = b.buses :=
  buses_foldl _ buses_interruptOne ids b

@[simp]
theorem buses_interrupt (b : Bench) (id : ℕ) : (b.interrupt id).2.buses = b.buses := by
  unfold interrupt
  split <;> simp

@[simp]
theorem buses_endSend (b : Bench) (id : ℕ) (job : SendJob) (outcome : Except Fault Value) :
    (b.endSend id job outcome).1.buses = b.buses := by
  unfold endSend answer
  split
  · split
    · exact buses_tellHandle _ _ _
    · split
      · exact buses_tellHandle _ _ _
      · rfl
  · split
    · exact buses_tellHandle _ _ _
    · rfl

@[simp]
theorem buses_concludeSend (b : Bench) (id : ℕ) (job : SendJob) (ending : Ending) :
    (b.concludeSend id job ending).1.buses = b.buses := by
  unfold concludeSend
  split
  · rfl
  · rw [buses_endSend]
    rfl

@[simp]
theorem buses_sendStep (b : Bench) (id : ℕ) (job : SendJob) (point : SendPoint) :
    (b.sendStep id job point).1.buses = b.buses := by
  unfold sendStep
  split
  · split <;> rfl
  · rfl
  · rfl
  · split
    · rfl
    · split <;> simp
  · split <;> rfl
  · exact buses_concludeSend _ _ _ _

@[simp]
theorem buses_sendInterrupted (b : Bench) (id : ℕ) (job : SendJob) (point : SendPoint) :
    (b.sendInterrupted id job point).1.buses = b.buses := by
  unfold sendInterrupted
  split
  · rfl
  · split <;> simp

theorem buses_gather (id : ℕ) (loop : LoopName) (b : Bench) (child : ℕ) :
    (gather id loop b child).buses = b.buses := by
  unfold gather
  split <;> simp

@[simp]
theorem buses_drainStep (b : Bench) (id : ℕ) (loop : LoopName) (destination : ℕ)
    (point : DrainPoint) : (b.drainStep id loop destination point).1.buses = b.buses := by
  unfold drainStep
  split
  · split
    · rfl
    · dsimp only
      split
      · rfl
      · split
        · rw [buses_foldl _ (buses_gather id loop), buses_interruptAll]
        · split <;> exact buses_interruptAll _ _
  · rfl
  · rfl

@[simp]
theorem buses_countGathered (b : Bench) (id child : ℕ) :
    (b.countGathered id child).buses = b.buses := by
  unfold countGathered
  split
  · rfl
  · split
    · dsimp only
      split <;> simp
    · rfl

@[simp]
theorem buses_forget (b : Bench) (destination id : ℕ) :
    (b.forget destination id).buses = b.buses := by
  unfold forget
  split <;> rfl

theorem buses_answerJob (b : Bench) (destination i : ℕ) (job : Job) (report : Report) :
    (b.answerJob destination i job report).buses = b.buses :=
  buses_tellHandle _ _ _

@[simp]
theorem buses_endJob (b : Bench) (destination i : ℕ) (job : Job) (outcome : Except Fault Value) :
    (b.endJob destination i job outcome).buses = b.buses := by
  unfold endJob
  split
  · exact buses_answerJob _ _ _ _ _
  · split
    · exact buses_answerJob _ _ _ _ _
    · rfl

@[simp]
theorem buses_runJob (b : Bench) (destination i : ℕ) :
    (b.runJob destination i).2.buses = b.buses := by
  unfold runJob
  split
  · rfl
  · split
    · exact buses_endJob _ _ _ _ _
    · rfl

@[simp]
theorem buses_cancelJob (b : Bench) (destination i : ℕ) :
    (b.cancelJob destination i).2.buses = b.buses := by
  unfold cancelJob
  split
  · rfl
  · split
    · rfl
    · split
      · rfl
      · rfl
      · exact buses_answerJob _ _ _ _ _

@[simp]
theorem buses_shutDown (b : Bench) (destination : ℕ) :
    (b.shutDown destination).buses = b.buses := by
  unfold shutDown
  split <;> rfl

/-! Calls, alarms and writers that are built -/

@[simp]
theorem buses_resolve (b : Bench) (id : ℕ) (progress : Progress) :
    (b.resolve id progress).buses = b.buses := by
  cases progress with
  | finish outcome =>
    unfold resolve finish
    dsimp only
    split
    · rfl
    · rw [posted_watchers (·.buses) buses_post]
      split <;> rfl
  | yield p =>
    rw [resolve]
    split <;> simp
  | go p | sleep delay p | wait on p => rfl

@[simp]
theorem buses_interruptProgram (b : Bench) (id : ℕ) (p : Program) :
    (b.interruptProgram id p).1.buses = b.buses := by
  cases p with
  | write job point | commit job point => exact buses_change _ _ _
  | send job point => exact buses_sendInterrupted _ _ _ _
  | _ => rfl

@[simp]
theorem buses_ring (b : Bench) (r : Ring) : (b.ring r).buses = b.buses := by
  cases r with
  | writer i alarm => cases alarm <;> simp [ring]
  | wake id =>
    unfold ring
    dsimp only
    split
    · split <;> simp
    · rfl

@[simp]
theorem buses_create (b : Bench) (name : String) (spec : WriterSpec) :
    (b.create name spec).2.buses = b.buses := by
  unfold create
  dsimp only
  split
  · rfl
  · refine buses_foldl _ (fun b effect => ?_) _ _
    cases effect with
    | wake id => exact (NobodyCalled.wake b id).buses
    | _ => rfl

@[simp]
theorem buses_closeLoop (b : Bench) (name : LoopName) : (b.closeLoop name).buses = b.buses :=
  buses_setLoop _ _ _

/-! ## Points of programs -/

/-- What one point of a program does with the buses. -/
inductive Airs (b : Bench) (p : Program) (r : Bench × Progress) : Prop
  /-- It leaves them alone. -/
  | quiet (silent : p.delivery? = none) (buses : r.1.buses = b.buses)
      (next : r.2.delivery? = none)
  /-- It publishes an event. -/
  | begins {b₀ : Bench} {bus : String} {event : Event} (silent : p.delivery? = none)
      (buses : b₀.buses = b.buses) (bench : r.1 = (b₀.publication bus event).1)
      (next : r.2.delivery? = (b₀.publication bus event).2)
  /-- It is one point of a delivery. -/
  | goes {d : Delivery} (delivers : p.delivery? = some d) (bench : r.1 = (b.attend d).1)
      (next : r.2.delivery? = (b.attend d).2.stand.delivery?)

theorem delivery?_goUnless {p : Program} (silent : p.delivery? = none) (fault : Option Fault) :
    (Progress.goUnless fault p).delivery? = none := by
  cases fault with
  | none => exact silent
  | some fault => rfl

theorem delivery?_of_resumes {job : WriteJob} {next : WritePoint} (resumes : next.Resumes) :
    (Program.write job next).delivery? = none := by
  cases next with
  | publishing _ _ => exact resumes.elim
  | _ => rfl

theorem airs_publishLevel {b₀ : Bench} {p : Program} (silent : p.delivery? = none)
    (buses : b₀.buses = b.buses) (job : WriteJob) (w : Writer) (level : Level) (reason : String)
    {next : WritePoint} (resumes : next.Resumes) :
    Airs b p (b₀.publishLevel job w level reason next) := by
  refine .begins silent ((buses_change b₀ _ _).trans buses) rfl ?_
  unfold publishLevel
  dsimp only
  cases (publication _ _ _).2 with
  | none => exact delivery?_of_resumes resumes
  | some d => rfl

theorem airs_withWriter {p : Program} {f : Writer → Bench × Progress} (silent : p.delivery? = none)
    (each : ∀ w, Airs b p (f w)) : Airs b p (b.withWriter i f) := by
  unfold withWriter
  split
  · exact each _
  · exact .quiet silent rfl rfl

theorem airs_changeThen {p q : Program} (silent : p.delivery? = none) (next : q.delivery? = none)
    (f : Writer → Change) : Airs b p (b.changeThen i f q) :=
  .quiet silent (buses_change _ _ _) (delivery?_goUnless next _)

theorem airs_waitForChange {p q : Program} (silent : p.delivery? = none)
    (next : q.delivery? = none) : Airs b p (b.waitForChange id i loop q) := by
  refine .quiet silent (buses_change _ _ _) ?_
  unfold waitForChange
  dsimp only
  cases (b.change i _).1 with
  | none => exact next
  | some fault => rfl

theorem airs_dispatch {p q : Program} (silent : p.delivery? = none) (next : q.delivery? = none) :
    Airs b p ((b.dispatch i loop).2, .goUnless (b.dispatch i loop).1 q) :=
  .quiet silent (buses_dispatch _ _ _) (delivery?_goUnless next _)

theorem airs_writeStep (job : WriteJob) {point : WritePoint}
    (resumes : ∀ d next, point = .publishing d next → next.Resumes) :
    Airs b (.write job point) (b.writeStep id loop job point) := by
  cases point with
  | start =>
    rw [writeStep, writeStart]
    split
    · exact .quiet rfl rfl rfl
    · exact airs_changeThen rfl rfl _
  | gate blocked =>
    refine airs_withWriter rfl fun w => ?_
    split
    · split
      · exact airs_publishLevel rfl (buses_change _ _ _) _ _ _ _ trivial
      · exact .quiet rfl rfl rfl
    · split
      · exact airs_publishLevel rfl rfl _ _ _ _ trivial
      · exact .quiet rfl rfl rfl
  | flush stage =>
    refine airs_withWriter rfl fun w => ?_
    split
    · exact .quiet rfl rfl rfl
    · exact airs_publishLevel rfl (buses_change _ _ _) _ _ _ _ trivial
  | slot stage =>
    refine airs_withWriter rfl fun w => ?_
    split
    · exact .quiet rfl rfl rfl
    · exact airs_waitForChange rfl rfl
  | woken stage => exact airs_changeThen rfl rfl _
  | dispatch stage => exact airs_dispatch rfl (by cases stage <;> rfl)
  | accept =>
    refine airs_withWriter rfl fun w => ?_
    split
    · exact .quiet rfl rfl rfl
    · exact airs_changeThen rfl rfl _
  | batching =>
    refine airs_withWriter rfl fun w => ?_
    split
    · exact .quiet rfl rfl rfl
    · exact airs_changeThen rfl rfl _
  | publishing d next =>
    refine .goes rfl rfl ?_
    rw [writeStep, writePublishing]
    dsimp only
    cases (b.attend d).2 with
    | done => exact delivery?_of_resumes (resumes d next rfl)
    | _ => rfl

theorem airs_commitStep (job : CommitJob) (point : CommitPoint) :
    Airs b (.commit job point) (b.commitStep id loop job point) := by
  cases point with
  | start | woken => exact airs_changeThen rfl rfl _
  | drain =>
    refine airs_withWriter rfl fun w => ?_
    split
    · split
      · exact airs_dispatch rfl rfl
      · exact airs_waitForChange rfl rfl
    · exact .quiet rfl (buses_change _ _ _) rfl

theorem delivery?_sendStep (b : Bench) (id : ℕ) (job : SendJob) (point : SendPoint) :
    (b.sendStep id job point).2.delivery? = none := by
  cases leads : (b.sendStep id job point).2.program? with
  | none => simp [Progress.delivery?, leads]
  | some q =>
    have becomes := from_advanceProgram b id .main (.send job point) q leads
    cases q with
    | send next after => simp [Progress.delivery?, leads, Program.delivery?]
    | _ => exact becomes.elim

theorem delivery?_drainStep (b : Bench) (id : ℕ) (loop : LoopName) (destination : ℕ)
    (point : DrainPoint) : (b.drainStep id loop destination point).2.delivery? = none := by
  cases leads : (b.drainStep id loop destination point).2.program? with
  | none => simp [Progress.delivery?, leads]
  | some q =>
    have becomes := from_advanceProgram b id loop (.drainSends destination point) q leads
    cases q with
    | drainSends next after => simp [Progress.delivery?, leads, Program.delivery?]
    | _ => exact becomes.elim

theorem airs_advanceProgram {name : LoopName} {p : Program} (fits : p.Fits b name) (id : ℕ) :
    Airs b p (b.advanceProgram id name p) := by
  cases p with
  | write job point =>
    refine airs_writeStep job fun d next same => ?_
    subst same
    exact fits.2
  | commit job point => exact airs_commitStep job point
  | close i | enter i =>
    refine .quiet rfl (buses_change _ _ _) rfl
  | publish bus event =>
    refine .begins rfl rfl rfl ?_
    unfold advanceProgram
    dsimp only
    cases (b.publication bus event).2 <;> rfl
  | deliver d =>
    refine .goes rfl rfl ?_
    unfold advanceProgram deliverStep
    dsimp only
    cases (b.attend d).2 <;> rfl
  | send job point => exact .quiet rfl (buses_sendStep _ _ _ _) (delivery?_sendStep _ _ _ _)
  | drainSends destination point =>
    exact .quiet rfl (buses_drainStep _ _ _ _ _) (delivery?_drainStep _ _ _ _ _)
  | shutDown destination => exact .quiet rfl (buses_shutDown _ _) rfl
  | rest => exact .quiet rfl rfl rfl
  | submit destination entries label => exact .quiet rfl (buses_submit _ _ _ _ _) rfl

/-! ## Moves -/

theorem buses_runCallback (b : Bench) (name : LoopName) (cb : Callback) :
    (b.runCallback name cb).buses = b.buses := by
  cases cb with
  | report i batch report =>
    unfold runCallback
    rw [buses_endCallback, buses_receive]
  | forget destination call => exact buses_forget _ _ _
  | gathered call child => exact buses_countGathered _ _ _
  | resume id =>
    unfold runCallback
    dsimp only
    unfold resume
    split
    · rfl
    · split
      · rw [buses_resolve, buses_interruptProgram]
      · rfl
      · rfl

theorem buses_nextCallback {name : LoopName} {cb : Callback} {b₀ : Bench}
    (next : b.nextCallback? = some (name, cb, b₀)) : b₀.buses = b.buses := by
  obtain ⟨turn, l, -, rfl⟩ := next_pops next
  exact buses_setLoop _ _ _

/-- A move lets the running call go on, or asks something of a bus, or leaves the buses alone. -/
theorem Move.airs (m : Move b b') : (∃ id, b.running = some id ∧ b' = b.proceed id) ∨
    (∃ a, b' = b.ask a) ∨ b'.buses = b.buses := by
  cases m with
  | step next =>
    unfold Bench.step at next
    split at next
    · next id running => exact .inl ⟨id, running, (Option.some.inj next).symm⟩
    · obtain ⟨⟨name, cb, b₀⟩, hn, rfl⟩ := Option.map_eq_some_iff.1 next
      exact .inr (.inr ((buses_runCallback _ _ _).trans (buses_nextCallback hn)))
  | turn name => exact .inr (.inr rfl)
  | ring idle due => exact .inr (.inr (buses_ring _ _))
  | wait instant => exact .inr (.inr rfl)
  | create name spec => exact .inr (.inr (buses_create _ _ _))
  | start name known => exact .inr (.inr (buses_start _ _ _ _ _))
  | endJobs label name destination => exact .inr (.inr (buses_start _ _ _ _ _))
  | submitOutside idle destination entries label => exact .inr (.inr (buses_submit _ _ _ _ _))
  | interrupt id => exact .inr (.inr (buses_interrupt _ _))
  | tell fits report => exact .inr (.inr (buses_tellHandle _ _ _))
  | runJob destination job => exact .inr (.inr (buses_runJob _ _ _))
  | cancelJob destination job => exact .inr (.inr (buses_cancelJob _ _ _))
  | shutDown destination => exact .inr (.inr (buses_shutDown _ _))
  | subscribe bus name => exact .inr (.inl ⟨.join bus name, rfl⟩)
  | unsubscribe bus name => exact .inr (.inl ⟨.leave bus name, rfl⟩)
  | closeLoop idle name => exact .inr (.inr (buses_closeLoop _ _))

end Bench
end BatchWriter
