import BatchWriter.Proofs.Bench.InStep

/-!
# Points of programs in lockstep

One point of a program comes to the same for twins: the call goes on alike, waits for the same or
ends alike.
-/

set_option autoImplicit false

namespace BatchWriter
namespace Bench

variable {κ : Kinship} {b c : Bench} {id i : Nat} {name : LoopName}

inductive Kinship.OutcomeTwins (κ : Kinship) : Except Fault Value → Except Fault Value → Prop
  | ok (v : Value) : OutcomeTwins κ (.ok v) (.ok v)
  | error {f f' : Fault} (same : κ.FaultTwins f f') : OutcomeTwins κ (.error f) (.error f')

theorem Kinship.OutcomeTwins.refl (outcome : Except Fault Value) :
    κ.OutcomeTwins outcome outcome := by
  cases outcome with
  | ok v => exact .ok v
  | error fault => exact .error (.inl rfl)

structure NextTwins (κ : Kinship) (c : Bench) (loop : LoopName) (p p' : Program) : Prop where
  alike : κ.Alike p p'
  welcome : κ.Welcome loop p'
  issued : ∀ job point, p' = .send job point → c.Issued job.handle

inductive ProgressTwins (κ : Kinship) (c : Bench) (loop : LoopName) : Progress → Progress → Prop
  | go {p p' : Program} (next : NextTwins κ c loop p p') : ProgressTwins κ c loop (.go p) (.go p')
  | yield {p p' : Program} (next : NextTwins κ c loop p p') :
      ProgressTwins κ c loop (.yield p) (.yield p')
  | sleep {p p' : Program} (delay : Option Nat) (next : NextTwins κ c loop p p') :
      ProgressTwins κ c loop (.sleep delay p) (.sleep delay p')
  | wait {p p' : Program} (on : Wait) (next : NextTwins κ c loop p p') :
      ProgressTwins κ c loop (.wait on p) (.wait on p')
  | finish {outcome outcome' : Except Fault Value} (same : κ.OutcomeTwins outcome outcome') :
      ProgressTwins κ c loop (.finish outcome) (.finish outcome')

/-- What one point of a call on the loop comes to on both sides. -/
structure PointTwins (κ : Kinship) (loop : LoopName) (r r' : Bench × Progress) : Prop where
  bench : Twins κ r.1 r'.1
  progress : ProgressTwins κ r'.1 loop r.2 r'.2

def tells (b : Bench) : Program → Bool
  | .write _ (.publishing _ _) => true
  | .deliver d => !d.remaining.isEmpty
  | .publish bus _ => !(b.subscribersOf bus).isEmpty
  | _ => false

namespace PointTwins

variable {loop : LoopName}

theorem ends (h : Twins κ b c) (outcome : Except Fault Value) :
    PointTwins κ loop (b, .finish outcome) (c, .finish outcome) :=
  ⟨h, .finish (.refl outcome)⟩

theorem goes (h : Twins κ b c) {p p' : Program} (next : NextTwins κ c loop p p') :
    PointTwins κ loop (b, .go p) (c, .go p') :=
  ⟨h, .go next⟩

end PointTwins

namespace Twins

variable {loop : LoopName}

/-! ### Sends -/

theorem answer (h : Twins κ b c) (id : Nat) {job : SendJob} (issued : c.Issued job.handle)
    (report : Report) : Twins κ (b.answer id (κ.sendJob job) report) (c.answer id job report) := by
  have noted : Twins κ { b with answers := (id, report) :: b.answers }
      { c with answers := (id, report) :: c.answers } :=
    { h with answers := congrArg (List.cons (id, report)) h.answers }
  exact noted.tellHandle (h.past_of_issued issued) report

theorem endSend (h : Twins κ b c) (id : Nat) {job : SendJob} (issued : c.Issued job.handle)
    (outcome : Except Fault Value) :
    PointTwins κ loop (b.endSend id (κ.sendJob job) outcome) (c.endSend id job outcome) := by
  cases outcome with
  | error fault =>
    simp only [Bench.endSend]
    split
    · exact .ends (h.answer id issued _) _
    · split
      · exact .ends ((h.log (.sendFailed job.entries.length fault)).answer id issued _) _
      · exact .ends h _
  | ok result =>
    simp only [Bench.endSend]
    split
    · exact .ends (h.answer id issued _) _
    · exact .ends h _

theorem conclude_destination (d : Destination) (ending : Ending) (batch : List Value) :
    (κ.destination d).conclude ending batch =
      ((d.conclude ending batch).1, κ.destination (d.conclude ending batch).2) := by
  cases ending with
  | byRule =>
    unfold Destination.conclude
    rw [show (κ.destination d).rule = d.rule from rfl]
    cases d.rule <;> rfl
  | _ => rfl

theorem handles_conclude (d : Destination) (ending : Ending) (batch : List Value) :
    (d.conclude ending batch).2.calls = d.calls ∧ (d.conclude ending batch).2.jobs = d.jobs := by
  unfold Destination.conclude
  split
  · exact ⟨rfl, rfl⟩
  · exact ⟨rfl, rfl⟩
  · exact ⟨rfl, rfl⟩
  · split <;> exact ⟨rfl, rfl⟩

theorem concludeSend (h : Twins κ b c) (id : Nat) {job : SendJob} (issued : c.Issued job.handle)
    (ending : Ending) :
    PointTwins κ loop (b.concludeSend id (κ.sendJob job) ending)
    (c.concludeSend id job ending) := by
  unfold Bench.concludeSend
  rw [show (κ.sendJob job).destination = job.destination from rfl, h.destination]
  cases hd : c.destinations[job.destination]? with
  | none => exact .ends h _
  | some d =>
    obtain ⟨calls, jobs⟩ := handles_conclude d ending job.entries
    dsimp only [Option.map_some]
    rw [show (κ.sendJob job).entries = job.entries from rfl, conclude_destination]
    refine (h.alterDestination hd fun handle holds => ?_).endSend id issued _
    rwa [calls, jobs] at holds

theorem sendNext (job : SendJob) (issued : c.Issued job.handle) (point : SendPoint) :
    NextTwins κ c loop (.send (κ.sendJob job) point) (.send job point) where
  alike := .same (.send job point) fun _ => trivial
  welcome i works := by cases works
  issued other point same := by
    cases same
    exact issued

theorem sendStep (h : Twins κ b c) (id : Nat) {job : SendJob} (issued : c.Issued job.handle)
    (point : SendPoint) :
    PointTwins κ loop (b.sendStep id (κ.sendJob job) point) (c.sendStep id job point) := by
  cases point with
  | start =>
    unfold Bench.sendStep
    rw [show (κ.sendJob job).destination = job.destination from rfl, h.destination]
    cases hd : c.destinations[job.destination]? with
    | none => exact .ends h _
    | some d =>
      have reached := h.reach job.destination (d := d) job.entries fun handle holds =>
        h.held handle (.inl ⟨d, List.mem_of_getElem? hd, holds⟩)
      have next : NextTwins κ (c.reach job.destination d job.entries) loop
          (.send (κ.sendJob { job with behaviour := d.behaviour d.reached })
            (.yields (d.behaviour d.reached).yields))
          (.send { job with behaviour := d.behaviour d.reached }
            (.yields (d.behaviour d.reached).yields)) :=
        sendNext { job with behaviour := d.behaviour d.reached } (by exact issued) _
      exact .goes reached next
  | yields times =>
    cases times with
    | zero => exact .goes h (sendNext job issued .sleep)
    | succ n => exact ⟨h, .yield (sendNext job issued (.yields n))⟩
  | sleep =>
    simp only [Bench.sendStep]
    rw [show (κ.sendJob job).behaviour = job.behaviour from rfl]
    split
    · exact .goes h (sendNext job issued .hang)
    · split
      · exact h.endSend id issued _
      · exact ⟨h, .yield (sendNext job issued .hang)⟩
      · exact ⟨h, .sleep _ (sendNext job issued .hang)⟩
  | hang =>
    simp only [Bench.sendStep]
    rw [show (κ.sendJob job).behaviour = job.behaviour from rfl]
    split
    · exact ⟨h, .wait .forever (sendNext job issued .conclude)⟩
    · exact .goes h (sendNext job issued .conclude)
  | conclude => exact h.concludeSend id issued _

theorem sendInterrupted (h : Twins κ b c) (id : Nat) {job : SendJob}
    (issued : c.Issued job.handle) (point : SendPoint) :
    PointTwins κ loop (b.sendInterrupted id (κ.sendJob job) point)
      (c.sendInterrupted id job point) := by
  cases point with
  | start => exact .ends h _
  | _ =>
    unfold Bench.sendInterrupted
    rw [show (κ.sendJob job).behaviour = job.behaviour from rfl]
    dsimp only
    split
    · exact h.concludeSend id issued _
    · exact h.endSend id issued _

theorem isEnded (h : Twins κ b c) (id : Nat) : b.isEnded id = c.isEnded id := by
  unfold Bench.isEnded
  rcases h.call id with ⟨none, none'⟩ | ⟨k, k', hk, hk', same⟩
  · rw [none, none']
  · simp only [hk, hk', Option.map_some, same.isEnded]

theorem gather (h : Twins κ b c) (id : Nat) (loop : LoopName) (child : Nat) :
    Twins κ (Bench.gather id loop b child) (Bench.gather id loop c child) := by
  unfold Bench.gather
  rw [h.isEnded]
  split
  · exact h.post rfl (.gathered id child) fun _ _ _ _ report => by cases report
  · next live =>
    rcases h.call child with ⟨-, none'⟩ | ⟨k, k', hk, hk', same⟩
    · rw [Bench.isEnded, none'] at live
      exact absurd rfl live
    · rw [modify_call hk, modify_call hk']
      exact h.setCall child { same with watchers := congrArg (· ++ [.gather id]) same.watchers }
        fun _ _ sends => h.held _ (holds_call hk' sends)

theorem gatherAll (h : Twins κ b c) (id : Nat) (loop : LoopName) (children : List Nat) :
    Twins κ (children.foldl (Bench.gather id loop) b)
    (children.foldl (Bench.gather id loop) c) := by
  induction children generalizing b c with
  | nil => exact h
  | cons child rest ih => exact ih (h.gather id loop child)

theorem idleNext {p : Program} (idle : p.worksOn? = none) (plain : p.Plain)
    (quiet : ∀ job point, p ≠ .send job point) : NextTwins κ c loop (κ.program p) p where
  alike := .same p fun _ => plain
  welcome i works := by
    rw [idle] at works
    cases works
  issued job point same := absurd same (quiet job point)

theorem isOn (h : Twins κ b c) (name : LoopName) : b.isOn name = c.isOn name := by
  funext id
  unfold Bench.isOn
  rcases h.call id with ⟨none, none'⟩ | ⟨k, k', hk, hk', same⟩
  · rw [none, none']
  · rw [hk, hk', Option.map_some, Option.map_some, same.loop]

theorem drainStep (h : Twins κ b c) (id : Nat) (destination : Nat) (point : DrainPoint) :
    PointTwins κ loop (b.drainStep id loop destination point)
      (c.drainStep id loop destination point) := by
  cases point with
  | start =>
    unfold Bench.drainStep
    rw [h.destination]
    cases c.destinations[destination]? with
    | none => exact .ends h _
    | some d =>
      dsimp only [Option.map_some]
      rw [show (κ.destination d).pending = d.pending from rfl, h.isOn]
      have cancels := h.interruptAll d.pending
      have next : ∀ (c : Bench) (point : DrainPoint), NextTwins κ c loop
          (.drainSends destination point) (.drainSends destination point) := fun c point =>
        idleNext (p := .drainSends destination point) rfl trivial fun _ _ same => by cases same
      split
      · exact .ends h _
      · split
        · exact ⟨cancels.gatherAll id loop d.pending, .wait _ (next _ _)⟩
        · split
          · exact .ends cancels _
          · exact ⟨cancels, .yield (next _ _)⟩
  | gathered | astray => exact .ends h _

theorem countGathered (h : Twins κ b c) (id child : Nat) :
    Twins κ (b.countGathered id child) (c.countGathered id child) := by
  unfold Bench.countGathered
  rcases h.call id with ⟨none, none'⟩ | ⟨k, k', hk, hk', same⟩
  · rw [none, none']
    exact h
  · simp only [hk, hk', same.status]
    split
    · next waits =>
      have live : k'.isEnded = false := by rw [Call.isEnded, waits]
      split
      · exact h.queue hk' same live _
      · exact h.setStatus hk' same live _
    · exact h

theorem forget (h : Twins κ b c) (destination id : Nat) :
    Twins κ (b.forget destination id) (c.forget destination id) := by
  unfold Bench.forget
  rw [h.destination]
  cases hd : c.destinations[destination]? with
  | none => exact h
  | some d =>
    exact h.alterDestination (e := { d with pending := d.pending.filter (· ≠ id) }) hd
      fun _ holds => holds

/-! ### Jobs -/

theorem answerJob (h : Twins κ b c) (destination i : Nat) (job : Job)
    (past : κ.Past job.handle) (report : Report) :
    Twins κ (b.answerJob destination i (κ.job job) report)
      (c.answerJob destination i job report) := by
  have noted : Twins κ { b with jobAnswers := ((destination, i), report) :: b.jobAnswers }
      { c with jobAnswers := ((destination, i), report) :: c.jobAnswers } := { h with }
  exact noted.tellHandle past report

theorem endJob (h : Twins κ b c) (destination i : Nat) (job : Job) (past : κ.Past job.handle)
    (outcome : Except Fault Value) :
    Twins κ (b.endJob destination i (κ.job job) outcome) (c.endJob destination i job outcome) := by
  unfold Bench.endJob
  split
  · next fault => exact (h.log (.jobFailed fault)).answerJob destination i job past _
  · split
    · exact h.answerJob destination i job past _
    · exact h

theorem setJob (h : Twins κ b c) {destination i : Nat} {d e : Destination} {job : Job}
    (hd : c.destinations[destination]? = some d) (hj : d.jobs[i]? = some job) (s : JobState)
    (calls : e.calls = d.calls) (jobs : e.jobs = d.jobs.set i { job with state := s }) :
    Twins κ (b.setDestination destination (κ.destination e)) (c.setDestination destination e) := by
  refine h.alterDestination hd fun handle holds => ?_
  rw [calls, jobs] at holds
  rcases holds with holds | ⟨j, hm, rfl⟩
  · exact .inl holds
  · rcases List.mem_or_eq_of_mem_set hm with hm | rfl
    · exact .inr ⟨j, hm, rfl⟩
    · exact .inr ⟨job, List.mem_of_getElem? hj, rfl⟩

theorem issued_job (h : Twins κ b c) {destination i : Nat} {d : Destination} {job : Job}
    (hd : c.destinations[destination]? = some d) (hj : d.jobs[i]? = some job) :
    c.Issued job.handle :=
  h.held job.handle (.inl ⟨d, List.mem_of_getElem? hd, .inr ⟨job, List.mem_of_getElem? hj, rfl⟩⟩)

theorem runJob (h : Twins κ b c) (destination i : Nat) :
    Twins κ (b.runJob destination i).2 (c.runJob destination i).2 := by
  unfold Bench.runJob
  rw [h.destination]
  cases hd : c.destinations[destination]? with
  | none => exact h
  | some d =>
    dsimp only [Option.map_some]
    rw [show (κ.destination d).jobs = d.jobs.map κ.job from rfl, List.getElem?_map]
    cases hj : d.jobs[i]? with
    | none => exact h
    | some job =>
      obtain ⟨handle, entries, state⟩ := job
      cases state with
      | finished | cancelled => exact h
      | waiting =>
        have past := h.past_of_issued (h.issued_job hd hj)
        generalize hr : ({ d with
          jobs := d.jobs.set i { handle, entries, state := .finished }
          reached := d.reached + 1 } : Destination) = ran
        have concluded : ({ κ.destination d with
            jobs := (d.jobs.map κ.job).set i
              { handle := κ.handle handle, entries, state := .finished }
            reached := (κ.destination d).reached + 1 } : Destination).conclude
              ((κ.destination d).behaviour (κ.destination d).reached).ending entries =
            ((ran.conclude (d.behaviour d.reached).ending entries).1,
              κ.destination (ran.conclude (d.behaviour d.reached).ending entries).2) := by
          rw [← conclude_destination, ← hr]
          simp only [Kinship.destination, Kinship.job, List.map_set]
          rfl
        obtain ⟨calls, jobs⟩ := handles_conclude ran (d.behaviour d.reached).ending entries
        have told := (h.setJob hd hj .finished (calls.trans (by rw [← hr]))
          (jobs.trans (by rw [← hr]))).tell (y := .reached d.name d.reached entries) (.inl rfl)
        have ended := told.endJob destination i { handle, entries, state := .finished } past
          (ran.conclude (d.behaviour d.reached).ending entries).1
        dsimp only [Option.map_some, Kinship.job] at concluded ⊢
        rw [concluded]
        subst hr
        exact ended

theorem cancelJob (h : Twins κ b c) (destination i : Nat) :
    Twins κ (b.cancelJob destination i).2 (c.cancelJob destination i).2 := by
  unfold Bench.cancelJob
  rw [h.destination]
  cases hd : c.destinations[destination]? with
  | none => exact h
  | some d =>
    dsimp only [Option.map_some]
    rw [show (κ.destination d).jobs = d.jobs.map κ.job from rfl, List.getElem?_map]
    cases hj : d.jobs[i]? with
    | none => exact h
    | some job =>
      obtain ⟨handle, entries, state⟩ := job
      cases state with
      | finished | cancelled => exact h
      | waiting =>
        have set := h.setJob (e := { d with
          jobs := d.jobs.set i { handle, entries, state := .cancelled } }) hd hj .cancelled rfl rfl
        have same : κ.destination { d with
            jobs := d.jobs.set i { handle, entries, state := .cancelled } } =
            { κ.destination d with
              jobs := (d.jobs.map κ.job).set i
                { handle := κ.handle handle, entries, state := .cancelled } } := by
          simp [Kinship.destination, Kinship.job, List.map_set]
        rw [same] at set
        exact set.answerJob destination i { handle, entries }
          (h.past_of_issued (h.issued_job hd hj)) _

theorem shutDown (h : Twins κ b c) (destination : Nat) :
    Twins κ (b.shutDown destination) (c.shutDown destination) := by
  unfold Bench.shutDown
  rw [h.destination]
  cases hd : c.destinations[destination]? with
  | none => exact h
  | some d =>
    exact h.alterDestination (e := { d with shutDown := true }) hd fun _ holds => holds

/-! ### Writes and commits -/

theorem goUnless {fault fault' : Option Fault} {p p' : Program}
    (same : Option.Rel κ.FaultTwins fault fault') (next : NextTwins κ c loop p p') :
    ProgressTwins κ c loop (.goUnless fault p) (.goUnless fault' p') := by
  cases same with
  | none => exact .go next
  | some same => exact .finish (.error same)

theorem changeThen (h : Twins κ b c) (live : κ.Live i) {f g : Writer → Change}
    (each : ∀ w w', b.writers[κ.place i]? = some w → c.writers[i]? = some w' →
      Writer.Twins (κ.writer i) w w' → Writer.ChangeTwins (κ.writer i) (f w) (g w'))
    (later : ∀ w' : Writer, w'.Later (g w').writer) {p p' : Program}
    (next : NextTwins κ (c.change i g).2 loop p p') :
    PointTwins κ loop (b.changeThen (κ.place i) f p) (c.changeThen i g p') := by
  have changed := h.change live each later
  exact ⟨changed.bench, goUnless changed.fault next⟩

theorem withWriter (h : Twins κ b c) (live : κ.Live i) (own : b.Owned (κ.place i) loop)
    {f g : Writer → Bench × Progress}
    (each : ∀ w w', c.writers[i]? = some w' → w.loop = some loop →
      Writer.Twins (κ.writer i) w w' → PointTwins κ loop (f w) (g w')) :
    PointTwins κ loop (b.withWriter (κ.place i) f) (c.withWriter i g) := by
  obtain ⟨u, hu, bound⟩ := own
  obtain ⟨w, w', hw, hw', twins⟩ := (h.writer live).resolve_left fun none => by
    rw [hu] at none
    cases none.1
  rw [withWriter_some hw, withWriter_some hw']
  exact each w w' hw' (by rwa [Option.some.inj (hw.symm.trans hu)]) twins

/-- A call that comes to a writer comes from the loop to which the writer is bound, if it is. -/
theorem fits_of_welcome {p : Program} {w w' : Writer} (welcome : κ.Welcome loop p)
    (works : p.worksOn? = some i) (twins : Writer.Twins (κ.writer i) w w') :
    w.loop = w'.loop ∨ w.loop = some loop := by
  rcases twins.loop with same | ⟨free, home, -, -⟩
  · exact .inl same
  · cases bound : (κ.writer i).home with
    | none => exact .inl (home.trans (bound.trans free.symm))
    | some own =>
      rw [(welcome i works).2 own bound]
      exact .inr (home.trans bound)

/-- A call that was held back waits, on a writer that is still usable. -/
theorem waitForChange (h : Twins κ b c) (live : κ.Live i)
    (own : b.Owned (κ.place i) loop) (id : Nat) {p p' : Program}
    (next : ∀ c, NextTwins κ c loop p p') :
    PointTwins κ loop (b.waitForChange id (κ.place i) loop p) (c.waitForChange id i loop p') := by
  have waits := h.change live
    (f := fun w => (w.checkUsable.andThen (Writer.bind loop)).andThen (Writer.addWaiter id))
    (g := fun w => (w.checkUsable.andThen (Writer.bind loop)).andThen (Writer.addWaiter id))
    (fun w w' hw _ same => by
      obtain ⟨u, hu, bound⟩ := own
      rw [Option.some.inj (hu.symm.trans hw)] at bound
      refine ((Writer.ChangeTwins.checkUsable same).andThen fun after => ?_).andThen
        fun after => .addWaiter after id
      refine (Writer.ChangeTwins.bind after (.inr ?_)).1
      rwa [Writer.writer_checkUsable])
    fun w' => (show Writer.CallChange c.now w' _ from w'.callChange_wait loop id).later
  refine ⟨waits.bench, ?_⟩
  unfold Bench.waitForChange
  dsimp only
  rcases waits.cases with ⟨none, none'⟩ | ⟨f, f', fails, fails', same⟩
  · rw [none, none']
    exact .wait .change (next _)
  · rw [fails, fails']
    exact .finish (.error same)

theorem afterWaiting (h : Twins κ b c) (live : κ.Live i) (id : Nat) {p p' : Program}
    (next : ∀ c, NextTwins κ c loop p p') :
    PointTwins κ loop (b.afterWaiting id (κ.place i) p) (c.afterWaiting id i p') :=
  h.changeThen live
    (fun _ _ _ _ same => (Writer.ChangeTwins.dropWaiter same id).andThen .checkUsable)
    (fun w' => (show Writer.CallChange c.now w' _ from .andThen (.dropWaiter id) fun _ =>
      Writer.callChange_checkUsable _).later) (next _)

theorem nextOn {p q : Program} (welcome : κ.Welcome loop p) (works : q.worksOn? = p.worksOn?)
    (plain : κ.silent = true → q.Plain) (quiet : ∀ job point, q ≠ .send job point) (c : Bench) :
    NextTwins κ c loop (κ.program q) q where
  alike := .same q plain
  welcome i own := welcome i (works.symm.trans own)
  issued job point same := absurd same (quiet job point)

section Writes

variable {job : WriteJob} {p : Program} (welcome : κ.Welcome loop p)
  (works : p.worksOn? = some job.writer)
include welcome works

theorem writeNext (told : WriteJob) (same : told.writer = job.writer) (point : WritePoint)
    (plain : κ.silent = true → point.Plain) (c : Bench) :
    NextTwins κ c loop (.write (κ.writeJob told) point) (.write told point) :=
  nextOn (q := .write told point) welcome ((congrArg some same).trans works.symm) plain
    (fun _ _ sends => by cases sends) c

/-- What a write publishes, and with whom it goes on; where the second bench is silent the write
goes on there at once. -/
theorem publishLevel (h : Twins κ b c) {w w' : Writer}
    (twins : Writer.Twins (κ.writer job.writer) w w') (level : Level) (reason : String)
    {next : WritePoint} (plain : next.Plain) :
    PointTwins κ loop (b.publishLevel (κ.writeJob job) w level reason next)
      (c.publishLevel job w' level reason next) := by
  have noted := (h.change (welcome _ works).1
    (f := fun u => .stay (u.note b.now (.announced (w.event level reason))))
    (g := fun u => .stay (u.note c.now (.announced (w'.event level reason))))
    (fun u u' _ _ same => by
      rw [h.now, twins.event]
      exact .stay (same.noted c.now (.announced (w'.event level reason))))
    fun u' => u'.later_note _ _).bench
  have going := writeNext welcome works { job with published := job.published ++ [level] } rfl
  rw [twins.event] at noted
  unfold Bench.publishLevel
  dsimp only
  rw [twins.event, twins.bus, show (κ.writeJob job).writer = κ.place job.writer from rfl]
  by_cases silent : κ.silent = true
  · have told := noted.publication_first silent (w'.bus.getD "global") (w'.event level reason)
    obtain ⟨published, nobody⟩ := told.publication_second silent (w'.bus.getD "global")
      (w'.event level reason)
    refine ⟨published, ?_⟩
    rw [nobody]
    dsimp only
    split
    · exact .go (going next (fun _ => plain) _)
    · next delivery told =>
      exact .go { going next (fun _ => plain) _ with
        alike := .telling silent { job with published := job.published ++ [level] } delivery plain
          (prompt_of_publication told) }
  · have loud : κ.silent = false := by simpa using silent
    obtain ⟨published, same⟩ := noted.publication loud (w'.bus.getD "global")
      (w'.event level reason)
    refine ⟨published, ?_⟩
    dsimp only
    rw [same]
    split
    · exact .go (going next (fun _ => plain) _)
    · next delivery _ => exact .go (going (.publishing delivery next) (absurd · silent) _)

theorem writeStart (h : Twins κ b c) :
    PointTwins κ loop (b.writeStart loop (κ.writeJob job)) (c.writeStart loop job) := by
  unfold Bench.writeStart
  rw [show (κ.writeJob job).elements = job.elements from rfl]
  split
  · exact .ends h _
  · refine h.changeThen (welcome _ works).1 (fun w w' _ _ same => ?_) (fun w' => ?_)
      (writeNext welcome works job rfl (.gate false) (fun _ => trivial) _)
    · exact (Writer.ChangeTwins.bind same (fits_of_welcome welcome works same)).1.andThen
        .checkUsable
    · exact (show Writer.CallChange c.now w' _ from .andThen (.bind loop) fun _ =>
        Writer.callChange_checkUsable _).later

variable (h : Twins κ b c)
include h

theorem heldBack (reason : WaitReason) {w w' : Writer}
    (twins : Writer.Twins (κ.writer job.writer) w w') (level : Level) (text : String)
    {next : WritePoint} (plain : next.Plain) :
    PointTwins κ loop
      ((b.change (κ.place job.writer) (·.holdBack reason)).2.publishLevel (κ.writeJob job) w level
        text next)
      ((c.change job.writer (·.holdBack reason)).2.publishLevel job w' level text next) := by
  have held := h.change (welcome _ works).1
    (fun u u' _ _ same => Writer.ChangeTwins.holdBack same reason)
    fun u' => ((u'.regular_measure _).andThen (Writer.regular_announce _ _)).later
  exact held.bench.publishLevel welcome works twins level text plain

theorem writePublishing (loud : κ.silent = false) (d : Delivery) (next : WritePoint) :
    PointTwins κ loop (b.writePublishing (κ.writeJob job) d next)
      (c.writePublishing job d next) := by
  obtain ⟨attended, same⟩ := h.attend loud d
  have going := fun point =>
    writeNext welcome works job rfl point (fun silent => by rw [loud] at silent; cases silent)
  refine ⟨attended, ?_⟩
  unfold Bench.writePublishing
  dsimp only
  rw [same]
  split
  · exact .go (going _ _)
  · exact .yield (going _ _)
  · exact .sleep _ (going _ _)
  · exact .go (going _ _)
  · exact .finish (.refl _)

variable (own : b.Owned (κ.place job.writer) loop)
include own

theorem writeGate (blocked : Bool) :
    PointTwins κ loop (b.writeGate (κ.writeJob job) blocked) (c.writeGate job blocked) := by
  refine h.withWriter (welcome _ works).1 own fun w w' _ _ twins => ?_
  rw [twins.buffer, twins.hasCapacity]
  split
  · split
    · exact h.heldBack welcome works .bufferFull twins .hard "buffer_full" trivial
    · exact .goes h (writeNext welcome works job rfl (.flush (.filling blocked))
        (fun _ => trivial) c)
  · split
    · exact h.publishLevel welcome works twins .ok "recovered" trivial
    · exact .goes h (writeNext welcome works job rfl .accept (fun _ => trivial) c)

theorem writeFlush (stage : Stage) :
    PointTwins κ loop (b.writeFlush (κ.writeJob job) stage) (c.writeFlush job stage) := by
  refine h.withWriter (welcome _ works).1 own fun w w' _ _ twins => ?_
  rw [twins.hasCapacity]
  split
  · exact .goes h (writeNext welcome works job rfl (.dispatch stage) (fun _ => trivial) c)
  · exact h.heldBack welcome works .inFlightLimit twins .soft "in_flight_limit" trivial

theorem writeSlot (id : Nat) (stage : Stage) :
    PointTwins κ loop (b.writeSlot id loop (κ.writeJob job) stage)
      (c.writeSlot id loop job stage) := by
  refine h.withWriter (welcome _ works).1 own fun w w' _ _ twins => ?_
  rw [twins.hasCapacity]
  split
  · exact .goes h (writeNext welcome works job rfl (.dispatch stage) (fun _ => trivial) c)
  · exact h.waitForChange (welcome _ works).1 own id
      (writeNext welcome works job rfl (.woken stage) fun _ => trivial)

theorem writeDispatch (stage : Stage) :
    PointTwins κ loop (b.writeDispatch loop (κ.writeJob job) stage)
      (c.writeDispatch loop job stage) := by
  have dispatched := h.dispatch (welcome _ works).1 own
  refine ⟨dispatched.bench, goUnless dispatched.fault ?_⟩
  exact writeNext welcome works job rfl stage.next (fun _ => by cases stage <;> trivial) _

theorem writeAccept :
    PointTwins κ loop (b.writeAccept (κ.writeJob job)) (c.writeAccept job) := by
  refine h.withWriter (welcome _ works).1 own fun w w' _ _ twins => ?_
  have same : w.conversion (κ.writeJob job) = w'.conversion job := by
    rw [Writer.conversion, Writer.conversion, twins.converter, twins.buffer, twins.count]
    rfl
  rw [same]
  cases w'.conversion job with
  | error fault => exact .ends h _
  | ok entry =>
    refine h.changeThen (welcome _ works).1 (fun u u' _ _ same => ?_)
      (fun u' => (u'.regular_accept c.now entry).later)
      (writeNext welcome works job rfl .batching (fun _ => trivial) _)
    rw [h.now]
    exact .accept same c.now entry

theorem writeBatching :
    PointTwins κ loop (b.writeBatching (κ.writeJob job)) (c.writeBatching job) := by
  refine h.withWriter (welcome _ works).1 own fun w w' _ _ twins => ?_
  rw [twins.hasFullBatch]
  split
  · exact .goes h (writeNext welcome works job rfl (.flush .batching) (fun _ => trivial) c)
  · exact h.changeThen (welcome _ works).1 (fun u u' _ _ same => .showGauges same)
      (fun u' => u'.regular_showGauges.later)
      (writeNext welcome works
        { job with
          elements := job.elements.drop 1, written := job.written + 1, published := [] } rfl
        .start (fun _ => trivial) _)

end Writes

theorem writeStep (h : Twins κ b c) (id : Nat) {job : WriteJob} {point : WritePoint}
    (welcome : κ.Welcome loop (.write job point)) (plain : κ.silent = true → point.Plain)
    (fits : (Program.write (κ.writeJob job) point).Fits b loop) :
    PointTwins κ loop (b.writeStep id loop (κ.writeJob job) point)
      (c.writeStep id loop job point) := by
  cases point with
  | start => exact h.writeStart welcome rfl
  | gate blocked => exact h.writeGate welcome rfl fits blocked
  | flush stage => exact h.writeFlush welcome rfl fits stage
  | slot stage => exact h.writeSlot welcome rfl fits id stage
  | woken stage =>
    exact h.afterWaiting (welcome _ rfl).1 id
      (writeNext welcome rfl job rfl (.slot stage) fun _ => trivial)
  | dispatch stage => exact h.writeDispatch welcome rfl fits stage
  | accept => exact h.writeAccept welcome rfl fits
  | batching => exact h.writeBatching welcome rfl fits
  | publishing delivery next =>
    refine h.writePublishing welcome rfl ?_ delivery next
    by_contra silent
    exact plain (by simpa using silent)

section Commits

variable {job : CommitJob} {point : CommitPoint} (welcome : κ.Welcome loop (.commit job point))
include welcome

theorem commitNext (next : CommitPoint) (c : Bench) :
    NextTwins κ c loop (.commit (κ.commitJob job) next) (.commit job next) :=
  nextOn (q := .commit job next) welcome rfl (fun _ => trivial) (fun _ _ sends => by cases sends) c

theorem commitStart (h : Twins κ b c) :
    PointTwins κ loop (b.commitStart loop (κ.commitJob job)) (c.commitStart loop job) := by
  refine h.changeThen (welcome _ rfl).1 (fun w w' _ _ same => ?_) (fun w' => ?_)
    (commitNext welcome .drain _)
  · refine ((Writer.ChangeTwins.bind same (fits_of_welcome welcome rfl same)).1.andThen
      .checkUsable).andThen fun after => .announce after ?_
    rw [after.id, after.buffer, after.count]
    rfl
  · exact (show Writer.CallChange c.now w' _ from .andThen (.andThen (.bind loop) fun _ =>
      Writer.callChange_checkUsable _) fun _ =>
        .mild rfl (by simp [Writer.announce, Effect.Mild])).later

theorem commitDrain (h : Twins κ b c) (own : b.Owned (κ.place job.writer) loop) (id : Nat) :
    PointTwins κ loop (b.commitDrain id loop (κ.commitJob job)) (c.commitDrain id loop job) := by
  have live := (welcome _ rfl).1
  refine h.withWriter live own fun w w' _ _ twins => ?_
  rw [twins.isBusy, twins.buffer, twins.hasCapacity,
    show (κ.commitJob job).flush = job.flush from rfl]
  split
  · split
    · have dispatched := h.dispatch live own
      exact ⟨dispatched.bench, goUnless dispatched.fault (commitNext welcome .drain _)⟩
    · exact h.waitForChange live own id (commitNext welcome .woken)
  · have drained := h.change live
      (f := fun w => w.showGauges.andThen fun w => w.announce (.drained w.id))
      (g := fun w => w.showGauges.andThen fun w => w.announce (.drained w.id))
      (fun u u' _ _ same => (Writer.ChangeTwins.showGauges same).andThen fun after =>
        .announce after (by rw [after.id]; rfl))
      fun u' => ((Writer.regular_showGauges u').andThen (Writer.regular_announce _ _)).later
    exact .ends drained.bench _

theorem commitStep (h : Twins κ b c) (id : Nat)
    (fits : (Program.commit (κ.commitJob job) point).Fits b loop) :
    PointTwins κ loop (b.commitStep id loop (κ.commitJob job) point)
      (c.commitStep id loop job point) := by
  cases point with
  | start => exact h.commitStart welcome
  | drain => exact h.commitDrain welcome fits id
  | woken => exact h.afterWaiting (welcome _ rfl).1 id (commitNext welcome .drain)

end Commits

/-! ### Calls -/

theorem deliverStep (h : Twins κ b c) (loud : κ.silent = false) (d : Delivery) :
    PointTwins κ loop (b.deliverStep d) (c.deliverStep d) := by
  obtain ⟨attended, same⟩ := h.attend loud d
  have going : ∀ e, NextTwins κ (c.attend d).1 loop (.deliver e) (.deliver e) := fun e =>
    { alike := .same (.deliver e) fun silent => by rw [loud] at silent; cases silent
      welcome := fun i works => by cases works
      issued := fun _ _ sends => by cases sends }
  refine ⟨attended, ?_⟩
  unfold Bench.deliverStep
  dsimp only
  rw [same]
  split
  · exact .go (going _)
  · exact .yield (going _)
  · exact .sleep _ (going _)
  · exact .finish (.refl _)
  · exact .finish (.refl _)

theorem finishWith {r r' : Option Fault × Bench} (h : ResultTwins κ r r') (result : Value) :
    PointTwins κ loop (Bench.finishWith r result) (Bench.finishWith r' result) := by
  refine ⟨h.bench, ?_⟩
  unfold Bench.finishWith
  rcases h.cases with ⟨none, none'⟩ | ⟨f, f', fails, fails', same⟩
  · rw [none, none']
    exact .finish (.ok result)
  · rw [fails, fails']
    exact .finish (.error same)

theorem publish (h : Twins κ b c) {bus : String} {event : Event}
    (mute : κ.silent = true → b.tells (.publish bus event) = false) :
    PointTwins κ loop (b.advanceProgram id loop (.publish bus event))
      (c.advanceProgram id loop (.publish bus event)) := by
  unfold Bench.advanceProgram
  dsimp only
  by_cases silent : κ.silent = true
  · obtain ⟨published, nobody⟩ :=
      (h.publication_first silent bus event).publication_second silent bus event
    have none : b.subscribersOf bus = [] := by simpa [tells] using mute silent
    rw [publication_none none, nobody]
    exact .ends published _
  · have loud : κ.silent = false := by simpa using silent
    obtain ⟨published, same⟩ := h.publication loud bus event
    refine ⟨published, ?_⟩
    dsimp only
    rw [same]
    cases (c.publication bus event).2 with
    | none => exact .finish (.ok .null)
    | some delivery =>
      exact .go
        { alike := .same (.deliver delivery) fun s => absurd s silent
          welcome := fun i works => by cases works
          issued := fun _ _ sends => by cases sends }

/-- One point of a call, unless all that is done at it is that subscribers are told. -/
theorem advanceProgram (h : Twins κ b c) (id : Nat) {p p' : Program}
    (next : NextTwins κ c loop p p') (fits : p.Fits b loop)
    (mute : κ.silent = true → b.tells p = false) :
    PointTwins κ loop (b.advanceProgram id loop p) (c.advanceProgram id loop p') := by
  obtain ⟨alike, welcome, issued⟩ := next
  cases alike with
  | same _ plain =>
    cases p' with
    | write job point => exact h.writeStep id welcome plain fits
    | commit job point => exact h.commitStep welcome id fits
    | close i => exact finishWith (h.close (welcome _ rfl).1) _
    | enter i =>
      exact finishWith (h.change (welcome _ rfl).1
        (fun w w' _ _ same => (Writer.ChangeTwins.bind same (fits_of_welcome welcome rfl same)).1)
        fun w' => (w'.regular_bind loop).later) _
    | publish bus event => exact h.publish mute
    | deliver d =>
      refine h.deliverStep ?_ d
      by_contra silent
      exact plain (by simpa using silent)
    | send job point => exact h.sendStep id (issued job point rfl) point
    | drainSends destination point => exact h.drainStep id destination point
    | shutDown destination => exact .ends (h.shutDown destination) _
    | rest => exact .ends h _
    | submit destination entries label =>
      have reports : κ.Reports (.recorder label) := fun _ _ _ same => by cases same
      obtain ⟨fault, submitted⟩ := h.submit reports trivial destination (some loop) entries
      exact finishWith (.of_same fault submitted) _
  | telling silent job delivery plain prompt => cases mute silent
  | delivering silent delivery bus event prompt =>
    obtain ⟨published, nobody⟩ := h.publication_second silent bus event
    have done : delivery.remaining = [] := by simpa [tells] using mute silent
    have ends : b.deliverStep delivery = (b, .finish (.ok .null)) := by
      simp only [Bench.deliverStep, Bench.attend, done]
    show PointTwins κ loop (b.deliverStep delivery)
      ((c.publication bus event).1, (c.publication bus event).2.elim _ _)
    rw [ends, nobody]
    exact .ends published _

theorem interruptProgram (h : Twins κ b c) (id : Nat) {p p' : Program}
    (next : NextTwins κ c loop p p') :
    PointTwins κ loop (b.interruptProgram id p) (c.interruptProgram id p') := by
  obtain ⟨alike, welcome, issued⟩ := next
  have leaves : ∀ i, p'.worksOn? = some i → Twins κ (b.change (κ.place i) (·.dropWaiter id)).2
      (c.change i (·.dropWaiter id)).2 := fun i works =>
    (h.change (welcome i works).1 (fun _ _ _ _ same => .dropWaiter same id) fun w' =>
      (show Writer.CallChange c.now w' _ from .dropWaiter id).later).bench
  cases alike with
  | same _ plain =>
    cases p' with
    | write job point => exact .ends (leaves job.writer rfl) _
    | commit job point => exact .ends (leaves job.writer rfl) _
    | send job point => exact h.sendInterrupted id (issued job point rfl) point
    | _ => exact .ends h _
  | telling silent job delivery plain prompt => exact .ends (leaves job.writer rfl) _
  | delivering silent delivery bus event prompt => exact .ends h _

end Twins
end Bench
end BatchWriter
