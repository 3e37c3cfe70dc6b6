import BatchWriter.Proofs.Bench.Advance
import BatchWriter.Proofs.Bench.Beside
import BatchWriter.Proofs.Writer.Motion

/-!
# What a move comes to for the writers

A move is made of actions: a change of one writer by a call, a subscriber or a destination, a
whole dispatch, a report or an alarm of a writer, a loop that is closed, a new writer, a job that
goes on, or something beside the writers. What comes from outside the loops comes first, and no
writer sends but the one whose turn it is. What an action keeps, every run keeps.
-/

set_option autoImplicit false

namespace BatchWriter

def Program.sends? : Program → Option Nat
  | .write job (.dispatch _) => some job.writer
  | .commit job .drain => if job.flush.isPresent then some job.writer else none
  | _ => none

/-- A batch is sent by a write, or by a commit that flushes. -/
theorem Program.sends_cases {p : Program} {i : Nat} (turn : p.sends? = some i) :
    (∃ job stage, p = .write job (.dispatch stage) ∧ job.writer = i) ∨
      ∃ job, p = .commit job .drain ∧ job.writer = i ∧ job.flush.isPresent = true := by
  unfold sends? at turn
  split at turn
  · next job stage => exact .inl ⟨job, stage, rfl, Option.some.inj turn⟩
  · next job =>
    split at turn
    · next flushes => exact .inr ⟨job, rfl, Option.some.inj turn, flushes⟩
    · cases turn
  · cases turn

namespace Bench

open Writer (CallChange)

def Sends (b : Bench) (i : Nat) : Prop :=
  ∃ (id : Nat) (c : Call), b.running = some id ∧ b.calls[id]? = some c ∧ c.program.sends? = some i

/-- What calls, subscribers and destinations do, dispatches apart. -/
inductive CallAction (b : Bench) : Bench → Prop where
  | beside {b' : Bench} (h : Beside b b') : CallAction b b'
  | callChange (i : Nat) {f : Writer → Change}
      (changes : ∀ w : Writer, b.writers[i]? = some w → CallChange b.now w (f w)) :
      CallAction b (b.change i f).2

/-- What goes on on the loops while these writers may send: what calls do, a dispatch, a
report that is heard. -/
inductive LoopAction (sends : Nat → Prop) (b : Bench) : Bench → Prop where
  | callAction {b' : Bench} (h : CallAction b b') : LoopAction sends b b'
  /-- Whoever dispatches runs on the writer's loop and knows of a free slot. -/
  | dispatch {i : Nat} {w : Writer} {loop : LoopName} (turn : sends i)
      (hw : b.writers[i]? = some w) (bound : w.loop = some loop) (room : w.hasCapacity = true) :
      LoopAction sends b (b.dispatch i loop).2
  | receive {i : Nat} {loop : LoopName} (own : b.Owned i loop) (batch : Nat) (report : Report) :
      LoopAction sends b (b.receive loop i batch report).2

/-- An action on the loops, or what comes from outside them. -/
inductive BenchAction (sends : Nat → Prop) (b : Bench) : Bench → Prop where
  | loopAction {b' : Bench} (h : LoopAction sends b b') : BenchAction sends b b'
  /-- The clock moves and the alarms of calls may ring. -/
  | pass {time : Timetable Ring} (later : b.time.now ≤ time.now)
      (alarms : time.alarms.filter Alarm.isWriters = b.time.alarms.filter Alarm.isWriters) :
      BenchAction sends b { b with time }
  /-- The buffer's alarm leaves the timetable and rings. -/
  | flush {limit i : Nat} {time : Timetable Ring}
      (due : b.time.Rings limit (.writer i .flush) time)
      (own : ∃ name, b.Owned i name) : BenchAction sends b (bufferAlarm { b with time } i).2
  | expire {limit i batch : Nat} {time : Timetable Ring}
      (due : b.time.Rings limit (.writer i (.expire batch)) time) :
      BenchAction sends b (change { b with time } i (·.expire time.now batch)).2
  | closeLoop (name : LoopName) : BenchAction sends b (b.closeLoop name)
  | create (name : String) (spec : WriterSpec) : BenchAction sends b (b.create name spec).2
  | work {b' : Bench} (works : b.Works b') : BenchAction sends b b'

abbrev CallActions : Bench → Bench → Prop := Relation.ReflTransGen CallAction

abbrev LoopActions (sends : Nat → Prop) : Bench → Bench → Prop :=
    Relation.ReflTransGen (LoopAction sends)

abbrev BenchActions (sends : Nat → Prop) : Bench → Bench → Prop :=
    Relation.ReflTransGen (BenchAction sends)

/-- An alarm that rings was set and leaves the timetable; the clock stands at its instant or
later. -/
theorem rung {t time : Timetable Ring} {limit : Nat} {r : Ring}
    (due : t.Rings limit r time) : t.now ≤ time.now ∧
      time.alarms = (t.cancel r).alarms ∧ ∃ a ∈ t.alarms, a.action = r := by
  obtain ⟨_, -, set, -, rfl⟩ := due
  exact ⟨Nat.le_max_left _ _, rfl, _, set, rfl⟩

/-! No change of a writer moves the clock. -/

theorem time_wake (b : Bench) (call : Nat) : (b.wake call).time = b.time := by
  unfold wake
  split
  · split
    · exact time_setLoop _ _ _
    · rfl
  · rfl

theorem now_perform (b : Bench) (i : Nat) (label : String) (e : Effect) :
    (perform i label b e).now = b.now := by
  cases e with
  | wake call => exact congrArg Timetable.now (time_wake b call)
  | _ => rfl

theorem now_foldl (i : Nat) (label : String) (effects : List Effect) (b : Bench) :
    (effects.foldl (perform i label) b).now = b.now := by
  induction effects generalizing b with
  | nil => rfl
  | cons e rest ih => rw [List.foldl_cons, ih, now_perform]

@[simp] theorem now_change (b : Bench) (i : Nat) (f : Writer → Change) :
    (b.change i f).2.now = b.now := by
  unfold change
  split
  · rfl
  · exact now_foldl _ _ _ _

theorem CallActions.now {b b' : Bench} (h : CallActions b b') : b'.now = b.now := by
  induction h with
  | refl => rfl
  | tail _ callAction ih =>
    cases callAction with
    | beside beside => exact beside.now.trans ih
    | callChange i changes => exact (now_change _ _ _).trans ih

namespace CallActions

variable {b b' : Bench} {i : Nat}

theorem beside (h : Beside b b') : CallActions b b' := .single (.beside h)

theorem callChange (i : Nat) {f : Writer → Change}
    (changes : ∀ w : Writer, CallChange b.now w (f w)) :
    CallActions b (b.change i f).2 :=
  .single (.callChange i fun w _ => changes w)

/-! Destinations. -/

theorem clearEntries (b : Bench) (destination call : Nat) (handle : Handle) :
    CallActions b (b.clearEntries destination call handle) := by
  unfold Bench.clearEntries
  dsimp only
  split
  · refine Relation.ReflTransGen.trans ?_ (callChange _ fun _ => .emptyBatch _)
    split
    · next d hd =>
      exact beside (.setDestination hd (.of_same rfl rfl rfl (.emptied d call) fun shut => shut))
    · exact .refl
  · split
    · next d hd =>
      exact beside (.setDestination hd (.of_same rfl rfl rfl (.emptied d call) fun shut => shut))
    · exact .refl

theorem respond (destination call : Nat) (handle : Handle) (responses : List Response)
    (b : Bench) : CallActions b (respond destination call handle responses b).2 := by
  induction responses generalizing b with
  | nil => exact .refl
  | cons response rest ih =>
    cases response with
    | complete places =>
      rw [Bench.respond]
      split
      · exact .refl
      · exact (beside (.tellHandle _ _ _)).trans (ih _)
    | fail fault => exact (beside (.tellHandle _ _ _)).trans (ih _)
    | raise fault => exact .refl
    | clear => exact (clearEntries _ _ _ _).trans (ih _)

theorem submit (b : Bench) (destination : Nat) (loop : Option LoopName) (entries : List Value)
    (handle : Handle) : CallActions b (b.submit destination loop entries handle).2 := by
  unfold Bench.submit
  split
  · exact .refl
  · next d hd =>
    split
    · have called : d.Later { d with calls := d.calls ++ [(handle, entries)] } :=
        .of_same rfl rfl rfl (fun _ hc => .inl (List.mem_append_left _ hc)) fun shut => shut
      exact Relation.ReflTransGen.trans (beside (.reach hd called _)) (respond _ _ _ _ _)
    · exact .refl
    · have set : Beside b (b.setDestination destination
          { d with pending := d.pending ++ [b.calls.length] }) :=
        .setDestination hd (.of_same rfl rfl rfl (.of_same rfl) fun shut => shut)
      exact beside (set.trans (.start _ _ _ _ _))
    · split
      · exact .refl
      · exact beside (.setDestination hd
          ⟨rfl, rfl, ⟨[{ handle, entries }], rfl, by simp⟩, .of_same rfl, fun shut => shut⟩)

/-! Subscribers. -/

theorem subscriberFault (b : Bench) (d : Delivery) (fault : Fault) :
    CallActions b (b.subscriberFault d fault).1 := by
  unfold Bench.subscriberFault
  split
  · exact beside (.log _ _)
  · exact .refl

theorem react (b : Bench) (d : Delivery) (reaction : Reaction) :
    CallActions b (b.react d reaction).1 := by
  unfold Bench.react
  split
  · exact .refl
  · exact subscriberFault _ _ _
  · split
    · exact subscriberFault _ _ _
    · exact .refl
    · exact .refl
  · exact .refl
  · exact beside (.unsubscribe _ _ _)
  · exact beside (.subscribe _ _ _)
  · split
    · exact callChange _ fun _ => .close
    · exact subscriberFault _ _ _
  · split
    · exact beside (.tellHandle _ _ _)
    · exact subscriberFault _ _ _

theorem attend (b : Bench) (d : Delivery) : CallActions b (b.attend d).1 := by
  unfold Bench.attend
  split
  · exact .refl
  · split
    · exact .refl
    · exact .refl
    · exact .refl
    · split
      · exact subscriberFault _ _ _
      · exact (beside (.tell _ _)).trans (react _ _ _)

/-! Writes and commits. -/

theorem publishLevel (b : Bench) (job : WriteJob) (w : Writer) (level : Level)
    (reason : String) (next : WritePoint) :
    CallActions b (b.publishLevel job w level reason next).1 :=
  (callChange job.writer fun _ => .note _).trans (beside (.publication _ _ _))

theorem waitForChange (b : Bench) (id i : Nat) (loop : LoopName) (next : Program) :
    CallActions b (b.waitForChange id i loop next).1 :=
  callChange i fun w => w.callChange_wait loop id

/-- A call that is cancelled takes itself off its writer's list. -/
theorem interruptProgram (b : Bench) (id : Nat) (p : Program) :
    CallActions b (b.interruptProgram id p).1 := by
  cases p with
  | write job _ => exact callChange _ fun _ => .dropWaiter _
  | commit job _ => exact callChange _ fun _ => .dropWaiter _
  | send job point => exact beside (.sendInterrupted _ _ _ _)
  | _ => exact .refl

end CallActions

namespace LoopActions

variable {sends : Nat → Prop} {b b' : Bench} {id i : Nat} {name : LoopName}

theorem callActions (h : CallActions b b') : LoopActions sends b b' :=
  Relation.ReflTransGen.mono (fun _ _ callAction => .callAction callAction) _ _ h

theorem beside (h : Beside b b') : LoopActions sends b b' := callActions (.beside h)

theorem callChange (i : Nat) {f : Writer → Change}
    (changes : ∀ w : Writer, CallChange b.now w (f w)) :
    LoopActions sends b (b.change i f).2 :=
  callActions (.callChange i changes)

theorem withWriter {b : Bench} {i : Nat} {f : Writer → Bench × Progress}
    (each : ∀ w : Writer, b.writers[i]? = some w → LoopActions sends b (f w).1) :
    LoopActions sends b (b.withWriter i f).1 := by
  unfold Bench.withWriter
  split
  · next w hw => exact each w hw
  · exact .refl

/-- A call that dispatches runs on the writer's loop and has seen a free slot. -/
theorem dispatch (turn : sends i) (own : b.Owned i name)
    (room : ∀ w : Writer, b.writers[i]? = some w → w.hasCapacity = true) :
    LoopActions sends b (b.dispatch i name).2 := by
  obtain ⟨w, hw, bound⟩ := own
  exact .single (.dispatch turn hw bound (room w hw))

theorem writeStep {job : WriteJob} {point : WritePoint}
    (fits : (Program.write job point).Fits b name)
    (poised : (Program.write job point).Poised b)
    (turn : ∀ i, (Program.write job point).sends? = some i → sends i) :
    LoopActions sends b (b.writeStep id name job point).1 := by
  have bindCheck : ∀ w : Writer, CallChange b.now w
    ((w.bind name).andThen Writer.checkUsable) := fun w =>
    .andThen (.bind name) fun _ => Writer.callChange_checkUsable _
  have mild : ∀ (w : Writer) (reason : WaitReason), CallChange b.now w
    (w.holdBack reason) := fun w _ =>
    .mild rfl (by simp [Writer.holdBack, Writer.measure, Writer.announce,
      Change.andThen, Effect.Mild])
  cases point with
  | start =>
    simp only [Bench.writeStep, writeStart]
    split
    · exact .refl
    · exact callChange _ bindCheck
  | gate blocked =>
    refine withWriter fun w hw => ?_
    split
    · split
      · exact callActions
          ((CallActions.callChange _ fun w => mild w _).trans
          (CallActions.publishLevel _ _ _ _ _ _))
      · exact .refl
    · split
      · exact callActions (.publishLevel _ _ _ _ _ _)
      · exact .refl
  | flush stage =>
    refine withWriter fun w hw => ?_
    split
    · exact .refl
    · exact callActions
        ((CallActions.callChange _ fun w => mild w _).trans (CallActions.publishLevel _ _ _ _ _ _))
  | slot stage =>
    refine withWriter fun w hw => ?_
    split
    · exact .refl
    · exact callActions (.waitForChange _ _ _ _ _)
  | woken stage =>
    exact callChange _ fun w => .andThen (.dropWaiter _) fun _ => Writer.callChange_checkUsable _
  | dispatch stage => exact dispatch (turn _ rfl) fits poised
  | accept =>
    refine withWriter fun w hw => ?_
    split
    · exact .refl
    · exact callChange _ fun _ => .accept _
  | batching =>
    refine withWriter fun w hw => ?_
    split
    · exact .refl
    · exact callChange _ fun w =>
        .mild rfl (by simp [Writer.showGauges, Writer.measure, Effect.Mild])
  | publishing delivery next => exact callActions (.attend _ _)

theorem commitStep {job : CommitJob} {point : CommitPoint}
    (fits : (Program.commit job point).Fits b name)
    (turn : ∀ i, (Program.commit job point).sends? = some i → sends i) :
    LoopActions sends b (b.commitStep id name job point).1 := by
  have told : ∀ (w : Writer) (n : Notice), CallChange b.now w (w.announce n) := fun w _ =>
    .mild rfl (by simp [Writer.announce, Effect.Mild])
  cases point with
  | start =>
    exact callChange _ fun w =>
      .andThen (.andThen (.bind name) fun _ => Writer.callChange_checkUsable _)
      fun _ => told _ _
  | drain =>
    refine withWriter fun w hw => ?_
    split
    · split
      · next ready =>
        simp only [Bool.and_eq_true] at ready
        refine dispatch (turn _ (by simp [Program.sends?, ready.1.1])) fits fun u hu => ?_
        rw [hw, Option.some.injEq] at hu
        exact hu ▸ ready.2
      · exact callActions (.waitForChange _ _ _ _ _)
    · exact callChange _ fun w => .andThen
        (.mild rfl (by simp [Writer.showGauges, Writer.measure, Effect.Mild])) fun _ => told _ _
  | woken =>
    exact callChange _ fun w => .andThen (.dropWaiter _) fun _ => Writer.callChange_checkUsable _

/-! Calls. -/

theorem advanceProgram {p : Program} (fits : p.Fits b name) (poised : p.Poised b)
    (turn : ∀ i, p.sends? = some i → sends i) :
    LoopActions sends b (b.advanceProgram id name p).1 := by
  cases p with
  | write job point => exact writeStep fits poised turn
  | commit job point => exact commitStep fits turn
  | close writer => exact callChange _ fun _ => .close
  | enter writer => exact callChange _ fun _ => .bind _
  | publish bus event => exact beside (.publication _ _ _)
  | deliver delivery => exact callActions (.attend _ _)
  | send job point => exact beside (.sendStep _ _ _ _)
  | drainSends destination point => exact beside (.drainStep _ _ _ _ _)
  | shutDown destination => exact beside (.shutDown _ _)
  | rest => exact .refl
  | submit destination entries label => exact callActions (.submit _ _ _ _ _)

theorem proceed (h : Orderly b) (running : b.running = some id) :
    LoopActions b.Sends b (b.proceed id) := by
  obtain ⟨c, hc, status, poised⟩ := h.current id running
  have fits := (h.coherent.calls id c hc (by simp) (by rw [Call.isEnded, status])).1
  unfold Bench.proceed
  simp only [hc]
  have advanced : LoopActions b.Sends b (b.advanceProgram id c.loop c.program).1 :=
    advanceProgram fits poised fun i turn => ⟨id, c, running, hc, turn⟩
  refine advanced.trans (beside (.resolve _ _ _ fun c₁ q hc₁ leads => ?_))
  obtain ⟨c₂, hc₂, keeps⟩ := (stays_advanceProgram (known_any b) id c.loop c.program).kept id c hc
  cases hc₁.symm.trans hc₂
  rw [(from_advanceProgram _ _ _ _ q leads).carries?, keeps.program]

theorem resume (b : Bench) (id : Nat) : LoopActions sends b (b.resume id) := by
  unfold Bench.resume
  split
  · exact .refl
  · next c hc =>
    split
    · exact callActions
        ((CallActions.interruptProgram _ _ _).trans (CallActions.beside (.interrupted _ _ _ _)))
    · exact beside ((Beside.running b id).trans (.setCall hc rfl))
    · exact .refl

theorem endCallback {r : Option Fault × Bench} (h : LoopActions sends b r.2) :
    LoopActions sends b (endCallback r) := by
  unfold Bench.endCallback
  split
  · exact h.trans (beside (.tell _ _))
  · exact h

theorem runCallback {cb : Callback} (fits : b.CallbackFits name cb) :
    LoopActions sends b (b.runCallback name cb) := by
  cases cb with
  | resume id => exact resume _ _
  | report i batch report => exact endCallback (.single (.receive fits batch report))
  | forget destination call => exact beside (.forget _ _ _)
  | gathered call child => exact beside (.countGathered _ _ _)

theorem popped (h : Coherent none b) {l : EventLoop Callback} {cb : Callback}
    (pop : (b.loop name).pop? = some (cb, l)) :
    LoopActions sends b ((b.setLoop name l).runCallback name cb) := by
  obtain ⟨ready, closed⟩ := ready_of_pop pop
  have fits : b.CallbackFits name cb :=
    h.callbacks name cb (by rw [ready]; exact List.mem_cons_self)
  have taken : Beside b (b.setLoop name l) := .setLoop closed
  exact (beside taken).trans (runCallback ((Extends.of_writers taken.writers).callback fits))

theorem step (h : Orderly b) (next : b.step = some b') : LoopActions b.Sends b b' := by
  unfold Bench.step at next
  split at next
  · next id running =>
    rw [← Option.some.inj next]
    exact proceed h running
  · obtain ⟨⟨name, cb, b₀⟩, hn, rfl⟩ := Option.map_eq_some_iff.1 next
    obtain ⟨turn, l, pop, rfl⟩ := next_pops hn
    exact (beside (.turn b turn)).trans (popped (h.turn turn).coherent pop)

end LoopActions

/-- A move is what comes from outside the loops, if anything, and then what goes on on them. -/
inductive OutsideFirst (sends : Nat → Prop) (b b' : Bench) : Prop where
  | loopActions (h : LoopActions sends b b') : OutsideFirst sends b b'
  | benchAction {c : Bench} (first : BenchAction sends b c)
      (rest : LoopActions sends c b') : OutsideFirst sends b b'

namespace OutsideFirst

variable {sends : Nat → Prop} {b b' : Bench}

theorem benchActions (h : OutsideFirst sends b b') : BenchActions sends b b' := by
  have loopActions : ∀ {b c : Bench}, LoopActions sends b c → BenchActions sends b c := fun h =>
    Relation.ReflTransGen.mono (fun _ _ loopAction => .loopAction loopAction) _ _ h
  cases h with
  | loopActions h => exact loopActions h
  | benchAction first rest => exact .head first (loopActions rest)

theorem beside (h : Beside b b') : OutsideFirst sends b b' := .loopActions (.beside h)

theorem ring {limit : Nat} {r : Ring} {time : Timetable Ring} (h : Coherent none b)
    (due : b.time.Rings limit r time) : OutsideFirst sends b (Bench.ring { b with time } r) := by
  obtain ⟨later, alarms, a, ha, action⟩ := rung due
  cases r with
  | writer i alarm =>
    cases alarm with
    | flush =>
      have own : b.AlarmFits (.writer i .flush) := action ▸ h.alarms a ha
      exact .benchAction (.flush due own) (.endCallback .refl)
    | expire batch => exact .benchAction (.expire due) (.endCallback .refl)
  | wake id =>
    have passed : BenchAction sends b { b with time } := by
      refine .pass later ?_
      rw [alarms, Timetable.cancel, List.filter_filter]
      refine List.filter_congr fun a _ => ?_
      cases ha : a.action <;> simp [Alarm.isWriters, ha]
    rw [Bench.ring]
    refine .benchAction passed ?_
    split
    · next c hc =>
      split
      · exact .beside (.queue hc rfl _)
      · exact .refl
    · exact .refl

end OutsideFirst

theorem Move.outsideFirst {b b' : Bench} (m : Move b b') (h : Orderly b) :
    OutsideFirst b.Sends b b' := by
  cases m with
  | step next => exact .loopActions (.step h next)
  | turn name => exact .beside (.turn b name)
  | ring idle due => exact .ring h.coherent due
  | wait instant =>
    have passed : BenchAction b.Sends b { b with time := b.time.moveTo instant } :=
      .pass (Nat.le_max_left _ _) rfl
    exact .benchAction passed .refl
  | create name spec => exact .benchAction (.create name spec) .refl
  | start name known => exact .beside (.start _ _ _ _ _)
  | endJobs label name destination => exact .beside (.start _ _ _ _ _)
  | submitOutside idle destination entries label =>
    exact .loopActions (.callActions (.submit _ _ _ _ _))
  | interrupt id => exact .beside (.interrupt _ _)
  | tell fits report => exact .beside (.tellHandle _ _ _)
  | runJob destination job => exact .benchAction (.work ⟨destination, job, .inl rfl⟩) .refl
  | cancelJob destination job => exact .benchAction (.work ⟨destination, job, .inr rfl⟩) .refl
  | shutDown destination => exact .beside (.shutDown _ _)
  | subscribe bus name => exact .beside (.subscribe _ _ _)
  | unsubscribe bus name => exact .beside (.unsubscribe _ _ _)
  | closeLoop idle name => exact .benchAction (.closeLoop name) .refl

theorem Move.benchActions {b b' : Bench} (m : Move b b') (h : Orderly b) :
    BenchActions b.Sends b b' :=
  (m.outsideFirst h).benchActions

end Bench
end BatchWriter
