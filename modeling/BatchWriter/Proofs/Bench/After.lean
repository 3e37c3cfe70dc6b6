import BatchWriter.Proofs.Bench.Reachable

/-!
# Benches with a past

What a bench does next does not depend on what waits behind it: callbacks that became ready
before stay at the head of the ready queues, and what was told before stays at the end of the
trace. Only the choice of the next callback looks at the queues.
-/

set_option autoImplicit false

namespace BatchWriter

/-- Callbacks that became ready earlier, and what was told earlier. -/
structure Past where
  ready : LoopName → List Callback
  trace : List Happening

namespace Bench

def after (b : Bench) (p : Past) : Bench :=
  { b with
    main := { b.main with ready := p.ready .main ++ b.main.ready }
    alt := { b.alt with ready := p.ready .alt ++ b.alt.ready }
    trace := b.trace ++ p.trace }

def present (b : Bench) : Bench :=
  { b with
    main := { b.main with ready := [] }
    alt := { b.alt with ready := [] }
    trace := [] }

def past (b : Bench) : Past := ⟨fun name => (b.loop name).ready, b.trace⟩

theorem present_after_ready (b : Bench) (trace : List Happening) :
    b.present.after ⟨fun name => (b.loop name).ready, trace⟩ = { b with trace } := by
  simp [after, present, loop]

theorem present_after_past (b : Bench) : b.present.after b.past = b := present_after_ready b b.trace

end Bench

def Past.onSecond {α : Type} (p : Past) (r : α × Bench) : α × Bench := (r.1, r.2.after p)

def Past.onFirst {α : Type} (p : Past) (r : Bench × α) : Bench × α := (r.1.after p, r.2)

namespace Bench

variable (p : Past) (b : Bench)

/-! Everything but the ready queues and the trace is as it is without the past. -/

theorem present_after : (b.after p).present = b.present := rfl

@[simp] theorem ready_after (name : LoopName) :
    ((b.after p).loop name).ready = p.ready name ++ (b.loop name).ready := by
  cases name <;> rfl

@[simp] theorem ready_present_after (name : LoopName) :
    ((b.present.after p).loop name).ready = p.ready name := by
  cases name <;> exact List.append_nil _

theorem trace_present_after : (b.present.after p).trace = p.trace := rfl

theorem closed_after (name : LoopName) :
    ((b.after p).loop name).closed = (b.loop name).closed := by
  cases name <;> rfl

@[simp] theorem writers_after : (b.after p).writers = b.writers := rfl

@[simp] theorem calls_after : (b.after p).calls = b.calls := rfl

@[simp] theorem now_after : (b.after p).now = b.now := rfl

@[simp] theorem time_after : (b.after p).time = b.time := rfl

@[simp] theorem destinations_after : (b.after p).destinations = b.destinations := rfl

@[simp] theorem running_after : (b.after p).running = b.running := rfl

@[simp] theorem turn_after : (b.after p).turn = b.turn := rfl

@[simp] theorem names_after : (b.after p).names = b.names := rfl

/-! Ready queues, calls and traces grow at their ends. -/

theorem tell_after (h : Happening) : (b.after p).tell h = (b.tell h).after p := rfl

theorem log_after (n : Notice) : (b.after p).log n = (b.log n).after p := rfl

theorem post_after (name : LoopName) (callback : Callback) :
    (b.after p).post name callback = (b.post name callback).after p := by
  cases name with
  | main =>
    by_cases closed : b.main.closed = true <;>
      simp [post, setLoop, loop, after, EventLoop.post, closed]
  | alt =>
    by_cases closed : b.alt.closed = true <;>
      simp [post, setLoop, loop, after, EventLoop.post, closed]

theorem setCall_after (id : Nat) (c : Call) :
    (b.after p).setCall id c = (b.setCall id c).after p := rfl

theorem setDestination_after (i : Nat) (d : Destination) :
    (b.after p).setDestination i d = (b.setDestination i d).after p := rfl

theorem queue_after (id : Nat) (c : Call) (interrupted : Bool) :
    (b.after p).queue id c interrupted = (b.queue id c interrupted).after p := by
  simp only [queue, setCall_after, post_after]

theorem start_after (name : LoopName) (label : Option String) (program : Program)
    (watchers : List Watcher) : (b.after p).start name label program watchers =
      (b.start name label program watchers).after p :=
  post_after p { b with calls := b.calls ++ [{ label, loop := name, program, watchers }] } _ _

theorem wake_after (id : Nat) : (b.after p).wake id = (b.wake id).after p := by
  unfold wake
  simp only [calls_after, queue_after]
  split
  · split <;> rfl
  · rfl

theorem perform_after (i : Nat) (label : String) (e : Effect) :
    perform i label (b.after p) e = (perform i label b e).after p := by
  cases e with
  | wake call => exact wake_after p b call
  | _ => rfl

theorem foldl_after {α : Type} (f : Bench → α → Bench)
    (each : ∀ b x, f (b.after p) x = (f b x).after p) (xs : List α) :
    xs.foldl f (b.after p) = (xs.foldl f b).after p := by
  induction xs generalizing b with
  | nil => rfl
  | cons x rest ih => rw [List.foldl_cons, each, ih, List.foldl_cons]

theorem change_after (i : Nat) (f : Writer → Change) :
    (b.after p).change i f = p.onSecond (b.change i f) := by
  simp only [change, writers_after]
  split
  · rfl
  · next w _ =>
    exact congrArg (Prod.mk _) (foldl_after p { b with writers := b.writers.set i (f w).writer } _
      (fun b e => perform_after p b i w.label e) (f w).effects)

theorem thenDo_after {r : Option Fault × Bench} {next : Bench → Option Fault × Bench}
    (frame : ∀ b, next (b.after p) = p.onSecond (next b)) :
    thenDo (p.onSecond r) next = p.onSecond (thenDo r next) := by
  unfold thenDo Past.onSecond
  dsimp only
  split
  · rfl
  · exact frame _

theorem tellHandle_after (handle : Handle) (report : Report) :
    (b.after p).tellHandle handle report = (b.tellHandle handle report).after p := by
  cases handle with
  | recorder label => rfl
  | batch i name batch =>
    simp only [tellHandle, closed_after, log_after, post_after]
    split <;> rfl

/-! Feedback -/

theorem openBus_after (name : String) : (b.after p).openBus name = (b.openBus name).after p := by
  unfold openBus
  by_cases known : b.buses.contains name = true
  · rw [if_pos known, if_pos (by exact known)]
  · rw [if_neg known, if_neg (by exact known)]
    dsimp only
    split <;> rfl

theorem subscribersOf_after (bus : String) :
    (b.after p).subscribersOf bus = b.subscribersOf bus := rfl

theorem subscribe_after (bus name : String) :
    (b.after p).subscribe bus name = (b.subscribe bus name).after p := by
  unfold subscribe
  simp only [openBus_after, subscribersOf_after]
  split <;> rfl

theorem unsubscribe_after (bus name : String) :
    (b.after p).unsubscribe bus name = (b.unsubscribe bus name).after p := by
  unfold unsubscribe
  simp only [openBus_after, subscribersOf_after]
  split <;> rfl

theorem publication_after (bus : String) (event : Event) :
    (b.after p).publication bus event = p.onFirst (b.publication bus event) := by
  unfold publication
  simp only [openBus_after, subscribersOf_after]
  split <;> rfl

theorem subscriberFault_after (d : Delivery) (fault : Fault) :
    (b.after p).subscriberFault d fault = p.onFirst (b.subscriberFault d fault) := by
  unfold subscriberFault
  split <;> rfl

theorem handleOf_after (destination : String) (call : Int) :
    (b.after p).handleOf destination call = b.handleOf destination call := rfl

theorem react_after (d : Delivery) (reaction : Reaction) :
    (b.after p).react d reaction = p.onFirst (b.react d reaction) := by
  cases reaction with
  | collect | yield _ => rfl
  | raise fault => exact subscriberFault_after p b d fault
  | sleep milliseconds =>
    simp only [react, subscriberFault_after]
    split <;> rfl
  | unsubscribe bus name =>
    simp only [react, unsubscribe_after]
    rfl
  | subscribe bus name =>
    simp only [react, subscribe_after]
    rfl
  | close name =>
    simp only [react, names_after, now_after, change_after, subscriberFault_after]
    split <;> rfl
  | complete destination call =>
    simp only [react, handleOf_after, tellHandle_after, subscriberFault_after]
    split <;> rfl

theorem subscriber?_after (name : String) :
    (b.after p).subscriber? name = b.subscriber? name := rfl

theorem attend_after (d : Delivery) : (b.after p).attend d = p.onFirst (b.attend d) := by
  unfold attend
  simp only [subscriberFault_after, subscriber?_after, tell_after, react_after]
  split
  · rfl
  · split
    · rfl
    · rfl
    · rfl
    · split <;> rfl

/-! Dispatches and outcomes -/

theorem callEntries_after (destination call : Nat) :
    (b.after p).callEntries destination call = b.callEntries destination call := rfl

theorem clearEntries_after (destination call : Nat) (handle : Handle) :
    (b.after p).clearEntries destination call handle =
      (b.clearEntries destination call handle).after p := by
  unfold clearEntries
  cases hd : b.destinations[destination]? <;> cases handle <;>
    simp [hd, setDestination_after, change_after, Past.onSecond]

theorem respond_after (destination call : Nat) (handle : Handle) (responses : List Response) :
    respond destination call handle responses (b.after p) =
      p.onSecond (respond destination call handle responses b) := by
  induction responses generalizing b with
  | nil => rfl
  | cons response rest ih =>
    cases response with
    | complete places =>
      simp only [respond, callEntries_after, tellHandle_after, ih]
      split <;> rfl
    | fail fault => simp only [respond, tellHandle_after, ih]
    | raise fault => rfl
    | clear => simp only [respond, clearEntries_after, ih]

theorem reach_after (destination : Nat) (d : Destination) (entries : List Value) :
    (b.after p).reach destination d entries = (b.reach destination d entries).after p := rfl

theorem submit_after (destination : Nat) (loop : Option LoopName) (entries : List Value)
    (handle : Handle) : (b.after p).submit destination loop entries handle =
      p.onSecond (b.submit destination loop entries handle) := by
  unfold submit
  simp only [destinations_after, calls_after, reach_after, respond_after, setDestination_after,
    start_after]
  split
  · rfl
  · split
    · rfl
    · rfl
    · rfl
    · split <;> rfl

theorem dispatch_after (i : Nat) (loop : LoopName) :
    (b.after p).dispatch i loop = p.onSecond (b.dispatch i loop) := by
  unfold dispatch
  simp only [writers_after, now_after, change_after, Past.onSecond, submit_after]
  split
  · rfl
  · split <;> rfl

theorem timedFlush_after (i : Nat) (loop : LoopName) :
    (b.after p).timedFlush i loop = p.onSecond (b.timedFlush i loop) := by
  unfold timedFlush
  simp only [now_after, change_after, Past.onSecond, dispatch_after]
  split
  · split <;> rfl
  · rfl

theorem deferredFlush_after (i : Nat) (loop : LoopName) :
    deferredFlush i loop (b.after p) = p.onSecond (deferredFlush i loop b) := by
  unfold deferredFlush
  simp only [writers_after, change_after, Past.onSecond, timedFlush_after]
  split
  · rfl
  · split <;> rfl

theorem receive_after (loop : LoopName) (i batch : Nat) (report : Report) :
    (b.after p).receive loop i batch report = p.onSecond (b.receive loop i batch report) := by
  cases report with
  | failed fault => simp only [receive, now_after, change_after]
  | completed failed =>
    simp only [receive, writers_after, now_after, change_after, log_after]
    split
    · rfl
    · split
      · rfl
      · rw [thenDo_after p fun b => deferredFlush_after p b i loop,
          thenDo_after p fun b => change_after p b i _]

theorem bufferAlarm_after (i : Nat) :
    (b.after p).bufferAlarm i = p.onSecond (b.bufferAlarm i) := by
  unfold bufferAlarm
  simp only [writers_after, change_after, Past.onSecond, timedFlush_after]
  split
  · rfl
  · split <;> rfl

theorem endCallback_after (r : Option Fault × Bench) :
    endCallback (p.onSecond r) = (endCallback r).after p := by
  unfold endCallback Past.onSecond
  dsimp only
  split <;> rfl

/-! Sends and jobs -/

theorem interruptOne_after (id : Nat) :
    (b.after p).interruptOne id = p.onSecond (b.interruptOne id) := by
  unfold interruptOne
  simp only [calls_after, time_after, setCall_after, queue_after]
  split
  · rfl
  · next c _ =>
    split
    · rfl
    · rfl
    · rfl
    · exact congrArg (Prod.mk true)
        (queue_after p { b with time := b.time.cancel (.wake id) } id c true)
    · rfl
    · rfl
    · rfl

theorem interruptAll_after (ids : List Nat) :
    (b.after p).interruptAll ids = (b.interruptAll ids).after p := by
  refine foldl_after p b _ (fun b id => ?_) ids
  rw [interruptOne_after]
  rfl

theorem interrupt_after (id : Nat) : (b.after p).interrupt id = p.onSecond (b.interrupt id) := by
  unfold interrupt
  simp only [calls_after, interruptAll_after, interruptOne_after]
  split <;> rfl

theorem answer_after (id : Nat) (job : SendJob) (report : Report) :
    (b.after p).answer id job report = (b.answer id job report).after p :=
  tellHandle_after p { b with answers := (id, report) :: b.answers } _ _

theorem endSend_after (id : Nat) (job : SendJob) (ending : Except Fault Value) :
    (b.after p).endSend id job ending = p.onFirst (b.endSend id job ending) := by
  cases ending with
  | error fault =>
    simp only [endSend, log_after, answer_after]
    split
    · rfl
    · split <;> rfl
  | ok result =>
    simp only [endSend, answer_after]
    split <;> rfl

theorem concludeSend_after (id : Nat) (job : SendJob) (ending : Ending) :
    (b.after p).concludeSend id job ending = p.onFirst (b.concludeSend id job ending) := by
  unfold concludeSend
  simp only [destinations_after, setDestination_after, endSend_after]
  split <;> rfl

theorem sendStep_after (id : Nat) (job : SendJob) (point : SendPoint) :
    (b.after p).sendStep id job point = p.onFirst (b.sendStep id job point) := by
  cases point with
  | start =>
    simp only [sendStep, destinations_after, reach_after]
    split <;> rfl
  | yields times => cases times <;> rfl
  | sleep =>
    simp only [sendStep, endSend_after]
    split
    · rfl
    · split <;> rfl
  | hang =>
    simp only [sendStep]
    split <;> rfl
  | conclude => simp only [sendStep, concludeSend_after]

theorem sendInterrupted_after (id : Nat) (job : SendJob) (point : SendPoint) :
    (b.after p).sendInterrupted id job point = p.onFirst (b.sendInterrupted id job point) := by
  unfold sendInterrupted
  simp only [concludeSend_after, endSend_after]
  split
  · rfl
  · split <;> rfl

theorem isEnded_after (id : Nat) : (b.after p).isEnded id = b.isEnded id := rfl

theorem gather_after (id : Nat) (loop : LoopName) (child : Nat) :
    gather id loop (b.after p) child = (gather id loop b child).after p := by
  simp only [gather, calls_after, isEnded_after, post_after]
  split <;> rfl

theorem isOn_after (name : LoopName) : (b.after p).isOn name = b.isOn name := rfl

theorem drainStep_after (id : Nat) (loop : LoopName) (destination : Nat) (point : DrainPoint) :
    (b.after p).drainStep id loop destination point =
      p.onFirst (b.drainStep id loop destination point) := by
  cases point with
  | start =>
    simp only [drainStep, destinations_after, interruptAll_after, isOn_after,
      foldl_after p _ (gather id loop) (fun b child => gather_after p b id loop child)]
    split
    · rfl
    · split
      · rfl
      · split
        · rfl
        · split <;> rfl
  | gathered | astray => rfl

theorem countGathered_after (id child : Nat) :
    (b.after p).countGathered id child = (b.countGathered id child).after p := by
  unfold countGathered
  simp only [calls_after, queue_after, setCall_after]
  split
  · rfl
  · split
    · split <;> rfl
    · rfl

theorem forget_after (destination id : Nat) :
    (b.after p).forget destination id = (b.forget destination id).after p := by
  unfold forget
  simp only [destinations_after, setDestination_after]
  split <;> rfl

theorem answerJob_after (destination i : Nat) (job : Job) (report : Report) :
    (b.after p).answerJob destination i job report =
      (b.answerJob destination i job report).after p :=
  tellHandle_after p
    { b with jobAnswers := ((destination, i), report) :: b.jobAnswers } _ _

theorem endJob_after (destination i : Nat) (job : Job) (ending : Except Fault Value) :
    (b.after p).endJob destination i job ending = (b.endJob destination i job ending).after p := by
  cases ending with
  | error fault => simp only [endJob, log_after, answerJob_after]
  | ok result =>
    simp only [endJob, answerJob_after]
    split <;> rfl

theorem runJob_after (destination i : Nat) :
    (b.after p).runJob destination i = p.onSecond (b.runJob destination i) := by
  unfold runJob
  simp only [destinations_after, setDestination_after, tell_after, endJob_after]
  split
  · rfl
  · split <;> rfl

theorem cancelJob_after (destination i : Nat) :
    (b.after p).cancelJob destination i = p.onSecond (b.cancelJob destination i) := by
  unfold cancelJob setJob
  simp only [destinations_after, setDestination_after, answerJob_after]
  split
  · rfl
  · split
    · rfl
    · split <;> rfl

theorem shutDown_after (destination : Nat) :
    (b.after p).shutDown destination = (b.shutDown destination).after p := by
  unfold shutDown
  simp only [destinations_after, setDestination_after]
  split <;> rfl

/-! Writes and commits -/

theorem withWriter_after (i : Nat) {f g : Writer → Bench × Progress}
    (frame : ∀ w, f w = p.onFirst (g w)) :
    (b.after p).withWriter i f = p.onFirst (b.withWriter i g) := by
  unfold withWriter
  simp only [writers_after]
  split
  · exact frame _
  · rfl

theorem changeThen_after (i : Nat) (f : Writer → Change) (next : Program) :
    (b.after p).changeThen i f next = p.onFirst (b.changeThen i f next) := by
  simp only [changeThen, change_after]
  rfl

theorem publishLevel_after (job : WriteJob) (w : Writer) (level : Level) (reason : String)
    (next : WritePoint) : (b.after p).publishLevel job w level reason next =
      p.onFirst (b.publishLevel job w level reason next) := by
  simp only [publishLevel, now_after, change_after, Past.onSecond, publication_after]
  rfl

theorem waitForChange_after (id i : Nat) (loop : LoopName) (next : Program) :
    (b.after p).waitForChange id i loop next = p.onFirst (b.waitForChange id i loop next) := by
  simp only [waitForChange, change_after]
  rfl

theorem afterWaiting_after (id i : Nat) (next : Program) :
    (b.after p).afterWaiting id i next = p.onFirst (b.afterWaiting id i next) :=
  changeThen_after p b _ _ _

theorem writeStep_after (id : Nat) (loop : LoopName) (job : WriteJob) (point : WritePoint) :
    (b.after p).writeStep id loop job point = p.onFirst (b.writeStep id loop job point) := by
  cases point with
  | start =>
    simp only [writeStep, writeStart, changeThen_after]
    split <;> rfl
  | gate blocked =>
    refine withWriter_after p b _ fun w => ?_
    simp only [change_after, Past.onSecond, publishLevel_after]
    split
    · split <;> rfl
    · split <;> rfl
  | flush stage =>
    refine withWriter_after p b _ fun w => ?_
    simp only [change_after, Past.onSecond, publishLevel_after]
    split <;> rfl
  | slot stage =>
    refine withWriter_after p b _ fun w => ?_
    simp only [waitForChange_after]
    split <;> rfl
  | woken stage => exact afterWaiting_after p b _ _ _
  | dispatch stage =>
    simp only [writeStep, writeDispatch, dispatch_after]
    rfl
  | accept =>
    refine withWriter_after p b _ fun w => ?_
    simp only [now_after, changeThen_after]
    split <;> rfl
  | batching =>
    refine withWriter_after p b _ fun w => ?_
    simp only [changeThen_after]
    split <;> rfl
  | publishing delivery next =>
    simp only [writeStep, writePublishing, attend_after]
    rfl

theorem commitStep_after (id : Nat) (loop : LoopName) (job : CommitJob) (point : CommitPoint) :
    (b.after p).commitStep id loop job point = p.onFirst (b.commitStep id loop job point) := by
  cases point with
  | start => exact changeThen_after p b _ _ _
  | drain =>
    refine withWriter_after p b _ fun w => ?_
    simp only [dispatch_after, waitForChange_after, change_after]
    split
    · split <;> rfl
    · rfl
  | woken => exact afterWaiting_after p b _ _ _

/-! Steps, alarms and writers that are built -/

theorem advanceProgram_after (id : Nat) (loop : LoopName) (program : Program) :
    (b.after p).advanceProgram id loop program =
      p.onFirst (b.advanceProgram id loop program) := by
  cases program with
  | write job point => exact writeStep_after p b _ _ _ _
  | commit job point => exact commitStep_after p b _ _ _ _
  | close i =>
    simp only [advanceProgram, now_after, change_after]
    rfl
  | enter i =>
    simp only [advanceProgram, change_after]
    rfl
  | publish bus event =>
    simp only [advanceProgram, publication_after]
    rfl
  | deliver delivery =>
    simp only [advanceProgram, deliverStep, attend_after]
    rfl
  | send job point => exact sendStep_after p b _ _ _
  | drainSends destination point => exact drainStep_after p b _ _ _ _
  | shutDown destination =>
    simp only [advanceProgram, shutDown_after]
    rfl
  | rest => rfl
  | submit destination entries label =>
    simp only [advanceProgram, submit_after]
    rfl

theorem interruptProgram_after (id : Nat) (program : Program) :
    (b.after p).interruptProgram id program = p.onFirst (b.interruptProgram id program) := by
  cases program with
  | write job point | commit job point =>
    simp only [interruptProgram, change_after]
    rfl
  | send job point => exact sendInterrupted_after p b _ _ _
  | _ => rfl

theorem finish_after (id : Nat) (outcome : Except Fault Value) :
    (b.after p).finish id outcome = (b.finish id outcome).after p := by
  unfold finish
  simp only [calls_after]
  split
  · rfl
  · next c _ =>
    rw [← foldl_after p _ _ fun b w => post_after p b c.loop (w.callback id)]
    congr 1
    split <;> rfl

theorem resolve_after (id : Nat) (progress : Progress) :
    (b.after p).resolve id progress = (b.resolve id progress).after p := by
  cases progress with
  | finish outcome => exact finish_after p b id outcome
  | go program | sleep delay program | wait on program => rfl
  | yield program =>
    simp only [resolve, calls_after]
    split
    · exact queue_after p { b with running := none } _ _ _
    · rfl

theorem proceed_after (id : Nat) : (b.after p).proceed id = (b.proceed id).after p := by
  unfold proceed
  simp only [calls_after, advanceProgram_after, Past.onFirst, resolve_after]
  split <;> rfl

theorem resume_after (id : Nat) : (b.after p).resume id = (b.resume id).after p := by
  unfold resume
  simp only [calls_after, interruptProgram_after, Past.onFirst, resolve_after]
  split
  · rfl
  · split <;> rfl

theorem runCallback_after (loop : LoopName) (callback : Callback) :
    (b.after p).runCallback loop callback = (b.runCallback loop callback).after p := by
  cases callback with
  | resume call => exact resume_after p b call
  | report i batch report => simp only [runCallback, receive_after, endCallback_after]
  | forget destination call => exact forget_after p b _ _
  | gathered call child => exact countGathered_after p b _ _

theorem ring_after (r : Ring) : (b.after p).ring r = (b.ring r).after p := by
  cases r with
  | writer i alarm =>
    cases alarm with
    | flush => simp only [ring, bufferAlarm_after, endCallback_after]
    | expire batch => simp only [ring, now_after, change_after, endCallback_after]
  | wake id =>
    simp only [ring, calls_after, queue_after]
    split
    · split <;> rfl
    · rfl

theorem closeLoop_after (name : LoopName) : (b.after p).closeLoop name =
    (b.closeLoop name).after ⟨Function.update p.ready name [], p.trace⟩ := by
  have same : (b.after p).loopOf = b.loopOf := by
    funext r
    cases r <;> rfl
  unfold closeLoop
  rw [same]
  cases name <;> simp [setLoop, after, EventLoop.close]

theorem destinationFor_after (name : String) :
    (b.after p).destinationFor name = b.destinationFor name := rfl

theorem create_after (name : String) (spec : WriterSpec) :
    (b.after p).create name spec = p.onSecond (b.create name spec) := by
  unfold create
  simp only [destinationFor_after, now_after]
  split
  · rfl
  · next c _ =>
    exact congrArg (Prod.mk _) (foldl_after p
      { b with
        writers := b.writers ++ [c.writer]
        names := b.names.alter name b.writers.length fun _ => b.writers.length
        metrics := b.metrics.register c.writer.label } _
      (fun b e => perform_after p b _ c.writer.label e) c.effects)

theorem programOf_after (label : String) (task : Task) :
    (b.after p).programOf label task = b.programOf label task := by
  cases task <;> rfl

end Bench
end BatchWriter
