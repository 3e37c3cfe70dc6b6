import BatchWriter.Proofs.Bench.Programs
import BatchWriter.Proofs.Bench.Reachable

/-!
# What goes on beside the writers

Calls, subscribers and destinations do most of what they do without touching a writer, its
alarms or its measurements, and no loop is closed on the way. Jobs go on only when an executor
runs or cancels one, and nothing that a destination was handed is lost.
-/

set_option autoImplicit false

namespace BatchWriter

def Alarm.isWriters (a : Alarm Ring) : Bool :=
  match a.action with
  | .writer _ _ => true
  | .wake _ => false

namespace Destination

variable (d : Destination) (ending : Ending) (batch : List Value)

/-- How a call ends concerns the rule's count only. -/
theorem conclude_eq :
    (d.conclude ending batch).2 = { d with sent := (d.conclude ending batch).2.sent } := by
  unfold conclude
  split
  · rfl
  · rfl
  · rfl
  · split <;> rfl

variable {d} {d' d'' : Destination}

def KeepsCalls (d d' : Destination) : Prop :=
  ∀ call ∈ d.calls, call ∈ d'.calls ∨ (call.1, []) ∈ d'.calls

namespace KeepsCalls

theorem of_same (calls : d'.calls = d.calls) : d.KeepsCalls d' :=
  fun _ hc => .inl (calls ▸ hc)

theorem trans (h : d.KeepsCalls d') (h' : d'.KeepsCalls d'') : d.KeepsCalls d'' := fun call hc => by
  rcases h call hc with hc | hc
  · exact h' call hc
  · exact .inr ((h' _ hc).elim (fun hc => hc) fun hc => hc)

theorem emptied (d : Destination) (call : Nat) :
    d.KeepsCalls { d with calls := d.calls.modify call fun c => (c.1, []) } := fun c hc => by
  obtain ⟨n, known⟩ := List.mem_iff_getElem?.1 hc
  by_cases own : call = n
  · exact .inr (List.mem_iff_getElem?.2 ⟨n, by simp [own, known]⟩)
  · exact .inl (List.mem_iff_getElem?.2 ⟨n, by simp [own, known]⟩)

end KeepsCalls

end Destination

/-- The same destination at a later moment. Jobs may have been submitted to it, and none that it
had has gone on. -/
structure Destination.Later (d d' : Destination) : Prop where
  adapter : d'.adapter = d.adapter
  script : d'.script = d.script
  jobs : ∃ submitted : List Job, d'.jobs = d.jobs ++ submitted ∧
    ∀ job ∈ submitted, job.state = .waiting
  calls : d.KeepsCalls d'
  shutDown : d.shutDown = true → d'.shutDown = true

namespace Destination.Later

variable {d d' d'' : Destination}

theorem of_same (adapter : d'.adapter = d.adapter) (script : d'.script = d.script)
    (jobs : d'.jobs = d.jobs) (calls : d.KeepsCalls d')
    (shutDown : d.shutDown = true → d'.shutDown = true) : d.Later d' :=
  ⟨adapter, script, ⟨[], by rw [jobs, List.append_nil], by simp⟩, calls, shutDown⟩

theorem refl (d : Destination) : d.Later d := of_same rfl rfl rfl (.of_same rfl) id

theorem trans (h : d.Later d') (h' : d'.Later d'') : d.Later d'' := by
  obtain ⟨first, same, waiting⟩ := h.jobs
  obtain ⟨second, same', waiting'⟩ := h'.jobs
  refine ⟨h'.adapter.trans h.adapter, h'.script.trans h.script, ⟨first ++ second, ?_, ?_⟩,
    h.calls.trans h'.calls, h'.shutDown ∘ h.shutDown⟩
  · rw [same', same, List.append_assoc]
  · exact fun job hj => (List.mem_append.1 hj).elim (waiting job) (waiting' job)

theorem conclude (d : Destination) (ending : Ending) (batch : List Value) :
    d.Later (d.conclude ending batch).2 := by
  rw [conclude_eq]
  exact of_same rfl rfl rfl (.of_same rfl) id

end Destination.Later

namespace Bench

/-- No call is lost, and each carries what it carried. -/
def Carries (b b' : Bench) : Prop :=
  ∀ (id : Nat) (c : Call), b.calls[id]? = some c →
    ∃ c' : Call, b'.calls[id]? = some c' ∧ c'.program.carries? = c.program.carries?

structure Bypasses (b b' : Bench) : Prop where
  writers : b'.writers = b.writers
  now : b'.time.now = b.time.now
  alarms : b'.time.alarms.filter Alarm.isWriters = b.time.alarms.filter Alarm.isWriters
  closed : ∀ name, (b'.loop name).closed = (b.loop name).closed
  scripts : b'.destinations.map (·.script) = b.destinations.map (·.script)
  metrics : b'.metrics = b.metrics

structure Steady (b b' : Bench) : Prop where
  destinations : ∀ (i : Nat) (d' : Destination), b'.destinations[i]? = some d' →
    ∃ d : Destination, b.destinations[i]? = some d ∧ d.Later d'
  jobAnswers : b'.jobAnswers = b.jobAnswers
  carries : Carries b b'

/-- Nothing happened to the writers, and no job has gone on. -/
structure Beside (b b' : Bench) : Prop extends Bypasses b b', Steady b b'

/-- Which alarms of writers are set is seen from the writers' alarms. -/
theorem isSet_of_alarms {t t' : Timetable Ring}
    (alarms : t'.alarms.filter Alarm.isWriters = t.alarms.filter Alarm.isWriters) (i : Nat)
    (alarm : WriterAlarm) : t'.isSet (.writer i alarm) = t.isSet (.writer i alarm) := by
  have kept : ∀ t : Timetable Ring, t.isSet (.writer i alarm) =
      (t.alarms.filter Alarm.isWriters).any fun a => a.action = .writer i alarm := by
    intro t
    rw [Timetable.isSet, List.any_filter]
    congr 1
    funext a
    cases ha : a.action <;> simp [Alarm.isWriters, ha]
  rw [kept, kept, alarms]

variable {b b' b'' : Bench} {id i : Nat}

namespace Bypasses

theorem trans (h : Bypasses b b') (h' : Bypasses b' b'') : Bypasses b b'' where
  writers := h'.writers.trans h.writers
  now := h'.now.trans h.now
  alarms := h'.alarms.trans h.alarms
  closed name := (h'.closed name).trans (h.closed name)
  scripts := h'.scripts.trans h.scripts
  metrics := h'.metrics.trans h.metrics

/-- An alarm of a writer that was set before is set after, and the other way round. -/
theorem isSet (h : Bypasses b b') (i : Nat) (alarm : WriterAlarm) :
    b'.time.isSet (.writer i alarm) = b.time.isSet (.writer i alarm) :=
  isSet_of_alarms h.alarms i alarm

theorem setDestination {d e : Destination} (hd : b.destinations[i]? = some d)
    (script : e.script = d.script) : Bypasses b (b.setDestination i e) where
  writers := rfl
  now := rfl
  alarms := rfl
  closed name := by cases name <;> rfl
  scripts := by
    obtain ⟨known, same⟩ := List.getElem?_eq_some_iff.1 hd
    have listed : i < (b.destinations.map (·.script)).length := by simpa using known
    have old : (b.destinations.map (·.script))[i] = e.script := by
      rw [List.getElem_map, same, script]
    rw [Bench.setDestination, List.map_set, ← old, List.set_getElem_self]
  metrics := rfl

end Bypasses

namespace Carries

theorem of_calls (calls : b'.calls = b.calls) : Carries b b' := fun _ c hc => ⟨c, calls ▸ hc, rfl⟩

theorem trans (h : Carries b b') (h' : Carries b' b'') : Carries b b'' := fun id c hc => by
  obtain ⟨c', hc', same⟩ := h id c hc
  obtain ⟨c'', hc'', same'⟩ := h' id c' hc'
  exact ⟨c'', hc'', same'.trans same⟩

theorem append {calls : List Call} (more : b'.calls = b.calls ++ calls) : Carries b b' :=
  fun _ c hc => ⟨c, more ▸ List.getElem?_append_left (List.getElem?_eq_some_iff.1 hc).1 ▸ hc, rfl⟩

theorem set {c : Call} (set : b'.calls = b.calls.set id c)
    (carries : ∀ c₀ : Call, b.calls[id]? = some c₀ → c.program.carries? = c₀.program.carries?) :
    Carries b b' := fun k c₀ hk => by
  rw [set, List.getElem?_set]
  split
  · next own =>
    subst own
    rw [if_pos (List.getElem?_eq_some_iff.1 hk).1]
    exact ⟨c, rfl, carries c₀ hk⟩
  · exact ⟨c₀, hk, rfl⟩

theorem modify {f : Call → Call} (modify : b'.calls = b.calls.modify id f)
    (carries : ∀ c : Call, b.calls[id]? = some c →
      (f c).program.carries? = c.program.carries?) : Carries b b' := fun k c hk => by
  rw [modify, List.getElem?_modify, hk]
  refine ⟨_, rfl, ?_⟩
  split
  · next own => exact carries c (own ▸ hk)
  · rfl

end Carries

namespace Steady

theorem of_same (destinations : b'.destinations = b.destinations)
    (jobAnswers : b'.jobAnswers = b.jobAnswers) (carries : Carries b b') : Steady b b' where
  destinations _ d' hd' := ⟨d', destinations ▸ hd', .refl d'⟩
  jobAnswers := jobAnswers
  carries := carries

theorem refl (b : Bench) : Steady b b := of_same rfl rfl (.of_calls rfl)

theorem trans (h : Steady b b') (h' : Steady b' b'') : Steady b b'' where
  destinations i d'' hd'' := by
    obtain ⟨d', hd', later'⟩ := h'.destinations i d'' hd''
    obtain ⟨d, hd, later⟩ := h.destinations i d' hd'
    exact ⟨d, hd, later.trans later'⟩
  jobAnswers := h'.jobAnswers.trans h.jobAnswers
  carries := h.carries.trans h'.carries

end Steady

namespace Beside

/-- Destinations and what jobs answered are left alone as well. -/
theorem of_bypasses (h : Bypasses b b') (destinations : b'.destinations = b.destinations)
    (jobAnswers : b'.jobAnswers = b.jobAnswers) (carries : Carries b b') : Beside b b' :=
  ⟨h, .of_same destinations jobAnswers carries⟩

theorem refl (b : Bench) : Beside b b :=
  of_bypasses ⟨rfl, rfl, rfl, fun _ => rfl, rfl, rfl⟩ rfl rfl (.of_calls rfl)

theorem trans (h : Beside b b') (h' : Beside b' b'') : Beside b b'' :=
  ⟨h.toBypasses.trans h'.toBypasses, h.toSteady.trans h'.toSteady⟩

theorem of_aside (h : Aside b b') (metrics : b'.metrics = b.metrics)
    (jobAnswers : b'.jobAnswers = b.jobAnswers) : Beside b b' :=
  of_bypasses
    { writers := h.writers
      now := by rw [h.time]
      alarms := by rw [h.time]
      closed := fun name => by rw [h.loop]
      scripts := by rw [h.destinations]
      metrics := metrics }
    h.destinations jobAnswers (.of_calls h.calls)

theorem foldl {α : Type} {f : Bench → α → Bench} (each : ∀ b x, Beside b (f b x)) (xs : List α)
    (b : Bench) : Beside b (xs.foldl f b) := by
  induction xs generalizing b with
  | nil => exact refl b
  | cons x rest ih => exact (each b x).trans (ih _)

/-! Trace, loops and calls. -/

theorem tell (b : Bench) (happening : Happening) : Beside b (b.tell happening) :=
  of_aside (.tell b happening) rfl rfl

theorem log (b : Bench) (n : Notice) : Beside b (b.log n) := tell b _

theorem setLoop {name : LoopName} {l : EventLoop Callback}
    (closed : l.closed = (b.loop name).closed) : Beside b (b.setLoop name l) := by
  refine of_bypasses ?_ (destinations_setLoop _ _ _) (by cases name <;> rfl)
    (.of_calls (calls_setLoop _ _ _))
  exact
    { writers := writers_setLoop _ _ _
      now := by rw [time_setLoop]
      alarms := by rw [time_setLoop]
      closed := fun other => by
        rw [loop_setLoop]
        split
        · next same => rw [closed, same]
        · rfl
      scripts := by rw [destinations_setLoop]
      metrics := by cases name <;> rfl }

theorem post (b : Bench) (name : LoopName) (cb : Callback) : Beside b (b.post name cb) :=
  setLoop (EventLoop.closed_post _ _)

theorem of_calls {calls : List Call} {running : Option Nat}
    (carries : Carries b { b with calls, running }) : Beside b { b with calls, running } :=
  of_bypasses ⟨rfl, rfl, rfl, fun name => by cases name <;> rfl, rfl, rfl⟩ rfl rfl carries

theorem running (b : Bench) (running : Option Nat) : Beside b { b with running } :=
  of_calls (.of_calls rfl)

theorem turn (b : Bench) (name : LoopName) : Beside b { b with turn := name } :=
  of_bypasses ⟨rfl, rfl, rfl, fun name => by cases name <;> rfl, rfl, rfl⟩ rfl rfl (.of_calls rfl)

theorem setCall {c c' : Call} (hc : b.calls[id]? = some c)
    (carries : c'.program.carries? = c.program.carries?) : Beside b (b.setCall id c') :=
  of_calls (.set rfl fun _ hc' => by rw [carries, Option.some.inj (hc.symm.trans hc')])

theorem queue {c c' : Call} (hc : b.calls[id]? = some c)
    (carries : c'.program.carries? = c.program.carries?) (interrupted : Bool) :
    Beside b (b.queue id c' interrupted) := by
  have put : Beside b (b.setCall id { c' with status := .queued interrupted }) :=
    setCall hc carries
  exact put.trans (post _ _ _)

theorem start (b : Bench) (name : LoopName) (label : Option String) (program : Program)
    (watchers : List Watcher) : Beside b (b.start name label program watchers) := by
  have called : Beside b { b with
      calls := b.calls ++ [{ label, loop := name, program, watchers }] } := of_calls (.append rfl)
  exact called.trans (post _ _ _)

theorem wakeAlarm {time : Timetable Ring} (now : time.now = b.time.now)
    (alarms : time.alarms.filter Alarm.isWriters = b.time.alarms.filter Alarm.isWriters) :
    Beside b { b with time } :=
  of_bypasses ⟨rfl, now, alarms, fun name => by cases name <;> rfl, rfl, rfl⟩ rfl rfl
    (.of_calls rfl)

theorem cancelWake (b : Bench) (id : Nat) :
    Beside b { b with time := b.time.cancel (.wake id) } := by
  refine wakeAlarm rfl ?_
  rw [Timetable.cancel, List.filter_filter]
  refine List.filter_congr fun a _ => ?_
  cases ha : a.action <;> simp [Alarm.isWriters, ha]

theorem tellHandle (b : Bench) (handle : Handle) (report : Report) :
    Beside b (b.tellHandle handle report) := by
  unfold Bench.tellHandle
  split
  · exact tell _ _
  · split
    · exact log _ _
    · exact post _ _ _

/-! Buses. -/

theorem openBus (b : Bench) (name : String) : Beside b (b.openBus name) := by
  refine of_aside (.openBus b name) ?_ ?_ <;>
    unfold Bench.openBus <;> dsimp only <;> split <;> first | rfl | (split <;> rfl)

theorem subscribe (b : Bench) (bus name : String) : Beside b (b.subscribe bus name) := by
  refine (openBus b bus).trans ?_
  unfold Bench.subscribe
  dsimp only
  split
  · exact refl _
  · exact of_aside ⟨rfl, rfl, rfl, rfl, rfl, rfl, rfl, rfl⟩ rfl rfl

theorem unsubscribe (b : Bench) (bus name : String) : Beside b (b.unsubscribe bus name) := by
  refine (openBus b bus).trans ?_
  unfold Bench.unsubscribe
  dsimp only
  split
  · exact of_aside ⟨rfl, rfl, rfl, rfl, rfl, rfl, rfl, rfl⟩ rfl rfl
  · exact refl _

theorem publication (b : Bench) (bus : String) (event : Event) :
    Beside b (b.publication bus event).1 := by
  refine (openBus b bus).trans ?_
  unfold Bench.publication
  dsimp only
  split
  · exact refl _
  · exact log _ _

/-! Destinations. -/

theorem setDestination {d e : Destination} (hd : b.destinations[i]? = some d) (later : d.Later e) :
    Beside b (b.setDestination i e) where
  toBypasses := .setDestination hd later.script
  destinations j d' hd' := by
    obtain ⟨known, -⟩ := List.getElem?_eq_some_iff.1 hd
    rw [Bench.setDestination, List.getElem?_set] at hd'
    split at hd'
    · next same =>
      rw [Option.some.injEq] at hd'
      exact ⟨d, same ▸ hd, hd' ▸ later⟩
    · exact ⟨d', hd', .refl d'⟩
  jobAnswers := rfl
  carries := .of_calls rfl

theorem reach {d e : Destination} (hd : b.destinations[i]? = some d) (later : d.Later e)
    (entries : List Value) : Beside b (b.reach i e entries) := by
  have reached : e.Later { e with reached := e.reached + 1 } :=
    .of_same rfl rfl rfl (.of_same rfl) fun shut => shut
  exact (setDestination hd (later.trans reached)).trans (tell _ _)

theorem shutDown (b : Bench) (destination : Nat) : Beside b (b.shutDown destination) := by
  unfold Bench.shutDown
  split
  · exact refl _
  · next d hd => exact setDestination hd (.of_same rfl rfl rfl (.of_same rfl) fun _ => rfl)

theorem forget (b : Bench) (destination id : Nat) : Beside b (b.forget destination id) := by
  unfold Bench.forget
  split
  · exact refl _
  · next d hd => exact setDestination hd (.of_same rfl rfl rfl (.of_same rfl) fun shut => shut)

/-! Cancellations and those who gather. -/

theorem interruptOne (b : Bench) (id : Nat) : Beside b (b.interruptOne id).2 := by
  unfold Bench.interruptOne
  split
  · exact refl _
  · next c hc =>
    split
    · exact refl _
    · exact refl _
    · exact setCall hc rfl
    · exact (cancelWake _ _).trans
        (queue (b := { b with time := b.time.cancel (.wake id) }) hc rfl _)
    · exact queue hc rfl _
    · exact queue hc rfl _
    · exact setCall hc rfl

theorem interruptAll (b : Bench) (ids : List Nat) : Beside b (b.interruptAll ids) :=
  foldl (fun b id => interruptOne b id) ids b

theorem interrupt (b : Bench) (id : Nat) : Beside b (b.interrupt id).2 := by
  unfold Bench.interrupt
  split
  · exact (interruptAll _ _).trans (interruptOne _ _)
  · exact interruptOne _ _

theorem gather (id : Nat) (loop : LoopName) (b : Bench) (child : Nat) :
    Beside b (b.gather id loop child) := by
  unfold Bench.gather
  split
  · exact post _ _ _
  · exact of_calls (.modify rfl fun _ _ => rfl)

theorem countGathered (b : Bench) (id child : Nat) : Beside b (b.countGathered id child) := by
  unfold Bench.countGathered
  split
  · exact refl _
  · next c hc =>
    split
    · dsimp only
      split
      · exact queue hc rfl _
      · exact setCall hc rfl
    · exact refl _

/-! Sends. -/

theorem answer (b : Bench) (id : Nat) (job : SendJob) (report : Report) :
    Beside b (b.answer id job report) := by
  have noted : Beside b { b with answers := (id, report) :: b.answers } :=
    of_bypasses ⟨rfl, rfl, rfl, fun name => by cases name <;> rfl, rfl, rfl⟩ rfl rfl (.of_calls rfl)
  exact noted.trans (tellHandle _ _ _)

theorem endSend (b : Bench) (id : Nat) (job : SendJob) (outcome : Except Fault Value) :
    Beside b (b.endSend id job outcome).1 := by
  unfold Bench.endSend
  split
  · split
    · exact answer _ _ _ _
    · split
      · exact (log _ _).trans (answer _ _ _ _)
      · exact refl _
  · split
    · exact answer _ _ _ _
    · exact refl _

theorem concludeSend (b : Bench) (id : Nat) (job : SendJob) (ending : Ending) :
    Beside b (b.concludeSend id job ending).1 := by
  unfold Bench.concludeSend
  split
  · exact refl _
  · next d hd => exact (setDestination hd (.conclude _ _ _)).trans (endSend _ _ _ _)

theorem sendStep (b : Bench) (id : Nat) (job : SendJob) (point : SendPoint) :
    Beside b (b.sendStep id job point).1 := by
  unfold Bench.sendStep
  split
  · split
    · exact refl _
    · next d hd => exact reach hd (.refl d) _
  · exact refl _
  · exact refl _
  · split
    · exact refl _
    · split
      · exact endSend _ _ _ _
      · exact refl _
      · exact refl _
  · split <;> exact refl _
  · exact concludeSend _ _ _ _

theorem sendInterrupted (b : Bench) (id : Nat) (job : SendJob) (point : SendPoint) :
    Beside b (b.sendInterrupted id job point).1 := by
  unfold Bench.sendInterrupted
  split
  · exact refl _
  · split
    · exact concludeSend _ _ _ _
    · exact endSend _ _ _ _

theorem drainStep (b : Bench) (id : Nat) (loop : LoopName) (destination : Nat)
    (point : DrainPoint) : Beside b (b.drainStep id loop destination point).1 := by
  unfold Bench.drainStep
  split
  · split
    · exact refl _
    · split
      · exact refl _
      · dsimp only
        split
        · exact (interruptAll _ _).trans (foldl (fun b child => gather id loop b child) _ _)
        · split <;> exact interruptAll _ _
  · exact refl _
  · exact refl _

/-! What becomes of the call that moves. -/

theorem finish (b : Bench) (id : Nat) (outcome : Except Fault Value) :
    Beside b (b.finish id outcome) := by
  unfold Bench.finish
  split
  · exact running _ _
  · next c hc =>
    dsimp only
    refine trans ?_ (foldl (fun b w => post b _ _) _ _)
    have ended : Beside b (Bench.setCall { b with running := none } id
        { c with status := .ended, watchers := [] }) := (running b none).trans (setCall hc rfl)
    split
    · exact ended.trans (tell _ _)
    · exact ended

theorem resolve (b : Bench) (id : Nat) (progress : Progress)
    (carries : ∀ c q, b.calls[id]? = some c → progress.program? = some q →
      q.carries? = c.program.carries?) : Beside b (b.resolve id progress) := by
  unfold Bench.resolve
  split
  · exact finish _ _ _
  · exact of_calls (.modify rfl fun c hc => carries c _ hc rfl)
  · next program =>
    split
    · next c hc =>
      exact (running b none).trans
        (queue (b := { b with running := none }) hc (carries c program hc rfl) _)
    · exact running _ _
  · next delay program =>
    have set : Beside b { b with time := b.time.set delay (.wake id) } :=
      wakeAlarm rfl (by simp [Timetable.set, Alarm.isWriters])
    exact set.trans (of_calls (.modify rfl fun c hc => carries c _ hc rfl))
  · exact of_calls (.modify rfl fun c hc => carries c _ hc rfl)

theorem interrupted (b c : Bench) (id : Nat) (p : Program) :
    Beside c (c.resolve id (b.interruptProgram id p).2) :=
  resolve _ _ _ fun _ _ _ leads => by
    rw [interruptProgram_ends] at leads
    cases leads

end Beside

theorem Bypasses.of_calls {calls : List Call} {running : Option Nat} :
    Bypasses b { b with calls, running } :=
  ⟨rfl, rfl, rfl, fun name => by cases name <;> rfl, rfl, rfl⟩

theorem Bypasses.resolve (b : Bench) (id : Nat) (progress : Progress) :
    Bypasses b (b.resolve id progress) := by
  unfold Bench.resolve
  split
  · exact (Beside.finish _ _ _).toBypasses
  · exact of_calls
  · split
    · refine trans ?_ (Beside.post _ _ _).toBypasses
      exact of_calls
    · exact of_calls
  · next delay program =>
    have set : Beside b { b with time := b.time.set delay (.wake id) } :=
      Beside.wakeAlarm rfl (by simp [Timetable.set, Alarm.isWriters])
    exact set.toBypasses.trans of_calls
  · exact of_calls

/-! ## Jobs that go on -/

def Works (b b' : Bench) : Prop :=
  ∃ destination job, b' = (b.runJob destination job).2 ∨ b' = (b.cancelJob destination job).2

namespace Bypasses

theorem answerJob (b : Bench) (destination i : Nat) (job : Job) (report : Report) :
    Bypasses b (b.answerJob destination i job report) := by
  have noted : Bypasses b { b with jobAnswers := ((destination, i), report) :: b.jobAnswers } :=
    ⟨rfl, rfl, rfl, fun name => by cases name <;> rfl, rfl, rfl⟩
  exact noted.trans (Beside.tellHandle _ _ _).toBypasses

theorem endJob (b : Bench) (destination i : Nat) (job : Job) (outcome : Except Fault Value) :
    Bypasses b (b.endJob destination i job outcome) := by
  unfold Bench.endJob
  split
  · exact (Beside.log _ _).toBypasses.trans (answerJob _ _ _ _ _)
  · split
    · exact answerJob _ _ _ _ _
    · exact (Beside.refl _).toBypasses

theorem runJob (b : Bench) (destination job : Nat) : Bypasses b (b.runJob destination job).2 := by
  unfold Bench.runJob
  split
  · exact (Beside.refl _).toBypasses
  · next d hd =>
    split
    · next handle entries _ =>
      have later := Destination.Later.conclude
        { d with
          jobs := d.jobs.set job { handle, entries, state := .finished }
          reached := d.reached + 1 } (d.behaviour d.reached).ending entries
      exact trans (trans (setDestination hd later.script) (Beside.tell _ _).toBypasses)
        (endJob _ _ _ _ _)
    · exact (Beside.refl _).toBypasses

theorem cancelJob (b : Bench) (destination job : Nat) :
    Bypasses b (b.cancelJob destination job).2 := by
  unfold Bench.cancelJob
  split
  · exact (Beside.refl _).toBypasses
  · next d hd =>
    split
    · exact (Beside.refl _).toBypasses
    · next waiting _ =>
      split
      · exact (Beside.refl _).toBypasses
      · exact (Beside.refl _).toBypasses
      · have set : Bypasses b (b.setJob destination d job { waiting with state := .cancelled }) :=
          setDestination hd rfl
        exact set.trans (answerJob _ _ _ _ _)

end Bypasses

theorem Works.bypasses (h : b.Works b') : Bypasses b b' := by
  obtain ⟨destination, job, rfl | rfl⟩ := h
  · exact .runJob _ _ _
  · exact .cancelJob _ _ _

end Bench
end BatchWriter
