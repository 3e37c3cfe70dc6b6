import BatchWriter.Proofs.Bench.Guard

/-!
# Jobs of an executor

Jobs go on only when their executor runs or cancels one. The job that does comes to its end and
tells its handle what became of the batch, unless its call returned what is neither absent nor a
collection; so in every run each job tells its handle once.
-/

set_option autoImplicit false

namespace BatchWriter

namespace Destination

/-- What its calls return, if they return anything, tells which entries were not persisted. -/
def Collects (d : Destination) : Prop :=
  ∀ behaviour ∈ d.script, ∀ result, behaviour.ending = .returns result →
    ∃ report, Destination.report result = .ok report

def Ended (d : Destination) (n : Nat) : Prop :=
  ∃ job, d.jobs[n]? = some job ∧ job.state ≠ .waiting

structure Ends (d : Destination) (n : Nat) (job : Job) (d' : Destination) : Prop where
  adapter : d'.adapter = d.adapter
  script : d'.script = d.script
  calls : d'.calls = d.calls
  shutDown : d'.shutDown = d.shutDown
  jobs : ∃ state, d'.jobs = d.jobs.set n { job with state } ∧ state ≠ .waiting

variable {d d' : Destination}

theorem Later.ended_iff (h : d.Later d') {n : Nat} : d'.Ended n ↔ d.Ended n := by
  obtain ⟨submitted, same, waiting⟩ := h.jobs
  constructor
  · rintro ⟨job, found, ended⟩
    rw [same, List.getElem?_append] at found
    split at found
    · exact ⟨job, found, ended⟩
    · exact absurd (waiting job (List.mem_of_getElem? found)) ended
  · rintro ⟨job, found, ended⟩
    refine ⟨job, ?_, ended⟩
    rw [same, List.getElem?_append_left (List.getElem?_eq_some_iff.1 found).1, found]

theorem Collects.of_script (h : d.Collects) (script : d'.script = d.script) : d'.Collects := by
  rwa [Collects, script]

theorem Collects.report (h : d.Collects) {call : Nat} (e : Destination) {entries : List Value}
    {result : Value} (returns : (e.conclude (d.behaviour call).ending entries).1 = .ok result) :
    ∃ report, Destination.report result = .ok report := by
  have listed : ∀ xs : List Value, ∃ report, Destination.report (.list xs) = .ok report := by
    intro xs
    unfold Destination.report Value.initialMembers
    split <;> exact ⟨_, rfl⟩
  unfold conclude at returns
  split at returns
  · cases returns
  · next ending =>
    cases returns
    rw [Destination.behaviour] at ending
    cases hs : d.script[call]? with
    | none => rw [hs] at ending; cases ending
    | some behaviour =>
      rw [hs] at ending
      exact h behaviour (List.mem_of_getElem? hs) _ ending
  · cases found : entriesAt entries _ with
    | error fault => rw [found] at returns; cases returns
    | ok failed => rw [found] at returns; cases returns; exact listed _
  · split at returns <;> cases returns <;> exact listed _

end Destination

namespace Bench

variable {b b' : Bench} {i k n : Nat} {w : Writer} {d : Destination} {loop name : LoopName}

/-! ## What becomes of jobs -/

theorem jobAnswers_setLoop (b : Bench) (name : LoopName) (l : EventLoop Callback) :
    (b.setLoop name l).jobAnswers = b.jobAnswers := by
  cases name <;> rfl

theorem jobAnswers_foldl (i : Nat) (label : String) (effects : List Effect) (b : Bench) :
    (effects.foldl (perform i label) b).jobAnswers = b.jobAnswers := by
  induction effects generalizing b with
  | nil => rfl
  | cons e rest ih =>
    rw [List.foldl_cons, ih]
    cases e with
    | wake call =>
      unfold perform wake
      dsimp only
      split
      · split
        · exact jobAnswers_setLoop _ _ _
        · rfl
      · rfl
    | _ => rfl

theorem destinations_foldl (i : Nat) (label : String) (effects : List Effect) (b : Bench) :
    (effects.foldl (perform i label) b).destinations = b.destinations :=
  (enacts_foldl _ _ _ _).destinations

theorem carries_foldl (i : Nat) (label : String) (effects : List Effect) (b : Bench) :
    Carries b (effects.foldl (perform i label) b) := fun id c hc => by
  have enacts := enacts_foldl i label effects b
  obtain ⟨c', hc'⟩ := enacts.kept id c hc
  obtain ⟨u, hu, ⟨rfl, -⟩ | ⟨rfl, -⟩⟩ := enacts.calls id c' hc'
  all_goals
    cases hc.symm.trans hu
    exact ⟨_, hc', rfl⟩

theorem Steady.change (b : Bench) (i : Nat) (f : Writer → Change) :
    Steady b (b.change i f).2 := by
  refine .of_same (destinations_change b i f) ?_ ?_ <;> unfold Bench.change
  · split
    · rfl
    · exact jobAnswers_foldl _ _ _ _
  · split
    · exact .of_calls rfl
    · exact fun id c hc => carries_foldl _ _ _ _ id c hc

theorem WriterChanges.steady (h : WriterChanges b b') : Steady b b' := by
  induction h with
  | refl => exact .refl b
  | tail _ writerChange ih =>
    refine ih.trans ?_
    cases writerChange with
    | beside beside => exact beside.toSteady
    | motion i _ => exact .change _ i _

theorem LoopActions.steady {sends : Nat → Prop} (h : LoopActions sends b b') : Steady b b' := by
  induction h with
  | refl => exact .refl b
  | tail _ loopAction ih => exact ih.trans loopAction.writerActions.writerChanges.steady

theorem Steady.endCallback {r : Option Fault × Bench} (h : Steady b r.2) :
    Steady b (endCallback r) := by
  unfold Bench.endCallback
  split
  · exact h.trans (Beside.tell _ _).toSteady
  · exact h

theorem Steady.ring (h : Coherent none b) {limit : Nat} {r : Ring} {time : Timetable Ring}
    (due : b.time.Rings limit r time) : Steady b (ring { b with time } r) := by
  have passed : Steady b { b with time } := .of_same rfl rfl (.of_calls rfl)
  cases r with
  | writer i alarm =>
    cases alarm with
    | expire batch => exact passed.trans (.endCallback (.change _ _ _))
    | flush =>
      obtain ⟨-, -, a, ha, action⟩ := rung due
      have own : b.AlarmFits (.writer i .flush) := action ▸ h.alarms a ha
      have flushed := (WriterActions.bufferAlarm (b := { b with time }) own).writerChanges.steady
      exact passed.trans (.endCallback ((Steady.change _ _ _).trans flushed))
  | wake call =>
    refine passed.trans ?_
    unfold Bench.ring
    dsimp only
    split
    · next c hc =>
      split
      · exact (Beside.queue (b := { b with time }) hc rfl _).toSteady
      · exact .refl _
    · exact .refl _

theorem Steady.create (b : Bench) (name : String) (spec : WriterSpec) :
    Steady b (b.create name spec).2 := by
  rcases create_cases b name spec with same | ⟨c, built⟩
  · rw [same]
    exact .refl b
  · rw [built.same]
    exact .of_same (destinations_foldl _ _ _ _) (jobAnswers_foldl _ _ _ _)
      fun id c hc => carries_foldl _ _ _ _ id c hc

/-- Only an executor makes jobs go on. -/
theorem Move.steady (m : Move b b') (h : Orderly b) : Steady b b' ∨ b.Works b' := by
  cases m with
  | runJob destination job => exact .inr ⟨destination, job, .inl rfl⟩
  | cancelJob destination job => exact .inr ⟨destination, job, .inr rfl⟩
  | step next => exact .inl (LoopActions.step h next).steady
  | ring idle due => exact .inl (.ring h.coherent due)
  | wait instant => exact .inl (.of_same rfl rfl (.of_calls rfl))
  | create name spec => exact .inl (.create b name spec)
  | submitOutside idle destination entries label =>
    exact .inl (WriterChanges.callActions (.submit _ _ _ _ _)).steady
  | closeLoop idle name =>
    exact .inl (.of_same (destinations_setLoop _ _ _) (jobAnswers_setLoop _ _ _)
      (.of_calls (calls_setLoop _ _ _)))
  | turn name => exact .inl (Beside.turn b name).toSteady
  | start name known => exact .inl (Beside.start _ _ _ _ _).toSteady
  | endJobs label name destination => exact .inl (Beside.start _ _ _ _ _).toSteady
  | interrupt id => exact .inl (Beside.interrupt _ _).toSteady
  | tell fits report => exact .inl (Beside.tellHandle _ _ _).toSteady
  | shutDown destination => exact .inl (Beside.shutDown _ _).toSteady
  | subscribe bus name => exact .inl (Beside.subscribe _ _ _).toSteady
  | unsubscribe bus name => exact .inl (Beside.unsubscribe _ _ _).toSteady

/-- A job that was waiting comes to its end. What its call returns is told to the job's handle,
unless it is no collection. -/
structure Worked (b : Bench) (k n : Nat) (d : Destination) (job : Job) (b' : Bench) : Prop where
  known : b.destinations[k]? = some d
  was : d.jobs[n]? = some job
  waits : job.state = .waiting
  ended : ∃ d' : Destination, b'.destinations = b.destinations.set k d' ∧ d.Ends n job d'
  calls : b'.calls = b.calls
  told : (∃ c report, b' = tellHandle c job.handle report ∧
      b'.jobAnswers = ((k, n), report) :: b.jobAnswers) ∨
    ¬ d.Collects ∧ b'.jobAnswers = b.jobAnswers

theorem destinations_tellHandle (b : Bench) (handle : Handle) (report : Report) :
    (b.tellHandle handle report).destinations = b.destinations := by
  unfold tellHandle
  split
  · rfl
  · split
    · rfl
    · exact destinations_setLoop _ _ _

theorem destinations_answerJob (b : Bench) (k n : Nat) (job : Job) (report : Report) :
    (b.answerJob k n job report).destinations = b.destinations := destinations_tellHandle _ _ _

theorem jobAnswers_answerJob (b : Bench) (k n : Nat) (job : Job) (report : Report) :
    (b.answerJob k n job report).jobAnswers = ((k, n), report) :: b.jobAnswers :=
  (Beside.tellHandle _ _ _).jobAnswers

theorem destinations_endJob (b : Bench) (k n : Nat) (job : Job) (outcome : Except Fault Value) :
    (b.endJob k n job outcome).destinations = b.destinations := by
  unfold endJob
  split
  · exact destinations_answerJob _ _ _ _ _
  · split
    · exact destinations_answerJob _ _ _ _ _
    · rfl

theorem calls_answerJob (b : Bench) (k n : Nat) (job : Job) (report : Report) :
    (b.answerJob k n job report).calls = b.calls := by
  unfold answerJob tellHandle
  split
  · rfl
  · split
    · rfl
    · exact calls_setLoop _ _ _

theorem calls_endJob (b : Bench) (k n : Nat) (job : Job) (outcome : Except Fault Value) :
    (b.endJob k n job outcome).calls = b.calls := by
  unfold endJob
  split
  · exact calls_answerJob _ _ _ _ _
  · split
    · exact calls_answerJob _ _ _ _ _
    · rfl

/-- The end of a job is told to its handle, unless its result is no collection. -/
theorem told_endJob (b : Bench) (k n : Nat) (job : Job) (outcome : Except Fault Value) :
    (∃ c report, b.endJob k n job outcome = tellHandle c job.handle report ∧
        (b.endJob k n job outcome).jobAnswers = ((k, n), report) :: b.jobAnswers) ∨
      (∃ result fault, outcome = .ok result ∧ Destination.report result = .error fault) ∧
        (b.endJob k n job outcome).jobAnswers = b.jobAnswers := by
  unfold endJob
  split
  · exact .inl ⟨_, _, rfl, jobAnswers_answerJob _ _ _ _ _⟩
  · next result =>
    split
    · exact .inl ⟨_, _, rfl, jobAnswers_answerJob _ _ _ _ _⟩
    · next fault unfit => exact .inr ⟨⟨result, fault, rfl, unfit⟩, rfl⟩

/-- When an executor runs or cancels a job, it ends one that was waiting or does nothing. -/
theorem Works.cases (works : b.Works b') : b' = b ∨ ∃ k n d job, Worked b k n d job b' := by
  obtain ⟨k, n, rfl | rfl⟩ := works
  · unfold runJob
    split
    · exact .inl rfl
    · next d hd =>
      split
      · next handle entries was =>
        refine .inr ⟨k, n, d, _, hd, was, rfl, ⟨_, destinations_endJob _ _ _ _ _, ?_⟩,
          calls_endJob _ _ _ _ _, ?_⟩
        · rw [Destination.conclude_eq]
          exact ⟨rfl, rfl, rfl, rfl, .finished, rfl, by simp⟩
        · refine (told_endJob _ _ _ _ _).imp_right ?_
          rintro ⟨⟨result, fault, returns, unfit⟩, silent⟩
          refine ⟨fun collects => ?_, silent⟩
          obtain ⟨report, fit⟩ := collects.report _ returns
          rw [fit] at unfit
          cases unfit
      · exact .inl rfl
  · unfold cancelJob
    split
    · exact .inl rfl
    · next d hd =>
      split
      · exact .inl rfl
      · next job was =>
        split
        · exact .inl rfl
        · exact .inl rfl
        · next waits =>
          refine .inr ⟨k, n, d, job, hd, was, waits, ⟨_, destinations_answerJob _ _ _ _ _, ?_⟩,
            calls_answerJob _ _ _ _ _, .inl ⟨_, _, rfl, ?_⟩⟩
          · exact ⟨rfl, rfl, rfl, rfl, .cancelled, rfl, by simp⟩
          · exact jobAnswers_answerJob _ _ _ _ _

/-! ## What jobs tell their handles -/

def answersOfJob (b : Bench) (destination job : Nat) : List Report :=
  (b.jobAnswers.filter fun answer => answer.1 = (destination, job)).map (·.2)

theorem Steady.answersOfJob (h : Steady b b') (k n : Nat) :
    b'.answersOfJob k n = b.answersOfJob k n := by
  rw [Bench.answersOfJob, h.jobAnswers, Bench.answersOfJob]

namespace Worked

variable {d' : Destination} {job : Job} {k' n' : Nat}

/-- Where another destination or the same one, with the job ended, is found afterwards. -/
theorem destination (h : Worked b k n d job b') (hd' : b'.destinations[k']? = some d') :
    (k' ≠ k ∧ b.destinations[k']? = some d') ∨ k' = k ∧ d.Ends n job d' := by
  obtain ⟨after, same, ends⟩ := h.ended
  rw [same, List.getElem?_set] at hd'
  split at hd'
  · next own =>
    split at hd'
    · rw [← Option.some.inj hd']
      exact .inr ⟨own.symm, ends⟩
    · cases hd'
  · next other => exact .inl ⟨Ne.symm other, hd'⟩

theorem answersOfJob_of_ne (h : Worked b k n d job b') (other : (k', n') ≠ (k, n)) :
    b'.answersOfJob k' n' = b.answersOfJob k' n' := by
  obtain ⟨_, _, -, told⟩ | ⟨-, told⟩ := h.told
  · rw [answersOfJob, told, List.filter_cons, if_neg (by simpa using Ne.symm other), answersOfJob]
  · rw [answersOfJob, told, answersOfJob]

theorem answersOfJob_self (h : Worked b k n d job b') (collects : d.Collects) :
    ∃ report, b'.answersOfJob k n = report :: b.answersOfJob k n := by
  obtain ⟨_, report, -, told⟩ | ⟨unfit, -⟩ := h.told
  · refine ⟨report, ?_⟩
    rw [answersOfJob, told, List.filter_cons, if_pos (by simp), answersOfJob]
    rfl
  · exact absurd collects unfit

end Worked

/-- The handle of the job at a place was told once if the job has ended, and nothing before. -/
structure AnswersOnce (b : Bench) (k : Nat) (d : Destination) (n : Nat) : Prop where
  once : d.Ended n → (b.answersOfJob k n).length = 1
  silent : ¬ d.Ended n → b.answersOfJob k n = []

theorem AnswersOnce.worked {job : Job} {d' : Destination} {k' : Nat} (h : Worked b k n d job b')
    (hd' : b'.destinations[k']? = some d') (collects : d'.Collects) (n' : Nat)
    (before : ∀ d₀, b.destinations[k']? = some d₀ → d₀.Collects → AnswersOnce b k' d₀ n') :
    AnswersOnce b' k' d' n' := by
  obtain ⟨other, hd⟩ | ⟨rfl, ends⟩ := h.destination hd'
  · have same : b'.answersOfJob k' n' = b.answersOfJob k' n' :=
      h.answersOfJob_of_ne fun same => other (Prod.ext_iff.1 same).1
    have before := before d' hd collects
    exact ⟨fun ended => same ▸ before.once ended, fun waits => same ▸ before.silent waits⟩
  · have collects : d.Collects := collects.of_script ends.script.symm
    obtain ⟨state, jobs, done⟩ := ends.jobs
    have before := before d h.known collects
    by_cases own : n' = n
    · subst own
      have was : ¬ d.Ended n' := fun ⟨other, found, ended⟩ => by
        rw [h.was, Option.some.injEq] at found
        exact ended (found ▸ h.waits)
      have ends : d'.Ended n' := by
        refine ⟨{ job with state }, ?_, done⟩
        rw [jobs, List.getElem?_set_self (List.getElem?_eq_some_iff.1 h.was).1]
      obtain ⟨report, told⟩ := h.answersOfJob_self collects
      rw [before.silent was] at told
      exact ⟨fun _ => by rw [told, List.length_singleton], fun waits => absurd ends waits⟩
    · have same : b'.answersOfJob k' n' = b.answersOfJob k' n' :=
        h.answersOfJob_of_ne fun same => own (Prod.ext_iff.1 same).2
      have found : d'.Ended n' ↔ d.Ended n' := by
        rw [Destination.Ended, jobs, List.getElem?_set_ne (Ne.symm own), Destination.Ended]
      exact ⟨fun ended => same ▸ before.once (found.1 ended),
        fun waits => same ▸ before.silent fun ended => waits (found.2 ended)⟩

/-- Each job tells its handle once, when it ends. -/
theorem Reachable.answersOnce (h : Reachable b) (hd : b.destinations[k]? = some d)
    (collects : d.Collects) (n : Nat) : AnswersOnce b k d n := by
  induction h generalizing k d n with
  | init s unused =>
    have none := (unused d (List.mem_of_getElem? hd)).2
    refine ⟨fun ⟨job, found, _⟩ => ?_, fun _ => rfl⟩
    rw [none] at found
    cases found
  | @move b b' h m ih =>
    obtain steady | works := m.steady h.orderly
    · obtain ⟨d₀, hd₀, later⟩ := steady.destinations k d hd
      have before := ih hd₀ (collects.of_script later.script.symm) n
      have same := steady.answersOfJob k n
      exact ⟨fun ended => same ▸ before.once (later.ended_iff.1 ended),
        fun waits => same ▸ before.silent fun ended => waits (later.ended_iff.2 ended)⟩
    · obtain rfl | ⟨k₀, n₀, d₀, job, worked⟩ := works.cases
      · exact ih hd collects n
      · exact .worked worked hd collects n fun _ hd₀ collects => ih hd₀ collects n

end Bench
end BatchWriter
