import BatchWriter.Proofs.Bench.TwinSteps

/-!
# Commands

A move says what may become of a bench. A command says what is to be done, whatever the bench, so
two benches can be given the same commands. Twins that are given the same commands stay twins.
-/

set_option autoImplicit false

namespace BatchWriter

/-- Who holds a handle: a call that is answered by hand, a job, or a send that has not ended. -/
inductive Holder where
  | call (destination call : Nat)
  | job (destination job : Nat)
  | send (call : Nat)

inductive Command where
  /-- The running call goes on, or the next callback runs. -/
  | step
  | turn (name : LoopName)
  /-- Of the alarms due first the one at a place of the timetable rings, if due by an instant. -/
  | ring (limit place : Nat)
  | wait (instant : Nat)
  | create (name : String) (spec : WriterSpec)
  | start (label : String) (name : LoopName) (task : Task)
  /-- The jobs of an executor have run and it is shut down next. -/
  | endJobs (label : String) (name : LoopName) (destination : Nat)
  | submitOutside (destination : Nat) (entries : List Value) (label : String)
  | interrupt (call : Nat)
  /-- A handle is told an outcome, for the first time or once more, early or late. -/
  | tell (holder : Holder) (report : Report)
  | runJob (destination job : Nat)
  | cancelJob (destination job : Nat)
  | shutDown (destination : Nat)
  | subscribe (bus name : String)
  | unsubscribe (bus name : String)
  | closeLoop (name : LoopName)

def Task.writer? : Task → Option String
  | .write name _ _ | .writeAll name _ | .commit name _ | .close name | .enter name => some name
  | .publish _ _ | .drain _ | .submit _ _ => none

namespace Bench

variable {κ : Kinship} {b b' c : Bench} {cmd : Command}

def handleAt? (b : Bench) : Holder → Option Handle
  | .call destination call =>
    (b.destinations[destination]?).bind fun d => (d.calls[call]?).map (·.1)
  | .job destination job =>
    (b.destinations[destination]?).bind fun d => (d.jobs[job]?).map (·.handle)
  | .send call =>
    (b.calls[call]?).bind fun c =>
      if c.isEnded then none
      else
        match c.program with
        | .send job _ => some job.handle
        | _ => none

/-- What becomes of a bench that is given a command; some commands can not be obeyed. -/
def obey (b : Bench) : Command → Option Bench
  | .step => b.step
  | .turn name => some { b with turn := name }
  | .ring limit place =>
    if b.running.isNone then
      (b.time.ringAt? limit place).map fun rung => ring { b with time := rung.2 } rung.1
    else none
  | .wait instant => some { b with time := b.time.moveTo instant }
  | .create name spec => some (b.create name spec).2
  | .start label name task =>
    match b.programOf label task with
    | .ok program => some (b.start name (some label) program [])
    | .error _ => none
  | .endJobs label name destination =>
    some (b.start name (some label) (.shutDown destination) [])
  | .submitOutside destination entries label =>
    if b.running.isNone then some (b.submit destination none entries (.recorder label)).2 else none
  | .interrupt call => some (b.interrupt call).2
  | .tell holder report => (b.handleAt? holder).map fun handle => b.tellHandle handle report
  | .runJob destination job => some (b.runJob destination job).2
  | .cancelJob destination job => some (b.cancelJob destination job).2
  | .shutDown destination => some (b.shutDown destination)
  | .subscribe bus name => some (b.subscribe bus name)
  | .unsubscribe bus name => some (b.unsubscribe bus name)
  | .closeLoop name => if b.running.isNone then some (b.closeLoop name) else none

def obeyAll (b : Bench) (cmds : List Command) : Option Bench := cmds.foldlM obey b

theorem held_of_handleAt? (h : Orderly b) {holder : Holder} {handle : Handle}
    (held : b.handleAt? holder = some handle) : b.HandleFits handle ∧ b.Holds handle := by
  cases holder with
  | call destination call =>
    obtain ⟨d, hd, found⟩ := Option.bind_eq_some_iff.1 held
    obtain ⟨entry, he, rfl⟩ := Option.map_eq_some_iff.1 found
    have known := List.mem_of_getElem? hd
    have listed := List.mem_of_getElem? he
    exact ⟨(h.coherent.destinations d known).1 entry listed,
      .inl ⟨d, known, .inl ⟨entry, listed, rfl⟩⟩⟩
  | job destination job =>
    obtain ⟨d, hd, found⟩ := Option.bind_eq_some_iff.1 held
    obtain ⟨entry, he, rfl⟩ := Option.map_eq_some_iff.1 found
    have known := List.mem_of_getElem? hd
    have listed := List.mem_of_getElem? he
    exact ⟨(h.coherent.destinations d known).2 entry listed,
      .inl ⟨d, known, .inr ⟨entry, listed, rfl⟩⟩⟩
  | send call =>
    obtain ⟨c, hc, found⟩ := Option.bind_eq_some_iff.1 held
    split at found
    · cases found
    · next live =>
      split at found
      · next job point sends =>
        cases found
        have fits := (h.coherent.calls call c hc (by simp) (by simpa using live)).1
        rw [sends] at fits
        exact ⟨fits, .inr ⟨c, List.mem_of_getElem? hc, job, point, sends, rfl⟩⟩
      · cases found

theorem move_of_obey (h : Orderly b) (done : b.obey cmd = some b') : Move b b' := by
  cases cmd with
  | step => exact .step done
  | turn name =>
    cases done
    exact .turn name
  | ring limit place =>
    simp only [obey] at done
    split at done
    · next idle =>
      obtain ⟨rung, due, rfl⟩ := Option.map_eq_some_iff.1 done
      exact .ring (Option.isNone_iff_eq_none.1 idle) (Timetable.rings_iff_ringAt?.2 ⟨place, due⟩)
    · cases done
  | wait instant =>
    cases done
    exact .wait instant
  | create name spec =>
    cases done
    exact .create name spec
  | start label name task =>
    simp only [obey] at done
    split at done
    · next known =>
      cases done
      exact .start name known
    · cases done
  | endJobs label name destination =>
    cases done
    exact .endJobs label name destination
  | submitOutside destination entries label =>
    simp only [obey] at done
    split at done
    · next idle =>
      cases done
      exact .submitOutside (Option.isNone_iff_eq_none.1 idle) destination entries label
    · cases done
  | interrupt call =>
    cases done
    exact .interrupt call
  | tell holder report =>
    obtain ⟨handle, held, rfl⟩ := Option.map_eq_some_iff.1 done
    exact .tell (held_of_handleAt? h held).1 report
  | runJob destination job =>
    cases done
    exact .runJob destination job
  | cancelJob destination job =>
    cases done
    exact .cancelJob destination job
  | shutDown destination =>
    cases done
    exact .shutDown destination
  | subscribe bus name =>
    cases done
    exact .subscribe bus name
  | unsubscribe bus name =>
    cases done
    exact .unsubscribe bus name
  | closeLoop name =>
    simp only [obey] at done
    split at done
    · next idle =>
      cases done
      exact .closeLoop (Option.isNone_iff_eq_none.1 idle) name
    · cases done

/-- Every move obeys a command, unless a handle is told something that nobody holds. -/
theorem Move.obeys (m : Move b b') : (∃ cmd, b.obey cmd = some b') ∨
    ∃ handle report, b.HandleFits handle ∧ b' = b.tellHandle handle report := by
  cases m with
  | step next => exact .inl ⟨.step, next⟩
  | turn name => exact .inl ⟨.turn name, rfl⟩
  | @ring limit r time idle due =>
    obtain ⟨place, rings⟩ := Timetable.rings_iff_ringAt?.1 due
    exact .inl ⟨.ring limit place, by simp [obey, idle, rings]⟩
  | wait instant => exact .inl ⟨.wait instant, rfl⟩
  | create name spec => exact .inl ⟨.create name spec, rfl⟩
  | @start label task program name known =>
    exact .inl ⟨.start label name task, by simp [obey, known]⟩
  | endJobs label name destination => exact .inl ⟨.endJobs label name destination, rfl⟩
  | submitOutside idle destination entries label =>
    exact .inl ⟨.submitOutside destination entries label, by simp [obey, idle]⟩
  | interrupt id => exact .inl ⟨.interrupt id, rfl⟩
  | @tell handle fits report => exact .inr ⟨handle, report, fits, rfl⟩
  | runJob destination job => exact .inl ⟨.runJob destination job, rfl⟩
  | cancelJob destination job => exact .inl ⟨.cancelJob destination job, rfl⟩
  | shutDown destination => exact .inl ⟨.shutDown destination, rfl⟩
  | subscribe bus name => exact .inl ⟨.subscribe bus name, rfl⟩
  | unsubscribe bus name => exact .inl ⟨.unsubscribe bus name, rfl⟩
  | closeLoop idle name => exact .inl ⟨.closeLoop name, by simp [obey, idle]⟩

theorem Reachable.obey (h : Reachable b) (done : b.obey cmd = some b') : Reachable b' :=
  h.move (move_of_obey h.orderly done)

/-! ## Twins that obey -/

/-- The task's program begins; it is no send and tells subscribers nothing yet. -/
theorem plain_programOf {label : String} {task : Task} {p : Program}
    (known : b.programOf label task = .ok p) :
    p.Plain ∧ ∀ job point, p ≠ .send job point := by
  cases task with
  | write n element context =>
    obtain ⟨i, hi, known⟩ := ok_of_bind known
    obtain ⟨_, -, known⟩ := ok_of_bind known
    cases known
    exact ⟨trivial, fun _ _ sends => by cases sends⟩
  | writeAll n elements =>
    obtain ⟨i, hi, known⟩ := ok_of_bind known
    cases known
    exact ⟨trivial, fun _ _ sends => by cases sends⟩
  | commit n flush =>
    obtain ⟨i, hi, known⟩ := ok_of_bind known
    cases known
    exact ⟨trivial, fun _ _ sends => by cases sends⟩
  | close n | enter n | publish bus event | submit n entries =>
    obtain ⟨_, -, rfl⟩ := ok_of_map known
    exact ⟨trivial, fun _ _ sends => by cases sends⟩
  | drain n =>
    obtain ⟨d, -, known⟩ := ok_of_bind known
    dsimp only at known
    split at known <;> cases known <;> exact ⟨trivial, fun _ _ sends => by cases sends⟩

theorem named_of_programOf {label : String} {task : Task} {p : Program} {i : Nat}
    (known : b.programOf label task = .ok p) (works : p.worksOn? = some i) :
    ∃ name, task.writer? = some name ∧ b.names.get? name = some i := by
  have named : ∀ {name : String} {j : Nat}, b.writerIndex name = .ok j →
      b.names.get? name = some j := by
    intro name j found
    unfold writerIndex at found
    cases known : b.names.get? name with
    | none =>
      rw [known] at found
      cases found
    | some k =>
      rw [known] at found
      cases found
      rfl
  cases task with
  | write n element context =>
    obtain ⟨j, found, known⟩ := ok_of_bind known
    obtain ⟨_, -, known⟩ := ok_of_bind known
    cases known
    cases works
    exact ⟨n, rfl, named found⟩
  | writeAll n _ | commit n _ =>
    obtain ⟨j, found, known⟩ := ok_of_bind known
    cases known
    cases works
    exact ⟨n, rfl, named found⟩
  | close n | enter n =>
    obtain ⟨j, found, rfl⟩ := ok_of_map known
    cases works
    exact ⟨n, rfl, named found⟩
  | publish bus event | submit n entries =>
    obtain ⟨_, -, rfl⟩ := ok_of_map known
    cases works
  | drain n =>
    obtain ⟨d, -, known⟩ := ok_of_bind known
    dsimp only at known
    split at known <;> cases known <;> cases works

/-- All that the command comes to is that subscribers come, go or are told something. -/
def hears (b : Bench) : Command → Bool
  | .step => ((b.running.bind fun id => b.calls[id]?).map fun c => b.tells c.program).getD false
  | .subscribe _ _ | .unsubscribe _ _ => true
  | _ => false

namespace Twins

theorem handleAt? (h : Twins κ b c) (holder : Holder) :
    b.handleAt? holder = (c.handleAt? holder).map κ.handle := by
  cases holder with
  | call destination call =>
    simp only [Bench.handleAt?, h.destination]
    cases c.destinations[destination]? with
    | none => rfl
    | some d =>
      simp only [Option.map_some, Option.bind_some]
      rw [show (κ.destination d).calls = d.calls.map fun k => (κ.handle k.1, k.2) from rfl,
        List.getElem?_map, Option.map_map, Option.map_map]
      rfl
  | job destination job =>
    simp only [Bench.handleAt?, h.destination]
    cases c.destinations[destination]? with
    | none => rfl
    | some d =>
      simp only [Option.map_some, Option.bind_some]
      rw [show (κ.destination d).jobs = d.jobs.map κ.job from rfl, List.getElem?_map,
        Option.map_map, Option.map_map]
      rfl
  | send call =>
    simp only [Bench.handleAt?]
    rcases h.call call with ⟨none, none'⟩ | ⟨k, k', hk, hk', same⟩
    · rw [none, none']
      rfl
    · rw [hk, hk']
      simp only [Option.bind_some]
      rw [same.isEnded]
      by_cases ended : k'.isEnded = true
      · rw [if_pos ended, if_pos ended]
        rfl
      · rw [if_neg ended, if_neg ended]
        have alike := same.program (by simpa using ended)
        generalize k.program = p at alike
        generalize k'.program = p' at alike
        cases alike with
        | same _ _ => cases p' <;> rfl
        | telling _ _ _ _ _ | delivering _ _ _ _ _ => rfl

/-- A task is started alike if it may work on its writer there. -/
theorem startTask (h : Twins κ b c) (label : String) (name : LoopName) (task : Task)
    (welcome : ∀ p, c.programOf label task = .ok p → κ.Welcome name p) :
    Option.Rel (Twins κ) (b.obey (.start label name task)) (c.obey (.start label name task)) := by
  simp only [Bench.obey, h.programOf]
  cases known : c.programOf label task with
  | error fault => exact .none
  | ok p =>
    obtain ⟨plain, quiet⟩ := plain_programOf known
    exact .some (h.start name (some label) [] (.same p fun _ => plain) (welcome p known)
      fun job point sends => absurd sends (quiet job point))

theorem submitOutside (h : Twins κ b c) (destination : Nat) (entries : List Value)
    (label : String) : Twins κ (b.submit destination none entries (.recorder label)).2
      (c.submit destination none entries (.recorder label)).2 := by
  have reports : κ.Reports (.recorder label) := fun _ _ _ same => by cases same
  exact (h.submit reports trivial destination none entries).2

/-- Twins that are given the same command both obey it or both can not, and stay twins. Where the
second bench is silent that goes for commands that are not for subscribers only. -/
theorem obey (h : Twins κ b c) (reached : Reachable b) (reached' : Reachable c) (cmd : Command)
    (welcome : ∀ label name task p, cmd = .start label name task →
      c.programOf label task = .ok p → κ.Welcome name p)
    (mute : κ.silent = true → b.hears cmd = false) :
    Option.Rel (Twins κ) (b.obey cmd) (c.obey cmd) := by
  have orderly' := reached'.orderly
  have idle : b.running.isNone = c.running.isNone := congrArg Option.isNone h.running
  cases cmd with
  | step =>
    refine h.step reached.orderly orderly' fun silent id k running hk => ?_
    have quiet := mute silent
    simpa [hears, running, hk] using quiet
  | turn name => exact .some (h.setTurn name)
  | ring limit place =>
    simp only [Bench.obey, idle, h.ringAt?_timetable]
    split
    · cases due : c.time.ringAt? limit place with
      | none => exact .none
      | some rung => exact .some (h.ring orderly' (Timetable.rings_iff_ringAt?.2 ⟨place, due⟩))
    · exact .none
  | wait instant => exact .some (h.wait instant)
  | create name spec => exact .some (h.create orderly' name spec).2
  | start label name task =>
    exact h.startTask label name task fun p known => welcome label name task p rfl known
  | endJobs label name destination =>
    exact .some (h.start name (some label) [] (.same (.shutDown destination) fun _ => trivial)
      (fun i works => by cases works) fun _ _ sends => by cases sends)
  | submitOutside destination entries label =>
    simp only [Bench.obey, idle]
    split
    · exact .some (h.submitOutside destination entries label)
    · exact .none
  | interrupt call => exact .some (h.interrupt call).2
  | tell holder report =>
    simp only [Bench.obey, h.handleAt?]
    cases held : c.handleAt? holder with
    | none => exact .none
    | some handle =>
      exact .some (h.tellHandle (h.past_of_holds (held_of_handleAt? orderly' held).2) report)
  | runJob destination job => exact .some (h.runJob destination job)
  | cancelJob destination job => exact .some (h.cancelJob destination job)
  | shutDown destination => exact .some (h.shutDown destination)
  | subscribe bus name =>
    have loud : κ.silent = false := by
      by_contra silent
      cases mute (by simpa using silent)
    exact .some (h.subscribe loud bus name)
  | unsubscribe bus name =>
    have loud : κ.silent = false := by
      by_contra silent
      cases mute (by simpa using silent)
    exact .some (h.unsubscribe loud bus name)
  | closeLoop name =>
    simp only [Bench.obey, idle]
    split
    · exact .some (h.closeLoop orderly' reached'.timely name)
    · exact .none

/-- Twins whose subscribers are told the same stay twins over all commands, if each task is started
where it may work on its writer. -/
theorem obeyAll (h : Twins κ b c) (reached : Reachable b) (reached' : Reachable c)
    (loud : κ.silent = false) (cmds : List Command)
    (welcome : ∀ label name task, .start label name task ∈ cmds → ∀ (b c : Bench) (p : Program),
      Twins κ b c → c.programOf label task = .ok p → κ.Welcome name p) :
    Option.Rel (Twins κ) (b.obeyAll cmds) (c.obeyAll cmds) := by
  induction cmds generalizing b c with
  | nil => exact .some h
  | cons cmd rest ih =>
    have both : Option.Rel (Twins κ) (b.obey cmd) (c.obey cmd) := by
      refine h.obey reached reached' cmd (fun label name task p same known => ?_)
        fun silent => nomatch loud.symm.trans silent
      exact welcome label name task (same ▸ List.mem_cons_self) b c p h known
    have goes : ∀ a : Bench, a.obeyAll (cmd :: rest) = (a.obey cmd).bind (Bench.obeyAll · rest) :=
      fun _ => rfl
    rw [goes, goes]
    rcases rel_cases both with ⟨none, none'⟩ | ⟨b₁, c₁, first, first', twins⟩
    · rw [none, none']
      exact .none
    · rw [first, first']
      exact ih twins (reached.obey first) (reached'.obey first') fun label name task hm =>
        welcome label name task (List.mem_cons_of_mem _ hm)

end Twins

/-! ## A bench is its own twin -/

def Kinship.own (silent : Bool) : Kinship where
  place i := i
  writer _ := {}
  silent := silent
  injective _ _ _ _ same := same
  succeeds none := by cases none
  inherits i gone := by cases gone
  onward i _ := ⟨rfl, rfl, fun gone => by cases gone⟩

namespace Kinship

variable (silent : Bool)

theorem own_handle (handle : Handle) : (own silent).handle handle = handle := by
  cases handle <;> rfl

theorem own_ring (r : Ring) : (own silent).ring r = r := by
  cases r with
  | writer i alarm => exact congrArg (Ring.writer i) (WriterAlarm.shifted_zero alarm)
  | wake call => rfl

theorem own_callback (cb : Callback) : (own silent).callback cb = cb := by
  cases cb <;> rfl

theorem own_program (p : Program) : (own silent).program p = p := by
  cases p with
  | send job point => simp [program, sendJob, own_handle]
  | _ => rfl

theorem own_timetable (t : Timetable Ring) : (own silent).timetable t = t :=
  timetable_eq fun a _ => own_ring silent a.action

theorem own_eventLoop (l : EventLoop Callback) : (own silent).eventLoop l = l :=
  eventLoop_eq fun cb _ => own_callback silent cb

theorem own_destinations (ds : List Destination) : ds.map (own silent).destination = ds :=
  (List.map_congr_left fun _ _ => destination_eq (fun c _ => own_handle silent c.1)
    fun j _ => own_handle silent j.handle).trans (List.map_id _)

theorem own_welcome (loop : LoopName) (p : Program) : (own silent).Welcome loop p :=
  fun _ _ => ⟨fun gone => (by cases gone), fun _ home => (by cases home)⟩

end Kinship

/-- Before anything is done there is nobody whom a bench could tell anything. -/
theorem twins_start {s : Scenario} (unused : s.Unused) (silent : Bool) :
    Twins (.own silent) s.start s.start where
  time := rfl
  main := rfl
  alt := rfl
  turn := rfl
  running := rfl
  calls := .nil
  writers _ _ := .none
  size := ⟨rfl, Nat.le_refl _⟩
  names _ := rfl
  destinations := (Kinship.own_destinations silent _).symm
  subscribers := rfl
  answers := rfl
  buses := by
    cases silent with
    | true => exact fun _ => rfl
    | false => rfl
  metrics _ := rfl
  trace := .nil
  retired _ gone := by cases gone
  late _ _ _ _ gone := by cases gone
  alarms _ set := by cases set
  named _ _ _ known := by cases known
  living _ _ known := by cases known
  titled _ _ gone := by cases gone
  held handle holds := by
    rcases holds with ⟨d, hd, calls⟩ | ⟨c, hc, -⟩
    · obtain ⟨none, none'⟩ := unused d hd
      rw [none, none'] at calls
      rcases calls with ⟨_, hm, -⟩ | ⟨_, hm, -⟩ <;> cases hm
    · cases hc

theorem Reachable.twins (h : Reachable b) : Twins (.own false) b b := by
  induction h with
  | init s unused => exact twins_start unused false
  | @move b b' h m ih =>
    rcases m.obeys with ⟨cmd, done⟩ | ⟨handle, report, -, rfl⟩
    · have both := ih.obey h h cmd (fun _ _ _ _ _ _ => Kinship.own_welcome _ _ _)
        fun silent => by cases silent
      rw [done] at both
      cases both with
      | some twins => exact twins
    · have told := ih.tellHandle (show (Kinship.own false).Past handle from
        fun _ _ _ _ gone => by cases gone) report
      rwa [Kinship.own_handle] at told

end Bench
end BatchWriter
