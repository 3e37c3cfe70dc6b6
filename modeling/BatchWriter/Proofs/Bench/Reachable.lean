import BatchWriter.Proofs.Bench.Step
import BatchWriter.Scenario

/-!
# Reachable benches

A run of a bench is any sequence of moves: the bench steps, an alarm rings between two
steps, and whoever is outside builds writers, starts and cancels calls and reports
outcomes, in any order and at any time. Every bench that a run reaches is orderly.
-/

set_option autoImplicit false

namespace BatchWriter

def Scenario.Unused (s : Scenario) : Prop :=
  ∀ d ∈ s.destinations, d.calls = [] ∧ d.jobs = []

namespace Bench

/-- What may happen to a bench next. -/
inductive Move (b : Bench) : Bench → Prop where
  /-- The running call goes on, or the next callback runs. -/
  | step {b' : Bench} (next : b.step = some b') : Move b b'
  | turn (name : LoopName) : Move b { b with turn := name }
  /-- One of the alarms due first rings while no call runs, however far the clock has to be moved
  for it. -/
  | ring {limit : Nat} {r : Ring} {time : Timetable Ring} (idle : b.running = none)
      (due : b.time.Rings limit r time) : Move b (ring { b with time } r)
  | wait (instant : Nat) : Move b { b with time := b.time.moveTo instant }
  | create (name : String) (spec : WriterSpec) : Move b (b.create name spec).2
  | start {label : String} {task : Task} {program : Program} (name : LoopName)
      (known : b.programOf label task = .ok program) :
      Move b (b.start name (some label) program [])
  /-- The jobs of an executor have run and it is shut down next. -/
  | endJobs (label : String) (name : LoopName) (destination : Nat) :
      Move b (b.start name (some label) (.shutDown destination) [])
  | submitOutside (idle : b.running = none) (destination : Nat) (entries : List Value)
      (label : String) : Move b (b.submit destination none entries (.recorder label)).2
  | interrupt (id : Nat) : Move b (b.interrupt id).2
  /-- A handle is told an outcome, for the first time or once more, early or late. -/
  | tell {handle : Handle} (fits : b.HandleFits handle) (report : Report) :
      Move b (b.tellHandle handle report)
  | runJob (destination job : Nat) : Move b (b.runJob destination job).2
  | cancelJob (destination job : Nat) : Move b (b.cancelJob destination job).2
  | shutDown (destination : Nat) : Move b (b.shutDown destination)
  | subscribe (bus name : String) : Move b (b.subscribe bus name)
  | unsubscribe (bus name : String) : Move b (b.unsubscribe bus name)
  | closeLoop (idle : b.running = none) (name : LoopName) : Move b (b.closeLoop name)

abbrev Moves : Bench → Bench → Prop := Relation.ReflTransGen Move

/-- The benches of all runs of all scenarios. -/
inductive Reachable : Bench → Prop where
  | init (s : Scenario) (unused : s.Unused) : Reachable s.start
  | move {b b' : Bench} (h : Reachable b) (m : Move b b') : Reachable b'

variable {hand : Option Nat} {b b' : Bench}

/-! What outside moves do to the writers: nothing. -/

theorem writers_post (b : Bench) (name : LoopName) (cb : Callback) :
    (b.post name cb).writers = b.writers := writers_setLoop _ _ _

theorem writers_interruptOne (b : Bench) (id : Nat) :
    (b.interruptOne id).2.writers = b.writers := by
  unfold interruptOne
  split
  · rfl
  · split <;> first | rfl | exact writers_post _ _ _

theorem writers_interruptAll (b : Bench) (ids : List Nat) :
    (b.interruptAll ids).writers = b.writers := by
  unfold interruptAll
  induction ids generalizing b with
  | nil => rfl
  | cons id rest ih => rw [List.foldl_cons, ih, writers_interruptOne]

theorem writers_interrupt (b : Bench) (id : Nat) : (b.interrupt id).2.writers = b.writers := by
  unfold interrupt
  split
  · rw [writers_interruptOne, writers_interruptAll]
  · exact writers_interruptOne _ _

theorem writers_endJob (b : Bench) (destination i : Nat) (job : Job)
    (outcome : Except Fault Value) : (b.endJob destination i job outcome).writers = b.writers := by
  unfold endJob
  split
  · exact writers_tellHandle _ _ _
  · split
    · exact writers_tellHandle _ _ _
    · rfl

theorem writers_runJob (b : Bench) (destination job : Nat) :
    (b.runJob destination job).2.writers = b.writers := by
  unfold runJob
  split
  · rfl
  · split
    · exact writers_endJob _ _ _ _ _
    · rfl

theorem writers_cancelJob (b : Bench) (destination job : Nat) :
    (b.cancelJob destination job).2.writers = b.writers := by
  unfold cancelJob
  split
  · rfl
  · split
    · rfl
    · split <;> first | rfl | exact writers_tellHandle _ _ _

theorem writers_shutDown (b : Bench) (destination : Nat) :
    (b.shutDown destination).writers = b.writers := by
  unfold shutDown
  split <;> rfl

/-- A move that leaves the writers alone, whatever runs meanwhile. -/
theorem Orderly.aside (h : Orderly b) (hp : Passes none b b') (same : b'.writers = b.writers) :
    Orderly b' :=
  h.beside hp fun _ _ hw => same ▸ hw

/-! A new writer. -/

/-- What a new writer asks for only tells what it looks like. -/
theorem aside_effects {w : Writer} (place : Nat) (label : String) {effects : List Effect}
    (mild : ∀ e ∈ effects, e.Mild w) (b : Bench) :
    Aside b (effects.foldl (perform place label) b) := by
  induction effects generalizing b with
  | nil => exact .refl b
  | cons e rest ih =>
    have first : Aside b (perform place label b e) := by
      have hm := mild e List.mem_cons_self
      cases e with
      | notice n => exact .log _ _
      | measure m => exact ⟨rfl, rfl, rfl, rfl, rfl, rfl, rfl, rfl⟩
      | setAlarm _ _ | cancelAlarm _ | wake _ => exact hm.elim
    exact first.trans (ih (fun x hx => mild x (List.mem_cons_of_mem _ hx)) _)

def withNew (b : Bench) (name : String) (w : Writer) : Bench :=
  { b with
    writers := b.writers ++ [w]
    names := b.names.alter name b.writers.length fun _ => b.writers.length }

theorem writer_withNew {name : String} {w u : Writer} {i : Nat}
    (h : (b.withNew name w).writers[i]? = some u) : b.writers[i]? = some u ∨ u = w := by
  rw [withNew, List.getElem?_append] at h
  split at h
  · exact .inl h
  · exact .inr (List.mem_singleton.1 (List.mem_of_getElem? h))

theorem writer_kept {i : Nat} {u : Writer} (h : b.writers[i]? = some u) (name : String)
    (w : Writer) : (b.withNew name w).writers[i]? = some u := by
  have known := (List.getElem?_eq_some_iff.1 h).1
  rw [withNew, List.getElem?_append_left known, h]

theorem passes_withNew (h : Coherent hand b) (name : String) {w : Writer} (fresh : w.Fresh) :
    Passes hand b (b.withNew name w) := by
  have grows : b.Extends (b.withNew name w) := fun i u hu =>
    ⟨u, writer_kept hu name w, .refl u⟩
  refine ⟨⟨⟨?_, ?_, ?_, ?_, ?_, ?_, ?_⟩, rfl, grows, fun _ c hc => ⟨c, hc, .refl c⟩, ?_, ?_⟩, ?_⟩
  · intro id c hc hh he
    obtain ⟨fits, stands⟩ := h.calls id c hc hh he
    refine ⟨grows.program fits, stands.mono (fun hr => hr) (fun _ _ hq => ?_) ?_⟩
    · exact hq
    · exact fun _ i u hu hid => ⟨u, writer_kept hu name w, hid⟩
  · intro i u hu
    rcases writer_withNew hu with hu | rfl
    · exact h.waiters i u hu
    · rw [fresh.waiters]
      exact ⟨List.nodup_nil, fun _ hid => by cases hid⟩
  · exact fun loop cb hm => grows.callback (h.callbacks loop cb hm)
  · exact fun d hd => grows.destination (h.destinations d hd)
  · exact fun a ha => grows.alarm (h.alarms a ha)
  · intro other i hi
    by_cases ho : other = name
    · subst ho
      rw [withNew, Ledger.get?_alter_self, Option.some.injEq] at hi
      subst hi
      exact ⟨w, by simp [withNew]⟩
    · rw [withNew, Ledger.get?_alter_of_ne _ ho] at hi
      exact grows.held i (h.names other i hi)
  · intro u hm
    rcases List.mem_append.1 hm with hm | hm
    · exact h.writers u hm
    · rw [List.mem_singleton.1 hm]
      exact fresh.lawful
  · intro i u hu id hid
    rcases writer_withNew hu with hu | rfl
    · exact ⟨u, hu, hid⟩
    · rw [fresh.waiters] at hid
      cases hid
  · exact fun id c hc hs => ⟨c, hc, hs, rfl⟩
  · intro i u hu _
    rcases writer_withNew hu with hu | rfl
    · exact .inr ⟨u, hu, rfl, .refl u⟩
    · exact .inl fresh.waiters

/-- `b'` is `b` with one more writer, made by `Writer.restore`. -/
structure Built (b : Bench) (name : String) (c : Change) (b' : Bench) : Prop where
  restored : ∃ id config converter destination bus entries,
    (∃ args, Config.ofArguments args = .ok config) ∧
      Writer.restore b.now id config converter destination bus entries = .ok c
  same : b' = c.effects.foldl (perform b.writers.length c.writer.label)
    { b.withNew name c.writer with metrics := b.metrics.register c.writer.label }

/-- A writer that could not be built changes nothing. -/
theorem create_cases (b : Bench) (name : String) (spec : WriterSpec) :
    (b.create name spec).2 = b ∨ ∃ c, Built b name c (b.create name spec).2 := by
  unfold create
  dsimp only
  split
  · exact .inl rfl
  · next c built =>
    simp only [Bind.bind, Except.bind] at built
    cases accepted : Config.ofArguments spec.config with
    | error fault =>
      simp only [accepted] at built
      cases built
    | ok config =>
      simp only [accepted] at built
      split at built
      · cases built
      split at built
      · cases built
      split at built
      · cases built
      exact .inr ⟨c, ⟨_, config, _, _, _, _, ⟨_, accepted⟩, built⟩, rfl⟩

namespace Built

variable {name : String} {c : Change} {w : Writer} {i : Nat}

theorem fresh (h : Built b name c b') : c.writer.Fresh := by
  obtain ⟨_, _, _, _, _, _, accepted, restored⟩ := h.restored
  exact (Writer.fresh_of_restore accepted restored).1

theorem mild (h : Built b name c b') : ∀ e ∈ c.effects, e.Mild c.writer := by
  obtain ⟨_, _, _, _, _, _, accepted, restored⟩ := h.restored
  exact (Writer.fresh_of_restore accepted restored).2

theorem history (h : Built b name c b') :
    ∃ entries, c.writer.history = [(b.now, .restored entries)] := by
  obtain ⟨_, _, _, _, _, entries, -, restored⟩ := h.restored
  exact ⟨entries, Writer.history_of_restore restored⟩

theorem told (h : Built b name c b') : Aside (b.withNew name c.writer) b' := by
  have measured : Aside (b.withNew name c.writer)
      { b.withNew name c.writer with metrics := b.metrics.register c.writer.label } :=
    ⟨rfl, rfl, rfl, rfl, rfl, rfl, rfl, rfl⟩
  rw [h.same]
  exact measured.trans (aside_effects b.writers.length c.writer.label h.mild _)

theorem now (h : Built b name c b') : b'.now = b.now := by
  rw [Bench.now, h.told.time]
  rfl

theorem writers (h : Built b name c b') : b'.writers = b.writers ++ [c.writer] := h.told.writers

theorem writer (h : Built b name c b') (hw : b'.writers[i]? = some w) :
    b.writers[i]? = some w ∨ w = c.writer :=
  writer_withNew (h.told.writers ▸ hw)

theorem kept (h : Built b name c b') (hw : b.writers[i]? = some w) :
    b'.writers[i]? = some w := by
  rw [h.told.writers]
  exact writer_kept hw name c.writer

end Built

theorem orderly_create (h : Orderly b) (name : String) (spec : WriterSpec) :
    Orderly (b.create name spec).2 := by
  rcases create_cases b name spec with same | ⟨c, built⟩
  · rw [same]
    exact h
  · have added := passes_withNew h.coherent name built.fresh
    exact h.beside (added.andThen fun h => passes_of_aside h built.told) fun _ _ => built.kept

/-! A task's program stands at its start. -/

theorem held_of_writerIndex (h : Coherent hand b) {name : String} {i : Nat}
    (hi : b.writerIndex name = .ok i) : b.Held i := by
  unfold writerIndex at hi
  cases hn : b.names.get? name with
  | none =>
    rw [hn] at hi
    cases hi
  | some _ =>
    rw [hn] at hi
    cases hi
    exact h.names name _ hn

theorem ok_of_bind {α β : Type} {r : Except Fault α} {f : α → Except Fault β} {y : β}
    (h : (r >>= f) = .ok y) : ∃ x, r = .ok x ∧ f x = .ok y := by
  cases r with
  | error fault => cases h
  | ok x => exact ⟨x, rfl, h⟩

theorem ok_of_map {α β : Type} {r : Except Fault α} {f : α → β} {y : β}
    (h : r.map f = .ok y) : ∃ x, r = .ok x ∧ f x = y := by
  cases r with
  | error fault => cases h
  | ok x => exact ⟨x, rfl, Except.ok.inj h⟩

theorem fits_programOf (h : Coherent hand b) {label : String} {task : Task} {p : Program}
    (known : b.programOf label task = .ok p) (name : LoopName) : p.Fits b name ∧ p.Rests := by
  cases task with
  | write n element context =>
    obtain ⟨i, hi, known⟩ := ok_of_bind known
    obtain ⟨_, -, known⟩ := ok_of_bind known
    cases known
    exact ⟨held_of_writerIndex h hi, trivial⟩
  | writeAll n elements =>
    obtain ⟨i, hi, known⟩ := ok_of_bind known
    cases known
    exact ⟨held_of_writerIndex h hi, trivial⟩
  | commit n flush =>
    obtain ⟨i, hi, known⟩ := ok_of_bind known
    cases known
    exact ⟨held_of_writerIndex h hi, trivial⟩
  | close n | enter n =>
    obtain ⟨i, hi, rfl⟩ := ok_of_map known
    exact ⟨held_of_writerIndex h hi, trivial⟩
  | publish bus event | submit n entries =>
    obtain ⟨_, -, rfl⟩ := ok_of_map known
    exact ⟨trivial, trivial⟩
  | drain n =>
    obtain ⟨d, -, known⟩ := ok_of_bind known
    dsimp only at known
    split at known <;> cases known <;> exact ⟨trivial, trivial⟩

theorem Move.orderly (m : Move b b') (h : Orderly b) : Orderly b' := by
  have hc := h.coherent
  cases m with
  | step next => exact orderly_step h next
  | turn name => exact h.turn name
  | ring idle due => exact orderly_ringNext h idle due
  | wait instant => exact h.aside (passes_time hc _ hc.alarms) rfl
  | create name spec => exact orderly_create h name spec
  | start name known =>
    obtain ⟨fits, rests⟩ := fits_programOf hc known name
    exact h.aside (passes_start hc name _ [] fits rests) (writers_post _ _ _)
  | endJobs label name destination =>
    exact h.aside (passes_start hc name _ [] trivial trivial) (writers_post _ _ _)
  | submitOutside idle destination entries label =>
    exact h.passes idle (hands_submit hc destination none entries (.recorder label) trivial).1
  | interrupt id => exact h.aside (passes_interrupt hc id) (writers_interrupt _ _)
  | tell fits report => exact h.aside (passes_tellHandle hc fits report) (writers_tellHandle _ _ _)
  | runJob destination job => exact h.aside (passes_runJob hc _ _) (writers_runJob _ _ _)
  | cancelJob destination job => exact h.aside (passes_cancelJob hc _ _) (writers_cancelJob _ _ _)
  | shutDown destination => exact h.aside (passes_shutDown hc _) (writers_shutDown _ _)
  | subscribe bus name =>
    have aside := Aside.subscribe b bus name
    exact h.aside (passes_of_aside hc aside) aside.writers
  | unsubscribe bus name =>
    have aside := Aside.unsubscribe b bus name
    exact h.aside (passes_of_aside hc aside) aside.writers
  | closeLoop idle name => exact orderly_closeLoop h idle name

theorem orderly_start {s : Scenario} (unused : s.Unused) : Orderly s.start where
  coherent :=
    { calls := fun _ _ hc => by cases hc
      waiters := fun _ _ hw => by cases hw
      callbacks := fun name _ hm => by cases name <;> cases hm
      destinations := fun d hd => by
        obtain ⟨calls, jobs⟩ := unused d hd
        simp [DestinationFits, calls, jobs]
      alarms := fun _ ha => by cases ha
      names := fun _ _ hn => by cases hn
      writers := fun _ hm => by cases hm }
  current _ hr := by cases hr
  watched _ _ _ _ hc := by cases hc

theorem Reachable.orderly (h : Reachable b) : Orderly b := by
  induction h with
  | init s unused => exact orderly_start unused
  | move _ m ih => exact m.orderly ih

theorem Reachable.lawful (h : Reachable b) {i : Nat} {w : Writer}
    (hw : b.writers[i]? = some w) : w.Lawful :=
  h.orderly.coherent.writers w (List.mem_of_getElem? hw)

/-! The bench that a scenario runs on is reachable. -/

theorem Reachable.moves (h : Reachable b) (moves : Moves b b') : Reachable b' := by
  induction moves with
  | refl => exact h
  | tail _ m ih => exact ih.move m

theorem moves_run (b : Bench) (fuel : Nat) : Moves b (run fuel b) := by
  induction fuel generalizing b with
  | zero => exact .refl
  | succ n ih =>
    rw [Bench.run]
    split
    · next next hs => exact .head (.step hs) (ih next)
    · exact .refl

theorem Reachable.run (h : Reachable b) (fuel : Nat) : Reachable (run fuel b) :=
  h.moves (moves_run b fuel)

theorem Reachable.settle (h : Reachable b) (fuel : Nat) : Reachable (b.settle fuel) :=
  (h.move (.turn .main)).run fuel

theorem Reachable.runWaitingJobs (h : Reachable b) (fuel destination rounds : Nat) :
    Reachable (runWaitingJobs fuel destination rounds b) := by
  induction rounds generalizing b with
  | zero => exact h
  | succ n ih =>
    rw [Bench.runWaitingJobs]
    split
    · exact h
    · next i _ => exact ih ((h.move (.runJob destination i)).settle fuel)

theorem Reachable.startTask (h : Reachable b) (fuel : Nat) (label : String) (name : LoopName)
    (task : Task) : Reachable (b.startTask fuel label name task).2 := by
  unfold Bench.startTask
  split
  · exact h
  · next program known =>
    dsimp only
    split
    · next destination =>
      have ran := h.runWaitingJobs fuel destination fuel
      split
      · exact ran
      · exact ran.move (.endJobs label name destination)
    · split
      · exact h
      · exact h.move (.start name known)

/-- Every act but the passing of time is a sequence of moves; while time passes, each alarm
that rings is one. -/
theorem Reachable.act (h : Reachable b) (idle : b.running = none) (fuel : Nat) (a : Act)
    (prompt : ∀ microseconds, a ≠ .advance microseconds) : Reachable (b.act fuel a).2 := by
  have on : ∀ (name : String) (f : Nat → Answer), (∀ i, Reachable (f i).2) →
      Reachable (b.onDestination name f).2 := by
    intro name f hf
    unfold onDestination
    split
    · exact h
    · exact hf _
  have report : ∀ (destination : String) (call : Int) (f : List Value → Except Fault Report),
      Reachable (b.reportCall destination call f).2 := by
    intro destination call f
    unfold reportCall
    split
    · exact h
    · next found hf =>
      split
      · exact h
      · exact h.move (.tell (handleFits_of_handleOf h.orderly.coherent hf) _)
  have view : ∀ (name : String) (f : Writer → Value), Reachable (b.view name f).2 := by
    intro name f
    unfold Bench.view
    split <;> exact h
  cases a with
  | create name spec => exact h.move (.create name spec)
  | start label loop task => exact h.startTask fuel label loop task
  | submitOutside label name entries =>
    exact on name _ fun i => h.move (.submitOutside idle i entries label)
  | cancel label =>
    rw [Bench.act, cancelTask]
    split
    · exact h
    · exact h.move (.interrupt _)
  | complete destination call places => exact report destination call _
  | completeWith destination call failed => exact report destination call _
  | fail destination call fault => exact report destination call _
  | runJob name job =>
    refine on name _ fun i => ?_
    unfold runJobAct
    split
    · exact h
    · exact h
    · exact h.move (.runJob i _)
  | cancelJob name job =>
    refine on name _ fun i => ?_
    unfold cancelJobAct
    split
    · exact h
    · exact h.move (.cancelJob i _)
  | shutDown name => exact on name _ fun i => h.move (.shutDown i)
  | pending name => exact on name _ fun _ => h
  | subscribe bus name => exact h.move (.subscribe bus name)
  | unsubscribe bus name => exact h.move (.unsubscribe bus name)
  | advance microseconds => exact absurd rfl (prompt microseconds)
  | settle | exposition => exact h
  | snapshot name | health name | properties name | histograms name => exact view name _
  | closeLoop loop => exact h.move (.closeLoop idle loop)

/-! A writer of its own over a destination that is answered for by hand. -/

def single (config : Arguments) (entries : List Value) : Bench :=
  (Scenario.start ⟨[{ name := "sink", adapter := .manual }], [], []⟩).create "w"
    { config, initial := .list entries, destination := "sink" } |>.2

def flushing (config : Arguments) (entries : List Value) : Bench :=
  (single config entries).start .main (some "commit")
    (.commit { writer := 0, flush := .bool true } .start) []

theorem reachable_single (config : Arguments) (entries : List Value) :
    Reachable (single config entries) := by
  refine .move (.init _ ?_) (.create "w" _)
  intro d hd
  rw [List.mem_singleton.1 hd]
  exact ⟨rfl, rfl⟩

theorem reachable_flushing {config : Arguments} {entries : List Value}
    (built : (single config entries).writerIndex "w" = .ok 0) :
    Reachable (flushing config entries) := by
  have known : (single config entries).programOf "commit" (.commit "w" (.bool true)) =
      .ok (.commit { writer := 0, flush := .bool true } .start) := by
    rw [programOf, built]
    rfl
  exact (reachable_single _ _).move (.start .main known)

end Bench
end BatchWriter
