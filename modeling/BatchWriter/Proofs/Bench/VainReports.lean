import BatchWriter.Proofs.Bench.After
import BatchWriter.Proofs.Writer.Once

/-!
# Runs without vain reports

A report is vain if its batch is open no more when a writer learns of it. The run in which vain
reports never become ready goes through the same states as the run in which they do: the two
differ in what waits on the ready queues and in the notices that tell of vain reports.
-/

set_option autoImplicit false

namespace BatchWriter

def Callback.IsReport : Callback → Prop
  | .report _ _ _ => True
  | _ => False

def Notice.DismissesReport : Notice → Prop
  | .completionAfterClose _ _ | .completionUnknown _ _ | .failureUnknown _ _ _ => True
  | _ => False

def Happening.DismissesReport : Happening → Prop
  | .noticed n => n.DismissesReport
  | _ => False

/-- The second list is the first one less some of the elements of a kind. -/
inductive Thinned {α : Type} (kind : α → Prop) : List α → List α → Prop where
  | nil : Thinned kind [] []
  | keep (x : α) {xs ys : List α} (h : Thinned kind xs ys) : Thinned kind (x :: xs) (x :: ys)
  | drop {x : α} (hx : kind x) {xs ys : List α} (h : Thinned kind xs ys) :
      Thinned kind (x :: xs) ys

namespace Thinned

variable {α : Type} {kind : α → Prop} {xs xs' ys ys' : List α}

theorem refl (xs : List α) : Thinned kind xs xs := by
  induction xs with
  | nil => exact .nil
  | cons x rest ih => exact .keep x ih

theorem append (h : Thinned kind xs ys) (h' : Thinned kind xs' ys') :
    Thinned kind (xs ++ xs') (ys ++ ys') := by
  induction h with
  | nil => exact h'
  | keep x _ ih => exact .keep x ih
  | drop hx _ ih => exact .drop hx ih

theorem split (h : Thinned kind (xs ++ xs') ys) :
    ∃ us vs, ys = us ++ vs ∧ Thinned kind xs us ∧ Thinned kind xs' vs := by
  induction xs generalizing ys with
  | nil => exact ⟨[], ys, rfl, .nil, h⟩
  | cons x rest ih =>
    cases h with
    | keep _ h =>
      obtain ⟨us, vs, rfl, hus, hvs⟩ := ih h
      exact ⟨x :: us, vs, rfl, .keep x hus, hvs⟩
    | drop hx h =>
      obtain ⟨us, vs, rfl, hus, hvs⟩ := ih h
      exact ⟨us, vs, rfl, .drop hx hus, hvs⟩

theorem of_nil (h : Thinned kind [] ys) : ys = [] := by cases h; rfl

end Thinned

namespace Bench

def Vain (b : Bench) : Callback → Prop
  | .report i batch _ => ∀ w, b.writers[i]? = some w → batch ∉ w.inFlight.ids
  | _ => False

def Earnest (b : Bench) : Prop :=
  b.running = none → ∀ name callback next,
    b.nextCallback? = some (name, callback, next) → ¬ b.Vain callback

/-- A move that runs no vain report: an earnest step, or a move that takes nothing off a ready
queue unless it closes the loop. -/
inductive Apt (b : Bench) : Bench → Prop where
  | step {b' : Bench} (next : b.step = some b') (earnest : b.Earnest) : Apt b b'
  | outside {b' : Bench} (move : Move b b') (keeps : ∀ name,
      (b'.loop name).closed = true ∨ (b.loop name).ready <+: (b'.loop name).ready) : Apt b b'

/-- The second bench is the first one, but for reports that are missing on its ready queues and
for notices of vain reports that are missing in its trace. -/
structure Matches (b c : Bench) : Prop where
  present : c.present = b.present
  ready : ∀ name, Thinned Callback.IsReport (b.loop name).ready (c.loop name).ready
  trace : Thinned Happening.DismissesReport b.trace c.trace

def Retains (c c' : Bench) : Prop :=
  ∀ name, (c'.loop name).closed = true ∨
    ∃ taken ≤ 1, (c.loop name).ready.drop taken <+: (c'.loop name).ready

/-- Two runs side by side, the second one without vain reports. -/
inductive Pace : Bench × Bench → Bench × Bench → Prop where
  /-- Both make a move that runs no vain report. Reports that the move posts may never become
  ready in the second run. -/
  | both {b b' c c₁ c' : Bench} (first : Apt b b') (second : Apt c c₁) (loses : Matches c₁ c')
      (told : c'.trace = c₁.trace) (keeps : Retains c c') (matching : Matches b' c') :
      Pace (b, c) (b', c')
  /-- The first one runs a vain report, which the second one does not have: there only the turn
  passes to the loop. -/
  | vain {b b' c : Bench} {name : LoopName} {callback : Callback} {popped : Bench}
      (idle : b.running = none) (next : b.nextCallback? = some (name, callback, popped))
      (vain : b.Vain callback) (step : b.step = some b')
      (matching : Matches b' { c with turn := name }) : Pace (b, c) (b', { c with turn := name })

/-- From some matching bench on there is a run beside the given one that runs no vain report and
ends on the same bench. The reports that never become ready are chosen by what comes later. -/
def ThinnedRun (b e : Bench) : Prop :=
  ∃ ready : LoopName → List Callback,
    (∀ name, Thinned Callback.IsReport (b.loop name).ready (ready name)) ∧
    ∀ trace, Thinned Happening.DismissesReport b.trace trace →
      ∃ told, Thinned Happening.DismissesReport e.trace told ∧
        Relation.ReflTransGen Pace (b, b.present.after ⟨ready, trace⟩) (e, { e with trace := told })

variable {b b' e : Bench} {i batch : Nat} {w : Writer}

/-! A vain report changes nothing. -/

/-- A writer learns of a batch that is not open: it says so, and that is all. -/
theorem runCallback_report (hw : b.writers[i]? = some w) (gone : batch ∉ w.inFlight.ids)
    (loop : LoopName) (report : Report) : ∃ n : Notice, n.DismissesReport ∧
      b.runCallback loop (.report i batch report) = b.log n := by
  have lost := InFlight.find?_of_not_mem gone
  cases report with
  | failed fault =>
    refine ⟨.failureUnknown w.id batch fault, trivial, ?_⟩
    have same : b.writers.set i w = b.writers := by
      obtain ⟨known, own⟩ := List.getElem?_eq_some_iff.1 hw
      rw [← own, List.set_getElem_self]
    simp [runCallback, receive, change, hw, Writer.reportFailed, lost, Writer.announce, perform,
      endCallback, same]
  | completed failed =>
    by_cases closed : w.closed = true
    · refine ⟨.completionAfterClose w.id batch, trivial, ?_⟩
      simp [runCallback, receive, hw, Writer.completionIgnored?, closed, endCallback]
    · refine ⟨.completionUnknown w.id batch, trivial, ?_⟩
      simp [runCallback, receive, hw, Writer.completionIgnored?, closed, lost, endCallback]

theorem runCallback_vain {callback : Callback} (vain : b.Vain callback) (loop : LoopName) :
    callback.IsReport ∧ (b.runCallback loop callback = b ∨
      ∃ n : Notice, n.DismissesReport ∧ b.runCallback loop callback = b.log n) := by
  cases callback with
  | report i batch report =>
    refine ⟨trivial, ?_⟩
    cases hw : b.writers[i]? with
    | some w => exact .inr (runCallback_report hw (vain w hw) loop report)
    | none =>
      refine .inl ?_
      cases report <;> simp [runCallback, receive, change, hw, endCallback]
  | _ => exact vain.elim

/-! The next callback. -/

def popped (b : Bench) (name : LoopName) (rest : List Callback) : Bench :=
  { b.setLoop name { b.loop name with ready := rest } with turn := name }

theorem writers_popped (b : Bench) (name : LoopName) (rest : List Callback) :
    (b.popped name rest).writers = b.writers := writers_setLoop _ _ _

theorem setLoop_turn {name : LoopName} (mine : name = b.turn) (l : EventLoop Callback) :
    { b.setLoop name l with turn := name } = b.setLoop name l := by
  cases name <;> simp [setLoop, mine]

/-- A loop has its turn, or the other one has nothing ready. -/
theorem nextCallback?_eq_some {name : LoopName} {callback : Callback} {next : Bench} :
    b.nextCallback? = some (name, callback, next) ↔
      ∃ rest, (b.loop name).ready = callback :: rest ∧
        (name = b.turn ∨ name = b.turn.other ∧ (b.loop b.turn).ready = []) ∧
        next = b.popped name rest := by
  unfold nextCallback? EventLoop.pop? popped
  cases own : (b.loop b.turn).ready with
  | cons first rest =>
    constructor
    · rintro ⟨⟩
      exact ⟨rest, own, .inl rfl, (setLoop_turn rfl _).symm⟩
    · rintro ⟨rest', ready, mine | ⟨-, none⟩, rfl⟩
      · subst mine
        rw [own] at ready
        cases ready
        rw [setLoop_turn rfl]
      · cases none
  | nil =>
    cases other : (b.loop b.turn.other).ready with
    | cons first rest =>
      constructor
      · rintro ⟨⟩
        exact ⟨rest, other, .inr ⟨rfl, rfl⟩, rfl⟩
      · rintro ⟨rest', ready, rfl | ⟨rfl, -⟩, rfl⟩
        · rw [own] at ready
          cases ready
        · rw [other] at ready
          cases ready
          rfl
    | nil =>
      constructor
      · rintro ⟨⟩
      · rintro ⟨rest', ready, rfl | ⟨rfl, -⟩, -⟩
        · rw [own] at ready
          cases ready
        · rw [other] at ready
          cases ready

theorem step_of_running {id : Nat} (h : b.running = some id) : b.step = some (b.proceed id) := by
  simp [step, h]

theorem step_of_next {name : LoopName} {callback : Callback} {next : Bench}
    (idle : b.running = none) (h : b.nextCallback? = some (name, callback, next)) :
    b.step = some (next.runCallback name callback) := by
  simp [step, idle, h]

/-! One move after another, from the last one on. -/

theorem Matches.of_past {ready : LoopName → List Callback} {trace : List Happening}
    (less : ∀ name, Thinned Callback.IsReport (b.loop name).ready (ready name))
    (told : Thinned Happening.DismissesReport b.trace trace) :
    Matches b (b.present.after ⟨ready, trace⟩) :=
  ⟨rfl, fun name => by rw [ready_present_after]; exact less name, told⟩

theorem ThinnedRun.refl (b : Bench) : ThinnedRun b b := by
  refine ⟨fun name => (b.loop name).ready, fun name => .refl _, fun trace told => ?_⟩
  refine ⟨trace, told, ?_⟩
  rw [present_after_ready]

/-- Both runs make the same move; what it takes off the ready queues, `back` puts back. The
reports that the move posts stay in the second run unless they turn out to be vain. -/
theorem ThinnedRun.both {x y : Bench} {p p' : Past} (bare : x.present = x)
    (back : (LoopName → List Callback) → LoopName → List Callback)
    (whole : p = ⟨back p'.ready, p'.trace⟩)
    (thins : ∀ ready, (∀ name, Thinned Callback.IsReport (p'.ready name) (ready name)) →
      ∀ name, Thinned Callback.IsReport (back p'.ready name) (back ready name))
    (kept : ∀ ready name, (y.loop name).closed = true ∨
      ∃ taken ≤ 1, (back ready name).drop taken = ready name)
    (apt : ∀ ready trace, (∀ name, Thinned Callback.IsReport (p'.ready name) (ready name)) →
      Apt (x.after ⟨back ready, trace⟩) (y.after ⟨ready, trace⟩))
    (rest : ThinnedRun (y.after p') e) : ThinnedRun (x.after p) e := by
  subst whole
  obtain ⟨ready, less, run⟩ := rest
  have parts : ∀ name, ∃ old new, ready name = old ++ new ∧
      Thinned Callback.IsReport (p'.ready name) old ∧
      Thinned Callback.IsReport (y.loop name).ready new := fun name => by
    have less := less name
    rw [ready_after] at less
    exact less.split
  choose old new joined older newer using parts
  refine ⟨back old, fun name => ?_, fun trace told => ?_⟩
  · rw [← bare, ready_present_after]
    exact thins old older name
  · rw [← bare, trace_present_after] at told
    have grown : Thinned Happening.DismissesReport (y.after p').trace (y.trace ++ trace) :=
      (Thinned.refl y.trace).append told
    obtain ⟨left, same, ahead⟩ := run _ grown
    have loses : Matches (y.after ⟨old, trace⟩) (y.present.after ⟨ready, y.trace ++ trace⟩) := by
      refine .of_past (b := y.after ⟨old, trace⟩) (fun name => ?_) (.refl _)
      rw [ready_after, joined]
      exact (Thinned.refl _).append (newer name)
    have keeps : Retains (x.present.after ⟨back old, trace⟩)
        (y.present.after ⟨ready, y.trace ++ trace⟩) := fun name => by
      refine (kept old name).imp (fun closed => ?_) fun ⟨taken, few, rest⟩ => ⟨taken, few, ?_⟩
      · cases name <;> exact closed
      · rw [ready_present_after, ready_present_after, rest]
        exact ⟨new name, (joined name).symm⟩
    refine ⟨left, same, .head (.both (apt p'.ready p'.trace fun _ => .refl _) ?_ loses rfl keeps
      (.of_past less grown)) ahead⟩
    rw [present_after, bare]
    exact apt old trace older

structure Dismissed (b : Bench) (name : LoopName) (b' : Bench) : Prop where
  present : b'.present = { b.present with turn := name }
  ready : ∀ other, (b'.loop other).ready =
    if other = name then (b.loop other).ready.tail else (b.loop other).ready
  trace : ∀ trace, Thinned Happening.DismissesReport b.trace trace →
    Thinned Happening.DismissesReport b'.trace trace

theorem dismissed_of_vain {name : LoopName} {callback : Callback} {tail : List Callback}
    (head : (b.loop name).ready = callback :: tail) (vain : b.Vain callback) :
    callback.IsReport ∧ Dismissed b name ((b.popped name tail).runCallback name callback) := by
  have popped : Dismissed b name (b.popped name tail) := by
    refine ⟨by cases name <;> rfl, fun other => ?_, fun trace told => by cases name <;> exact told⟩
    cases name <;> cases other <;> first | rfl | exact (congrArg List.tail head).symm
  have same : (b.popped name tail).Vain callback := by
    cases name <;> exact vain
  obtain ⟨report, nothing | ⟨n, dismisses, noticed⟩⟩ := runCallback_vain same name
  · rw [nothing]
    exact ⟨report, popped⟩
  · rw [noticed]
    refine ⟨report, popped.present, popped.ready, fun trace told => ?_⟩
    show Thinned _ (.noticed n :: (b.popped name tail).trace) trace
    exact .drop (by exact dismisses) (popped.trace trace told)

/-- The second run passes over a vain report, which it does not have. -/
theorem ThinnedRun.vain {name : LoopName} {callback : Callback} {next : Bench}
    (idle : b.running = none) (ready : b.nextCallback? = some (name, callback, next))
    (vain : b.Vain callback) (rest : ThinnedRun (next.runCallback name callback) e) :
    ThinnedRun b e := by
  obtain ⟨tail, head, -, same⟩ := nextCallback?_eq_some.1 ready
  have stepped := step_of_next idle ready
  rw [same] at rest stepped
  obtain ⟨report, dismissed⟩ := dismissed_of_vain head vain
  generalize (b.popped name tail).runCallback name callback = b' at rest stepped dismissed
  obtain ⟨left, less, run⟩ := rest
  refine ⟨left, fun other => ?_, fun trace told => ?_⟩
  · have less := less other
    rw [dismissed.ready] at less
    split at less
    · next own =>
      subst own
      rw [head] at less ⊢
      exact .drop report less
    · exact less
  · have shorter := dismissed.trace trace told
    obtain ⟨left', same, ahead⟩ := run trace shorter
    have turned : b'.present.after ⟨left, trace⟩ =
        { b.present.after ⟨left, trace⟩ with turn := name } := by
      rw [dismissed.present]
      rfl
    have matching := Matches.of_past less shorter
    rw [turned] at ahead matching
    exact ⟨left', same, .head (.vain idle ready vain stepped matching) ahead⟩

/-- A move that takes nothing off the ready queues does not look at what is behind it. -/
theorem Move.framed {p : Past} (m : Move (b.after p) b') :
    (b.after p).step = some b' ∨
      (∃ name, (b.after p).running = none ∧ b' = (b.after p).closeLoop name) ∨
      ∃ y : Bench, b' = y.after p ∧ ∀ q, Move (b.after q) (y.after q) := by
  have of : ∀ F : Bench → Bench, (∀ q, F (b.after q) = (F b).after q) →
      (∀ q, Move (b.after q) (F (b.after q))) → (b.after p).step = some (F (b.after p)) ∨
        (∃ name, (b.after p).running = none ∧ F (b.after p) = (b.after p).closeLoop name) ∨
        ∃ y : Bench, F (b.after p) = y.after p ∧ ∀ q, Move (b.after q) (y.after q) :=
    fun F frame moves => .inr (.inr ⟨F b, frame p, fun q => frame q ▸ moves q⟩)
  cases m with
  | step next => exact .inl next
  | closeLoop idle name => exact .inr (.inl ⟨name, idle, rfl⟩)
  | turn name => exact of (fun b => { b with turn := name }) (fun _ => rfl) fun _ => .turn name
  | @ring limit r time idle due =>
    exact of (fun b => Bench.ring { b with time } r) (fun q => ring_after q { b with time } r)
      fun q => Move.ring (b := b.after q) idle due
  | wait instant =>
    exact of (fun b => { b with time := b.time.moveTo instant }) (fun _ => rfl)
      fun _ => .wait instant
  | create name spec =>
    exact of (fun b => (b.create name spec).2) (fun q => by rw [create_after]; rfl)
      fun _ => .create name spec
  | @start label task program name known =>
    rw [programOf_after] at known
    exact of (fun b => b.start name (some label) program []) (fun q => start_after q b _ _ _ _)
      fun q => .start name (by rw [programOf_after, known])
  | endJobs label name destination =>
    exact of (fun b => b.start name (some label) (.shutDown destination) [])
      (fun q => start_after q b _ _ _ _) fun q => .endJobs label name destination
  | submitOutside idle destination entries label =>
    exact of (fun b => (b.submit destination none entries (.recorder label)).2)
      (fun q => by rw [submit_after]; rfl)
      fun q => Move.submitOutside (b := b.after q) idle destination entries label
  | interrupt id =>
    exact of (fun b => (b.interrupt id).2) (fun q => by rw [interrupt_after]; rfl)
      fun _ => .interrupt id
  | @tell handle fits report =>
    exact of (fun b => b.tellHandle handle report) (fun q => tellHandle_after q b _ _)
      fun q => Move.tell (b := b.after q) (by cases handle <;> exact fits) report
  | runJob destination job =>
    exact of (fun b => (b.runJob destination job).2) (fun q => by rw [runJob_after]; rfl)
      fun _ => .runJob destination job
  | cancelJob destination job =>
    exact of (fun b => (b.cancelJob destination job).2) (fun q => by rw [cancelJob_after]; rfl)
      fun _ => .cancelJob destination job
  | shutDown destination =>
    exact of (·.shutDown destination) (fun q => shutDown_after q b _)
      fun _ => .shutDown destination
  | subscribe bus name =>
    exact of (·.subscribe bus name) (fun q => subscribe_after q b _ _)
      fun _ => .subscribe bus name
  | unsubscribe bus name =>
    exact of (·.unsubscribe bus name) (fun q => unsubscribe_after q b _ _)
      fun _ => .unsubscribe bus name

/-! The kinds of moves, in both runs. -/

theorem ready_of_present {x : Bench} (bare : x.present = x) (name : LoopName) :
    (x.loop name).ready = [] := by
  rw [← bare]
  cases name <;> rfl

theorem ThinnedRun.framed {x y : Bench} {p : Past} (bare : x.present = x)
    (moves : ∀ q, Move (x.after q) (y.after q)) (rest : ThinnedRun (y.after p) e) :
    ThinnedRun (x.after p) e := by
  refine .both bare id rfl (fun _ less => less) (fun _ _ => .inr ⟨0, Nat.zero_le _, rfl⟩)
    (fun ready trace _ => .outside (moves _) fun name => ?_) rest
  rw [ready_after, ready_after, ready_of_present bare, List.append_nil]
  exact .inr (List.prefix_append _ _)

theorem ThinnedRun.running {x : Bench} {p : Past} {call : Nat} (bare : x.present = x)
    (runs : x.running = some call) (rest : ThinnedRun ((x.proceed call).after p) e) :
    ThinnedRun (x.after p) e := by
  refine .both bare id rfl (fun _ less => less) (fun _ _ => .inr ⟨0, Nat.zero_le _, rfl⟩)
    (fun ready trace _ => .step ?_ fun idle => ?_) rest
  · rw [step_of_running (by exact runs), proceed_after]
    rfl
  · rw [running_after, runs] at idle
    cases idle

theorem popped_after {x : Bench} {p : Past} (bare : x.present = x) (name : LoopName)
    (tail : List Callback) : (x.after p).popped name tail =
      after { x with turn := name } ⟨Function.update p.ready name tail, p.trace⟩ := by
  rw [← bare]
  cases name <;> simp [popped, setLoop, loop, after, present, Function.update_of_ne]

/-- A callback that is no vain report is the next one in both runs. -/
theorem ThinnedRun.callback {x : Bench} {p : Past} {name : LoopName} {callback : Callback}
    {tail : List Callback} (bare : x.present = x) (idle : x.running = none)
    (head : p.ready name = callback :: tail)
    (turn : name = x.turn ∨ name = x.turn.other ∧ p.ready x.turn = [])
    (matters : ¬ x.Vain callback)
    (rest : ThinnedRun (((x.after p).popped name tail).runCallback name callback) e) :
    ThinnedRun (x.after p) e := by
  rw [popped_after bare, runCallback_after] at rest
  refine .both bare (fun ready => Function.update ready name (callback :: ready name)) ?_
    (fun ready less other => ?_) (fun ready other => .inr ?_) (fun ready trace less => ?_) rest
  · simp [← head]
  · by_cases own : other = name
    · subst own
      simpa using Thinned.keep callback (less other)
    · simpa [own] using less other
  · by_cases own : other = name
    · subst own
      exact ⟨1, Nat.le_refl 1, by simp⟩
    · exact ⟨0, Nat.zero_le 1, by simp [own]⟩
  · have next : nextCallback? (x.after
        ⟨Function.update ready name (callback :: ready name), trace⟩) =
          some (name, callback, after { x with turn := name } ⟨ready, trace⟩) := by
      refine nextCallback?_eq_some.2 ⟨ready name, ?_, ?_, ?_⟩
      · simp [ready_of_present bare]
      · refine turn.imp_right fun ⟨other, waits⟩ => ⟨other, ?_⟩
        have another : x.turn ≠ name := by
          rw [other]
          cases x.turn <;> simp [LoopName.other]
        have less := less x.turn
        dsimp only at less
        rw [Function.update_of_ne another, waits] at less
        simp [turn_after, ready_of_present bare, Function.update_of_ne another, less.of_nil]
      · simp [popped_after bare]
    refine .step ?_ ?_
    · rw [step_of_next (by exact idle) next, runCallback_after]
    · intro _ _ _ _ known
      rw [next] at known
      cases known
      exact matters

theorem ThinnedRun.closing {x : Bench} {p : Past} {name : LoopName} (bare : x.present = x)
    (idle : x.running = none) (rest : ThinnedRun ((x.after p).closeLoop name) e) :
    ThinnedRun (x.after p) e := by
  rw [closeLoop_after] at rest
  refine .both bare (fun ready => Function.update ready name (p.ready name)) ?_
    (fun ready less other => ?_) (fun ready other => ?_) (fun ready trace less => ?_) rest
  · simp
  · by_cases own : other = name
    · subst own
      simpa using Thinned.refl _
    · simpa [own] using less other
  · by_cases own : other = name
    · subst own
      exact .inl (by cases other <;> rfl)
    · exact .inr ⟨0, Nat.zero_le 1, by simp [own]⟩
  · have dropped : ready name = [] := by
      have less := less name
      dsimp only at less
      rw [Function.update_self] at less
      exact less.of_nil
    have closes : (x.closeLoop name).after ⟨ready, trace⟩ =
        (x.after ⟨Function.update ready name (p.ready name), trace⟩).closeLoop name := by
      rw [closeLoop_after, Function.update_idem, ← dropped, Function.update_eq_self]
    rw [closes]
    refine .outside (.closeLoop (by exact idle) name) fun other => ?_
    by_cases own : other = name
    · subst own
      exact .inl (by cases other <;> rfl)
    · refine .inr ?_
      cases name <;> cases other <;> first | exact List.prefix_refl _ | exact absurd rfl own

theorem ThinnedRun.move (m : Move b b') (rest : ThinnedRun b' e) : ThinnedRun b e := by
  obtain ⟨x, p, bare, rfl⟩ : ∃ x p, x.present = x ∧ b = x.after p :=
    ⟨b.present, b.past, rfl, (present_after_past b).symm⟩
  rcases m.framed with next | ⟨name, idle, rfl⟩ | ⟨y, rfl, moves⟩
  · cases runs : x.running with
    | some id =>
      rw [step_of_running (by exact runs), proceed_after] at next
      exact .running bare runs (Option.some.inj next ▸ rest)
    | none =>
      have idle : (x.after p).running = none := runs
      rw [step, idle] at next
      obtain ⟨⟨name, callback, popped⟩, ready, rfl⟩ := Option.map_eq_some_iff.1 next
      by_cases vain : (x.after p).Vain callback
      · exact .vain idle ready vain rest
      · obtain ⟨tail, head, turn, rfl⟩ := nextCallback?_eq_some.1 ready
        simp only [ready_after, ready_of_present bare, List.append_nil] at head turn
        exact .callback bare runs head turn vain rest
  · exact .closing bare idle rest
  · exact .framed bare moves rest

theorem ThinnedRun.moves (moves : Moves b e) : ThinnedRun b e := by
  induction moves using Relation.ReflTransGen.head_induction_on with
  | refl => exact .refl e
  | head m _ ih => exact ih.move m

end Bench
end BatchWriter
