import BatchWriter.Handle.Session
import Mathlib.Data.List.Infix
import Mathlib.Logic.Function.Basic

/-!
# Reports through a handle

Callers have collections of their own, which they may change at any time, also between a call on
a handle and the turn of the loop in which the call is reported. The loop takes the reports one
by one, so that calls can come between any two of them. What is reported then is what was called
while the loop was open, in the order of the calls, with what each collection held when it was
handed over.
-/

set_option autoImplicit false

namespace BatchWriter.HandleSession

inductive SceneStep where
  /-- A caller changes what a collection of its own holds. -/
  | change (place : ℕ) (content : Value)
  /-- A caller, on whichever thread, hands over a collection of its own as what has failed. -/
  | call (place : ℕ)
  | fail (fault : Fault)
  /-- The loop runs the first callback that is ready. -/
  | turn
  /-- The loop runs all callbacks that are ready. -/
  | run
  | closeLoop
  | show

structure Scene where
  places : ℕ → Value
  handle : HandleSession
  /-- All callbacks that have run, in order: the batch that each was given, and the report. -/
  told : List (Value × Report) := []

def turn (s : HandleSession) : HandleSession :=
  match s.loop.pop? with
  | none => s
  | some (report, loop) => { s with got := s.got ++ [report], loop }

namespace Scene

def withHandle (w : Scene) (s : HandleSession) : Scene :=
  { w with handle := s, told := w.told ++ s.got.map (Prod.mk s.batch) }

def act (w : Scene) (d : SceneStep) : Except Fault Value × Scene :=
  let s := { w.handle with got := [], notices := [] }
  let through (a : HandleAct) := ((s.act a).1, w.withHandle (s.act a).2)
  match d with
  | .change place content =>
    (.ok .null, { w with handle := s, places := Function.update w.places place content })
  | .call place => through (.complete (w.places place))
  | .fail fault => through (.fail fault)
  | .turn => (.ok .null, w.withHandle s.turn)
  | .run => through .run
  | .closeLoop => through .closeLoop
  | .show => through .show

def after (batch : Value) (places : ℕ → Value) (steps : List SceneStep) : Scene :=
  steps.foldl (fun w d => (w.act d).2) { places, handle := { batch } }

end Scene

/-! ## What the steps amount to -/

namespace SceneStep

def isRun : SceneStep → Bool
  | .turn | .run => true
  | _ => false

def isClosing : SceneStep → Bool
  | .closeLoop => true
  | _ => false

def contents (places : ℕ → Value) : List SceneStep → ℕ → Value
  | [] => places
  | .change place content :: rest => contents (Function.update places place content) rest
  | _ :: rest => contents places rest

def report? (places : ℕ → Value) : SceneStep → Option Report
  | .call place => (places place).members?.map .completed
  | .fail fault => some (.failed fault)
  | _ => none

/-- The reports of the calls until the loop is closed, in order. -/
def reports (places : ℕ → Value) : List SceneStep → List Report
  | [] => []
  | d :: rest =>
    if d.isClosing then []
    else (d.report? places).toList ++ reports (contents places [d]) rest

def Closed (steps : List SceneStep) : Prop := ∃ d ∈ steps, d.isClosing = true

end SceneStep

open SceneStep

/-- The laws of a handle of some batch, after any steps. -/
structure Delivers (batch : Value) (places : ℕ → Value) : Prop where
  /-- Callbacks run only in a turn of the loop, and never once it is closed. -/
  only_in_turns : ∀ past d, d.isRun = false ∨ Closed past →
    (Scene.after batch places (past ++ [d])).told = (Scene.after batch places past).told
  /-- Those that have run are the first ones, each once, in order, with what was handed over. -/
  in_order : ∀ steps,
    (Scene.after batch places steps).told <+: (reports places steps).map (Prod.mk batch)
  turn : ∀ past, ¬ Closed past → (Scene.after batch places (past ++ [.turn])).told =
    ((reports places past).map (Prod.mk batch)).take
      ((Scene.after batch places past).told.length + 1)
  run : ∀ past, ¬ Closed past →
    (Scene.after batch places (past ++ [.run])).told = (reports places past).map (Prod.mk batch)
  /-- What cannot be gone through is refused, on an open loop as on a closed one. -/
  refuses : ∀ past place, (contents places past place).members? = none →
    let done := (Scene.after batch places past).act (.call place)
    (∃ fault, done.1 = .error fault ∧ fault.kind = "TypeError") ∧
      done.2.handle.loop = (Scene.after batch places past).handle.loop ∧
      done.2.handle.notices = []
  schedules : ∀ past d report, ¬ Closed past → d.report? (contents places past) = some report →
    let done := (Scene.after batch places past).act d
    done.1 = .ok .null ∧
      done.2.handle.loop.ready = (Scene.after batch places past).handle.loop.ready ++ [report] ∧
      done.2.handle.notices = []
  /-- Once the loop is closed a call is lost, with one warning. -/
  drops : ∀ past d report, Closed past → d.report? (contents places past) = some report →
    let done := (Scene.after batch places past).act d
    done.1 = .ok .null ∧
      done.2.handle.loop = (Scene.after batch places past).handle.loop ∧
      done.2.handle.notices = [.completionDropped batch] ∧
      (Notice.completionDropped batch).severity = .warning

/-! ## Steps, one after the other -/

variable {batch : Value} {places : ℕ → Value} {past steps : List SceneStep} {d : SceneStep}

namespace SceneStep

theorem contents_append (steps rest : List SceneStep) :
    contents places (steps ++ rest) = contents (contents places steps) rest := by
  induction steps generalizing places with
  | nil => rfl
  | cons d steps ih => cases d <;> exact ih

theorem closed_snoc : Closed (past ++ [d]) ↔ Closed past ∨ d.isClosing = true := by
  simp [Closed, or_and_right, exists_or]

theorem closed_cons {rest : List SceneStep} :
    Closed (d :: rest) ↔ d.isClosing = true ∨ Closed rest := by
  simp [Closed]

theorem reports_snoc_of_closed (h : Closed past) :
    reports places (past ++ [d]) = reports places past := by
  induction past generalizing places with
  | nil =>
    obtain ⟨_, member, -⟩ := h
    cases member
  | cons first past ih =>
    rw [List.cons_append, reports, reports]
    rcases closed_cons.1 h with closing | later
    · rw [if_pos closing, if_pos closing]
    · rw [ih later]

theorem reports_snoc_of_open (h : ¬ Closed past) :
    reports places (past ++ [d]) =
      reports places past ++ (d.report? (contents places past)).toList := by
  induction past generalizing places with
  | nil => cases d <;> simp [reports, contents, isClosing, report?]
  | cons first past ih =>
    obtain ⟨stays, rest⟩ := not_or.1 (mt closed_cons.2 h)
    rw [List.cons_append, reports, reports, if_neg stays, if_neg stays, ih rest, List.append_assoc,
      ← contents_append]
    rfl

end SceneStep

/-! ## The scene beside its steps -/

namespace Scene

variable {w : Scene}

theorem after_snoc : after batch places (past ++ [d]) = ((after batch places past).act d).2 := by
  rw [after, List.foldl_append]
  rfl

structure Agrees (batch : Value) (places : ℕ → Value) (past : List SceneStep)
    (w : Scene) : Prop where
  own : w.handle.batch = batch
  contents : w.places = contents places past
  closed : w.handle.loop.closed = true ↔ Closed past
  /-- While the loop is open every report has been told or is ready. -/
  waiting : ¬ Closed past →
    w.told ++ w.handle.loop.ready.map (Prod.mk batch) = (reports places past).map (Prod.mk batch)
  idle : Closed past → w.handle.loop.ready = []
  first : w.told <+: (reports places past).map (Prod.mk batch)

namespace Agrees

/-- After a step on an open loop that has told and queued what it should. -/
theorem onward (h : Agrees batch places past w) (isOpen : ¬ Closed past) {w' : Scene}
    (stays : d.isClosing = false) (own : w'.handle.batch = w.handle.batch)
    (contents : w'.places = SceneStep.contents w.places [d])
    (closed : w'.handle.loop.closed = false)
    (moved : w'.told ++ w'.handle.loop.ready.map (Prod.mk batch) =
      w.told ++ w.handle.loop.ready.map (Prod.mk batch) ++
        (d.report? w.places).toList.map (Prod.mk batch)) :
    Agrees batch places (past ++ [d]) w' := by
  have still : ¬ Closed (past ++ [d]) := by simp [closed_snoc, isOpen, stays]
  have all : w'.told ++ w'.handle.loop.ready.map (Prod.mk batch) =
      (reports places (past ++ [d])).map (Prod.mk batch) := by
    rw [moved, h.waiting isOpen, reports_snoc_of_open isOpen, List.map_append, h.contents]
  exact ⟨own.trans h.own, by rw [contents, contents_append, h.contents],
    iff_of_false (by simp [closed]) still, fun _ => all, fun shut => absurd shut still,
    ⟨_, all⟩⟩

/-- After the loop was closed, and after a step on a closed one. -/
theorem shut (h : Agrees batch places past w) {w' : Scene} (gone : Closed (past ++ [d]))
    (own : w'.handle.batch = w.handle.batch)
    (contents : w'.places = SceneStep.contents w.places [d])
    (closed : w'.handle.loop.closed = true) (none : w'.handle.loop.ready = [])
    (told : w'.told = w.told) : Agrees batch places (past ++ [d]) w' := by
  refine ⟨own.trans h.own, by rw [contents, contents_append, h.contents],
    iff_of_true closed gone, fun isOpen => absurd gone isOpen, fun _ => none, ?_⟩
  by_cases before : Closed past
  · rw [told, reports_snoc_of_closed before]
    exact h.first
  · rw [told, reports_snoc_of_open before, List.map_append]
    exact h.first.trans (List.prefix_append _ _)

end Agrees

/-! ## One step -/

theorem act_report {report : Report} (h : d.report? w.places = some report) :
    w.act d = (.ok .null,
    w.withHandle ({ w.handle with got := [], notices := [] }.tell report)) := by
  cases d with
  | call place =>
    obtain ⟨members, listed, rfl⟩ := Option.map_eq_some_iff.1 h
    simp [act, HandleSession.act, Value.asMembers, listed]
  | fail fault =>
    cases h
    rfl
  | _ => cases h

theorem act_refused {place : ℕ} (h : (w.places place).members? = none) :
    w.act (.call place) = (.error (.notCollection (w.places place).typeName),
      w.withHandle { w.handle with got := [], notices := [] }) := by
  simp [act, HandleSession.act, Value.asMembers, h]

theorem tell_of_closed {s : HandleSession} (h : s.loop.closed = true) (report : Report) :
    s.tell report = { s with notices := s.notices ++ [.completionDropped s.batch] } := if_pos h

theorem tell_of_open {s : HandleSession} (h : s.loop.closed = false) (report : Report) :
    s.tell report = { s with loop := { s.loop with ready := s.loop.ready ++ [report] } } := by
  simp [tell, EventLoop.post, h]

theorem turn_nil {s : HandleSession} (h : s.loop.ready = []) : s.turn = s := by
  simp [turn, EventLoop.pop?, h]

theorem turn_cons {s : HandleSession} {report : Report} {rest : List Report}
    (h : s.loop.ready = report :: rest) :
    s.turn = { s with got := s.got ++ [report], loop := { s.loop with ready := rest } } := by
  simp [turn, EventLoop.pop?, h]

/-- What every step does to a scene: reports are queued or told, none is lost before the loop is
closed. -/
structure Moves (d : SceneStep) (w w' : Scene) : Prop where
  own : w'.handle.batch = w.handle.batch
  contents : w'.places = SceneStep.contents w.places [d]
  closed : w'.handle.loop.closed = (w.handle.loop.closed || d.isClosing)
  queued : w'.handle.loop.closed = false →
    w'.told ++ w'.handle.loop.ready.map (Prod.mk w.handle.batch) =
      w.told ++ w.handle.loop.ready.map (Prod.mk w.handle.batch) ++
        (d.report? w.places).toList.map (Prod.mk w.handle.batch)
  shut : w'.handle.loop.closed = true → (w.handle.loop.closed = true → w.handle.loop.ready = []) →
    w'.handle.loop.ready = [] ∧ w'.told = w.told
  quiet : d.isRun = false → w'.told = w.told

theorem act_moves : Moves d w (w.act d).2 := by
  cases reported : d.report? w.places with
  | some report =>
    have shape : SceneStep.contents w.places [d] = w.places ∧ d.isClosing = false := by
      cases d <;> first | exact ⟨rfl, rfl⟩ | cases reported
    rw [act_report reported]
    cases closed : w.handle.loop.closed with
    | true =>
      rw [tell_of_closed (by exact closed)]
      refine ⟨rfl, shape.1.symm, ?_, ?_, fun _ none => ⟨none closed, ?_⟩, fun _ => ?_⟩ <;>
        simp [withHandle, closed]
    | false =>
      rw [tell_of_open (by exact closed)]
      refine ⟨rfl, shape.1.symm, ?_, ?_, ?_, fun _ => ?_⟩ <;>
        simp [withHandle, closed, shape.2, reported]
  | none =>
    cases d with
    | change place content => 
      refine ⟨rfl, rfl, ?_, ?_, fun closed none => ⟨none closed, rfl⟩, fun _ => rfl⟩ <;>
        simp [act, isClosing, report?]
    | call place =>
      rw [act_refused (by simpa [report?] using reported)]
      refine ⟨rfl, rfl, ?_, ?_, fun closed none => ⟨none closed, ?_⟩, fun _ => ?_⟩ <;>
        simp [withHandle, isClosing, reported]
    | fail fault => cases reported
    | turn =>
      cases ready : w.handle.loop.ready with
      | nil =>
        rw [act, turn_nil (by exact ready)]
        refine ⟨rfl, rfl, ?_, ?_, ?_, fun run => by cases run⟩ <;>
          simp [withHandle, isClosing, report?, ready]
      | cons report rest =>
        rw [act, turn_cons (by exact ready)]
        refine ⟨rfl, rfl, ?_, ?_, fun closed none => ?_, fun run => by cases run⟩
        · simp [withHandle, isClosing]
        · simp [withHandle, report?, ready]
        · cases ready.symm.trans (none closed)
    | run =>
      refine ⟨rfl, rfl, ?_, ?_, fun closed none => ?_, fun run => by cases run⟩
      · simp [act, withHandle, HandleSession.act, isClosing]
      · simp [act, withHandle, HandleSession.act, report?]
      · simp [act, withHandle, HandleSession.act, none closed]
    | closeLoop =>
      refine ⟨rfl, rfl, ?_, ?_, ?_, fun _ => ?_⟩ <;>
        simp [act, withHandle, HandleSession.act, EventLoop.close, isClosing]
    | «show» =>
      refine ⟨rfl, rfl, ?_, ?_, fun closed none => ⟨none closed, ?_⟩, fun _ => ?_⟩ <;>
        simp [act, withHandle, HandleSession.act, isClosing, report?]

theorem Agrees.act (h : Agrees batch places past w) (d : SceneStep) :
    Agrees batch places (past ++ [d]) (w.act d).2 := by
  have moves := act_moves (d := d) (w := w)
  have closed : (w.act d).2.handle.loop.closed = true ↔ Closed (past ++ [d]) := by
    rw [moves.closed, Bool.or_eq_true, h.closed, closed_snoc]
  refine ⟨moves.own.trans h.own, ?_, closed, fun isOpen => ?_, fun gone => ?_, ?_⟩
  · rw [moves.contents, contents_append, h.contents]
  · have before : ¬ Closed past := fun shut => isOpen (closed_snoc.2 (.inl shut))
    have queued := moves.queued (Bool.eq_false_iff.2 (mt closed.1 isOpen))
    rw [h.own, h.waiting before, h.contents] at queued
    rw [queued, reports_snoc_of_open before, List.map_append]
  · exact (moves.shut (closed.2 gone) fun shut => h.idle (h.closed.1 shut)).1
  · by_cases gone : Closed (past ++ [d])
    · rw [(moves.shut (closed.2 gone) fun shut => h.idle (h.closed.1 shut)).2]
      by_cases before : Closed past
      · rw [reports_snoc_of_closed before]
        exact h.first
      · rw [reports_snoc_of_open before, List.map_append]
        exact h.first.trans (List.prefix_append _ _)
    · have before : ¬ Closed past := fun shut => gone (closed_snoc.2 (.inl shut))
      have queued := moves.queued (Bool.eq_false_iff.2 (mt closed.1 gone))
      rw [h.own, h.waiting before, h.contents, ← List.map_append,
        ← reports_snoc_of_open before] at queued
      exact ⟨_, queued⟩

theorem agrees_after (batch : Value) (places : ℕ → Value) (steps : List SceneStep) :
    Agrees batch places steps (after batch places steps) := by
  induction steps using List.reverseRecOn with
  | nil =>
    have isOpen : ¬ Closed [] := by simp [Closed]
    exact ⟨rfl, rfl, iff_of_false (by simp [after]) isOpen, fun _ => rfl,
      fun gone => absurd gone isOpen, List.nil_prefix⟩
  | append_singleton past d ih =>
    rw [after_snoc]
    exact ih.act d

end Scene

open Scene

/-- A handle delivers: what is called while the loop is open is told by the loop, in order, once,
as it was when it was called. -/
theorem handles_deliver (batch : Value) (places : ℕ → Value) : Delivers batch places where
  only_in_turns past d outside := by
    rw [after_snoc]
    rcases outside with quiet | gone
    · exact act_moves.quiet quiet
    · have h := agrees_after batch places past
      have closed := h.closed.2 gone
      refine (act_moves.shut ?_ fun _ => h.idle gone).2
      rw [act_moves.closed, closed, Bool.true_or]
  in_order steps := (agrees_after _ _ steps).first
  turn past isOpen := by
    have h := agrees_after batch places past
    rw [after_snoc, ← h.waiting isOpen]
    cases ready : (after batch places past).handle.loop.ready with
    | nil =>
      rw [Scene.act, turn_nil (by exact ready)]
      simp [withHandle]
    | cons report rest =>
      rw [Scene.act, turn_cons (by exact ready)]
      simp [withHandle, h.own, List.take_append]
  run past isOpen := by
    have h := agrees_after batch places past
    rw [after_snoc, ← h.waiting isOpen]
    simp [Scene.act, withHandle, HandleSession.act, h.own]
  refuses past place none := by
    have h := agrees_after batch places past
    rw [← h.contents] at none
    rw [act_refused none]
    exact ⟨⟨_, rfl, rfl⟩, rfl, rfl⟩
  schedules past d report isOpen reported := by
    have h := agrees_after batch places past
    rw [← h.contents] at reported
    have opened := Bool.eq_false_iff.2 (mt h.closed.1 isOpen)
    rw [act_report reported, tell_of_open (by exact opened)]
    exact ⟨rfl, rfl, rfl⟩
  drops past d report gone reported := by
    have h := agrees_after batch places past
    rw [← h.contents] at reported
    have closed := h.closed.2 gone
    rw [act_report reported, tell_of_closed (by exact closed)]
    refine ⟨rfl, rfl, ?_, rfl⟩
    simp [withHandle, h.own]

end BatchWriter.HandleSession
