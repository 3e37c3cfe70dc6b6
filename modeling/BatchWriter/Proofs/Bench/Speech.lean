import BatchWriter.Proofs.Bench.Full
import BatchWriter.Proofs.Bench.NothingSaid

/-!
# What a write says

Each point of a write says what it does: it publishes an event, or it has its element converted
and appends the entry, or it says nothing. What it says is in the writer's history afterwards and
moves the meters, and where the write goes on from there depends on what it has found.
-/

set_option autoImplicit false

namespace BatchWriter

def Doing.told : Doing → Bool
  | .converted _ => false
  | _ => true

namespace Writer

/-- What a write is to say at this point, by what it finds there. -/
def utters (w : Writer) (job : WriteJob) : WritePoint → List Doing
  | .gate blocked =>
    if w.buffer.isFull then
      if !blocked && !w.hasCapacity then [.published (w.event .hard "buffer_full")] else []
    else if blocked then [.published (w.event .ok "recovered")]
    else []
  | .flush _ =>
    if w.hasCapacity then [] else [.published (w.event .soft "in_flight_limit")]
  | .accept =>
    match w.conversion job with
    | .ok entry => [.converted (.ok entry), .appended entry]
    | .error fault => [.converted (.error fault)]
  | _ => []

inductive Says (w : Writer) (job : WriteJob) : WritePoint → Doing → Prop where
  | blocked {reason : String} (full : w.buffer.isFull = true) (busy : w.hasCapacity = false) :
      Says w job (.gate false) (.published (w.event .hard reason))
  | recovered {reason : String} (room : w.buffer.isFull = false) :
      Says w job (.gate true) (.published (w.event .ok reason))
  | held {stage : Stage} {reason : String} (busy : w.hasCapacity = false) :
      Says w job (.flush stage) (.published (w.event .soft reason))
  | converted : Says w job .accept (.converted (w.conversion job))
  | appended {entry : Value} (converts : w.conversion job = .ok entry) :
      Says w job .accept (.appended entry)

theorem says_of_mem {w : Writer} {job : WriteJob} {point : WritePoint} {d : Doing}
    (said : d ∈ w.utters job point) : w.Says job point d := by
  cases point with
  | gate blocked =>
    rw [utters] at said
    split at said
    · next full =>
      split at said
      · next unknown =>
        simp only [Bool.and_eq_true, Bool.not_eq_true'] at unknown
        obtain ⟨rfl, busy⟩ := unknown
        exact List.mem_singleton.1 said ▸ .blocked full busy
      · cases said
    · next room =>
      split at said
      · next was =>
        subst was
        exact List.mem_singleton.1 said ▸ .recovered (by simpa using room)
      · cases said
  | flush stage =>
    rw [utters] at said
    split at said
    · cases said
    · next busy => exact List.mem_singleton.1 said ▸ .held (by simpa using busy)
  | accept =>
    rw [utters] at said
    split at said
    · next entry converts =>
      rcases List.mem_pair.1 said with rfl | rfl
      · exact converts ▸ .converted
      · exact .appended converts
    · next fault converts =>
      rw [List.mem_singleton.1 said, ← converts]
      exact .converted
  | _ => cases said

inductive Follows (w : Writer) (job : WriteJob) : WritePoint → WritePoint → Prop where
  | enters (some : job.elements ≠ []) : Follows w job .start (.gate false)
  | blocked (full : w.buffer.isFull = true) (busy : w.hasCapacity = false) :
      Follows w job (.gate false) (.flush (.filling true))
  | full {blocked : Bool} (full : w.buffer.isFull = true)
      (known : blocked = true ∨ w.hasCapacity = true) :
      Follows w job (.gate blocked) (.flush (.filling blocked))
  | clear {blocked : Bool} (room : w.buffer.isFull = false) : Follows w job (.gate blocked) .accept
  | held {stage : Stage} (busy : w.hasCapacity = false) : Follows w job (.flush stage) (.slot stage)
  | free {stage : Stage} (room : w.hasCapacity = true) :
      Follows w job (.flush stage) (.dispatch stage)
  | found {stage : Stage} : Follows w job (.slot stage) (.dispatch stage)
  | waits {stage : Stage} : Follows w job (.slot stage) (.woken stage)
  | woken {stage : Stage} : Follows w job (.woken stage) (.slot stage)
  | sent {stage : Stage} : Follows w job (.dispatch stage) stage.next
  | accepted {entry : Value} (converts : w.conversion job = .ok entry) :
      Follows w job .accept .batching
  | more : Follows w job .batching (.flush .batching)
  | hearing {d d' : Delivery} {next : WritePoint} :
      Follows w job (.publishing d next) (.publishing d' next)
  | heard {d : Delivery} {next : WritePoint} : Follows w job (.publishing d next) next

end Writer

namespace WriteJob

def Same (job job' : WriteJob) : Prop := job' = { job with published := job'.published }

def next (job : WriteJob) : WriteJob :=
  { job with elements := job.elements.drop 1, written := job.written + 1, published := [] }

end WriteJob

namespace Bench

open Writer (SaysNothing Follows)

variable {b b' b'' : Bench} {id i : ℕ} {w u : Writer} {loop : LoopName} {job : WriteJob}
  {point : WritePoint} {said : List Doing} {label : String}

/-! ## What is told and counted -/

structure Tells (i : ℕ) (label : String) (said : List Doing) (b b' : Bench) : Prop where
  doings : ∀ j, (b'.historyOf j).doings =
    (b.historyOf j).doings ++ if j = i then said.filter Doing.told else []
  meters : ∀ other k, b'.metrics.meter other k =
    b.metrics.meter other k + if other = label then said.countP (Doing.moves k) else 0

namespace Tells

theorem of_nothingSaid (h : NothingSaid b b') (i : ℕ) (label : String) : Tells i label [] b b' where
  doings j := by
    rw [h.doings]
    simp
  meters other k := by
    rw [h.meters]
    simp

theorem andThen (h : Tells i label said b b') (h' : NothingSaid b' b'') :
    Tells i label said b b'' where
  doings j := by rw [h'.doings, h.doings]
  meters other k := by rw [h'.meters, h.meters]

theorem change (hw : b.writers[i]? = some w) {f : Writer → Change}
    (doings : (f w).writer.history.doings = w.history.doings ++ said.filter Doing.told)
    (meters : ∀ k, (f w).effects.countP (Effect.moves k) = said.countP (Doing.moves k)) :
    Tells i w.label said b (b.change i f).2 where
  doings j := by
    rw [historyOf_change hw]
    split
    · next same => rw [doings, same, historyOf_eq hw]
    · rw [List.append_nil]
  meters other k := by rw [meter_change hw, meters]

end Tells

theorem doings_publishLevel (hw : b.writers[job.writer]? = some w) (u : Writer) (level : Level)
    (reason : String) (next : WritePoint) :
    (∀ j, ((b.publishLevel job u level reason next).1.historyOf j).doings =
      (b.historyOf j).doings ++
        if j = job.writer then [.published (u.event level reason)] else []) ∧
      (b.publishLevel job u level reason next).1.metrics = b.metrics := by
  have beside := Beside.publication (b.change job.writer fun v =>
    .stay (v.note b.now (.announced (u.event level reason)))).2 (u.bus.getD "global")
    (u.event level reason)
  refine ⟨fun j => ?_, ?_⟩
  · show (historyOf (publication _ _ _).1 j).doings = _
    rw [(NothingSaid.beside beside).doings, historyOf_change hw]
    split
    · next same =>
      rw [same, historyOf_eq hw]
      exact History.doings_cons rfl _
    · rw [List.append_nil]
  · exact beside.metrics.trans (by simp [Bench.change, hw, Change.stay])

theorem tells_holdBack (hw : b.writers[job.writer]? = some w) (reason : WaitReason)
    (text : String) (next : WritePoint) :
    Tells job.writer w.label [.published (w.event reason.level text)] b
      ((b.change job.writer (·.holdBack reason)).2.publishLevel job w reason.level
        text next).1 := by
  have found : (b.change job.writer (·.holdBack reason)).2.writers[job.writer]? = some w :=
    writer_change hw _
  obtain ⟨doings, metrics⟩ := doings_publishLevel found w reason.level text next
  refine ⟨fun j => ?_, fun other k => ?_⟩
  · rw [doings, historyOf_change hw]
    split
    · next same =>
      rw [same, historyOf_eq hw]
      rfl
    · rfl
  · rw [metrics, meter_change hw]
    cases k with
    | written => rfl
    | held known =>
      have same : (reason = known) ↔ (reason.level = known.level) := by
        cases reason <;> cases known <;> simp [WaitReason.level]
      simp [Writer.holdBack, Writer.measure, Writer.announce, Change.andThen, Effect.moves,
        Measurement.moves, Doing.moves, Writer.event, same, List.countP_cons]

theorem tells_recovered (hw : b.writers[job.writer]? = some w) (text : String)
    (next : WritePoint) : Tells job.writer w.label [.published (w.event .ok text)] b
      (b.publishLevel job w .ok text next).1 := by
  obtain ⟨doings, metrics⟩ := doings_publishLevel hw w .ok text next
  refine ⟨doings, fun other k => ?_⟩
  rw [metrics]
  cases k with
  | written => simp [Doing.moves]
  | held reason => cases reason <;> simp [Doing.moves, Writer.event, WaitReason.level]

theorem tells_accept (hw : b.writers[i]? = some w) (entry : Value) :
    Tells i w.label [.converted (.ok entry), .appended entry] b
      (b.change i (·.accept b.now entry)).2 := by
  have timed := SaysNothing.armTimerIf (Writer.measure .written (Writer.note b.now (.accepted entry)
    { w with buffer := w.buffer.append entry })).writer w.buffer.isEmpty
  refine .change hw ?_ fun k => ?_
  · rw [Writer.accept, Change.writer_andThen rfl, timed.doings]
    exact History.doings_cons rfl _
  · have none := List.countP_eq_zero.2 fun e he => by simpa using timed.still e he k
    rw [Writer.accept, Change.effects_andThen rfl, List.countP_append, none]
    cases k <;> rfl

theorem tells_writeStep (hw : b.writers[job.writer]? = some w) (id : ℕ) (loop : LoopName)
    (point : WritePoint) : Tells job.writer w.label (w.utters job point) b
      (b.writeStep id loop job point).1 := by
  cases point with
  | start =>
    refine .of_nothingSaid ?_ _ _
    simp only [writeStep, writeStart]
    split
    · exact .refl b
    · exact .change fun w _ => (SaysNothing.bind w loop).andThen (.checkUsable _)
  | gate blocked =>
    rw [writeStep, writeGate, withWriter_some hw, Writer.utters]
    split
    · split
      · exact tells_holdBack hw .bufferFull _ _
      · exact .of_nothingSaid (.refl b) _ _
    · split
      · exact tells_recovered hw _ _
      · exact .of_nothingSaid (.refl b) _ _
  | flush stage =>
    rw [writeStep, writeFlush, withWriter_some hw, Writer.utters]
    split
    · exact .of_nothingSaid (.refl b) _ _
    · exact tells_holdBack hw .inFlightLimit _ _
  | slot stage =>
    refine .of_nothingSaid ?_ _ _
    rw [writeStep, writeSlot, withWriter_some hw]
    split
    · exact .refl b
    · exact .waitForChange _ _ _ _ _
  | woken stage => exact .of_nothingSaid (.afterWaiting _ _ _ _) _ _
  | dispatch stage => exact .of_nothingSaid (.dispatch _ _ _) _ _
  | accept =>
    rw [writeStep, writeAccept, withWriter_some hw, Writer.utters]
    cases w.conversion job with
    | error fault => exact ⟨fun j => by simp [Doing.told], fun other k => by simp [Doing.moves]⟩
    | ok entry => exact tells_accept hw entry
  | batching =>
    refine .of_nothingSaid ?_ _ _
    rw [writeStep, writeBatching, withWriter_some hw]
    split
    · exact .refl b
    · exact .change fun w _ => .showGauges w
  | publishing d next => exact .of_nothingSaid (.attend _ _) _ _

/-! ## Where a write goes on -/

/-- The write is at a point that follows, perhaps after subscribers were told of what it has just
said, or it has done with its element. -/
def Proceeds (w : Writer) (job : WriteJob) (point : WritePoint) (q : Program) : Prop :=
  (∃ job' point' next, q = .write job' point' ∧ job.Same job' ∧ w.Follows job point next ∧
      (point' = next ∨ w.utters job point ≠ [] ∧ ∃ d, point' = .publishing d next)) ∨
    point = .batching ∧ q = .write job.next .start

theorem Proceeds.to {next : WritePoint} (follows : w.Follows job point next) :
    Proceeds w job point (.write job next) :=
  .inl ⟨job, next, next, rfl, rfl, follows, .inl rfl⟩

/-- What comes of a point is grounded: wherever the write goes on it has found a reason for
it, and it returns only when it has no element left. -/
def Grounded (w : Writer) (job : WriteJob) (point : WritePoint) (progress : Progress) : Prop :=
  (∀ q, progress.program? = some q → Proceeds w job point q) ∧
    ∀ result, progress = .finish (.ok result) → point = .start ∧ job.elements = []

theorem Grounded.go {q : Program} (proceeds : Proceeds w job point q) {progress : Progress}
    (leads : progress.program? = some q) : Grounded w job point progress := by
  refine ⟨fun other same => ?_, fun result ends => ?_⟩
  · rw [leads, Option.some.injEq] at same
    exact same ▸ proceeds
  · rw [ends] at leads
    cases leads

theorem Grounded.stop (fault : Fault) : Grounded w job point (.stop fault) := by
  refine ⟨fun q leads => ?_, fun result ends => ?_⟩
  · cases leads
  · cases ends

theorem Grounded.finish (start : point = .start) (none : job.elements = []) (result : Value) :
    Grounded w job point (.finish (.ok result)) := by
  refine ⟨fun q leads => ?_, fun _ _ => ⟨start, none⟩⟩
  cases leads

theorem Grounded.goUnless {q : Program} (proceeds : Proceeds w job point q)
    (fault : Option Fault) : Grounded w job point (.goUnless fault q) := by
  cases fault with
  | none => exact .go proceeds rfl
  | some fault => exact .stop fault

theorem Grounded.publishLevel {next : WritePoint} (follows : w.Follows job point next)
    (said : w.utters job point ≠ []) (b : Bench) (u : Writer) (level : Level) (reason : String) :
    Grounded w job point (b.publishLevel job u level reason next).2 := by
  rw [Bench.publishLevel]
  dsimp only
  split
  · refine .go ?_ rfl
    exact .inl ⟨_, _, _, rfl, rfl, follows, .inl rfl⟩
  · refine .go ?_ rfl
    exact .inl ⟨_, _, _, rfl, rfl, follows, .inr ⟨said, _, rfl⟩⟩

theorem grounded_writeGate (hw : b.writers[job.writer]? = some w) (blocked : Bool) :
    Grounded w job (.gate blocked) (b.writeGate job blocked).2 := by
  rw [writeGate, withWriter_some hw]
  split
  · next full =>
    split
    · next unknown =>
      have said : w.utters job (.gate blocked) ≠ [] := by simp [Writer.utters, full, unknown]
      simp only [Bool.and_eq_true, Bool.not_eq_true'] at unknown
      rw [unknown.1] at said ⊢
      exact .publishLevel (.blocked full unknown.2) said _ _ _ _
    · next known =>
      have known : blocked = true ∨ w.hasCapacity = true := by
        simpa [or_iff_not_imp_left] using known
      exact .go (.to (.full full known)) rfl
  · next room =>
    have room : w.buffer.isFull = false := by simpa using room
    split
    · next was =>
      exact .publishLevel (.clear room) (by simp [Writer.utters, room, was]) _ _ _ _
    · exact .go (.to (.clear room)) rfl

theorem grounded_writeStep (hw : b.writers[job.writer]? = some w) :
    Grounded w job point (b.writeStep id loop job point).2 := by
  cases point with
  | start =>
    rw [writeStep, writeStart]
    split
    · next none => exact .finish rfl none _
    · next some => exact .goUnless (.to (.enters some)) _
  | gate blocked => exact grounded_writeGate hw blocked
  | flush stage =>
    rw [writeStep, writeFlush, withWriter_some hw]
    split
    · next room => exact .go (.to (.free room)) rfl
    · next busy =>
      have busy : w.hasCapacity = false := by simpa using busy
      exact .publishLevel (.held busy) (by simp [Writer.utters, busy]) _ _ _ _
  | slot stage =>
    rw [writeStep, writeSlot, withWriter_some hw]
    split
    · exact .go (.to .found) rfl
    · rw [waitForChange]
      dsimp only
      cases (b.change job.writer _).1 with
      | none => exact .go (.to .waits) rfl
      | some fault => exact .stop fault
  | woken stage => exact .goUnless (.to .woken) _
  | dispatch stage => exact .goUnless (.to .sent) _
  | accept =>
    rw [writeStep, writeAccept, withWriter_some hw]
    split
    · exact .stop _
    · next entry accepted => exact .goUnless (.to (.accepted accepted)) _
  | batching =>
    rw [writeStep, writeBatching, withWriter_some hw]
    split
    · exact .go (.to .more) rfl
    · exact .goUnless (.inr ⟨rfl, rfl⟩) _
  | publishing d next =>
    rw [writeStep, writePublishing]
    dsimp only
    split
    · exact .go (.to .hearing) rfl
    · exact .go (.to .hearing) rfl
    · exact .go (.to .hearing) rfl
    · exact .go (.to .heard) rfl
    · exact .stop _

/-- Wherever a write is after one of its points, it has found a reason for it. -/
theorem proceeds_writeStep (hw : b.writers[job.writer]? = some w) {q : Program}
    (leads : (b.writeStep id loop job point).2.program? = some q) : Proceeds w job point q :=
  (grounded_writeStep hw).1 q leads

theorem returns_writeStep (hw : b.writers[job.writer]? = some w) {result : Value}
    (returns : (b.writeStep id loop job point).2 = .finish (.ok result)) :
    point = .start ∧ job.elements = [] :=
  (grounded_writeStep hw).2 result returns

end Bench
end BatchWriter
