import BatchWriter.Bench.Basic
import BatchWriter.Proofs.Writer.Dispatch
import BatchWriter.Proofs.Writer.Lawful

/-!
# Twins

A writer that went on and one that was built from what the first one had left are twins: they
differ in the numbers of their batches, by how many the first one had issued by then, and in what
was noted before. Whatever is done to one of them does the same to the other.
-/

set_option autoImplicit false

namespace BatchWriter

/-! Batches under numbers that are higher by as many as were issued before. -/

def Fault.shifted (n : Nat) : Fault → Fault
  | .submission batch cause => .submission (batch + n) cause
  | .destination batch entries cause => .destination (batch + n) entries cause
  | .timeout batch entries limit => .timeout (batch + n) entries limit
  | other => other

def Notice.shifted (n : Nat) : Notice → Notice
  | .dispatching writer batch entries inFlight => .dispatching writer (batch + n) entries inFlight
  | .completionAfterClose writer batch => .completionAfterClose writer (batch + n)
  | .completionUnknown writer batch => .completionUnknown writer (batch + n)
  | .requeued writer count entries batch => .requeued writer count entries (batch + n)
  | .failureUnknown writer batch fault => .failureUnknown writer (batch + n) fault
  | .failed writer fault => .failed writer (fault.shifted n)
  | .completionDropped (.number (.int batch)) => .completionDropped (.number (.int (batch + n)))
  | other => other

def Milestone.shifted (n : Nat) : Milestone → Milestone
  | .opened batch entries => .opened (batch + n) entries
  | .handed batch entries => .handed (batch + n) entries
  | .refused batch entries => .refused (batch + n) entries
  | .completed batch entries failed => .completed (batch + n) entries failed
  | .reportedFailed batch entries => .reportedFailed (batch + n) entries
  | .expired batch entries => .expired (batch + n) entries
  | .abandoned batch entries => .abandoned (batch + n) entries
  | other => other

def History.shifted (n : Nat) (h : History) : History := h.map fun e => (e.1, e.2.shifted n)

def WriterAlarm.shifted (n : Nat) : WriterAlarm → WriterAlarm
  | .flush => .flush
  | .expire batch => .expire (batch + n)

def Effect.shifted (n : Nat) : Effect → Effect
  | .notice line => .notice (line.shifted n)
  | .setAlarm alarm delay => .setAlarm (alarm.shifted n) delay
  | .cancelAlarm alarm => .cancelAlarm (alarm.shifted n)
  | other => other

def Request.shifted {α : Type} (n : Nat) (r : Request α) : Request α := { r with id := r.id + n }

namespace Fault

variable (n : Nat) (f : Fault)

@[simp] theorem kind_shifted : (f.shifted n).kind = f.kind := by cases f <;> rfl

@[simp] theorem isCancelled_shifted : (f.shifted n).isCancelled = f.isCancelled := by
  simp [isCancelled]

@[simp] theorem isDestination_shifted : (f.shifted n).isDestination = f.isDestination := by
  simp [isDestination]

@[simp] theorem shifted_zero : f.shifted 0 = f := by cases f <;> rfl

/-- What is no ordinary fault carries no number. -/
theorem shifted_of_passing {f : Fault} (passes : f.isOrdinary = false) : f.shifted n = f := by
  have failing : (!passingKinds.contains "DestinationError") = true := by decide
  have late : (!passingKinds.contains "InFlightTimeoutError") = true := by decide
  cases f with
  | submission _ _ | destination _ _ _ => exact nomatch failing.symm.trans passes
  | timeout _ _ _ => exact nomatch late.symm.trans passes
  | _ => rfl

theorem shifted_of_delay {limit : Number} {f : Fault}
    (refused : limit.delayMilliseconds = .error f ∨
    limit.delaySeconds = .error f) : f.shifted n = f := by
  have clock : ∀ x, delayMicroseconds x = .error f → f.shifted n = f := by
    intro x refused
    unfold delayMicroseconds at refused
    dsimp only at refused
    split at refused <;> cases refused
    rfl
  unfold Number.delayMilliseconds Number.delaySeconds at refused
  cases known : limit.toBinary64? with
  | some x =>
    rw [known] at refused
    exact refused.elim (clock _) (clock _)
  | none =>
    rw [known] at refused
    rcases refused with refused | refused
    all_goals
      cases refused
      rfl

/-- A number of entries that is refused has nothing to do with a batch either. -/
theorem shifted_of_take {α : Type} {b : Buffer α} {limit : Number} {f : Fault}
    (refused : b.take limit = .error f) : f.shifted n = f := by
  rw [Buffer.take_error refused]
  rfl

end Fault

@[simp] theorem WriterAlarm.shifted_zero (a : WriterAlarm) : a.shifted 0 = a := by cases a <;> rfl

@[simp] theorem Milestone.shifted_zero (m : Milestone) : m.shifted 0 = m := by cases m <;> rfl

@[simp] theorem History.shifted_zero (h : History) : h.shifted 0 = h := by
  simp [History.shifted]

theorem Notice.shifted_zero (n : Notice) : n.shifted 0 = n := by
  unfold Notice.shifted
  split <;> simp

theorem Effect.shifted_zero (e : Effect) : e.shifted 0 = e := by
  cases e <;> simp [Effect.shifted, Notice.shifted_zero]

theorem WriterAlarm.shifted_inj {n : Nat} {a a' : WriterAlarm} (h : a.shifted n = a'.shifted n) :
    a = a' := by
  cases a <;> cases a' <;> simp_all [WriterAlarm.shifted]

namespace InFlight

variable {α : Type} (n : Nat) (t : InFlight α)

def shifted : InFlight α :=
  { t with issued := t.issued + n, requests := t.requests.map (Request.shifted n) }

@[simp] theorem count_shifted : (t.shifted n).count = t.count := by simp [count, shifted]

@[simp] theorem shifted_zero : t.shifted 0 = t := by
  have same : Request.shifted 0 = (fun r : Request α => r) := rfl
  simp [shifted, same]

@[simp] theorem hasCapacity_shifted : (t.shifted n).hasCapacity = t.hasCapacity := by
  simp [hasCapacity, shifted, count]

theorem find?_shifted (id : Nat) :
    (t.shifted n).find? (id + n) = (t.find? id).map (Request.shifted n) := by
  simp only [find?, shifted, List.find?_map]
  congr 2
  funext r
  simp [Request.shifted]

theorem remove_shifted (id : Nat) : (t.shifted n).remove (id + n) = (t.remove id).shifted n := by
  simp only [remove, shifted, List.filter_map]
  congr 3
  funext r
  simp [Request.shifted, bne]

theorem update_shifted (id : Nat) {f : Request α → Request α}
    (same : ∀ r, f (Request.shifted n r) = Request.shifted n (f r)) :
    (t.shifted n).update (id + n) f = (t.update id f).shifted n := by
  simp only [update, shifted, List.map_map]
  congr 2
  funext r
  by_cases own : r.id = id
  · simpa [Request.shifted, own] using same r
  · simp [Request.shifted, own]

end InFlight

namespace Writer

/-- In what a writer that went on differs from one that was built to go on in its place. -/
structure Kinship where
  /-- How many batches the first one had issued by then. -/
  shift : Nat := 0
  /-- The loop to which it was bound. -/
  home : Option LoopName := none
  /-- What had become of it. -/
  past : History := []
  /-- What became of the second one before it was a twin. -/
  start : History := []

/-- The second writer stands for the first one. It may still be free where the first one is
bound, as long as it has neither an alarm to set nor a batch under way. -/
structure Twins (k : Kinship) (w w' : Writer) : Prop where
  id : w.id = w'.id
  config : w.config = w'.config
  converter : w.converter = w'.converter
  destination : w.destination = w'.destination
  bus : w.bus = w'.bus
  buffer : w.buffer = w'.buffer
  waiters : w.waiters = w'.waiters
  armed : w.timerArmed = w'.timerArmed
  deferred : w.deferred = w'.deferred
  closed : w.closed = w'.closed
  inFlight : w.inFlight = w'.inFlight.shifted k.shift
  failure : w.failure = w'.failure.map (Fault.shifted k.shift)
  history : ∃ since : History, w.history = since.shifted k.shift ++ k.past ∧
    w'.history = since ++ k.start
  loop : w.loop = w'.loop ∨ w'.loop = none ∧ w.loop = k.home ∧
    w'.config.maxTimeInBuffer = none ∧ w'.inFlight.requests = []

structure ChangeTwins (k : Kinship) (c c' : Change) : Prop where
  writer : Twins k c.writer c'.writer
  effects : c.effects = c'.effects.map (Effect.shifted k.shift)
  fault : c.fault = c'.fault.map (Fault.shifted k.shift)

variable {k : Kinship} {w w' : Writer} {c c' : Change}

/-! ## What twins have in common -/

namespace Twins

theorem refl (w : Writer) : Twins {} w w where
  id := rfl
  config := rfl
  converter := rfl
  destination := rfl
  bus := rfl
  buffer := rfl
  waiters := rfl
  armed := rfl
  deferred := rfl
  closed := rfl
  inFlight := (InFlight.shifted_zero _).symm
  failure := by cases w.failure <;> simp
  history := ⟨w.history, by simp, by simp⟩
  loop := .inl rfl

/-- Twins that have nothing behind them are one. -/
theorem eq (h : Twins {} w w') : w = w' := by
  have loop : w.loop = w'.loop := h.loop.elim (fun same => same) fun free =>
    free.2.1.trans free.1.symm
  have inFlight : w.inFlight = w'.inFlight := h.inFlight.trans (InFlight.shifted_zero _)
  have failure : w.failure = w'.failure := by
    rw [h.failure]
    cases w'.failure <;> simp
  have history : w.history = w'.history := by
    obtain ⟨since, own, other⟩ := h.history
    rw [own, other]
    simp
  obtain ⟨id, config, converter, destination, bus, buffer, waiters, armed, deferred, closed⟩ := h
  cases w
  cases w'
  congr

section Common

variable (h : Twins k w w')
include h

theorem label : w.label = w'.label := congrArg Value.display h.id

theorem count : w.inFlight.count = w'.inFlight.count := by
  rw [h.inFlight, InFlight.count_shifted]

theorem hasCapacity : w.hasCapacity = w'.hasCapacity := by
  rw [Writer.hasCapacity, h.inFlight, InFlight.hasCapacity_shifted, Writer.hasCapacity]

theorem hasFullBatch : w.hasFullBatch = w'.hasFullBatch := by
  rw [Writer.hasFullBatch, Writer.hasFullBatch, h.config, h.buffer]

theorem isBusy : w.isBusy = w'.isBusy := by
  rw [Writer.isBusy, Writer.isBusy, h.count, h.buffer]

theorem flushIsDue : w.flushIsDue = w'.flushIsDue := by
  rw [Writer.flushIsDue, Writer.flushIsDue, h.deferred, h.buffer]

theorem refusal? : w.refusal? = w'.refusal?.map (Fault.shifted k.shift) := by
  unfold Writer.refusal?
  rw [h.closed, h.failure, h.id]
  split <;> rfl

theorem event (level : Level) (reason : String) : w.event level reason = w'.event level reason := by
  unfold Writer.event
  rw [h.id, h.config, h.buffer, h.count]

theorem find? (batch : Nat) : w.inFlight.find? (batch + k.shift) =
    (w'.inFlight.find? batch).map (Request.shifted k.shift) := by
  rw [h.inFlight, InFlight.find?_shifted]

theorem completionIgnored? (batch : Nat) : w.completionIgnored? (batch + k.shift) =
    (w'.completionIgnored? batch).map (Notice.shifted k.shift) := by
  unfold Writer.completionIgnored?
  rw [h.closed, h.find?, Option.isNone_map, h.id]
  split
  · rfl
  · split <;> rfl

theorem noted (now : Nat) (m : Milestone) :
    Twins k (w.note now (m.shifted k.shift)) (w'.note now m) := by
  obtain ⟨since, own, other⟩ := h.history
  exact { h with history := ⟨(now, m) :: since, congrArg _ own, congrArg _ other⟩ }

theorem same_loop {limit : Number} (limited : w'.config.maxTimeInBuffer = some limit) :
    w.loop = w'.loop :=
  h.loop.resolve_right fun free => by
    rw [limited] at free
    cases free.2.2.1

end Common

end Twins

/-! ## Changes -/

namespace ChangeTwins

theorem andThen {next next' : Writer → Change} (h : ChangeTwins k c c')
    (each : Twins k c.writer c'.writer → ChangeTwins k (next c.writer) (next' c'.writer)) :
    ChangeTwins k (c.andThen next) (c'.andThen next') := by
  unfold Change.andThen
  rw [h.fault]
  cases c'.fault with
  | some fault => exact h
  | none =>
    have after := each h.writer
    refine ⟨after.writer, ?_, after.fault⟩
    show c.effects ++ (next c.writer).effects = _
    rw [h.effects, after.effects, ← List.map_append]

theorem stay (h : Twins k w w') : ChangeTwins k (.stay w) (.stay w') := ⟨h, rfl, rfl⟩

theorem stop (h : Twins k w w') {fault fault' : Fault} (same : fault = fault'.shifted k.shift) :
    ChangeTwins k (.stop w fault) (.stop w' fault') :=
  ⟨h, rfl, congrArg some same⟩

theorem announce (h : Twins k w w') {n n' : Notice} (same : n = n'.shifted k.shift) :
    ChangeTwins k (w.announce n) (w'.announce n') := by
  subst same
  exact ⟨h, rfl, rfl⟩

theorem measure (h : Twins k w w') (m : Measurement) : ChangeTwins k (w.measure m) (w'.measure m) :=
  ⟨h, rfl, rfl⟩

theorem showGauges (h : Twins k w w') : ChangeTwins k w.showGauges w'.showGauges := by
  unfold Writer.showGauges
  rw [h.buffer, h.count]
  exact .measure h _

theorem checkUsable (h : Twins k w w') : ChangeTwins k w.checkUsable w'.checkUsable := by
  unfold Writer.checkUsable
  rw [h.refusal?]
  cases w'.refusal? with
  | some fault => exact .stop h rfl
  | none => exact .stay h

theorem armTimer (h : Twins k w w') : ChangeTwins k w.armTimer w'.armTimer := by
  have limits : w.config.maxTimeInBuffer = w'.config.maxTimeInBuffer := by rw [h.config]
  unfold Writer.armTimer
  rw [limits]
  cases limited : w'.config.maxTimeInBuffer with
  | none => exact .stay h
  | some limit =>
    have idle : (w.timerArmed || w.loop.isNone || w.closed) =
        (w'.timerArmed || w'.loop.isNone || w'.closed) := by
      rw [h.armed, h.same_loop limited, h.closed]
    dsimp only
    rw [idle]
    by_cases set : (w'.timerArmed || w'.loop.isNone || w'.closed) = true
    · rw [if_pos set, if_pos set]
      exact .stay h
    · rw [if_neg set, if_neg set]
      cases delayed : limit.delayMilliseconds with
      | error fault => exact .stop h (Fault.shifted_of_delay _ (.inl delayed)).symm
      | ok delay => exact ⟨by exact { h with armed := rfl }, rfl, rfl⟩

theorem armTimerIf (h : Twins k w w') {condition condition' : Bool}
    (same : condition = condition') :
    ChangeTwins k (w.armTimerIf condition) (w'.armTimerIf condition') := by
  subst same
  cases condition with
  | true => exact .armTimer h
  | false => exact .stay h

theorem cancelTimer (h : Twins k w w') : ChangeTwins k w.cancelTimer w'.cancelTimer :=
  ⟨{ h with deferred := rfl, armed := rfl }, rfl, rfl⟩

theorem notify (h : Twins k w w') : ChangeTwins k w.notify w'.notify := by
  refine ⟨{ h with waiters := rfl }, ?_, rfl⟩
  show w.waiters.map Effect.wake = (w'.waiters.map Effect.wake).map _
  rw [h.waiters, List.map_map]
  rfl

theorem addWaiter (h : Twins k w w') (call : Nat) :
    ChangeTwins k (w.addWaiter call) (w'.addWaiter call) :=
  .stay { h with waiters := congrArg (· ++ [call]) h.waiters }

theorem dropWaiter (h : Twins k w w') (call : Nat) :
    ChangeTwins k (w.dropWaiter call) (w'.dropWaiter call) :=
  .stay { h with waiters := congrArg (List.filter (· ≠ call)) h.waiters }

theorem keepFailure (h : Twins k w w') (fault : Fault) :
    ChangeTwins k (w.keepFailure (fault.shifted k.shift)) (w'.keepFailure fault) := by
  unfold Writer.keepFailure
  rw [h.failure]
  cases failed : w'.failure with
  | some first => exact .stay h
  | none =>
    have kept : Twins k { w with failure := some (fault.shifted k.shift) }
        { w' with failure := some fault } := { h with failure := rfl }
    exact .announce kept (by rw [h.id]; rfl)

theorem recordFailure (h : Twins k w w') (fault : Fault) :
    ChangeTwins k (w.recordFailure (fault.shifted k.shift)) (w'.recordFailure fault) :=
  (((keepFailure h fault).andThen .cancelTimer).andThen .showGauges).andThen .notify

theorem release (h : Twins k w w') (batch : Nat) :
    ChangeTwins k (w.release (batch + k.shift)) (w'.release batch) := by
  refine ⟨{ h with inFlight := ?_, loop := h.loop.imp_right ?_ }, rfl, rfl⟩
  · show w.inFlight.remove (batch + k.shift) = _
    rw [h.inFlight, InFlight.remove_shifted]
    rfl
  · rintro ⟨free, home, untimed, none⟩
    refine ⟨free, home, untimed, ?_⟩
    show w'.inFlight.requests.filter _ = []
    rw [none]
    rfl

theorem holdBack (h : Twins k w w') (reason : WaitReason) :
    ChangeTwins k (w.holdBack reason) (w'.holdBack reason) := by
  unfold Writer.holdBack
  refine (measure h _).andThen fun after => .announce after ?_
  rw [h.id, h.buffer, h.config, h.count]
  rfl

/-- A twin that is free comes to the loop to which the other one is bound. -/
theorem bind (h : Twins k w w') {loop : LoopName} (fits : w.loop = w'.loop ∨ w.loop = some loop) :
    ChangeTwins k (w.bind loop) (w'.bind loop) ∧
      (w.bind loop).writer.loop = (w'.bind loop).writer.loop := by
  have comes : ∀ u : Writer, u.loop = none →
      u.bind loop = Writer.armTimerIf (!u.buffer.isEmpty) { u with loop := some loop } := by
    intro u free
    rw [Writer.bind, free]
  have stays : ∀ (u : Writer) (condition : Bool),
      (Writer.armTimerIf condition { u with loop := some loop }).writer.loop = some loop := by
    intro u condition
    obtain ⟨armed, writer⟩ := writer_armTimerIf { u with loop := some loop } condition
    exact congrArg Writer.loop writer
  by_cases same : w.loop = w'.loop
  · cases bound : w'.loop with
    | none =>
      rw [comes w (same.trans bound), comes w' bound]
      have came : Twins k { w with loop := some loop } { w' with loop := some loop } :=
        { h with loop := .inl rfl }
      exact ⟨.armTimerIf came (by rw [h.buffer]), (stays _ _).trans (stays _ _).symm⟩
    | some own =>
      rw [Writer.bind, Writer.bind, same, bound]
      dsimp only
      split
      · exact ⟨.stay h, same⟩
      · exact ⟨.stop h (by rw [h.id]; rfl), same⟩
  · have own := fits.resolve_left same
    obtain ⟨free, -, untimed, -⟩ := h.loop.resolve_left same
    have came : Twins k w { w' with loop := some loop } := { h with loop := .inl own }
    have arms : w'.bind loop = .stay { w' with loop := some loop } := by
      rw [comes w' free]
      cases (!w'.buffer.isEmpty) with
      | false => rfl
      | true => simp [Writer.armTimerIf, Writer.armTimer, untimed]
    rw [bind_of_bound own, arms]
    exact ⟨.stay came, own⟩

/-! ### The life of a batch -/

theorem accept (h : Twins k w w') (now : Nat) (entry : Value) :
    ChangeTwins k (w.accept now entry) (w'.accept now entry) := by
  have appended : Twins k { w with buffer := w.buffer.append entry }
      { w' with buffer := w'.buffer.append entry } :=
    { h with buffer := congrArg (·.append entry) h.buffer }
  unfold Writer.accept
  exact (measure (appended.noted now (.accepted entry)) _).andThen fun after =>
    .armTimerIf after (by rw [h.buffer])

theorem startTimeout (h : Twins k w w') (same : w.loop = w'.loop) (batch : Nat) :
    ChangeTwins k (w.startTimeout (batch + k.shift)) (w'.startTimeout batch) := by
  have limits : w.config.requestTimeout = w'.config.requestTimeout := by rw [h.config]
  unfold Writer.startTimeout
  rw [limits]
  cases w'.config.requestTimeout with
  | none => exact .stay h
  | some limit =>
    cases delayed : limit.delaySeconds with
    | error fault =>
      simp only [delayed]
      exact .stop h (Fault.shifted_of_delay _ (.inr delayed)).symm
    | ok delay =>
      simp only [delayed]
      have timed : w.inFlight.update (batch + k.shift) (fun r => { r with timed := true }) =
          (w'.inFlight.update batch fun r => { r with timed := true }).shifted k.shift := by
        rw [h.inFlight]
        exact InFlight.update_shifted _ _ _ fun _ => rfl
      exact ⟨by exact { h with inFlight := timed, loop := .inl same }, rfl, rfl⟩

theorem openBatch (h : Twins k w w') (same : w.loop = w'.loop) (now : Nat) (entries : List Value) :
    ChangeTwins k (w.openBatch now entries) (w'.openBatch now entries) := by
  have number : (w.inFlight.openBatch entries now).1.id =
      (w'.inFlight.openBatch entries now).1.id + k.shift := by
    simp only [InFlight.openBatch, h.inFlight, InFlight.shifted]
    omega
  have opened : Twins k { w with inFlight := (w.inFlight.openBatch entries now).2 }
      { w' with inFlight := (w'.inFlight.openBatch entries now).2 } := by
    refine { h with inFlight := ?_, loop := .inl same }
    simp only [InFlight.openBatch, h.inFlight, InFlight.shifted, Request.shifted, List.map_append,
      List.map_cons, List.map_nil]
    congr 1
    · omega
    · congr 3
      omega
  unfold Writer.openBatch
  dsimp only
  rw [number]
  have timed := startTimeout
    (opened.noted now (.opened (w'.inFlight.openBatch entries now).1.id entries)) same
    (w'.inFlight.openBatch entries now).1.id
  refine (timed.andThen fun after => .measure after (.batch entries.length)).andThen
    fun after => .announce after ?_
  rw [after.id, after.count]
  rfl

end ChangeTwins

def Parcel.shifted (n : Nat) (p : Parcel) : Parcel := { p with batch := p.batch + n }

theorem twins_startDispatch (h : Twins k w w') {loop : LoopName} (now : Nat)
    (fits : w.loop = w'.loop ∨ w.loop = some loop) :
    ChangeTwins k (w.startDispatch loop now).1 (w'.startDispatch loop now).1 ∧
      (w.startDispatch loop now).2 =
        (w'.startDispatch loop now).2.map (Parcel.shifted k.shift) := by
  have size : w.config.maxBatchSize = w'.config.maxBatchSize := by rw [h.config]
  unfold Writer.startDispatch
  rw [h.refusal?]
  cases w'.refusal? with
  | some fault => exact ⟨.stop h rfl, rfl⟩
  | none =>
    dsimp only [Option.map_none]
    rw [h.buffer, size]
    cases taken : w'.buffer.take w'.config.maxBatchSize with
    | error fault => exact ⟨.stop h (Fault.shifted_of_take _ taken).symm, rfl⟩
    | ok parts =>
      obtain ⟨entries, rest⟩ := parts
      have left : Twins k { w with buffer := rest, deferred := w.deferred && !rest.isEmpty }
          { w' with buffer := rest, deferred := w'.deferred && !rest.isEmpty } :=
        { h with buffer := rfl, deferred := congrArg (· && !rest.isEmpty) h.deferred }
      dsimp only
      split
      · exact ⟨.stay left, rfl⟩
      · obtain ⟨bound, same⟩ := ChangeTwins.bind left fits
        have opened := bound.andThen (fun after => .openBatch after same now entries)
        refine ⟨opened, ?_⟩
        rw [opened.fault, bound.writer.inFlight]
        cases (((Writer.bind loop { w' with buffer := rest, deferred := _ })).andThen
          (Writer.openBatch now entries)).fault with
        | some fault => rfl
        | none => 
          simp [Parcel.shifted, InFlight.shifted]
          omega

theorem issued_startDispatch {loop : LoopName} {now : Nat} {parcel : Parcel}
    (handed : (w.startDispatch loop now).2 = some parcel) :
    parcel.batch ≤ (w.startDispatch loop now).1.writer.inFlight.issued := by
  have counts : ∀ (u : Writer) (entries : List Value),
      u.inFlight.issued + 1 ≤ (u.openBatch now entries).writer.inFlight.issued := by
    intro u entries
    unfold Writer.openBatch
    refine Change.keeps_andThen (P := fun v => u.inFlight.issued + 1 ≤ v.inFlight.issued) ?_
      fun _ kept => kept
    refine Change.keeps_andThen (P := fun v => u.inFlight.issued + 1 ≤ v.inFlight.issued) ?_
      fun _ kept => kept
    exact (regular_startTimeout (note now (.opened (u.inFlight.issued + 1) entries)
      { u with inFlight := (u.inFlight.openBatch entries now).2 }) _).later.issued
  unfold Writer.startDispatch at handed ⊢
  split at handed
  · cases handed
  · split at handed
    · cases handed
    · dsimp only at handed ⊢
      split at handed
      · cases handed
      · next some =>
        rw [if_neg some]
        split at handed
        · next opened =>
          rw [← Option.some.inj handed]
          cases bound : ((bind loop { w with buffer := _, deferred := _ }).fault) with
          | none =>
            rw [Change.writer_andThen bound]
            exact counts _ _
          | some fault =>
            rw [Change.andThen_of_fault bound, bound] at opened
            cases opened
        · cases handed

theorem Lawful.numbered (h : w.Lawful) : ∀ id ∈ w.inFlight.ids, 0 < id := by
  refine h.keeps (P := fun u => ∀ id ∈ u.inFlight.ids, 0 < id) (fun u new => ?_) ?_
  · have tracker := new.tracker
    unfold InFlight.ofLimit at tracker
    split at tracker
    · cases tracker
    · rw [← Except.ok.inj tracker]
      exact fun id hm => by cases hm
  · intro u v episode numbered
    cases episode with
    | silent _ quiet => rwa [quiet.ids]
    | told _ _ _ same => rwa [same]
    | accepted _ _ _ _ _ ids | handed _ _ _ _ _ _ _ _ ids => rwa [ids]
    | opened _ _ _ _ _ _ _ _ ids =>
      rw [ids]
      intro id hm
      rcases List.mem_append.1 hm with hm | hm
      · exact numbered id hm
      · rw [List.mem_singleton.1 hm]
        omega
    | completed _ _ _ _ _ _ _ _ ids | lost _ _ _ _ _ _ _ _ ids =>
      rw [ids]
      exact fun id hm => numbered id (List.mem_of_mem_filter hm)
    | closed _ _ _ _ _ ids =>
      rw [ids]
      exact fun id hm => by cases hm

/-- The first twin has none of the batches of before. -/
theorem Twins.find?_past (h : Twins k w w') (lawful : w'.Lawful) {batch : Nat}
    (past : batch ≤ k.shift) : w.inFlight.find? batch = none := by
  refine InFlight.find?_of_not_mem fun hm => ?_
  rw [h.inFlight] at hm
  obtain ⟨r, hr, number⟩ := List.mem_map.1 hm
  obtain ⟨r', hr', rfl⟩ := List.mem_map.1 hr
  have positive := lawful.numbered r'.id (List.mem_map.2 ⟨r', hr', rfl⟩)
  have same : r'.id + k.shift = batch := number
  omega

namespace ChangeTwins

theorem emptyBatch (h : Twins k w w') (batch : Nat) :
    ChangeTwins k (w.emptyBatch (batch + k.shift)) (w'.emptyBatch batch) := by
  refine .stay { h with inFlight := ?_, loop := h.loop.imp_right ?_ }
  · show w.inFlight.update (batch + k.shift) _ = _
    rw [h.inFlight]
    exact InFlight.update_shifted _ _ _ fun _ => rfl
  · rintro ⟨free, home, untimed, none⟩
    refine ⟨free, home, untimed, ?_⟩
    show w'.inFlight.requests.map _ = []
    rw [none]
    rfl

theorem concludeDispatch (h : Twins k w w') (now : Nat) (parcel : Parcel) (refusal : Option Fault) :
    ChangeTwins k (w.concludeDispatch now (parcel.shifted k.shift) refusal)
      (w'.concludeDispatch now parcel refusal) := by
  have handed := h.noted now (.handed parcel.batch parcel.entries)
  unfold Writer.concludeDispatch
  cases refusal with
  | none => exact .showGauges handed
  | some fault =>
    dsimp only
    split
    · have refused := release (handed.noted now (.refused parcel.batch parcel.entries)) parcel.batch
      have recorded := (refused.andThen fun after =>
        .recordFailure after (.submission parcel.batch fault)).andThen .showGauges
      exact ⟨recorded.writer, recorded.effects, rfl⟩
    · next passing =>
      have shown := showGauges handed
      refine ⟨shown.writer, shown.effects, ?_⟩
      rw [Option.map_some, Fault.shifted_of_passing _ (by simpa using passing)]

theorem requeue (h : Twins k w w') (batch size : Nat) (failed : List Value) :
    ChangeTwins k (w.requeue (batch + k.shift) size failed) (w'.requeue batch size failed) := by
  have back : Twins k { w with buffer := w.buffer.prepend failed }
      { w' with buffer := w'.buffer.prepend failed } :=
    { h with buffer := congrArg (·.prepend failed) h.buffer }
  unfold Writer.requeue
  split
  · exact .stay h
  · refine ((measure back _).andThen fun after => .announce after ?_).andThen fun after => ?_
    · rw [h.id]
      rfl
    · exact .armTimerIf after (by rw [h.buffer])

theorem complete (h : Twins k w w') (now batch : Nat) (failed : List Value) :
    ChangeTwins k (w.complete now (batch + k.shift) failed) (w'.complete now batch failed) := by
  unfold Writer.complete
  rw [h.find?]
  cases w'.inFlight.find? batch with
  | none => exact .stay h
  | some request =>
    have ended := release (h.noted now (.completed batch request.entries failed)) batch
    exact (ended.andThen fun after => .measure after _).andThen fun after => .requeue after _ _ _

theorem beginDeferredFlush (h : Twins k w w') :
    ChangeTwins k w.beginDeferredFlush w'.beginDeferredFlush := .stay { h with deferred := rfl }

theorem beginTimedFlush (h : Twins k w w') (now : Nat) :
    ChangeTwins k (w.beginTimedFlush now) (w'.beginTimedFlush now) :=
  .announce (h.noted now .flushed) (by rw [h.id, h.buffer]; rfl)

theorem endTimedFlush (h : Twins k w w') : ChangeTwins k w.endTimedFlush w'.endTimedFlush := by
  exact (notify h).andThen fun after => .armTimerIf after (by rw [after.buffer])

theorem endCompletion (h : Twins k w w') : ChangeTwins k w.endCompletion w'.endCompletion :=
  (showGauges h).andThen .notify

theorem reportFailed (h : Twins k w w') (now batch : Nat) (fault : Fault) :
    ChangeTwins k (w.reportFailed now (batch + k.shift) fault)
    (w'.reportFailed now batch fault) := by
  unfold Writer.reportFailed
  rw [h.find?]
  cases w'.inFlight.find? batch with
  | none => exact .announce h (by rw [h.id]; rfl)
  | some request =>
    have ended := release (h.noted now (.reportedFailed batch request.entries)) batch
    exact ended.andThen fun after =>
      .recordFailure after (.destination batch request.entries.length fault)

theorem expire (h : Twins k w w') (now batch : Nat) :
    ChangeTwins k (w.expire now (batch + k.shift)) (w'.expire now batch) := by
  have limits : w.config.requestTimeout = w'.config.requestTimeout := by rw [h.config]
  unfold Writer.expire
  rw [h.find?, limits]
  cases w'.inFlight.find? batch with
  | none => exact .stay h
  | some request =>
    cases w'.config.requestTimeout with
    | none => exact .stay h
    | some limit =>
      have ended := release (h.noted now (.expired batch request.entries)) batch
      exact ended.andThen fun after =>
        .recordFailure after (.timeout batch request.entries.length limit)

theorem bufferTimeOver (h : Twins k w w') :
    ChangeTwins k w.bufferTimeOver.1 w'.bufferTimeOver.1 ∧
      w.bufferTimeOver.2 = w'.bufferTimeOver.2 := by
  have rung : Twins k { w with timerArmed := false } { w' with timerArmed := false } :=
    { h with armed := rfl }
  have idle : (w.closed || w.failure.isSome || w.buffer.isEmpty) =
      (w'.closed || w'.failure.isSome || w'.buffer.isEmpty) := by
    rw [h.closed, h.failure, h.buffer, Option.isSome_map]
  have room := rung.hasCapacity
  unfold Writer.bufferTimeOver
  dsimp only
  rw [idle, room]
  split
  · exact ⟨.stay rung, rfl⟩
  · split
    · exact ⟨.stay rung, rfl⟩
    · have left : Twins k { w with timerArmed := false, deferred := true }
          { w' with timerArmed := false, deferred := true } := { rung with deferred := rfl }
      exact ⟨announce left (congrArg Notice.flushDeferred h.id), rfl⟩

theorem abandoned (h : Twins k w w') (now : Nat) (requests : List (Request Value)) :
    Twins k
      ((requests.map (Request.shifted k.shift)).foldl
        (fun w r => note now (.abandoned r.id r.entries) w) w)
      (requests.foldl (fun w r => note now (.abandoned r.id r.entries) w) w') := by
  induction requests generalizing w w' with
  | nil => exact h
  | cons r rest ih => exact ih (h.noted now (.abandoned r.id r.entries))

theorem abandonAll (h : Twins k w w') (now : Nat) :
    ChangeTwins k (w.abandonAll now) (w'.abandonAll now) := by
  have requests : w.inFlight.requests = w'.inFlight.requests.map (Request.shifted k.shift) := by
    rw [h.inFlight]
    rfl
  have cleared : Twins k { w with inFlight := w.inFlight.clear }
      { w' with inFlight := w'.inFlight.clear } := by
    refine { h with inFlight := ?_, loop := h.loop.imp_right ?_ }
    · show w.inFlight.clear = _
      rw [h.inFlight]
      rfl
    · exact fun ⟨free, home, untimed, _⟩ => ⟨free, home, untimed, rfl⟩
  refine ⟨?_, ?_, rfl⟩
  · rw [Writer.abandonAll, requests]
    exact abandoned cleared now w'.inFlight.requests
  · rw [Writer.abandonAll, Writer.abandonAll, requests, h.buffer, h.id, List.map_append,
      List.map_map, List.map_map, List.isEmpty_map, List.length_map]
    split <;> rfl

theorem close (h : Twins k w w') (now : Nat) :
    ChangeTwins k (w.close now) (w'.close now) := by
  unfold Writer.close
  rw [h.closed]
  split
  · exact .stay h
  · have shut : Twins k { w with closed := true } { w' with closed := true } :=
      { h with closed := rfl }
    refine (((((cancelTimer shut).andThen fun after => .abandonAll after now).andThen
      .notify).andThen .showGauges).andThen fun after => .announce after ?_)
    rw [h.id]
    rfl

end ChangeTwins
end Writer
end BatchWriter
