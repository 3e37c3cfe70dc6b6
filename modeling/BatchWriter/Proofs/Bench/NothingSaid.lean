import BatchWriter.Proofs.Bench.Counters
import BatchWriter.Proofs.Bench.Mute
import BatchWriter.Proofs.Writer.Voices

/-!
# Moves in which no write says anything

Whatever the bench does beside the points of a write adds nothing to what the histories tell of
writes, and no meter moves.
-/

set_option autoImplicit false

namespace BatchWriter
namespace Metrics

def meter (m : Metrics) (label : String) : Meter → ℕ
  | .written => m.written.getD label 0
  | .held reason => m.waits.getD (reason, label) 0

theorem meter_record (m : Metrics) (label : String) (x : Measurement) (k : Meter) :
    (m.record label x).meter label k = m.meter label k + if x.moves k then 1 else 0 := by
  cases k with
  | written =>
    cases x <;> simp [meter, record, Measurement.moves, Ledger.getD, Ledger.get?_alter_self]
  | held reason =>
    cases x with
    | wait known =>
      by_cases same : known = reason
      · subst same
        simp [meter, record, Measurement.moves, Ledger.getD, Ledger.get?_alter_self]
      · have apart : (reason, label) ≠ (known, label) := fun he => same (Prod.mk.inj he).1.symm
        simp [meter, record, Measurement.moves, Ledger.getD, Ledger.get?_alter_of_ne _ apart, same]
    | _ => simp [meter, record, Measurement.moves]

theorem meter_record_of_ne (m : Metrics) {label other : String} (apart : other ≠ label)
    (x : Measurement) (k : Meter) : (m.record label x).meter other k = m.meter other k := by
  cases k with
  | written => cases x <;> simp [meter, record, Ledger.getD, Ledger.get?_alter_of_ne _ apart]
  | held reason =>
    cases x with
    | wait known =>
      have apart : (reason, other) ≠ (known, label) := fun he => apart (Prod.mk.inj he).2
      simp [meter, record, Ledger.getD, Ledger.get?_alter_of_ne _ apart]
    | _ => simp [meter, record]

theorem meter_register (m : Metrics) (label other : String) (k : Meter) :
    (m.register label).meter other k = m.meter other k := by
  cases k <;> simp [meter, register, Ledger.getD_ensure]

end Metrics

namespace Writer

theorem still_of_restore {now : ℕ} {id : Value} {config : Config} {converter : Converter}
    {destination : ℕ} {bus : Option String} {entries : List Value} {c : Change}
    (built : restore now id config converter destination bus entries = .ok c) :
    ∀ e ∈ c.effects, e.Still := by
  obtain ⟨buffer, inFlight, notices, -, -, -, -, effects⟩ := restored_spec built
  intro e he k
  rw [effects] at he
  rcases List.mem_append.1 he with he | he
  · obtain ⟨n, -, rfl⟩ := List.mem_map.1 he
    rfl
  · rw [List.mem_singleton.1 he]
    cases k <;> rfl

end Writer

namespace Bench

open Writer (SaysNothing)

variable {b b' b'' : Bench} {i id : ℕ} {w : Writer} {loop : LoopName}

/-! ## A change of one writer -/

theorem meter_foldl (i : ℕ) (label other : String) (effects : List Effect) (b : Bench)
    (k : Meter) : (effects.foldl (perform i label) b).metrics.meter other k =
      b.metrics.meter other k + if other = label then effects.countP (Effect.moves k) else 0 := by
  induction effects generalizing b with
  | nil => simp
  | cons e rest ih =>
    have first : (perform i label b e).metrics.meter other k =
        b.metrics.meter other k + if other = label then (if e.moves k then 1 else 0) else 0 := by
      cases e with
      | measure m =>
        by_cases own : other = label
        · subst own
          rw [if_pos rfl]
          exact Metrics.meter_record _ _ _ _
        · rw [if_neg own]
          exact Metrics.meter_record_of_ne _ own _ _
      | wake call =>
        have same := congrArg (Metrics.meter · other k) (metrics_wake b call)
        simpa [perform, Effect.moves] using same
      | _ => simp [perform, Effect.moves, log, tell]
    rw [List.foldl_cons, ih, first, List.countP_cons]
    split <;> omega

theorem meter_change (hw : b.writers[i]? = some w) (f : Writer → Change) (label : String)
    (k : Meter) : (b.change i f).2.metrics.meter label k = b.metrics.meter label k +
      if label = w.label then (f w).effects.countP (Effect.moves k) else 0 := by
  simp only [change, hw]
  exact meter_foldl _ _ _ _ _ _

theorem historyOf_change (hw : b.writers[i]? = some w) (f : Writer → Change) (j : ℕ) :
    (b.change i f).2.historyOf j = if j = i then (f w).writer.history else b.historyOf j := by
  split
  · next same =>
    rw [same]
    exact historyOf_eq (writer_change hw f)
  · next other => exact historyOf_congr (writer_change_of_ne hw f other)

/-! ## What leaves histories and meters alone -/

/-- The histories tell of nothing new that writes did, and no meter has moved. -/
structure NothingSaid (b b' : Bench) : Prop where
  doings : ∀ j, (b'.historyOf j).doings = (b.historyOf j).doings
  meters : ∀ label k, b'.metrics.meter label k = b.metrics.meter label k

namespace NothingSaid

theorem of_same (writers : b'.writers = b.writers) (metrics : b'.metrics = b.metrics) :
    NothingSaid b b' := by
  constructor
  · intro j
    have same : b'.writers[j]? = b.writers[j]? := by rw [writers]
    rw [historyOf_congr same]
  · intro label k
    rw [metrics]

theorem refl (b : Bench) : NothingSaid b b := of_same rfl rfl

theorem trans (h : NothingSaid b b') (h' : NothingSaid b' b'') : NothingSaid b b'' where
  doings j := (h'.doings j).trans (h.doings j)
  meters label k := (h'.meters label k).trans (h.meters label k)

theorem bypasses (h : Bypasses b b') : NothingSaid b b' := of_same h.writers h.metrics

theorem beside (h : Beside b b') : NothingSaid b b' := bypasses h.toBypasses

theorem change {f : Writer → Change}
    (saysNothing : ∀ w : Writer, b.writers[i]? = some w → SaysNothing w (f w)) :
    NothingSaid b (b.change i f).2 := by
  cases hw : b.writers[i]? with
  | none =>
    rw [change_of_none hw]
    exact refl b
  | some w =>
    constructor
    · intro j
      rw [historyOf_change hw]
      split
      · next same => rw [(saysNothing w hw).doings, same, historyOf_eq hw]
      · rfl
    · intro label k
      have none : (f w).effects.countP (Effect.moves k) = 0 :=
        List.countP_eq_zero.2 fun e he => by simp [(saysNothing w hw).still e he k]
      rw [meter_change hw, none, ite_self, Nat.add_zero]

theorem thenDo {r : Option Fault × Bench} {next : Bench → Option Fault × Bench}
    (first : NothingSaid b r.2) (second : NothingSaid r.2 (next r.2).2) :
    NothingSaid b (thenDo r next).2 := by
  unfold Bench.thenDo
  split
  · exact first
  · exact first.trans second

theorem withWriter {f : Writer → Bench × Progress}
    (each : ∀ w : Writer, b.writers[i]? = some w → NothingSaid b (f w).1) :
    NothingSaid b (b.withWriter i f).1 := by
  unfold Bench.withWriter
  split
  · next w hw => exact each w hw
  · exact refl b

/-! Destinations. -/

theorem clearEntries (b : Bench) (destination call : ℕ) (handle : Handle) :
    NothingSaid b (b.clearEntries destination call handle) := by
  unfold Bench.clearEntries
  dsimp only
  split
  · refine trans ?_ (change fun w _ => .stay rfl)
    split <;> exact of_same rfl rfl
  · split <;> exact of_same rfl rfl

theorem respond (destination call : ℕ) (handle : Handle) (responses : List Response)
    (b : Bench) : NothingSaid b (respond destination call handle responses b).2 := by
  induction responses generalizing b with
  | nil => exact refl b
  | cons response rest ih =>
    cases response with
    | complete places =>
      rw [Bench.respond]
      split
      · exact refl b
      · exact (beside (.tellHandle _ _ _)).trans (ih _)
    | fail fault => exact (beside (.tellHandle _ _ _)).trans (ih _)
    | raise fault => exact refl b
    | clear => exact (clearEntries _ _ _ _).trans (ih _)

theorem submit (b : Bench) (destination : ℕ) (loop : Option LoopName) (entries : List Value)
    (handle : Handle) : NothingSaid b (b.submit destination loop entries handle).2 := by
  unfold Bench.submit
  split
  · exact refl b
  · next d hd =>
    split
    · have reached : ∀ d : Destination, NothingSaid b (b.reach destination d entries) :=
        fun _ => of_same rfl rfl
      exact (reached _).trans (respond _ _ _ _ _)
    · exact refl b
    · have set : NothingSaid b (b.setDestination destination
          { d with pending := d.pending ++ [b.calls.length] }) := of_same rfl rfl
      exact set.trans (beside (.start _ _ _ _ _))
    · split <;> exact of_same rfl rfl

theorem dispatch (b : Bench) (i : ℕ) (loop : LoopName) : NothingSaid b (b.dispatch i loop).2 := by
  unfold Bench.dispatch
  split
  · exact refl b
  · have begun : NothingSaid b (b.change i fun w => (w.startDispatch loop b.now).1).2 :=
      change fun w _ => .startDispatch w loop _
    dsimp only
    split
    · exact begun
    · exact (begun.trans (submit _ _ _ _ _)).trans (change fun w _ => .concludeDispatch w _ _ _)

/-! Flushes and reports. -/

theorem timedFlush (b : Bench) (i : ℕ) (loop : LoopName) :
    NothingSaid b (b.timedFlush i loop).2 := by
  have begun : NothingSaid b (b.change i (Writer.beginTimedFlush b.now)).2 :=
    change fun w _ => SaysNothing.beginTimedFlush w b.now
  have flushed := begun.trans (dispatch _ i loop)
  unfold Bench.timedFlush
  dsimp only
  generalize Bench.dispatch _ i loop = r at flushed
  split
  · split <;> exact flushed
  · exact flushed.trans (change fun w _ => .endTimedFlush w)

theorem deferredFlush (b : Bench) (i : ℕ) (loop : LoopName) :
    NothingSaid b (b.deferredFlush i loop).2 := by
  have begun : NothingSaid b (b.change i (·.beginDeferredFlush)).2 := change fun _ _ => .stay rfl
  unfold Bench.deferredFlush
  split
  · exact refl b
  · split
    · exact begun.trans (timedFlush _ _ _)
    · exact refl b

theorem receive (b : Bench) (loop : LoopName) (i batch : ℕ) (report : Report) :
    NothingSaid b (b.receive loop i batch report).2 := by
  cases report with
  | failed fault => exact change fun w _ => .reportFailed w _ batch fault
  | completed failed =>
    rw [Bench.receive]
    split
    · exact refl b
    · split
      · exact beside (.log _ _)
      · exact thenDo (thenDo (change fun w _ => .complete w _ batch failed) (deferredFlush _ _ _))
          (change fun w _ => .endCompletion w)

theorem bufferAlarm (b : Bench) (i : ℕ) : NothingSaid b (b.bufferAlarm i).2 := by
  have rung : NothingSaid b (b.change i (·.bufferTimeOver.1)).2 :=
    change fun w _ => .bufferTimeOver w
  unfold Bench.bufferAlarm
  split
  · exact refl b
  · dsimp only
    split
    · exact rung.trans (timedFlush _ _ _)
    · exact rung

theorem endCallback {r : Option Fault × Bench} (h : NothingSaid b r.2) :
    NothingSaid b (endCallback r) := by
  unfold Bench.endCallback
  split
  · exact h.trans (beside (.tell _ _))
  · exact h

/-! Subscribers. -/

theorem subscriberFault (b : Bench) (d : Delivery) (fault : Fault) :
    NothingSaid b (b.subscriberFault d fault).1 := by
  unfold Bench.subscriberFault
  split
  · exact beside (.log _ _)
  · exact refl b

theorem react (b : Bench) (d : Delivery) (reaction : Reaction) :
    NothingSaid b (b.react d reaction).1 := by
  unfold Bench.react
  split
  · exact refl b
  · exact subscriberFault _ _ _
  · split
    · exact subscriberFault _ _ _
    · exact refl b
    · exact refl b
  · exact refl b
  · exact beside (.unsubscribe _ _ _)
  · exact beside (.subscribe _ _ _)
  · split
    · exact change fun w _ => .close w _
    · exact subscriberFault _ _ _
  · split
    · exact beside (.tellHandle _ _ _)
    · exact subscriberFault _ _ _

theorem attend (b : Bench) (d : Delivery) : NothingSaid b (b.attend d).1 := by
  unfold Bench.attend
  split
  · exact refl b
  · split
    · exact refl b
    · exact refl b
    · exact refl b
    · split
      · exact subscriberFault _ _ _
      · exact (beside (.tell _ _)).trans (react _ _ _)

/-! Calls. -/

theorem waitForChange (b : Bench) (id i : ℕ) (loop : LoopName) (next : Program) :
    NothingSaid b (b.waitForChange id i loop next).1 :=
  change fun w _ => ((SaysNothing.checkUsable w).andThen (.bind _ loop)).andThen (.stay rfl)

theorem afterWaiting (b : Bench) (id i : ℕ) (next : Program) :
    NothingSaid b (b.afterWaiting id i next).1 :=
  change fun _ _ => SaysNothing.andThen (.stay rfl) (.checkUsable _)

theorem commitStep (b : Bench) (id : ℕ) (loop : LoopName) (job : CommitJob)
    (point : CommitPoint) : NothingSaid b (b.commitStep id loop job point).1 := by
  cases point with
  | start =>
    exact change fun w _ => ((SaysNothing.bind w loop).andThen (.checkUsable _)).andThen
      (.announce _ rfl)
  | drain =>
    refine withWriter fun _ _ => ?_
    split
    · split
      · exact dispatch _ _ _
      · exact waitForChange _ _ _ _ _
    · exact change fun w _ => (SaysNothing.showGauges w).andThen (.announce _ rfl)
  | woken => exact afterWaiting _ _ _ _

theorem advanceProgram {p : Program} (other : ∀ job point, p ≠ .write job point) (b : Bench)
    (id : ℕ) (loop : LoopName) : NothingSaid b (b.advanceProgram id loop p).1 := by
  cases p with
  | write job point => exact absurd rfl (other job point)
  | commit job point => exact commitStep _ _ _ _ _
  | close writer => exact change fun w _ => .close w _
  | enter writer => exact change fun w _ => .bind w loop
  | publish bus event => exact beside (.publication _ _ _)
  | deliver delivery => exact attend _ _
  | send job point => exact beside (.sendStep _ _ _ _)
  | drainSends destination point => exact beside (.drainStep _ _ _ _ _)
  | shutDown destination => exact beside (.shutDown _ _)
  | rest => exact refl b
  | submit destination entries label => exact submit _ _ _ _ _

theorem interruptProgram (b : Bench) (id : ℕ) (p : Program) :
    NothingSaid b (b.interruptProgram id p).1 := by
  cases p with
  | write job _ | commit job _ => exact change fun _ _ => .stay rfl
  | send job point => exact beside (.sendInterrupted _ _ _ _)
  | _ => exact refl b

theorem resume (b : Bench) (id : ℕ) : NothingSaid b (b.resume id) := by
  unfold Bench.resume
  split
  · exact refl b
  · next c hc =>
    split
    · exact (interruptProgram _ _ _).trans (beside (.interrupted _ _ _ _))
    · exact beside ((Beside.running b id).trans (.setCall hc rfl))
    · exact refl b

theorem runCallback (b : Bench) (name : LoopName) (cb : Callback) :
    NothingSaid b (b.runCallback name cb) := by
  cases cb with
  | resume id => exact resume _ _
  | report i batch report => exact endCallback (receive _ _ _ _ _)
  | forget destination call => exact beside (.forget _ _ _)
  | gathered call child => exact beside (.countGathered _ _ _)

theorem step (idle : b.running = none) (next : b.step = some b') : NothingSaid b b' := by
  unfold Bench.step at next
  simp only [idle] at next
  obtain ⟨⟨name, cb, b₀⟩, hn, rfl⟩ := Option.map_eq_some_iff.1 next
  obtain ⟨turn, l, -, rfl⟩ := next_pops hn
  have taken : NothingSaid b (({ b with turn } : Bench).setLoop name l) :=
    of_same (writers_setLoop _ _ _) (metrics_setLoop _ _ _)
  exact taken.trans (runCallback _ _ _)

theorem ring (b : Bench) (r : Ring) : NothingSaid b (b.ring r) := by
  cases r with
  | writer i alarm =>
    cases alarm with
    | flush => exact endCallback (bufferAlarm _ _)
    | expire batch => exact endCallback (change fun w _ => .expire w _ batch)
  | wake id =>
    unfold Bench.ring
    dsimp only
    split
    · next c hc =>
      split
      · exact beside (.queue hc rfl _)
      · exact refl b
    · exact refl b

theorem create (b : Bench) (name : String) (spec : WriterSpec) :
    NothingSaid b (b.create name spec).2 := by
  rcases create_cases b name spec with same | ⟨c, built⟩
  · rw [same]
    exact refl b
  · obtain ⟨_, _, _, _, _, _, -, restored⟩ := built.restored
    have still := Writer.still_of_restore restored
    obtain ⟨entries, history⟩ := built.history
    have writers := built.writers
    constructor
    · intro j
      rw [historyOf, historyOf, writers]
      by_cases old : j < b.writers.length
      · rw [List.getElem?_append_left old]
      · have none : b.writers[j]? = none := List.getElem?_eq_none_iff.2 (not_lt.1 old)
        rw [List.getElem?_append_right (not_lt.1 old), none]
        cases new : [c.writer][j - b.writers.length]? with
        | none => rfl
        | some u =>
          rw [List.mem_singleton.1 (List.mem_of_getElem? new), Option.map_some, Option.getD_some,
            history]
          rfl
    · intro label k
      have none : c.effects.countP (Effect.moves k) = 0 :=
        List.countP_eq_zero.2 fun e he => by simp [still e he k]
      rw [built.same, meter_foldl, none, ite_self, Nat.add_zero]
      exact Metrics.meter_register _ _ _ _

end NothingSaid

/-- A move is the next point of the running call, or no write says anything in it. -/
theorem Move.nothingSaid (m : Move b b') (other : ∀ id, b.running = some id → b' ≠ b.proceed id) :
    NothingSaid b b' := by
  cases m with
  | step next =>
    cases running : b.running with
    | none => exact .step running next
    | some id =>
      rw [Bench.step] at next
      simp only [running] at next
      exact absurd (Option.some.inj next).symm (other id running)
  | turn name => exact .beside (.turn b name)
  | @ring _ _ time idle due =>
    have passed : NothingSaid b { b with time } := .of_same rfl rfl
    exact passed.trans (.ring _ _)
  | wait instant => exact .of_same rfl rfl
  | create name spec => exact .create b name spec
  | start name known => exact .beside (.start _ _ _ _ _)
  | endJobs label name destination => exact .beside (.start _ _ _ _ _)
  | submitOutside idle destination entries label => exact .submit _ _ _ _ _
  | interrupt id => exact .beside (.interrupt _ _)
  | tell fits report => exact .beside (.tellHandle _ _ _)
  | runJob destination job => exact .bypasses (.runJob _ _ _)
  | cancelJob destination job => exact .bypasses (.cancelJob _ _ _)
  | shutDown destination => exact .beside (.shutDown _ _)
  | subscribe bus name => exact .beside (.subscribe _ _ _)
  | unsubscribe bus name => exact .beside (.unsubscribe _ _ _)
  | closeLoop idle name => exact .of_same (writers_setLoop _ _ _) (metrics_setLoop _ _ _)

end Bench
end BatchWriter
