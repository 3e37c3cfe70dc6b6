import BatchWriter.Proofs.Bench.Shift

/-!
# What a point of a program changes

At each point of a program nobody else makes progress. Two points are more than that: the one
at which a write appends its entry, and those at which a send answers.
-/

set_option autoImplicit false

namespace BatchWriter

def Program.Steady : Program → Prop
  | .write _ .accept => False
  | .send _ _ => False
  | _ => True

def SendJob.report? : Except Fault Value → Option Report
  | .error fault =>
    if fault.isCancelled = true ∨ fault.isOrdinary = true then some (.failed fault) else none
  | .ok result => (Destination.report result).toOption

namespace Bench

variable {old : Nat → Prop} {b b' : Bench} {id : Nat} {name : LoopName}

/-! Writes and commits. -/

theorem noProgress_changeThen (i : Nat) {f : Writer → Change}
    (unfed : ∀ w : Writer, w.Unfed (f w).writer) (next : Program) :
    NoProgress old b (b.changeThen i f next).1 := noProgress_change i unfed

theorem noProgress_publishLevel (b : Bench) (job : WriteJob) (w : Writer) (level : Level)
    (reason : String) (next : WritePoint) :
    NoProgress old b (b.publishLevel job w level reason next).1 := by
  have noted : NoProgress old b (b.change job.writer fun u =>
      .stay (u.note b.now (.announced (w.event level reason)))).2 :=
    noProgress_change _ fun u => .noted u b.now (by simp)
  exact noted.trans (noProgress_publication _ _ _)

theorem noProgress_waitForChange (b : Bench) (id i : Nat) (loop : LoopName) (next : Program) :
    NoProgress old b (b.waitForChange id i loop next).1 :=
  noProgress_change i fun w => w.unfed_wait loop id

theorem noProgress_afterWaiting (b : Bench) (id i : Nat) (next : Program) :
    NoProgress old b (b.afterWaiting id i next).1 :=
  noProgress_changeThen i (fun w => w.unfed_woken id) next

theorem noProgress_withWriter {i : Nat} {f : Writer → Bench × Progress}
    (each : ∀ w : Writer, b.writers[i]? = some w → NoProgress old b (f w).1) :
    NoProgress old b (b.withWriter i f).1 := by
  unfold withWriter
  split
  · next w hw => exact each w hw
  · exact .refl b

theorem noProgress_holdBack (b : Bench) (i : Nat) (reason : WaitReason) :
    NoProgress old b (b.change i (·.holdBack reason)).2 :=
  noProgress_change i fun w => w.unfed_holdBack reason

theorem noProgress_writeStep (job : WriteJob) {point : WritePoint}
    (steady : (Program.write job point).Steady) :
    NoProgress old b (b.writeStep id name job point).1 := by
  cases point with
  | start =>
    rw [writeStep, writeStart]
    split
    · exact .refl b
    · exact noProgress_changeThen _ (fun w => w.unfed_enter name) _
  | gate blocked =>
    refine noProgress_withWriter fun w _ => ?_
    split
    · split
      · exact (noProgress_holdBack b _ _).trans (noProgress_publishLevel _ _ _ _ _ _)
      · exact .refl b
    · split
      · exact noProgress_publishLevel _ _ _ _ _ _
      · exact .refl b
  | flush stage =>
    refine noProgress_withWriter fun w _ => ?_
    split
    · exact .refl b
    · exact (noProgress_holdBack b _ _).trans (noProgress_publishLevel _ _ _ _ _ _)
  | slot stage =>
    refine noProgress_withWriter fun w _ => ?_
    split
    · exact .refl b
    · exact noProgress_waitForChange b _ _ _ _
  | woken stage => exact noProgress_afterWaiting b _ _ _
  | dispatch stage => exact noProgress_dispatch b job.writer name
  | accept => exact steady.elim
  | batching =>
    refine noProgress_withWriter fun w _ => ?_
    split
    · exact .refl b
    · exact noProgress_changeThen _ (fun w => .refl w) _
  | publishing delivery next => exact noProgress_attend b delivery

/-- Also a write that appends its entry takes no other call on. -/
theorem stays_writeAccept (b : Bench) (job : WriteJob) : Stays old b (b.writeAccept job).1 := by
  unfold writeAccept withWriter
  split
  · next w _ =>
    dsimp only
    split
    · exact (NoProgress.refl b).toStays
    · exact stays_change b _ _
  · exact (NoProgress.refl b).toStays

theorem answers_writeAccept (b : Bench) (job : WriteJob) :
    (b.writeAccept job).1.answers = b.answers := by
  unfold writeAccept withWriter
  split
  · next w _ =>
    dsimp only
    split
    · rfl
    · exact answers_change b _ _
  · rfl

theorem noProgress_commitStep (job : CommitJob) (point : CommitPoint) :
    NoProgress old b (b.commitStep id name job point).1 := by
  cases point with
  | start => exact noProgress_changeThen _ (fun w => .andThen (w.unfed_enter name) (.refl _)) _
  | woken => exact noProgress_afterWaiting b _ _ _
  | drain =>
    refine noProgress_withWriter fun w _ => ?_
    split
    · split
      · exact noProgress_dispatch b job.writer name
      · exact noProgress_waitForChange b _ _ _ _
    · exact noProgress_change _ fun w => .andThen (.refl w) (.refl _)

/-! Sends. -/

/-- What a point of a send does to the bench: nothing that concerns others, and its handle is
told these reports. -/
structure Answers (old : Nat → Prop) (b : Bench) (id : Nat) (reports : List Report)
    (b' : Bench) : Prop
    extends Stays old b b', Unfed b b' where
  answers : b'.answers = reports.map (id, ·) ++ b.answers

theorem NoProgress.silent (h : NoProgress old b b') (id : Nat) : Answers old b id [] b' :=
  ⟨h.toStays, h.toUnfed, h.answers⟩

theorem Answers.after {b₀ : Bench} {reports : List Report} (first : NoProgress old b b₀)
    (h : Answers old b₀ id reports b') : Answers old b id reports b' where
  toStays := first.toStays.trans h.toStays
  toUnfed := first.toUnfed.trans h.toUnfed
  answers := by rw [h.answers, first.answers]

theorem answers_answer (b : Bench) (id : Nat) (job : SendJob) (report : Report) :
    Answers old b id [report] (b.answer id job report) := by
  have stays : Stays old b { b with answers := (id, report) :: b.answers } :=
    .of_same rfl rfl rfl rfl rfl rfl
  have unfed : Unfed b { b with answers := (id, report) :: b.answers } := .of_writers rfl
  have told := @noProgress_tellHandle old { b with answers := (id, report) :: b.answers } job.handle
    report
  exact ⟨stays.trans told.toStays, unfed.trans told.toUnfed, told.answers⟩

theorem answers_endSend (b : Bench) (id : Nat) (job : SendJob) (outcome : Except Fault Value) :
    Answers old b id (SendJob.report? outcome).toList (b.endSend id job outcome).1 := by
  unfold endSend SendJob.report?
  cases outcome with
  | error fault =>
    dsimp only
    by_cases cancelled : fault.isCancelled
    · rw [if_pos cancelled, if_pos (.inl cancelled)]
      exact answers_answer b id job _
    · rw [if_neg cancelled]
      by_cases ordinary : fault.isOrdinary
      · rw [if_pos ordinary, if_pos (.inr ordinary)]
        exact .after (noProgress_log b _) (answers_answer _ id job _)
      · rw [if_neg ordinary, if_neg (not_or.2 ⟨cancelled, ordinary⟩)]
        exact (NoProgress.refl b).silent id
  | ok result =>
    dsimp only
    cases Destination.report result with
    | ok report => exact answers_answer b id job report
    | error fault => exact (NoProgress.refl b).silent id

theorem answers_concludeSend {job : SendJob} {d : Destination}
    (hd : b.destinations[job.destination]? = some d) (id : Nat) (ending : Ending) :
    Answers old b id (SendJob.report? (d.conclude ending job.entries).1).toList
      (b.concludeSend id job ending).1 := by
  unfold concludeSend
  simp only [hd]
  exact .after (noProgress_setDestination hd (pending_conclude d ending job.entries))
    (answers_endSend _ _ _ _)

theorem answers_conclude (b : Bench) (id : Nat) (job : SendJob) (ending : Ending) :
    ∃ reports, Answers old b id reports (b.concludeSend id job ending).1 := by
  cases hd : b.destinations[job.destination]? with
  | none =>
    unfold concludeSend
    simp only [hd]
    exact ⟨[], (NoProgress.refl b).silent id⟩
  | some d => exact ⟨_, answers_concludeSend hd id ending⟩

theorem answers_sendStep (b : Bench) (id : Nat) (job : SendJob) (point : SendPoint) :
    ∃ reports, Answers old b id reports (b.sendStep id job point).1 := by
  have still : ∃ reports, Answers old b id reports b := ⟨[], (NoProgress.refl b).silent id⟩
  cases point with
  | start =>
    rw [sendStep]
    split
    · exact still
    · next d hd => exact ⟨[], (noProgress_reach hd rfl _).silent id⟩
  | yields times => cases times <;> exact still
  | sleep =>
    rw [sendStep]
    split
    · exact still
    · split
      · exact ⟨_, answers_endSend b _ _ _⟩
      · exact still
      · exact still
  | hang =>
    rw [sendStep]
    split <;> exact still
  | conclude => exact answers_conclude b _ _ _

theorem answers_sendInterrupted (b : Bench) (id : Nat) (job : SendJob) (point : SendPoint) :
    ∃ reports, Answers old b id reports (b.sendInterrupted id job point).1 := by
  unfold sendInterrupted
  split
  · exact ⟨[], (NoProgress.refl b).silent id⟩
  · split
    · exact answers_conclude b _ _ _
    · exact ⟨_, answers_endSend b _ _ _⟩

/-! All programs. -/

theorem noProgress_drainStep (known : b.Known old) (id : Nat) (loop : LoopName) (destination : Nat)
    (point : DrainPoint) : NoProgress old b (b.drainStep id loop destination point).1 := by
  cases point with
  | gathered | astray => exact .refl b
  | start =>
    rw [drainStep]
    split
    · exact .refl b
    · next d hd =>
      split
      · exact .refl b
      · have cancelled : NoProgress old b _ := noProgress_interruptAll b d.pending
        dsimp only
        split
        · refine cancelled.trans (noProgress_gatherAll id loop fun child hm => ?_)
          exact (known destination child ⟨d, hd, hm⟩).imp_right cancelled.called
        · split <;> exact cancelled

theorem noProgress_advanceProgram (known : b.Known old) {p : Program} (steady : p.Steady) :
    NoProgress old b (b.advanceProgram id name p).1 := by
  cases p with
  | write job point => exact noProgress_writeStep job steady
  | commit job point => exact noProgress_commitStep job point
  | close i => exact noProgress_change i fun w => w.unfed_close _
  | enter i => exact noProgress_change i fun w => w.unfed_bind _
  | publish bus event => exact noProgress_publication b bus event
  | deliver delivery => exact noProgress_attend b delivery
  | send job point => exact steady.elim
  | drainSends destination point => exact noProgress_drainStep known id name destination point
  | shutDown destination => exact noProgress_shutDown b destination
  | rest => exact .refl b
  | submit destination entries label => exact noProgress_submit b _ _ _ _

/-- No point of a program takes another call on. -/
theorem stays_advanceProgram (known : b.Known old) (id : Nat) (name : LoopName) (p : Program) :
    Stays old b (b.advanceProgram id name p).1 := by
  by_cases steady : p.Steady
  · exact (noProgress_advanceProgram known steady).toStays
  · cases p with
    | write job point =>
      cases point with
      | accept => exact stays_writeAccept b job
      | _ => exact absurd trivial steady
    | send job point =>
      obtain ⟨reports, answers⟩ := @answers_sendStep old b id job point
      exact answers.toStays
    | _ => exact absurd trivial steady

/-- Only a write at the right point appends an entry. -/
theorem unfed_advanceProgram {p : Program} (other : ∀ job, p ≠ .write job .accept) :
    Unfed b (b.advanceProgram id name p).1 := by
  by_cases steady : p.Steady
  · exact (noProgress_advanceProgram (known_any b) steady).toUnfed
  · cases p with
    | write job point =>
      cases point with
      | accept => exact absurd rfl (other job)
      | _ => exact absurd trivial steady
    | send job point =>
      obtain ⟨reports, answers⟩ := @answers_sendStep anyId b id job point
      exact answers.toUnfed
    | _ => exact absurd trivial steady

theorem noProgress_dropWaiter (b : Bench) (i call : Nat) :
    NoProgress old b (b.change i (·.dropWaiter call)).2 :=
  noProgress_change i fun _ => .of_history rfl rfl

theorem stays_interruptProgram (b : Bench) (id : Nat) (p : Program) :
    Stays old b (b.interruptProgram id p).1 := by
  cases p with
  | write job _ => exact (noProgress_dropWaiter b job.writer id).toStays
  | commit job _ => exact (noProgress_dropWaiter b job.writer id).toStays
  | send job point =>
    obtain ⟨reports, answers⟩ := @answers_sendInterrupted old b id job point
    exact answers.toStays
  | _ => exact .refl b

theorem unfed_interruptProgram (b : Bench) (id : Nat) (p : Program) :
    Unfed b (b.interruptProgram id p).1 := by
  cases p with
  | write job _ => exact (@noProgress_dropWaiter anyId b job.writer id).toUnfed
  | commit job _ => exact (@noProgress_dropWaiter anyId b job.writer id).toUnfed
  | send job point =>
    obtain ⟨reports, answers⟩ := @answers_sendInterrupted anyId b id job point
    exact answers.toUnfed
  | _ => exact .of_writers rfl

end Bench
end BatchWriter
