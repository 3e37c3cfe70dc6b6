import BatchWriter.Bench.Step

/-!
# Programs and their jobs

A program stays at its job: each of its points leads to another point of the same job, if it
leads anywhere. What a send carries is therefore the same for as long as there is the call.
-/

set_option autoImplicit false

namespace BatchWriter

def Progress.program? : Progress → Option Program
  | .go p | .yield p | .sleep _ p | .wait _ p => some p
  | .finish _ => none

/-- What a program may be after one of its points: the same job at another point. -/
def Program.Becomes : Program → Program → Prop
  | .write job _, .write next _ => next.writer = job.writer
  | .commit job _, .commit next _ => next = job
  | .publish _ _, .deliver _ | .deliver _, .deliver _ => True
  | .send job _, .send next _ => next.destination = job.destination ∧
    next.entries = job.entries ∧ next.handle = job.handle
  | .drainSends destination point, .drainSends next after =>
    next = destination ∧ point = .start ∧ after ≠ .start
  | _, _ => False

/-- Wherever it leads, the program may come to from there. -/
def Progress.From (p : Program) (progress : Progress) : Prop :=
  ∀ q, progress.program? = some q → p.Becomes q

/-- What a send carries: the destination that it is for, the entries and the handle. -/
def Program.carries? : Program → Option (Nat × List Value × Handle)
  | .send job _ => some (job.destination, job.entries, job.handle)
  | _ => none

theorem Program.Becomes.carries? {p q : Program} (becomes : p.Becomes q) :
    q.carries? = p.carries? := by
  cases p <;> cases q <;> first
    | exact becomes.elim
    | rfl
    | (obtain ⟨destination, entries, handle⟩ := becomes
       simp only [Program.carries?, destination, entries, handle])

namespace Bench

variable {b : Bench} {id : Nat} {name : LoopName}

theorem from_of_program {p q : Program} {progress : Progress} (h : progress.program? = some q)
    (becomes : p.Becomes q) : progress.From p := by
  intro other hq
  rw [h, Option.some.injEq] at hq
  exact hq ▸ becomes

theorem from_of_ends {p : Program} {progress : Progress} (h : progress.program? = none) :
    progress.From p := by
  intro q hq
  rw [h] at hq
  cases hq

theorem from_goUnless {p q : Program} (becomes : p.Becomes q) (fault : Option Fault) :
    (Progress.goUnless fault q).From p := by
  cases fault with
  | none => exact from_of_program rfl becomes
  | some fault => exact from_of_ends rfl

theorem from_withWriter {p : Program} {i : Nat} {f : Writer → Bench × Progress}
    (each : ∀ w : Writer, (f w).2.From p) : (b.withWriter i f).2.From p := by
  unfold withWriter
  split
  · exact each _
  · exact from_of_ends rfl

theorem from_waitForChange {p q : Program} (becomes : p.Becomes q) (b : Bench) (id i : Nat)
    (loop : LoopName) : (b.waitForChange id i loop q).2.From p := by
  unfold waitForChange
  dsimp only
  generalize Prod.fst _ = fault
  cases fault with
  | none => exact from_of_program rfl becomes
  | some fault => exact from_of_ends rfl

theorem from_publishLevel (b : Bench) (job : WriteJob) (point : WritePoint) (w : Writer)
    (level : Level) (reason : String) (next : WritePoint) :
    (b.publishLevel job w level reason next).2.From (.write job point) := by
  unfold publishLevel
  dsimp only
  split
  · exact from_of_program rfl rfl
  · exact from_of_program rfl rfl

theorem from_writeStep (b : Bench) (job : WriteJob) (point : WritePoint) :
    (b.writeStep id name job point).2.From (.write job point) := by
  cases point with
  | start =>
    rw [writeStep, writeStart]
    split
    · exact from_of_ends rfl
    · exact from_goUnless (by exact rfl) _
  | gate blocked =>
    refine from_withWriter fun w => ?_
    split
    · split
      · exact from_publishLevel _ _ _ _ _ _ _
      · exact from_of_program rfl rfl
    · split
      · exact from_publishLevel _ _ _ _ _ _ _
      · exact from_of_program rfl rfl
  | flush stage =>
    refine from_withWriter fun w => ?_
    split
    · exact from_of_program rfl rfl
    · exact from_publishLevel _ _ _ _ _ _ _
  | slot stage =>
    refine from_withWriter fun w => ?_
    split
    · exact from_of_program rfl rfl
    · exact from_waitForChange (by exact rfl) _ _ _ _
  | woken stage | dispatch stage => exact from_goUnless (by exact rfl) _
  | accept =>
    refine from_withWriter fun w => ?_
    split
    · exact from_of_ends rfl
    · exact from_goUnless (by exact rfl) _
  | batching =>
    refine from_withWriter fun w => ?_
    split
    · exact from_of_program rfl rfl
    · exact from_goUnless (by exact rfl) _
  | publishing delivery next =>
    rw [writeStep, writePublishing]
    dsimp only
    split
    · exact from_of_program rfl rfl
    · exact from_of_program rfl rfl
    · exact from_of_program rfl rfl
    · exact from_of_program rfl rfl
    · exact from_of_ends rfl

theorem from_commitStep (b : Bench) (job : CommitJob) (point : CommitPoint) :
    (b.commitStep id name job point).2.From (.commit job point) := by
  cases point with
  | start | woken => exact from_goUnless (by exact rfl) _
  | drain =>
    refine from_withWriter fun w => ?_
    split
    · split
      · exact from_goUnless (by exact rfl) _
      · exact from_waitForChange (by exact rfl) _ _ _ _
    · exact from_of_ends rfl

theorem endSend_ends (b : Bench) (id : Nat) (job : SendJob) (outcome : Except Fault Value) :
    (b.endSend id job outcome).2.program? = none := by
  unfold endSend
  split
  · split
    · rfl
    · split <;> rfl
  · split <;> rfl

theorem concludeSend_ends (b : Bench) (id : Nat) (job : SendJob) (ending : Ending) :
    (b.concludeSend id job ending).2.program? = none := by
  unfold concludeSend
  split
  · rfl
  · exact endSend_ends _ _ _ _

theorem from_sendStep (b : Bench) (job : SendJob) (point : SendPoint) :
    (b.sendStep id job point).2.From (.send job point) := by
  cases point with
  | start =>
    rw [sendStep]
    split
    · exact from_of_ends rfl
    · exact from_of_program rfl ⟨rfl, rfl, rfl⟩
  | yields times => cases times <;> exact from_of_program rfl ⟨rfl, rfl, rfl⟩
  | sleep =>
    rw [sendStep]
    split
    · exact from_of_program rfl ⟨rfl, rfl, rfl⟩
    · split
      · exact from_of_ends (endSend_ends _ _ _ _)
      · exact from_of_program rfl ⟨rfl, rfl, rfl⟩
      · exact from_of_program rfl ⟨rfl, rfl, rfl⟩
  | hang =>
    rw [sendStep]
    split <;> exact from_of_program rfl ⟨rfl, rfl, rfl⟩
  | conclude => exact from_of_ends (concludeSend_ends _ _ _ _)

theorem from_advanceProgram (b : Bench) (id : Nat) (name : LoopName) (p : Program) :
    (b.advanceProgram id name p).2.From p := by
  cases p with
  | write job point => exact from_writeStep b job point
  | commit job point => exact from_commitStep b job point
  | send job point => exact from_sendStep b job point
  | publish bus event =>
    rw [advanceProgram]
    dsimp only
    cases (b.publication bus event).2 with
    | none => exact from_of_ends rfl
    | some d => exact from_of_program rfl trivial
  | deliver d =>
    rw [advanceProgram, deliverStep]
    dsimp only
    split
    · exact from_of_program rfl trivial
    · exact from_of_program rfl trivial
    · exact from_of_program rfl trivial
    · exact from_of_ends rfl
    · exact from_of_ends rfl
  | drainSends destination point =>
    cases point with
    | gathered | astray => exact from_of_ends rfl
    | start =>
      rw [advanceProgram, drainStep]
      split
      · exact from_of_ends rfl
      · split
        · exact from_of_ends rfl
        · dsimp only
          split
          · exact from_of_program rfl ⟨rfl, rfl, by simp⟩
          · split
            · exact from_of_ends rfl
            · exact from_of_program rfl ⟨rfl, rfl, by simp⟩
  | close _ | enter _ | shutDown _ | rest | submit _ _ _ => exact from_of_ends rfl

/-! A call that is cancelled ends, whatever it was about. -/

theorem interruptProgram_ends (b : Bench) (id : Nat) (p : Program) :
    (b.interruptProgram id p).2.program? = none := by
  cases p with
  | send job point =>
    unfold interruptProgram sendInterrupted
    dsimp only
    split
    · rfl
    · split
      · exact concludeSend_ends _ _ _ _
      · exact endSend_ends _ _ _ _
  | _ => rfl

end Bench
end BatchWriter
