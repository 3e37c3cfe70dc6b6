import BatchWriter.Proofs.Bench.AtWill
import BatchWriter.Proofs.Feedback.Faults

/-!
# What a send tells its handle

A send that has begun tells its handle once, when it ends, whatever becomes of it: also one
that is cancelled. A send that is cancelled before it begins tells its handle nothing.
-/

set_option autoImplicit false

namespace BatchWriter

/-- An ending that a send may have: it is cancelled or raises an ordinary fault, or what it
returns is absent or a collection. -/
def Ending.Proper : Ending → Prop
  | .raises fault => fault.isCancelled = true ∨ fault.isOrdinary = true
  | .returns result => ∃ report, Destination.report result = .ok report
  | .fails _ | .byRule => True

structure Behaviour.Proper (behaviour : Behaviour) : Prop where
  ending : behaviour.ending.Proper
  onCancel : ∀ ending, behaviour.onCancel = some ending → ending.Proper

namespace SendJob

/-- The points at which a send that has begun gives way to others. -/
def Stops (job : SendJob) : SendPoint → Prop
  | .yields _ | .hang => True
  | .conclude => job.behaviour.hangs = true
  | .start | .sleep => False

/-- What a send comes to that ends at a point. -/
inductive ComesTo (job : SendJob) : SendPoint → Except Fault Value → Prop
  /-- It is cancelled where it gives way. -/
  | cancelled {point : SendPoint} (stops : job.Stops point)
      (plain : job.behaviour.onCancel = none) : ComesTo job point (.error .cancelled)
  /-- It is cancelled where it gives way, and ends in its own way. -/
  | caught {point : SendPoint} {ending : Ending} (stops : job.Stops point)
      (own : job.behaviour.onCancel = some ending) (d : Destination) :
      ComesTo job point (d.conclude ending job.entries).1
  | unfit {milliseconds : Number} {fault : Fault} (sleeps : job.behaviour.sleep = some milliseconds)
      (unfit : pauseDelay milliseconds = .error fault) : ComesTo job .sleep (.error fault)
  | concluded (goes : job.behaviour.hangs = false) (d : Destination) :
      ComesTo job .conclude (d.conclude job.behaviour.ending job.entries).1

def Told (job : SendJob) (point : SendPoint) (reports : List Report) : Prop :=
  (point = .start ∧ reports = []) ∨
    ∃ outcome, job.ComesTo point outcome ∧ reports = (report? outcome).toList

structure Stands (job : SendJob) (point : SendPoint) (s : Status) : Prop where
  goes : s = .running → point = .conclude → job.behaviour.hangs = false
  rests : s ≠ .running → s ≠ .ended → point = .start ∨ job.Stops point
  doomed : s ≠ .running → s ≠ .ended → point = .conclude → s.Doomed

end SendJob

namespace Program

def Told (reports : List Report) : Program → Prop
  | .send job point => job.Told point reports
  | _ => reports = []

def Stands (s : Status) : Program → Prop
  | .send job point => job.Stands point s
  | _ => True

theorem told_of_other {p : Program} (other : p.sendsTo? = none) : p.Told [] := by
  cases p with
  | send job point => cases other
  | _ => rfl

theorem stands_of_other {p : Program} (other : p.sendsTo? = none) (s : Status) :
    p.Stands s := by
  cases p with
  | send job point => cases other
  | _ => trivial

theorem stands_ended (p : Program) : p.Stands .ended := by
  cases p with
  | send job point =>
    exact ⟨by simp, fun _ live => absurd rfl live, fun _ live => absurd rfl live⟩
  | _ => trivial

end Program

structure Progress.Tells (p : Program) (reports : List Report) (progress : Progress) : Prop where
  onward : ∀ q, progress.program? = some q → reports = [] ∧ q.Stands progress.status
  ended : progress.program? = none → p.Told reports

theorem Call.isEnded_iff {c : Call} : c.isEnded = true ↔ c.status = .ended := by
  cases hs : c.status <;> simp [Call.isEnded, hs]

/-! Outcomes of proper behaviours. -/

theorem report_list (entries : List Value) :
    Destination.report (.list entries) = .ok (.completed entries) := by
  cases entries <;> rfl

namespace SendJob

theorem report_conclude {ending : Ending} (proper : ending.Proper) (d : Destination)
    (batch : List Value) : ∃ report, report? (d.conclude ending batch).1 = some report := by
  have listed : ∀ entries : List Value, report? (.ok (.list entries)) = some (.completed entries) :=
    fun entries => by rw [report?, report_list]; rfl
  cases ending with
  | raises fault => exact ⟨.failed fault, if_pos proper⟩
  | returns result =>
    obtain ⟨report, fits⟩ := proper
    refine ⟨report, ?_⟩
    rw [Destination.conclude, report?, fits]
    rfl
  | fails places =>
    rw [Destination.conclude]
    cases found : entriesAt batch (places.filter (· < batch.length)) with
    | error fault =>
      rw [entriesAt_fault found]
      exact ⟨.failed .indexOutOfRange, rfl⟩
    | ok entries => exact ⟨.completed entries, listed entries⟩
  | byRule =>
    rw [Destination.conclude]
    split
    · exact ⟨_, listed _⟩
    · exact ⟨_, listed _⟩

theorem ComesTo.begun {job : SendJob} {point : SendPoint} {outcome : Except Fault Value}
    (h : job.ComesTo point outcome) : point ≠ .start := by
  rintro rfl
  cases h with
  | cancelled stops _ | caught stops _ _ => exact stops

theorem failed_of_report {fault : Fault} {report : Report}
    (tells : report? (.error fault) = some report) : report = .failed fault := by
  unfold report? at tells
  dsimp only at tells
  split at tells
  · exact (Option.some.inj tells).symm
  · cases tells

theorem ComesTo.report {job : SendJob} {point : SendPoint} {outcome : Except Fault Value}
    (h : job.ComesTo point outcome) (proper : job.behaviour.Proper) :
    ∃ report, report? outcome = some report := by
  cases h with
  | cancelled _ _ => exact ⟨.failed .cancelled, rfl⟩
  | caught _ own d => exact report_conclude (proper.onCancel _ own) d _
  | @unfit _ fault _ unfit => exact ⟨.failed fault, if_pos (.inr (ordinary_pause unfit))⟩
  | concluded _ d => exact report_conclude proper.ending d _

end SendJob

namespace Bench

variable {old : Nat → Prop} {b b' : Bench} {id k : Nat} {name : LoopName} {c c' : Call}
  {reports : List Report}

def answersOf (b : Bench) (id : Nat) : List Report :=
  (b.answers.filter fun answer => answer.1 = id).map (·.2)

/-- Every send that has ended told its handle what it came to, and nobody else told anything. -/
structure Answered (b : Bench) : Prop where
  stands : ∀ (id : Nat) (c : Call), b.calls[id]? = some c → c.program.Stands c.status
  told : ∀ (id : Nat) (c : Call), b.calls[id]? = some c → c.isEnded = true →
    c.program.Told (b.answersOf id)
  silent : ∀ id : Nat, ¬ b.Ended id → b.answersOf id = []

theorem answersOf_self (same : b'.answers = reports.map (id, ·) ++ b.answers) :
    b'.answersOf id = reports ++ b.answersOf id := by
  have own : (reports.map (id, ·)).filter (fun answer => decide (answer.1 = id)) =
      reports.map (id, ·) := by
    refine List.filter_eq_self.2 fun answer hm => ?_
    obtain ⟨report, -, rfl⟩ := List.mem_map.1 hm
    exact decide_eq_true rfl
  rw [answersOf, same, List.filter_append, own, List.map_append, List.map_map]
  exact congrArg (· ++ b.answersOf id) (List.map_id reports)

theorem answersOf_of_ne (same : b'.answers = reports.map (id, ·) ++ b.answers) (other : k ≠ id) :
    b'.answersOf k = b.answersOf k := by
  have none : (reports.map (id, ·)).filter (fun answer => decide (answer.1 = k)) = [] := by
    refine List.filter_eq_nil_iff.2 fun answer hm => ?_
    obtain ⟨report, -, rfl⟩ := List.mem_map.1 hm
    simpa using Ne.symm other
  rw [answersOf, same, List.filter_append, none, List.nil_append, answersOf]

/-! While others move, a call stands where it stood. -/

theorem Keeps.stands (keeps : b.Keeps old c c') (h : c.program.Stands c.status) :
    c'.program.Stands c'.status := by
  rw [keeps.program]
  generalize hp : c.program = p at h
  cases p with
  | send job point =>
    have live : c'.status ≠ .ended → c.status ≠ .ended := by
      intro live ended
      exact live (Call.isEnded_iff.1 (keeps.ended.trans (Call.isEnded_iff.2 ended)))
    have rests : c'.status ≠ .running → c.status ≠ .running := mt keeps.running.2
    exact ⟨fun running => h.goes (keeps.running.1 running),
      fun still going => h.rests (rests still) (live going),
      fun still going ends => keeps.doomed (h.doomed (rests still) (live going) ends)⟩
  | _ => trivial

theorem Begins.stands {p : Program} (h : b.Begins id p) {s : Status} (still : s ≠ .running) :
    p.Stands s := by
  cases p with
  | send job point =>
    obtain ⟨rfl, -⟩ := h
    exact ⟨fun running => absurd running still, fun _ _ => .inl rfl, by simp⟩
  | _ => trivial

theorem Answered.stays_stands (h : Answered b) (stays : Stays old b b')
    (hc' : b'.calls[k]? = some c') : c'.program.Stands c'.status := by
  rcases stays.origin hc' with ⟨c, hc, keeps⟩ | ⟨-, begins, -, still⟩
  · exact keeps.stands (h.stands k c hc)
  · exact Begins.stands begins still

theorem Answered.stays_told (h : Answered b) (stays : Stays old b b')
    (hc' : b'.calls[k]? = some c') (ended : c'.isEnded = true) :
    c'.program.Told (b.answersOf k) := by
  rcases stays.origin hc' with ⟨c, hc, keeps⟩ | ⟨-, -, live, -⟩
  · rw [keeps.program]
    exact h.told k c hc (keeps.ended.symm.trans ended)
  · rw [live] at ended
    cases ended

theorem Answered.beside (h : Answered b) (noProgress : NoProgress old b b') : Answered b' := by
  have same : ∀ k, b'.answersOf k = b.answersOf k := fun k => by
    rw [answersOf, noProgress.answers, answersOf]
  refine ⟨fun k c' hc' => h.stays_stands noProgress.toStays hc', fun k c' hc' ended => ?_,
    fun k live => ?_⟩
  · rw [same]
    exact h.stays_told noProgress.toStays hc' ended
  · rw [same]
    exact h.silent k (mt (noProgress.ended k).2 live)

/-- The call that moves tells what it tells, and nobody else is concerned. -/
theorem answered_resolve (h : Answered b) (hc : b.calls[id]? = some c) (live : c.isEnded = false)
    (stays : Stays old b b') (answers : b'.answers = reports.map (id, ·) ++ b.answers)
    {progress : Progress} (tells : progress.Tells c.program reports) :
    Answered (b'.resolve id progress) := by
  obtain ⟨c₁, hc₁, keeps⟩ := stays.kept id c hc
  have after := resolved hc₁ progress
  rw [← after.answers] at answers
  obtain ⟨c', hc', -, status, program⟩ := after.own
  have untold : b.answersOf id = [] := h.silent id (by simp [ended_iff hc, live])
  have own : (b'.resolve id progress).answersOf id = reports := by
    rw [answersOf_self answers, untold, List.append_nil]
  have gone : c'.isEnded = progress.program?.isNone := after.isEnded hc'
  refine ⟨fun k u hu => ?_, fun k u hu ended => ?_, fun k going => ?_⟩
  · by_cases same : k = id
    · subst same
      rw [hc', Option.some.injEq] at hu
      subst hu
      cases leads : progress.program? with
      | none =>
        rw [leads, Option.isNone_none, Call.isEnded_iff] at gone
        rw [gone]
        exact c'.program.stands_ended
      | some q =>
        rw [program, status, leads]
        exact (tells.onward q leads).2
    · rw [after.others k same] at hu
      exact h.stays_stands stays hu
  · by_cases same : k = id
    · subst same
      rw [hc', Option.some.injEq] at hu
      subst hu
      rw [ended, eq_comm, Option.isNone_iff_eq_none] at gone
      rw [own, program, gone, Option.getD_none, keeps.program]
      exact tells.ended gone
    · rw [after.others k same] at hu
      rw [answersOf_of_ne answers same]
      exact h.stays_told stays hu ended
  · by_cases same : k = id
    · subst same
      cases leads : progress.program? with
      | none =>
        rw [leads] at gone
        exact absurd ((ended_iff hc').2 gone) going
      | some q => rw [own, (tells.onward q leads).1]
    · rw [answersOf_of_ne answers same]
      refine h.silent k fun ended => going ?_
      obtain ⟨u, hu, ends⟩ := (stays.ended k).2 ended
      exact ⟨u, (after.others k same).trans hu, ends⟩

/-! Points of a send. -/

theorem tells_onward {p : Program} {job : SendJob} {point : SendPoint} {progress : Progress}
    (leads : progress.program? = some (.send job point))
    (stands : job.Stands point progress.status) : progress.Tells p [] where
  onward q hq := by
    rw [leads, Option.some.injEq] at hq
    exact ⟨rfl, hq ▸ stands⟩
  ended ends := by
    rw [leads] at ends
    cases ends

theorem tells_ended {p : Program} {progress : Progress} (ends : progress.program? = none)
    (told : p.Told reports) : progress.Tells p reports where
  onward q hq := by
    rw [ends] at hq
    cases hq
  ended _ := told

/-- A send that goes on at once stands where it may, unless it comes to its end. -/
theorem stands_going {job : SendJob} {point : SendPoint}
    (goes : point = .conclude → job.behaviour.hangs = false) : job.Stands point .running :=
  ⟨fun _ => goes, fun still => absurd rfl still, fun still => absurd rfl still⟩

theorem stands_resting {job : SendJob} {point : SendPoint} {progress : Progress}
    (rests : progress.goesOn = false) (stops : job.Stops point) (before : point ≠ .conclude) :
    job.Stands point progress.status :=
  ⟨fun running => absurd running (Progress.status_ne_running rests), fun _ _ => .inr stops,
    fun _ _ ends => absurd ends before⟩

/-- A send that goes on at will tells nothing yet, and stands where it may. -/
theorem tells_goesOn {job : SendJob} {progress : Progress} (goesOn : job.GoesOn progress)
    (p : Program) : progress.Tells p [] := by
  have rests : ∀ {q : Progress} {behaviour : Behaviour} {point : SendPoint}, point.Midway →
      q.goesOn = false → q.program? = some (.send { job with behaviour } point) →
        q.Tells p [] := by
    intro q behaviour point midway rests leads
    refine tells_onward leads (stands_resting rests ?_ ?_)
    · cases point with
      | yields _ | hang => trivial
      | start | sleep | conclude => exact midway.elim
    · rintro rfl
      exact midway
  cases goesOn with
  | goes begun ends => exact tells_onward rfl (stands_going ends)
  | yields midway | sleeps _ midway | hangs midway => exact rests midway rfl rfl

/-- The end of a send tells its handle what the send came to. -/
theorem told_endSend (b : Bench) (id : Nat) (job : SendJob) (outcome : Except Fault Value) :
    (b.endSend id job outcome).1.answers =
      (SendJob.report? outcome).toList.map (id, ·) ++ b.answers :=
  (@answers_endSend anyId b id job outcome).answers

theorem told_concludeSend {job : SendJob} {d : Destination}
    (hd : b.destinations[job.destination]? = some d) (id : Nat) (ending : Ending) :
    (b.concludeSend id job ending).1.answers =
      (SendJob.report? (d.conclude ending job.entries).1).toList.map (id, ·) ++ b.answers :=
  (@answers_concludeSend anyId b job d hd id ending).answers

theorem tells_sendStep {job : SendJob} {point : SendPoint} {d : Destination}
    (hd : b.destinations[job.destination]? = some d) (stands : job.Stands point .running) :
    ∃ reports, (b.sendStep id job point).1.answers = reports.map (id, ·) ++ b.answers ∧
      (b.sendStep id job point).2.Tells (.send job point) reports := by
  cases point with
  | start =>
    rw [sendStep]
    simp only [hd]
    exact ⟨[], rfl, tells_onward rfl (stands_going (by simp))⟩
  | yields times =>
    cases times with
    | zero => exact ⟨[], rfl, tells_onward rfl (stands_going (by simp))⟩
    | succ n => exact ⟨[], rfl, tells_onward rfl (stands_resting rfl trivial (by simp))⟩
  | sleep =>
    rw [sendStep]
    split
    · exact ⟨[], rfl, tells_onward rfl (stands_going (by simp))⟩
    · next milliseconds sleeps =>
      split
      · next fault unfit =>
        refine ⟨_, told_endSend b id job (.error fault),
          tells_ended (endSend_ends b id job (.error fault)) (.inr ⟨_, ?_, rfl⟩)⟩
        exact .unfit sleeps unfit
      · exact ⟨[], rfl, tells_onward rfl (stands_resting rfl trivial (by simp))⟩
      · exact ⟨[], rfl, tells_onward rfl (stands_resting rfl trivial (by simp))⟩
  | hang =>
    rw [sendStep]
    split
    · next hangs =>
      refine ⟨[], rfl, tells_onward rfl ?_⟩
      exact ⟨fun running => absurd running (Progress.status_ne_running rfl),
        fun _ _ => .inr hangs, fun _ _ _ => .inr rfl⟩
    · next goes => exact ⟨[], rfl, tells_onward rfl (stands_going fun _ => by simpa using goes)⟩
  | conclude =>
    refine ⟨_, told_concludeSend hd id _,
      tells_ended (concludeSend_ends b id job _) (.inr ⟨_, ?_, rfl⟩)⟩
    exact .concluded (stands.goes rfl rfl) d

theorem tells_sendInterrupted {job : SendJob} {point : SendPoint} {d : Destination} {s : Status}
    (hd : b.destinations[job.destination]? = some d) (stands : job.Stands point s)
    (still : s ≠ .running) (live : s ≠ .ended) :
    ∃ reports, (b.sendInterrupted id job point).1.answers = reports.map (id, ·) ++ b.answers ∧
      (b.sendInterrupted id job point).2.Tells (.send job point) reports := by
  rcases stands.rests still live with rfl | stops
  · exact ⟨[], rfl, tells_ended rfl (.inl ⟨rfl, rfl⟩)⟩
  · cases own : job.behaviour.onCancel with
    | some ending =>
      have caught : b.sendInterrupted id job point = b.concludeSend id job ending := by
        cases point with
        | start => exact stops.elim
        | _ => simp only [sendInterrupted, own]
      rw [caught]
      refine ⟨_, told_concludeSend hd id ending,
        tells_ended (concludeSend_ends b id job ending) (.inr ⟨_, ?_, rfl⟩)⟩
      exact .caught stops own d
    | none =>
      have passes : b.sendInterrupted id job point = b.endSend id job (.error .cancelled) := by
        cases point with
        | start => exact stops.elim
        | _ => simp only [sendInterrupted, own]
      rw [passes]
      refine ⟨_, told_endSend b id job (.error .cancelled),
        tells_ended (endSend_ends b id job (.error .cancelled)) (.inr ⟨_, ?_, rfl⟩)⟩
      exact .cancelled stops own

/-! All programs. -/

/-- A program that is no send becomes none, and has nothing to tell. -/
theorem tells_of_other {p : Program} (other : p.sendsTo? = none) {progress : Progress}
    (leads : progress.From p) : progress.Tells p [] where
  onward q hq := by
    refine ⟨rfl, Program.stands_of_other ?_ _⟩
    rw [(leads q hq).sendsTo?, other]
  ended _ := Program.told_of_other other

theorem answers_advanceProgram {p : Program} (other : p.sendsTo? = none) :
    (b.advanceProgram id name p).1.answers = b.answers := by
  by_cases steady : p.Steady
  · exact (noProgress_advanceProgram (known_any b) steady).answers
  · cases p with
    | write job point =>
      cases point with
      | accept => exact answers_writeAccept b job
      | _ => exact absurd trivial steady
    | send job point => cases other
    | _ => exact absurd trivial steady

theorem tells_advanceProgram (name : LoopName)
    (known : ∀ i, c.program.sendsTo? = some i → ∃ d, b.destinations[i]? = some d)
    (stands : c.program.Stands .running) :
    ∃ reports, (b.advanceProgram id name c.program).1.answers =
        reports.map (id, ·) ++ b.answers ∧
      (b.advanceProgram id name c.program).2.Tells c.program reports := by
  generalize c.program = p at known stands
  cases other : p.sendsTo? with
  | none =>
    exact ⟨[], answers_advanceProgram other,
      tells_of_other other (from_advanceProgram b id name p)⟩
  | some i =>
    obtain ⟨d, hd⟩ := known i other
    cases p with
    | send job point =>
      cases other
      exact tells_sendStep hd stands
    | _ => cases other

theorem tells_interruptProgram {p : Program} {s : Status}
    (known : ∀ i, p.sendsTo? = some i → ∃ d, b.destinations[i]? = some d) (stands : p.Stands s)
    (still : s ≠ .running) (live : s ≠ .ended) :
    ∃ reports, (b.interruptProgram id p).1.answers = reports.map (id, ·) ++ b.answers ∧
      (b.interruptProgram id p).2.Tells p reports := by
  have ends := interruptProgram_ends b id p
  cases p with
  | send job point =>
    obtain ⟨d, hd⟩ := known job.destination rfl
    exact tells_sendInterrupted hd stands still live
  | write job _ | commit job _ =>
    exact ⟨[], (@noProgress_dropWaiter anyId b job.writer id).answers, tells_ended ends rfl⟩
  | _ => exact ⟨[], rfl, tells_ended ends rfl⟩

/-- A send that has not ended is for a destination that exists. -/
theorem Tended.destination (h : Tended old b) (hc : b.calls[id]? = some c)
    (live : c.isEnded = false) (i : Nat) (sends : c.program.sendsTo? = some i) :
    ∃ d, b.destinations[i]? = some d := by
  rcases h.listed i id ⟨c, hc, sends⟩ with ended | ⟨d, hd, -⟩
  · rw [ended_iff hc, live] at ended
    cases ended
  · exact ⟨d, hd⟩

theorem Shift.answered (h : Shift old b b') (orderly : Orderly b) (tended : Tended old b)
    (answered : Answered b) : Answered b' := by
  cases h with
  | beside noProgress _ => exact answered.beside noProgress
  | @woken id c b₀ _ hc queued noProgress _ calls same =>
    have answers : b₀.answers = ([] : List Report).map (id, ·) ++ b.answers := noProgress.answers
    rw [same]
    refine answered_resolve answered hc (by rw [Call.isEnded, queued]) noProgress.toStays answers ?_
    refine ⟨fun q hq => ⟨rfl, ?_⟩, by simp [Progress.program?]⟩
    cases hq
    have stands := answered.stands id c hc
    generalize c.program = p at stands
    rw [queued] at stands
    cases p with
    | send job point =>
      -- Where a send hangs, its cancellation is all that can wake it.
      refine stands_going fun ends => ?_
      have doomed := stands.doomed (by simp) (by simp) ends
      simp [Status.Doomed] at doomed
    | _ => trivial
  | @advanced id c running hc same =>
    obtain ⟨status, live, -, -⟩ := orderly.runs running hc
    obtain ⟨reports, answers, tells⟩ := tells_advanceProgram c.loop
      (tended.destination hc live) (status ▸ answered.stands id c hc)
    rw [same]
    exact answered_resolve answered hc live (stays_advanceProgram tended.known id _ _) answers tells
  | @interrupted id c b₀ _ hc queued noProgress calls same =>
    have live : c.isEnded = false := by rw [Call.isEnded, queued]
    obtain ⟨reports, answers, tells⟩ := tells_interruptProgram (b := b₀)
      ((tended.stays noProgress.toStays).destination (calls ▸ hc) live) (answered.stands id c hc)
      (by simp [queued]) (by simp [queued])
    rw [noProgress.answers] at answers
    rw [same]
    exact answered_resolve answered hc live
      (noProgress.toStays.trans (stays_interruptProgram b₀ id c.program)) answers tells

theorem Wills.answered (h : Wills old b b') (answered : Answered b) : Answered b' := by
  cases h with
  | beside noProgress => exact answered.beside noProgress
  | @goesOn id c job point progress b₀ hc live sends comes noProgress same =>
    have silent : b₀.answers = ([] : List Report).map (id, ·) ++ b.answers := noProgress.answers
    rw [same]
    exact answered_resolve answered hc live noProgress.toStays silent (tells_goesOn comes _)

theorem answered_start (s : Scenario) : Answered s.start where
  stands id c hc := by cases hc
  told id c hc := by cases hc
  silent _ _ := rfl

theorem ReachableAtWill.answered (h : ReachableAtWill b) : Answered b := by
  induction h with
  | init s _ => exact answered_start s
  | move h m ih =>
    obtain ⟨orderly, tended⟩ := h.underway
    rcases m.shift orderly tended.truthful with shift | wills
    · exact shift.answered orderly tended ih
    · exact wills.answered ih

/-! Runs in which a send is cancelled. -/

def sink (script : List Behaviour) : Scenario :=
  ⟨[{ name := "sink", adapter := .sender, script }], [], []⟩

theorem unused_sink (script : List Behaviour) : (sink script).Unused := by
  intro d hd
  rw [List.mem_singleton.1 hd]
  exact ⟨rfl, rfl⟩

theorem idle_sink (script : List Behaviour) : (sink script).Idle := by
  intro d hd
  rw [List.mem_singleton.1 hd]

def sending (script : List Behaviour) : Bench :=
  (sink script).start.start .main (some "batch") (.submit 0 [.nat 1, .nat 2] "batch") []

theorem moves_sending (script : List Behaviour) : Moves (sink script).start (sending script) := by
  have known : (sink script).start.programOf "batch" (.submit "sink" [.nat 1, .nat 2]) =
      .ok (.submit 0 [.nat 1, .nat 2] "batch") := rfl
  exact .single (.start .main known)

def draining : Bench :=
  (run 7 (sending [{ hangs := true }])).start .main (some "drain") (.drainSends 0 .start) []

theorem moves_draining : Moves (sink [{ hangs := true }]).start draining := by
  have known : (run 7 (sending [{ hangs := true }])).programOf "drain" (.drain "sink") =
      .ok (.drainSends 0 .start) := rfl
  exact ((moves_sending _).trans (moves_run _ 7)).tail (.start .main known)

def stubborn (behaviour : Behaviour) : Program :=
  .send { destination := 0, entries := [.nat 1, .nat 2], handle := .recorder "batch", behaviour }
    .conclude

def resisting : Bench :=
  ((run 2 draining).setLoop .main {}).resolve 1
    (.go (stubborn { ending := .raises (.raised "ValueError" []) }))

theorem moves_resisting : MovesAtWill draining resisting := by
  obtain ⟨c, hc, cancelled, sends⟩ : ∃ c : Call, (run 2 draining).calls[1]? = some c ∧
      c.status = .queued true ∧ c.program = stubborn { hangs := true } := ⟨_, rfl, rfl, rfl⟩
  refine (Moves.atWill (moves_run _ 2)).tail ?_
  exact .swallows (by rfl) (by rfl) hc cancelled sends (by simp) (.goes (by simp) fun _ => rfl)

def drained : Bench := run 4 resisting

def drainedEarly : Bench :=
  run 9 ((sending []).start .main (some "drain") (.drainSends 0 .start) [])

theorem moves_drainedEarly : Moves (sink []).start drainedEarly := by
  have known : (sending []).programOf "drain" (.drain "sink") = .ok (.drainSends 0 .start) := rfl
  exact ((moves_sending []).tail (.start .main known)).trans (moves_run _ 9)

/-- **Reports.** In every run, whatever its sends do from their first point to their last, a send
tells its handle at most once, and nothing before it has ended. One that has begun and ends tells
what it came to, as a failure when it was cancelled or raised; one that is cancelled before it
begins tells nothing. Once a drain of the destination has returned, every send has ended that
there was before the drain came to wait. -/
theorem reports_once (h : ReachableAtWill b) (hc : b.calls[id]? = some c) {job : SendJob}
    {point : SendPoint} (sends : c.program = .send job point) :
    (b.answersOf id).length ≤ 1 ∧
      (c.isEnded = false → b.answersOf id = []) ∧
      (c.isEnded = true → point = .start → b.answersOf id = []) ∧
      (c.isEnded = true → point ≠ .start → job.behaviour.Proper →
        ∃ outcome report, job.ComesTo point outcome ∧ SendJob.report? outcome = some report ∧
          (∀ fault, outcome = .error fault → report = .failed fault) ∧
          b.answersOf id = [report]) ∧
      ∀ (s : Scenario) (before returning : Bench) (k : Nat), s.Unused → s.Idle →
        MovesAtWill s.start before → before.SendsTo job.destination id →
        ¬ before.Gathering job.destination k → MovesAtWill before returning →
        returning.Returns job.destination k → MovesAtWill returning b → c.isEnded = true := by
  have told : c.isEnded = true → job.Told point (b.answersOf id) := by
    intro ended
    have told := h.answered.told id c hc ended
    rwa [sends] at told
  have silent : c.isEnded = false → b.answersOf id = [] :=
    fun live => h.answered.silent id (by simp [ended_iff hc, live])
  refine ⟨?_, silent, fun ended begins => ?_, fun ended begun proper => ?_,
    fun s before returning k unused idle first sent waits next returns later => ?_⟩
  · cases ended : c.isEnded with
    | false => simp [silent ended]
    | true =>
      rcases told ended with ⟨-, none⟩ | ⟨outcome, -, same⟩
      · simp [none]
      · rw [same]
        exact Option.length_toList_le
  · rcases told ended with ⟨-, none⟩ | ⟨outcome, comes, -⟩
    · exact none
    · exact absurd begins comes.begun
  · obtain ⟨outcome, comes, same⟩ := (told ended).resolve_left fun unbegun => begun unbegun.1
    obtain ⟨report, tells⟩ := comes.report proper
    refine ⟨outcome, report, comes, tells, fun fault fails => ?_, by rw [same, tells]; rfl⟩
    exact SendJob.failed_of_report (fails ▸ tells)
  · have start := (underway_start unused idle).moves first
    obtain ⟨sent, heeds⟩ := start.heeds (fun none => none) sent (.of_not_gathering waits) next
    have ended := (start.moves next).ended_of_returns sent heeds returns
    exact (ended_iff hc).1 ((start.moves next).ended ended later)

theorem reports_once_drained : ∃ (c : Call) (job : SendJob), drained.calls[1]? = some c ∧
    c.program = .send job .conclude ∧ c.isEnded = true ∧ job.behaviour.Proper ∧
    drained.answersOf 1 = [.failed (.raised "ValueError" [])] := by
  obtain ⟨c, job, hc, sends, aim, behaviour⟩ : ∃ (c : Call) (job : SendJob),
      drained.calls[1]? = some c ∧ c.program = .send job .conclude ∧ job.destination = 0 ∧
      job.behaviour = { ending := .raises (.raised "ValueError" []) } := ⟨_, _, rfl, rfl, rfl, rfl⟩
  have sent : draining.SendsTo 0 1 := ⟨_, rfl, rfl⟩
  have fresh : ¬ draining.Gathering 0 2 := by
    rintro ⟨drain, hk, drains⟩
    cases hk
    cases drains
  have returns : drained.Returns 0 2 := ⟨_, .gathered, .null, rfl, rfl, rfl, rfl⟩
  have proper : job.behaviour.Proper := by
    rw [behaviour]
    exact ⟨.inr (by decide), by simp⟩
  have later : MovesAtWill draining drained := moves_resisting.trans (Moves.atWill (moves_run _ 4))
  have first : MovesAtWill (sink [{ hangs := true }]).start draining := moves_draining.atWill
  have reach : ReachableAtWill drained :=
    (ReachableAtWill.init _ (unused_sink _)).moves (first.trans later)
  obtain ⟨-, -, -, told, gone⟩ := reports_once reach hc sends
  have ended : c.isEnded = true :=
    gone _ draining drained 2 (unused_sink _) (idle_sink _) first (aim ▸ sent) (aim ▸ fresh) later
      (aim ▸ returns) .refl
  obtain ⟨outcome, report, comes, -, fails, same⟩ := told ended (by simp) proper
  refine ⟨c, job, hc, sends, ended, proper, ?_⟩
  cases comes with
  | cancelled stops plain | caught stops own d =>
    rw [SendJob.Stops, behaviour] at stops
    cases stops
  | concluded goes d =>
    rw [behaviour] at fails
    rw [same, fails _ rfl]

theorem untold_when_cancelled_early : ∃ (b : Bench) (c drain : Call) (job : SendJob),
    Reachable b ∧ b.calls[2]? = some c ∧ c.program = .send job .start ∧ c.isEnded = true ∧
    job.behaviour.Proper ∧ b.answersOf 2 = [] ∧ b.calls[1]? = some drain ∧
    drain.program = .drainSends job.destination .gathered ∧ drain.isEnded = true :=
  ⟨drainedEarly, _, _, _, (Reachable.init _ (unused_sink _)).moves moves_drainedEarly, rfl, rfl,
    rfl, ⟨trivial, by simp⟩, rfl, rfl, rfl, rfl⟩

end Bench
end BatchWriter
