import BatchWriter.Bench.Step
import BatchWriter.Proofs.Bench.Resolve

/-!
# Deliveries, sends and jobs

Subscribers may close a writer or report an outcome, sends and jobs tell their handles how
they ended, and calls are cancelled and gathered. All of it passes a coherent bench on.
-/

set_option autoImplicit false

namespace BatchWriter

theorem mem_of_entryAt? {α : Type} {entries : List α} {place : Int} {x : α}
    (h : entryAt? entries place = some x) : x ∈ entries := by
  unfold entryAt? at h
  split at h
  · exact List.mem_of_getElem? h
  · split at h
    · exact List.mem_of_getElem? h
    · cases h

namespace Bench

variable {hand : Option Nat} {b b' : Bench} {id : Nat} {name : LoopName}

def GoesOn (id : Nat) (name : LoopName) (b : Bench) (r : Bench × Progress) : Prop :=
  Passes (some id) b r.1 ∧ r.2.Fits r.1 name

theorem GoesOn.after {r : Bench × Progress} (h : Passes (some id) b b')
    (next : Coherent (some id) b' → GoesOn id name b' r) : GoesOn id name b r :=
  ⟨h.trans (next h.coherent).1, (next h.coherent).2⟩

/-- What a point of a call leads to: it goes on, or the call waits for a writer. -/
inductive Leads (id : Nat) (name : LoopName) (b : Bench) : Bench × Progress → Prop where
  | on {r : Bench × Progress} (goes : GoesOn id name b r) : Leads id name b r
  | park {i : Nat} {w : Writer} {next : Program} (found : b.writers[i]? = some w)
      (usable : w.refusal? = none) (blocked : next.Blocked w) (waits : next.waitsOn? = some i)
      (fits : next.Fits b name) :
      Leads id name b (b.relist i w (w.waiters ++ [id]), .wait .change next)

theorem Leads.orderly {r : Bench × Progress} (h : Leads id name b r) (hb : InHand b id name) :
    Orderly (r.1.resolve id r.2) := by
  cases h with
  | on goes => exact orderly_resolve (hb.passes goes.1) goes.2
  | park found usable blocked waits fits =>
    exact orderly_park hb found usable blocked waits fits

/-! A delivery goes on with the next subscriber, whatever the last one did. -/

theorem passes_subscriberFault (h : Coherent hand b) (d : Delivery) (fault : Fault) :
    Passes hand b (b.subscriberFault d fault).1 := by
  unfold subscriberFault
  split
  · exact passes_of_aside h (.log _ _)
  · exact .refl h

theorem handleFits_of_handleOf (h : Coherent hand b) {destination : String} {call : Int}
    {found : Handle × List Value} (hf : b.handleOf destination call = .ok found) :
    b.HandleFits found.1 := by
  unfold handleOf at hf
  split at hf
  · cases hf
  · split at hf
    · cases hf
    · next d hd =>
      have there : entryAt? d.calls call = some found := by
        cases he : entryAt? d.calls call with
        | none => simp [he] at hf
        | some x => simpa [he] using hf
      exact (destinationFits_of_getElem h hd).1 found (mem_of_entryAt? there)

theorem passes_react (h : Coherent hand b) (d : Delivery) (reaction : Reaction) :
    Passes hand b (b.react d reaction).1 := by
  cases reaction with
  | collect | yield _ => exact .refl h
  | raise fault => exact passes_subscriberFault h d fault
  | sleep milliseconds =>
    rw [react]
    split
    · exact passes_subscriberFault h d _
    · exact .refl h
    · exact .refl h
  | unsubscribe bus name => exact passes_of_aside h (.unsubscribe _ _ _)
  | subscribe bus name => exact passes_of_aside h (.subscribe _ _ _)
  | close name =>
    rw [react]
    split
    · exact passes_change h fun _ _ => .close b.now
    · exact passes_subscriberFault h d _
  | complete destination call =>
    rw [react]
    split
    · next found hf => exact passes_tellHandle h (handleFits_of_handleOf h hf) _
    · exact passes_subscriberFault h d _

theorem passes_attend (h : Coherent hand b) (d : Delivery) : Passes hand b (b.attend d).1 := by
  unfold attend
  split
  · exact .refl h
  · split
    · exact .refl h
    · exact .refl h
    · exact .refl h
    · split
      · exact passes_subscriberFault h d _
      · exact (passes_of_aside h (.tell _ _)).andThen fun h => passes_react h d _

theorem goes_deliverStep (h : Coherent (some id) b) (d : Delivery) :
    GoesOn id name b (b.deliverStep d) := by
  unfold deliverStep
  refine ⟨passes_attend h d, ?_⟩
  dsimp only
  split <;> simp [Progress.Fits, Program.Fits, Program.Rests, Program.Poised, Program.waitsOn?,
    Progress.stop]

/-! A cancelled call is queued with its cancellation, unless it gathers others. -/

theorem passes_interruptOne (h : Coherent hand b) (id : Nat) :
    Passes hand b (b.interruptOne id).2 := by
  unfold interruptOne
  split
  · exact .refl h
  · next c hc =>
    split
    · exact .refl h
    · exact .refl h
    · next hs => exact passes_setCall h hc (.interrupted hs) c.watchers
    · next hs =>
      have kept := passes_time h (b.time.cancel (.wake id)) fun a ha =>
        h.alarms a (List.mem_of_mem_filter ha)
      exact kept.trans (passes_queue kept.coherent hc hs fun _ => rfl)
    · next hs => exact passes_queue h hc hs fun _ => rfl
    · next hs => exact passes_queue h hc hs fun _ => rfl
    · next hs => exact passes_setCall h hc (.left hs) c.watchers

theorem passes_interruptAll (h : Coherent hand b) (ids : List Nat) :
    Passes hand b (b.interruptAll ids) := by
  unfold interruptAll
  induction ids generalizing b with
  | nil => exact .refl h
  | cons id rest ih =>
    exact (passes_interruptOne h id).andThen ih

theorem passes_interrupt (h : Coherent hand b) (id : Nat) :
    Passes hand b (b.interrupt id).2 := by
  unfold interrupt
  split
  · exact (passes_interruptAll h _).andThen fun h => passes_interruptOne h id
  · exact passes_interruptOne h id

/-! A send tells its handle at most once how it ended. -/

theorem passes_answer (h : Coherent hand b) (id : Nat) {job : SendJob}
    (fits : b.HandleFits job.handle) (report : Report) :
    Passes hand b (b.answer id job report) := by
  have noted : Passes hand b { b with answers := (id, report) :: b.answers } :=
    passes_of_aside h ⟨rfl, rfl, rfl, rfl, rfl, rfl, rfl, rfl⟩
  exact noted.andThen fun h => passes_tellHandle h (noted.grows.handle fits) report

theorem goes_endSend (h : Coherent (some id) b) {job : SendJob}
    (fits : b.HandleFits job.handle) (outcome : Except Fault Value) :
    GoesOn id name b (b.endSend id job outcome) := by
  unfold endSend
  split
  · split
    · exact ⟨passes_answer h id fits _, trivial⟩
    · split
      · exact ⟨(passes_of_aside h (.log _ _)).andThen fun h => passes_answer h id fits _, trivial⟩
      · exact ⟨.refl h, trivial⟩
  · split
    · exact ⟨passes_answer h id fits _, trivial⟩
    · exact ⟨.refl h, trivial⟩

theorem destinationFits_conclude {d : Destination} (fits : b.DestinationFits d) (ending : Ending)
    (batch : List Value) : b.DestinationFits (d.conclude ending batch).2 := by
  unfold Destination.conclude
  split
  · exact fits
  · exact fits
  · exact fits
  · split
    · exact fits
    · exact fits

theorem goes_concludeSend (h : Coherent (some id) b) {job : SendJob}
    (fits : b.HandleFits job.handle) (ending : Ending) :
    GoesOn id name b (b.concludeSend id job ending) := by
  unfold concludeSend
  split
  · exact ⟨.refl h, trivial⟩
  · next d hd =>
    have known := destinationFits_conclude (destinationFits_of_getElem h hd) ending job.entries
    have set := passes_setDestination h job.destination known
    exact .after set fun h => goes_endSend h (set.grows.handle fits) _

theorem goes_sendStep (h : Coherent (some id) b) {job : SendJob} (fits : b.HandleFits job.handle)
    (point : SendPoint) : GoesOn id name b (b.sendStep id job point) := by
  have same : ∀ p, GoesOn id name b (b, .go (.send job p)) :=
    fun p => ⟨.refl h, fits, trivial⟩
  have yields : ∀ p, GoesOn id name b (b, .yield (.send job p)) :=
    fun p => ⟨.refl h, fits, trivial⟩
  cases point with
  | start =>
    rw [sendStep]
    split
    · exact ⟨.refl h, trivial⟩
    · next d hd =>
      have reached := hands_reach h job.destination (destinationFits_of_getElem h hd) job.entries
      exact ⟨reached.1, reached.1.grows.handle fits, trivial⟩
  | yields times =>
    cases times with
    | zero => exact same _
    | succ n => exact yields _
  | sleep =>
    rw [sendStep]
    split
    · exact same _
    · split
      · exact goes_endSend h fits _
      · exact yields _
      · exact ⟨.refl h, fits, trivial, rfl⟩
  | hang =>
    rw [sendStep]
    split
    · exact ⟨.refl h, fits, trivial, rfl, by simp⟩
    · exact same _
  | conclude => exact goes_concludeSend h fits _

theorem goes_sendInterrupted (h : Coherent (some id) b) {job : SendJob}
    (fits : b.HandleFits job.handle) (point : SendPoint) :
    GoesOn id name b (b.sendInterrupted id job point) := by
  unfold sendInterrupted
  split
  · exact ⟨.refl h, trivial⟩
  · split
    · exact goes_concludeSend h fits _
    · exact goes_endSend h fits _

/-! Calls that gather others are told of each of them once. -/

theorem passes_gather (h : Coherent hand b) (id : Nat) (loop : LoopName) (child : Nat) :
    Passes hand b (gather id loop b child) := by
  unfold gather
  split
  · exact passes_post h loop _ trivial
  · next running =>
    cases hc : b.calls[child]? with
    | none => simp [isEnded, hc] at running
    | some c =>
      rw [modify_call hc]
      exact passes_setCall h hc .same _

theorem passes_countGathered (h : Coherent hand b) (id child : Nat) :
    Passes hand b (b.countGathered id child) := by
  unfold countGathered
  split
  · exact .refl h
  · next c hc =>
    split
    · next hs =>
      dsimp only
      split
      · exact passes_queue h hc hs (by simp)
      · exact passes_setCall h hc (.left hs) c.watchers
    · exact .refl h

theorem passes_gatherAll (h : Coherent hand b) (id : Nat) (loop : LoopName)
    (children : List Nat) : Passes hand b (children.foldl (gather id loop) b) := by
  induction children generalizing b with
  | nil => exact .refl h
  | cons child rest ih => exact (passes_gather h id loop child).andThen ih

theorem goes_drainStep (h : Coherent (some id) b) (loop : LoopName) (destination : Nat)
    (point : DrainPoint) : GoesOn id name b (b.drainStep id loop destination point) := by
  cases point with
  | gathered | astray => exact ⟨.refl h, trivial⟩
  | start =>
    rw [drainStep]
    split
    · exact ⟨.refl h, trivial⟩
    · next d hd =>
      split
      · exact ⟨.refl h, trivial⟩
      · have cancels := passes_interruptAll h d.pending
        dsimp only
        split
        · refine ⟨cancels.andThen fun h => passes_gatherAll h id loop _, ?_⟩
          exact ⟨trivial, trivial, rfl, by simp⟩
        · split
          · exact ⟨cancels, trivial⟩
          · exact ⟨cancels, trivial, trivial⟩

theorem passes_forget (h : Coherent hand b) (destination id : Nat) :
    Passes hand b (b.forget destination id) := by
  unfold forget
  split
  · exact .refl h
  · next d hd =>
    have fits := destinationFits_of_getElem h hd
    exact passes_setDestination h destination ⟨fits.1, fits.2⟩

theorem passes_shutDown (h : Coherent hand b) (destination : Nat) :
    Passes hand b (b.shutDown destination) := by
  unfold shutDown
  split
  · exact .refl h
  · next d hd =>
    have fits := destinationFits_of_getElem h hd
    exact passes_setDestination h destination ⟨fits.1, fits.2⟩

/-! An executor runs a job once. -/

theorem passes_answerJob (h : Coherent hand b) (destination i : Nat) {job : Job}
    (fits : b.HandleFits job.handle) (report : Report) :
    Passes hand b (b.answerJob destination i job report) := by
  have noted : Passes hand b
      { b with jobAnswers := ((destination, i), report) :: b.jobAnswers } :=
    passes_of_aside h ⟨rfl, rfl, rfl, rfl, rfl, rfl, rfl, rfl⟩
  exact noted.andThen fun h => passes_tellHandle h (noted.grows.handle fits) report

theorem passes_endJob (h : Coherent hand b) (destination i : Nat) {job : Job}
    (fits : b.HandleFits job.handle) (outcome : Except Fault Value) :
    Passes hand b (b.endJob destination i job outcome) := by
  unfold endJob
  split
  · exact (passes_of_aside h (.log _ _)).andThen fun h => passes_answerJob h _ _ fits _
  · split
    · exact passes_answerJob h _ _ fits _
    · exact .refl h

theorem destinationFits_setJob {d : Destination} (fits : b.DestinationFits d) (i : Nat)
    {job : Job} (known : b.HandleFits job.handle) :
    b.DestinationFits { d with jobs := d.jobs.set i job } := by
  refine ⟨fits.1, fun other ho => ?_⟩
  rcases List.mem_or_eq_of_mem_set ho with ho | rfl
  · exact fits.2 other ho
  · exact known

theorem passes_runJob (h : Coherent hand b) (destination i : Nat) :
    Passes hand b (b.runJob destination i).2 := by
  unfold runJob
  split
  · exact .refl h
  · next d hd =>
    have fits := destinationFits_of_getElem h hd
    split
    · next handle entries hj =>
      have known : b.HandleFits handle := fits.2 _ (List.mem_of_getElem? hj)
      have ran : b.DestinationFits { d with
          jobs := d.jobs.set i { handle, entries, state := .finished }
          reached := d.reached + 1 } := destinationFits_setJob fits i known
      have set := passes_setDestination h destination
        (destinationFits_conclude ran (d.behaviour d.reached).ending entries)
      have told := set.andThen fun h =>
        passes_of_aside h (.tell _ (.reached d.name d.reached entries))
      exact told.andThen fun h => passes_endJob h _ _ (told.grows.handle known) _
    · exact .refl h

theorem passes_cancelJob (h : Coherent hand b) (destination i : Nat) :
    Passes hand b (b.cancelJob destination i).2 := by
  unfold cancelJob
  split
  · exact .refl h
  · next d hd =>
    have fits := destinationFits_of_getElem h hd
    split
    · exact .refl h
    · next job hj =>
      have known : b.HandleFits job.handle := fits.2 _ (List.mem_of_getElem? hj)
      split
      · exact .refl h
      · exact .refl h
      · have set := passes_setDestination h destination
          (destinationFits_setJob fits i (show b.HandleFits
            ({ job with state := .cancelled } : Job).handle from known))
        exact set.andThen fun h => passes_answerJob h _ _ (set.grows.handle known) _

end Bench
end BatchWriter
