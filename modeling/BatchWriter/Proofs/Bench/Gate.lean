import BatchWriter.Proofs.Bench.Advance

/-!
# The gate of a write

A write looks whether its writer accepts work and has room, and appends its entry before
anybody else has the turn. Only a write that tells its subscribers that the buffer has
recovered may be kept in between: whether it is depends on what the subscribers do.
-/

set_option autoImplicit false

namespace BatchWriter

/-- A subscriber that neither gives way nor acts on a writer. -/
def Reaction.Prompt : Reaction → Prop
  | .sleep milliseconds => ∃ fault, pauseDelay milliseconds = .error fault
  | .yield times => times = 0
  | .close _ => False
  | _ => True

def Attention.Prompt : Attention → Prop
  | .fresh => True
  | .yields times => times = 0
  | .asleep => False

namespace Bench

def Prompt (b : Bench) : Prop := ∀ s ∈ b.subscribers, s.reaction.Prompt

def Usable (b : Bench) (i : Nat) : Prop :=
  ∃ w : Writer, b.writers[i]? = some w ∧ w.refusal? = none

def Admits (b : Bench) (i : Nat) : Prop :=
  ∃ w : Writer, b.writers[i]? = some w ∧ w.refusal? = none ∧ w.buffer.isFull = false

end Bench

namespace Program

/-- What a running call has seen of its writer. One that is about to append its entry has
seen room, unless it told subscribers that are not prompt that the buffer has recovered. -/
def Cleared (b : Bench) : Program → Prop
  | .write job (.gate _) => b.Usable job.writer
  | .write job .accept =>
    b.Admits job.writer ∨ (¬ b.Prompt ∧ job.published.getLast? = some .ok)
  | .write job (.publishing delivery next) =>
    (b.Prompt → delivery.attention.Prompt) ∧
      (next = .accept →
        job.published.getLast? = some .ok ∧ (b.Prompt → b.Admits job.writer))
  | _ => True

/-- Where a call may stand while others run: no write stops between the gate and the append,
but for subscribers that are not prompt. -/
def Paused (b : Bench) : Program → Prop
  | .write _ (.gate _) | .write _ .accept => False
  | .write job (.publishing _ next) =>
    ¬ b.Prompt ∧ (next = .accept → job.published.getLast? = some .ok)
  | _ => True

end Program

def Progress.Checked (b : Bench) : Progress → Prop
  | .go p => p.Cleared b
  | .yield p | .sleep _ p | .wait _ p => p.Paused b
  | .finish _ => True

def DeliveryProgress.Goes : DeliveryProgress → Prop
  | .go delivery => delivery.attention.Prompt
  | .yield _ | .sleep _ _ => False
  | .done | .stop _ => True

namespace Bench

variable {b b' : Bench} {id i : Nat} {name : LoopName} {c : Call} {p : Program} {w : Writer}

/-! Nobody but the running call touches what it has seen. -/

theorem prompt_iff (same : b'.subscribers = b.subscribers) : b'.Prompt ↔ b.Prompt := by
  unfold Prompt
  rw [same]

theorem Spares.usable (h : b.Spares b') (usable : b.Usable i) : b'.Usable i := by
  obtain ⟨w, hw, rest⟩ := usable
  exact ⟨w, h i w hw, rest⟩

theorem Spares.admits (h : b.Spares b') (admits : b.Admits i) : b'.Admits i := by
  obtain ⟨w, hw, rest⟩ := admits
  exact ⟨w, h i w hw, rest⟩

theorem Spares.cleared (h : b.Spares b') (same : b'.subscribers = b.subscribers)
    (cleared : p.Cleared b) : p.Cleared b' := by
  cases p with
  | write job point =>
    cases point with
    | gate _ => exact h.usable cleared
    | accept =>
      rw [Program.Cleared, prompt_iff same]
      exact cleared.imp_left h.admits
    | publishing delivery next =>
      rw [Program.Cleared, prompt_iff same]
      exact ⟨cleared.1, fun ends => (cleared.2 ends).imp_right fun room prompt =>
        h.admits (room prompt)⟩
    | start | flush _ | slot _ | woken _ | dispatch _ | batching => trivial
  | _ => trivial

theorem paused_iff (same : b'.subscribers = b.subscribers) : p.Paused b' ↔ p.Paused b := by
  cases p with
  | write job point =>
    cases point with
    | publishing delivery next => rw [Program.Paused, Program.Paused, prompt_iff same]
    | _ => rfl
  | _ => rfl

theorem Begins.paused (h : b.Begins id p) : p.Paused b := by
  cases p with
  | write job point =>
    obtain ⟨rfl, -⟩ := h
    trivial
  | _ => trivial

/-- Whoever was kept has lost its sight only where the subscribers are not prompt. -/
theorem cleared_of_paused (h : p.Paused b) : p.Cleared b := by
  cases p with
  | write job point =>
    cases point with
    | gate _ | accept => exact h.elim
    | publishing delivery next =>
      exact ⟨fun prompt => absurd prompt h.1, fun ends =>
        ⟨h.2 ends, fun prompt => absurd prompt h.1⟩⟩
    | start | flush _ | slot _ | woken _ | dispatch _ | batching => trivial
  | _ => trivial

/-! A point leaves the call with what it has seen. -/

theorem checked_of_other {progress : Progress}
    (other : ∀ job point, progress.program? ≠ some (.write job point)) : progress.Checked b := by
  cases progress with
  | finish _ => trivial
  | go p | yield p | sleep _ p | wait _ p =>
    cases p with
    | write job point => exact absurd rfl (other job point)
    | _ => trivial

theorem checked_goUnless {fault : Option Fault} (h : fault = none → p.Cleared b) :
    (Progress.goUnless fault p).Checked b := by
  cases fault with
  | none => exact h rfl
  | some fault => trivial

theorem checked_waitForChange (b : Bench) (id i : Nat) (loop : LoopName) (paused : p.Paused b') :
    (b.waitForChange id i loop p).2.Checked b' := by
  unfold waitForChange
  dsimp only
  generalize Prod.fst _ = fault
  cases fault with
  | none => exact paused
  | some fault => trivial

/-- A step on a writer is looked at where the writer exists. -/
theorem checked_withWriter {f : Writer → Bench × Progress}
    (h : ∀ w : Writer, b.writers[i]? = some w → (f w).2.Checked (f w).1) :
    (b.withWriter i f).2.Checked (b.withWriter i f).1 := by
  cases hw : b.writers[i]? with
  | none =>
    rw [withWriter, hw]
    trivial
  | some w =>
    rw [withWriter_some hw]
    exact h w hw

/-! Prompt subscribers neither keep a delivery nor touch a writer. -/

theorem goes_subscriberFault (b : Bench) (d : Delivery) (fault : Fault) :
    (b.subscriberFault d fault).2.Goes ∧ (b.subscriberFault d fault).1.writers = b.writers := by
  unfold subscriberFault
  split
  · exact ⟨trivial, rfl⟩
  · exact ⟨trivial, rfl⟩

theorem goes_react (b : Bench) (d : Delivery) {reaction : Reaction} (prompt : reaction.Prompt) :
    (b.react d reaction).2.Goes ∧ (b.react d reaction).1.writers = b.writers := by
  cases reaction with
  | collect => exact ⟨trivial, rfl⟩
  | raise fault => exact goes_subscriberFault b d fault
  | sleep milliseconds =>
    obtain ⟨fault, unfit⟩ := prompt
    rw [react, unfit]
    exact goes_subscriberFault b d fault
  | yield times => exact ⟨prompt, rfl⟩
  | unsubscribe bus name => exact ⟨trivial, (Aside.unsubscribe b bus name).writers⟩
  | subscribe bus name => exact ⟨trivial, (Aside.subscribe b bus name).writers⟩
  | close name => exact prompt.elim
  | complete destination call =>
    unfold react
    dsimp only
    split
    · exact ⟨trivial, writers_tellHandle _ _ _⟩
    · exact goes_subscriberFault b d _

theorem Prompt.reaction (h : b.Prompt) (name : String) :
    (((b.subscriber? name).map Subscriber.reaction).getD .collect).Prompt := by
  cases found : b.subscriber? name with
  | none => trivial
  | some s => exact h s (List.mem_of_find?_eq_some found)

theorem goes_attend (h : b.Prompt) {d : Delivery} (prompt : d.attention.Prompt) :
    (b.attend d).2.Goes ∧ (b.attend d).1.writers = b.writers := by
  unfold attend
  split
  · exact ⟨trivial, rfl⟩
  · next name _ _ =>
    split
    · next asleep =>
      rw [asleep] at prompt
      exact prompt.elim
    · exact ⟨trivial, rfl⟩
    · next times yields =>
      rw [yields] at prompt
      cases prompt
    · split
      · exact goes_subscriberFault b d _
      · exact goes_react _ d (h.reaction name)

/-! Points of a write. -/

/-- A write announces what it has found; that changes nothing about the writer. -/
theorem checked_publishLevel {job : WriteJob} (hw : b.writers[job.writer]? = some w)
    (level : Level) (reason : String) (next : WritePoint) (resumes : next.Resumes)
    (ready : next = .accept → level = .ok ∧ w.refusal? = none ∧ w.buffer.isFull = false) :
    (b.publishLevel job w level reason next).2.Checked
      (b.publishLevel job w level reason next).1 := by
  have kept : ∃ u : Writer, (b.publishLevel job w level reason next).1.writers[job.writer]? =
      some u ∧ u.refusal? = w.refusal? ∧ u.buffer = w.buffer := by
    refine ⟨w.note b.now (.announced (w.event level reason)), ?_, rfl, rfl⟩
    rw [publishLevel]
    dsimp only
    rw [(Aside.publication _ _ _).writers]
    exact writer_change hw _
  obtain ⟨u, hu, refusal, buffer⟩ := kept
  have told : next = .accept → (job.published ++ [level]).getLast? = some .ok ∧
      (b.publishLevel job w level reason next).1.Admits job.writer := by
    intro ends
    obtain ⟨rfl, usable, room⟩ := ready ends
    exact ⟨List.getLast?_concat, u, hu, refusal.trans usable, buffer ▸ room⟩
  unfold publishLevel at told ⊢
  dsimp only at told ⊢
  split
  · -- Nobody is subscribed, so the write goes on at once.
    cases next with
    | accept => exact .inl (told rfl).2
    | flush _ | slot _ => trivial
    | start | gate _ | woken _ | dispatch _ | batching | publishing _ _ => exact resumes.elim
  · next delivery published =>
    refine ⟨fun _ => ?_, fun ends => (told ends).imp_right fun room _ => room⟩
    unfold publication at published
    dsimp only at published
    split at published
    · cases published
    · cases published
      trivial

theorem checked_writeStart {job : WriteJob} (held : b.Held job.writer) :
    (b.writeStart name job).2.Checked (b.writeStart name job).1 := by
  obtain ⟨w, hw⟩ := held
  unfold writeStart
  split
  · trivial
  · refine checked_goUnless fun none => ?_
    rw [fault_change hw] at none
    obtain ⟨bound, checked⟩ := Writer.fault_of_andThen none
    refine ⟨_, writer_change hw _, ?_⟩
    rw [Change.writer_andThen bound, Writer.writer_checkUsable]
    exact Writer.fault_checkUsable checked

theorem checked_writeGate {job : WriteJob} {blocked : Bool} (usable : b.Usable job.writer) :
    (b.writeGate job blocked).2.Checked (b.writeGate job blocked).1 := by
  obtain ⟨w, hw, usable⟩ := usable
  rw [writeGate, withWriter_some hw]
  split
  · split
    · have held : (b.change job.writer (·.holdBack .bufferFull)).2.writers[job.writer]? = some w :=
        writer_change hw _
      exact checked_publishLevel held _ _ (.flush _) trivial (by simp)
    · trivial
  · next room =>
    have room : w.buffer.isFull = false := by simpa using room
    split
    · exact checked_publishLevel hw _ _ .accept trivial fun _ => ⟨rfl, usable, room⟩
    · exact .inl ⟨w, hw, usable, room⟩

theorem checked_writeFlush (b : Bench) (job : WriteJob) (stage : Stage) :
    (b.writeFlush job stage).2.Checked (b.writeFlush job stage).1 := by
  refine checked_withWriter fun w hw => ?_
  split
  · trivial
  · have held : (b.change job.writer (·.holdBack .inFlightLimit)).2.writers[job.writer]? =
        some w := writer_change hw _
    exact checked_publishLevel held _ _ (.slot stage) trivial (by simp)

/-- A dispatch without a fault was one of a usable writer, and it still is. -/
theorem usable_dispatch (h : Coherent (some id) b) (hw : b.writers[i]? = some w)
    (bound : w.loop = some name) (room : w.hasCapacity = true)
    (through : (b.dispatch i name).1 = none) : (b.dispatch i name).2.Usable i := by
  obtain ⟨-, w', hw', refusal, -⟩ := dispatch_spec h hw bound room
  have usable : w.refusal? = none := by
    by_contra refused
    obtain ⟨fault, hr⟩ := Option.ne_none_iff_exists'.1 refused
    rw [dispatch, hw] at through
    simp only [Writer.startDispatch, hr] at through
    rw [fault_change hw] at through
    simp [hr, Change.stop] at through
  exact ⟨w', hw', (refusal through).trans usable⟩

theorem checked_writeDispatch (h : Coherent (some id) b) {job : WriteJob}
    (owned : b.Owned job.writer name)
    (room : ∀ w, b.writers[job.writer]? = some w → w.hasCapacity = true) (stage : Stage) :
    (b.writeDispatch name job stage).2.Checked (b.writeDispatch name job stage).1 := by
  obtain ⟨w, hw, bound⟩ := owned
  refine checked_goUnless fun through => ?_
  cases stage with
  | filling blocked => exact usable_dispatch h hw bound (room w hw) through
  | batching => trivial

theorem checked_writeAccept (b : Bench) (job : WriteJob) :
    (b.writeAccept job).2.Checked (b.writeAccept job).1 := by
  refine checked_withWriter fun w _ => ?_
  split
  · trivial
  · exact checked_goUnless fun _ => trivial

theorem checked_writeBatching (b : Bench) (job : WriteJob) :
    (b.writeBatching job).2.Checked (b.writeBatching job).1 := by
  refine checked_withWriter fun w _ => ?_
  split
  · trivial
  · exact checked_goUnless fun _ => trivial

theorem checked_writePublishing {job : WriteJob} {d : Delivery} {next : WritePoint}
    (resumes : next.Resumes) (cleared : (Program.write job (.publishing d next)).Cleared b) :
    (b.writePublishing job d next).2.Checked (b.writePublishing job d next).1 := by
  have same : (b.attend d).1.Prompt ↔ b.Prompt :=
    prompt_iff (@noProgress_attend anyId b d).subscribers
  -- What prompt subscribers do leaves the write with the room that it has seen.
  have goes : (b.attend d).1.Prompt → (b.attend d).2.Goes :=
    fun prompt => (goes_attend (same.1 prompt) (cleared.1 (same.1 prompt))).1
  have room : next = .accept → job.published.getLast? = some .ok ∧
      ((b.attend d).1.Prompt → (b.attend d).1.Admits job.writer) := by
    refine fun ends => (cleared.2 ends).imp_right fun seen prompt => ?_
    have kept := (goes_attend (same.1 prompt) (cleared.1 (same.1 prompt))).2
    exact (Spares.of_writers kept).admits (seen (same.1 prompt))
  unfold writePublishing
  dsimp only
  generalize b.attend d = attended at goes room
  obtain ⟨b', progress⟩ := attended
  dsimp only at goes room ⊢
  cases progress with
  | go d' => exact ⟨goes, room⟩
  | yield d' | sleep _ d' => exact ⟨goes, fun ends => (room ends).1⟩
  | stop fault => trivial
  | done =>
    cases next with
    | accept =>
      by_cases prompt : b'.Prompt
      · exact .inl ((room rfl).2 prompt)
      · exact .inr ⟨prompt, (room rfl).1⟩
    | flush _ | slot _ => trivial
    | start | gate _ | woken _ | dispatch _ | batching | publishing _ _ => exact resumes.elim

theorem checked_writeStep (h : Coherent (some id) b) {job : WriteJob} {point : WritePoint}
    (fits : (Program.write job point).Fits b name) (poised : (Program.write job point).Poised b)
    (cleared : (Program.write job point).Cleared b) :
    (b.writeStep id name job point).2.Checked (b.writeStep id name job point).1 := by
  cases point with
  | start => exact checked_writeStart fits
  | gate blocked => exact checked_writeGate cleared
  | flush stage => exact checked_writeFlush b job stage
  | slot stage =>
    refine checked_withWriter fun w _ => ?_
    split
    · trivial
    · exact checked_waitForChange _ _ _ _ trivial
  | woken stage => exact checked_goUnless fun _ => trivial
  | dispatch stage => exact checked_writeDispatch h fits poised stage
  | accept => exact checked_writeAccept b job
  | batching => exact checked_writeBatching b job
  | publishing d next => exact checked_writePublishing fits.2 cleared

theorem checked_advanceProgram (h : Coherent (some id) b) (fits : p.Fits b name)
    (poised : p.Poised b) (cleared : p.Cleared b) :
    (b.advanceProgram id name p).2.Checked (b.advanceProgram id name p).1 := by
  cases p with
  | write job point => exact checked_writeStep h fits poised cleared
  | _ => exact checked_of_other fun _ _ leads => (from_advanceProgram b id name _ _ leads).elim

end Bench
end BatchWriter
