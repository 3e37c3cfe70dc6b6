import BatchWriter.Proofs.Writer.Motion

/-!
# Closed and failed writers

A writer that is closed or has failed stays so, keeps its first failure and opens no batch any
more. What still happens to it is that calls leave, batches end and entries are appended.
-/

set_option autoImplicit false

namespace BatchWriter

def Milestone.Submits : Milestone → Prop
  | .opened _ _ | .handed _ _ => True
  | _ => False

namespace Writer

def Unsent (w w' : Writer) : Prop :=
  ∃ newer : History, w'.history = newer ++ w.history ∧ ∀ e ∈ newer, ¬ e.2.Submits

/-- A later writer, which has sent nothing if work was refused before. -/
structure Ceases (w w' : Writer) : Prop where
  later : w.Later w'
  unsent : w.refusal? ≠ none → w.Unsent w'

variable {now : Nat} {u v w : Writer} {c : Change}

theorem Later.andThen {next : Writer → Change} (h : u.Later c.writer)
    (hn : c.fault = none → c.writer.Later (next c.writer).writer) :
    u.Later (c.andThen next).writer :=
  Change.of_parts (P := u.Later) h fun ok => h.trans (hn ok)

namespace Unsent

theorem of_history (h : w.history = u.history) : u.Unsent w := ⟨[], h, by simp⟩

theorem refl (w : Writer) : w.Unsent w := of_history rfl

theorem trans (h : u.Unsent v) (h' : v.Unsent w) : u.Unsent w := by
  obtain ⟨older, he, still⟩ := h
  obtain ⟨newer, he', still'⟩ := h'
  refine ⟨newer ++ older, by rw [he', he, List.append_assoc], fun e hm => ?_⟩
  exact (List.mem_append.1 hm).elim (still' e) (still e)

theorem noted {now : Nat} {m : Milestone} (history : w.history = (now, m) :: u.history)
    (quiet : ¬ m.Submits) : u.Unsent w :=
  ⟨[(now, m)], history, by simpa using quiet⟩

theorem andThen {next : Writer → Change} (h : u.Unsent c.writer)
    (hn : c.fault = none → c.writer.Unsent (next c.writer).writer) :
    u.Unsent (c.andThen next).writer :=
  Change.of_parts (P := u.Unsent) h fun ok => h.trans (hn ok)

theorem bind (w : Writer) (loop : LoopName) : w.Unsent (w.bind loop).writer :=
  of_history (w.silent_bind loop).history

theorem armTimerIf (w : Writer) (condition : Bool) : w.Unsent (w.armTimerIf condition).writer :=
  of_history (w.silent_armTimerIf condition).history

theorem complete (w : Writer) (now batch : Nat) (failed : List Value) :
    w.Unsent (w.complete now batch failed).writer := by
  unfold Writer.complete
  split
  · exact refl w
  · next request _ =>
    have released : w.Unsent ((w.note now (.completed batch request.entries failed)).release
        batch).writer := noted rfl (by simp [Milestone.Submits])
    refine andThen (andThen released fun _ => refl _) fun _ => ?_
    unfold Writer.requeue
    split
    · exact refl _
    · exact andThen (andThen (of_history rfl) fun _ => refl _) fun _ => armTimerIf _ _

theorem losing (w : Writer) (now batch : Nat) {m : Milestone} (quiet : ¬ m.Submits)
    (fault : Fault) : w.Unsent (w.losing now batch m fault) :=
  noted rfl quiet

theorem close (w : Writer) (now : Nat) : w.Unsent (w.close now).writer := by
  by_cases closed : w.closed = true
  · rw [Writer.close, if_pos closed]
    exact refl w
  · rw [writer_close (by simpa using closed)]
    exact ⟨abandonments now w.inFlight.requests.reverse, rfl, by
      simp [abandonments, Milestone.Submits]⟩

theorem expire (w : Writer) (now batch : Nat) : w.Unsent (w.expire now batch).writer := by
  rcases w.writer_expire now batch with same | ⟨r, limit, -, same⟩
  · rw [same]; exact .refl w
  · rw [same]; exact .losing _ _ _ (by simp [Milestone.Submits]) _

theorem bufferTimeOver (w : Writer) : w.Unsent w.bufferTimeOver.1.writer :=
  .of_history w.silent_bufferTimeOver.history

end Unsent

theorem CallChange.unsent (h : CallChange now w c) : w.Unsent c.writer := by
  induction h with
  | mild same => rw [same]; exact .refl _
  | andThen _ _ first second => exact first.andThen second
  | note event => exact .noted rfl (by simp [Milestone.Submits])
  | bind loop => exact .bind _ _
  | accept entry =>
    exact .andThen (.noted rfl (by simp [Milestone.Submits])) fun _ => .armTimerIf _ _
  | close => exact .close _ now
  | emptyBatch | addWaiter | dropWaiter => exact .of_history rfl

theorem PlainChange.unsent (h : PlainChange now w c) : w.Unsent c.writer := by
  cases h with
  | callChange h => exact h.unsent
  | complete batch failed => exact .complete _ _ _ _
  | beginTimedFlush => exact .noted rfl (by simp [Milestone.Submits])
  | endTimedFlush => exact .andThen (.of_history rfl) fun _ => .armTimerIf _ _
  | beginDeferredFlush | endCompletion => exact .of_history rfl
  | reportFailed batch fault =>
    rcases w.writer_reportFailed now batch fault with same | ⟨r, -, same⟩
    · rw [same]; exact .refl w
    · rw [same]; exact .losing _ _ _ (by simp [Milestone.Submits]) _

theorem CallChange.later (h : CallChange now w c) : w.Later c.writer := by
  induction h with
  | mild same => rw [same]; exact .refl _
  | andThen _ _ first second => exact first.andThen second
  | note event => exact later_note _ _ _
  | bind loop => exact (regular_bind _ loop).later
  | accept entry => exact (regular_accept _ now entry).later
  | emptyBatch batch => exact (regular_emptyBatch _ batch).later
  | addWaiter | dropWaiter =>
    exact ⟨rfl, rfl, rfl, rfl, fun _ h => h, Nat.le_refl _, .refl _, fun h => h, fun _ h => h,
      List.suffix_refl _⟩
  | close => exact (regular_close _ now).later

theorem PlainChange.later (h : PlainChange now w c) : w.Later c.writer := by
  cases h with
  | callChange h => exact h.later
  | complete batch failed => exact (regular_complete _ now batch failed).later
  | beginDeferredFlush => exact (regular_beginDeferredFlush _).later
  | beginTimedFlush => exact (regular_beginTimedFlush _ now).later
  | endTimedFlush => exact (regular_endTimedFlush _).later
  | endCompletion => exact (regular_endCompletion _).later
  | reportFailed batch fault => exact (regular_reportFailed _ now batch fault).later

namespace Ceases

theorem refl (w : Writer) : w.Ceases w := ⟨.refl w, fun _ => .refl w⟩

theorem trans (h : u.Ceases v) (h' : v.Ceases w) : u.Ceases w where
  later := h.later.trans h'.later
  unsent refused :=
    (h.unsent refused).trans (h'.unsent fun usable => refused (h.later.usable usable))

theorem expire (w : Writer) (now batch : Nat) : w.Ceases (w.expire now batch).writer :=
  ⟨(regular_expire w now batch).later, fun _ => .expire w now batch⟩

theorem bufferTimeOver (w : Writer) : w.Ceases w.bufferTimeOver.1.writer :=
  ⟨(regular_bufferTimeOver w).later, fun _ => .bufferTimeOver w⟩

end Ceases

/-- No motion sends anything once the writer refuses work: a dispatch stops before it takes
entries. -/
theorem Motion.ceases (h : Motion now w c) : w.Ceases c.writer := by
  cases h with
  | plainChange h => exact ⟨h.later, fun _ => h.unsent⟩
  | startDispatch bound =>
    refine ⟨(regular_startDispatch _ _ now).later, fun refused => .of_history ?_⟩
    obtain ⟨fault, refuses⟩ := Option.ne_none_iff_exists'.1 refused
    simp only [Writer.startDispatch, refuses]
    rfl
  | concludeDispatch parcel refusal usable =>
    exact ⟨(regular_concludeDispatch _ now parcel refusal).later, fun refused =>
      absurd usable refused⟩

end Writer
end BatchWriter
