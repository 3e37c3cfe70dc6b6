import BatchWriter.Proofs.Writer.Memory
import BatchWriter.Proofs.Writer.Order
import BatchWriter.Proofs.Writer.Places
import BatchWriter.Proofs.Writer.Terminal

/-!
# Batches that are not full

A batch is full when the buffer held enough entries as it was taken out. A buffer that is full
always does: it is accepted only with more room than a batch needs. The history tells how many
batches were short of that, and how often a write announced that it had to wait.
-/

set_option autoImplicit false

namespace BatchWriter

/-- What is at most some number is at most every greater one. -/
theorem Number.le_mono {x : Number} {a b : Int} (h : x.le (.int a) = true) (ab : a ≤ b) :
    x.le (.int b) = true := by
  rw [le, compare?] at h ⊢
  generalize x.magnitude = size at h ⊢
  cases size with
  | unordered => cases h
  | infinite s => exact h
  | ratio num den =>
    have scaled : a * (den : Int) ≤ b * den := Int.mul_le_mul_of_nonneg_right ab (by omega)
    simp only [magnitude, Magnitude.compare?] at h ⊢
    cases order : compare (num * ((1 : Nat) : Int)) (b * den) with
    | lt | eq => rfl
    | gt =>
      rw [Std.compare_eq_gt.2 (scaled.trans_lt (Std.compare_eq_gt.1 order))] at h
      cases h

/-- A buffer has room for more than a batch. -/
theorem Config.above_of_ofArguments {args : Arguments} {config : Config}
    (h : ofArguments args = .ok config) : config.maxBuffered.le config.maxBatchSize = false := by
  simp only [ofArguments, Bind.bind, Except.bind] at h
  repeat' split at h
  all_goals cases h
  all_goals simp_all

def Milestone.isWait : Milestone → Bool
  | .announced event => event.level != .ok
  | _ => false

namespace History

/-- How many batches were opened with another number of entries. -/
def short (n : Nat) (h : History) : Nat := h.batches.countP (·.length ≠ n)

def waits (h : History) : Nat := h.countP (·.2.isWait)

theorem short_le {h h' : History} {n : Nat} (same : h'.batches = h.batches) :
    h'.short n ≤ h.short n := by
  rw [short, same, short]

theorem waits_le {h h' : History} (hs : h <:+ h') : h.waits ≤ h'.waits := hs.sublist.countP_le

end History

namespace Writer

variable {w : Writer} {n : Nat}

theorem Lawful.full_of_isFull (h : w.Lawful) (whole : w.config.maxBatchSize.whole? = some (n : Int))
    (full : w.buffer.isFull = true) : n ≤ w.buffer.size := by
  obtain ⟨args, accepted⟩ := h.accepted
  have above := Config.above_of_ofArguments accepted
  rw [Number.le, (Number.compare?_of_whole whole _).1, ← Number.le] at above
  rw [Buffer.isFull, h.capacity] at full
  by_contra fewer
  have below := Number.le_mono full (b := (n : Int)) (by omega)
  rw [above] at below
  cases below

theorem full_of_hasFullBatch (whole : w.config.maxBatchSize.whole? = some (n : Int))
    (full : w.hasFullBatch = true) : n ≤ w.buffer.size := by
  rw [hasFullBatch, Number.ofNat, Number.le_of_whole whole, decide_eq_true_eq] at full
  omega

/-- A dispatch opens what the buffer yields as a batch, if anything. -/
theorem history_startDispatch (w : Writer) (loop : LoopName) (now : Nat) :
    (w.startDispatch loop now).1.writer.history = w.history ∨
      ∃ batch entries rest, w.buffer.take w.config.maxBatchSize = .ok (entries, rest) ∧
        (w.startDispatch loop now).1.writer.history = (now, .opened batch entries)
          :: w.history := by
  unfold startDispatch
  split
  · exact .inl rfl
  · split
    · exact .inl rfl
    · next entries rest taken =>
      dsimp only
      split
      · exact .inl rfl
      · have bound := (silent_bind
          { w with buffer := rest, deferred := w.deferred && !rest.isEmpty }
          loop).history
        unfold Change.andThen
        split
        · exact .inl bound
        · have opened := justOpened_openBatch (bind loop
            { w with buffer := rest, deferred := w.deferred && !rest.isEmpty }).writer now entries
          exact .inr ⟨_, entries, rest, taken, by rw [opened.history, bound]⟩

theorem batches_concludeDispatch (w : Writer) (now : Nat) (parcel : Parcel)
    (refusal : Option Fault) :
    (w.concludeDispatch now parcel refusal).writer.history.batches = w.history.batches := by
  rcases w.writer_concludeDispatch now parcel refusal with same | ⟨fault, -, same⟩
  · rw [same]
    rfl
  · rw [same]
    rfl

end Writer
end BatchWriter
