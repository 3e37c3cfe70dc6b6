import BatchWriter.Proofs.Limits
import BatchWriter.Proofs.Writer.Handover
import BatchWriter.Proofs.Writer.Turn

/-!
# Slots that are spent

Between two dispatches a writer opens no batch and frees no slot, unless it is closed; then it
dispatches no more. A dispatch takes at least one entry out of a buffer that holds any, and what
it takes is one batch, in one slot.
-/

set_option autoImplicit false

namespace BatchWriter

namespace Buffer

variable {α : Type} {b rest : Buffer α} {limit : Number} {taken : List α}

/-- A limit above zero takes something out of a buffer that holds anything. -/
theorem taken_ne_nil (positive : limit.le (.int 0) = false) (h : b.take limit = .ok (taken, rest))
    (filled : b.entries ≠ []) : taken ≠ [] := by
  rw [take_eq] at h
  cases count : takeCount limit b.size with
  | error fault => simp [count, Except.map] at h
  | ok n =>
    have some : n ≠ 0 := by
      rintro rfl
      unfold takeCount at count
      split at count
      · exact filled (List.length_eq_zero_iff.1 (Except.ok.inj count))
      · cases limit with
        | int m =>
          simp only [Number.le_int, decide_eq_false_iff_not, not_le,
            Except.ok.injEq] at positive count
          omega
        | bool t =>
          cases t with
          | true => cases count
          | false => cases positive
        | float _ => cases count
    simp only [count, Except.map, Except.ok.injEq, Prod.mk.injEq] at h
    rw [← h.1]
    simpa [List.take_eq_nil_iff] using ⟨some, filled⟩

theorem size_of_take (h : b.take limit = .ok (taken, rest)) :
    taken.length + rest.size = b.size := by
  rw [size, size, ← (append_of_take h).1, List.length_append]

end Buffer

namespace Writer

/-- From the one moment to the other no batch was opened, and no slot has become free that a
writer which accepts work could use. -/
structure Holds (w w' : Writer) : Prop where
  config : w'.config = w.config
  batches : w'.history.batches = w.history.batches
  deliveries : w'.history.deliveries = w.history.deliveries
  slots : w'.refusal? ≠ none ∨ w'.refusal? = w.refusal? ∧ w'.inFlight.count = w.inFlight.count

structure Idles (w w' : Writer) : Prop extends Holds w w' where
  buffer : w'.buffer = w.buffer

/-- A write that appends its entry frees no slot. -/
theorem Holds.accept (w : Writer) (now : Nat) (entry : Value) :
    w.Holds (w.accept now entry).writer := by
  unfold Writer.accept
  rw [Change.writer_andThen rfl]
  obtain ⟨armed, same⟩ := (note now (.accepted entry)
    { w with buffer := w.buffer.append entry }).writer_armTimerIf w.buffer.isEmpty
  exact same ▸ ⟨rfl, rfl, rfl, .inr ⟨rfl, rfl⟩⟩

namespace Idles

variable {now : Nat} {u v w : Writer} {c : Change}

theorem of_same (config : v.config = u.config) (history : v.history = u.history)
    (buffer : v.buffer = u.buffer) (refusal : v.refusal? = u.refusal?)
    (count : v.inFlight.count = u.inFlight.count) : u.Idles v where
  config := config
  batches := by rw [history]
  deliveries := by rw [history]
  slots := .inr ⟨refusal, count⟩
  buffer := buffer

theorem refl (w : Writer) : w.Idles w := of_same rfl rfl rfl rfl rfl

theorem trans (h : u.Idles v) (h' : v.Idles w) : u.Idles w where
  config := h'.config.trans h.config
  batches := h'.batches.trans h.batches
  deliveries := h'.deliveries.trans h.deliveries
  slots := by
    rcases h'.slots with refused | ⟨refusal, count⟩
    · exact .inl refused
    · rcases h.slots with refused | ⟨refusal', count'⟩
      · exact .inl (refusal ▸ refused)
      · exact .inr ⟨refusal.trans refusal', count.trans count'⟩
  buffer := h'.buffer.trans h.buffer

theorem andThen {next : Writer → Change} (h : u.Idles c.writer)
    (hn : ∀ v : Writer, v.Idles (next v).writer) : u.Idles (c.andThen next).writer :=
  Change.of_parts (P := u.Idles) h fun _ => h.trans (hn _)

theorem announced (w : Writer) (event : Event) : w.Idles (w.note now (.announced event)) where
  config := rfl
  batches := rfl
  deliveries := rfl
  slots := .inr ⟨rfl, rfl⟩
  buffer := rfl

theorem bind (w : Writer) (loop : LoopName) : w.Idles (w.bind loop).writer := by
  unfold Writer.bind
  split
  · obtain ⟨armed, same⟩ := ({ w with loop := some loop } : Writer).writer_armTimerIf
      (!w.buffer.isEmpty)
    rw [same]
    exact of_same rfl rfl rfl rfl rfl
  · split <;> exact refl w

theorem checkUsable (w : Writer) : w.Idles w.checkUsable.writer := by
  unfold Writer.checkUsable
  split <;> exact refl w

theorem close (w : Writer) (now : Nat) : w.Idles (w.close now).writer := by
  cases isOpen : w.closed with
  | true =>
    rw [Writer.close, if_pos isOpen]
    exact refl w
  | false =>
    obtain ⟨newer, history, quiet⟩ := Unsent.close w now
    obtain ⟨deliveries, batches⟩ := History.sent_append quiet w.history
    rw [← history] at deliveries batches
    have same := writer_close isOpen now
    constructor
    · exact ⟨by rw [same], batches, deliveries, .inl (refusal?_of_closed (by rw [same]))⟩
    · rw [same]

end Idles

/-- A batch was sent: it was taken out of the buffer and opened in a free slot. The destination
was called with it and the writer goes on, or a fault came up. -/
structure Sends (w : Writer) (fault : Option Fault) (w' : Writer) (entries : List Value) :
    Prop where
  config : w'.config = w.config
  usable : w.refusal? = none
  filled : entries ≠ []
  batches : w'.history.batches = w.history.batches ++ [entries]
  deliveries : w'.history.deliveries = w.history.deliveries ++ [entries] ∨
    w'.history.deliveries = w.history.deliveries ∧ fault ≠ none
  onward : fault = none → w'.refusal? = none ∧ w'.inFlight.count = w.inFlight.count + 1 ∧
    entries.length + w'.buffer.size = w.buffer.size

variable {now : Nat} {w : Writer} {loop : LoopName}

/-- A dispatch that hands nothing over has found the buffer empty, or a fault came up: the writer
accepts no work, its limit is no count, or the clock refuses the time of the batch that was
opened. -/
theorem startDispatch_idle (bound : w.loop = some loop)
    (positive : w.config.maxBatchSize.le (.int 0) = false)
    (idle : (w.startDispatch loop now).2 = none) :
    (w.Idles (w.startDispatch loop now).1.writer ∧
      ((w.startDispatch loop now).1.fault = none → w.buffer.size = 0)) ∨
      ∃ entries, (w.startDispatch loop now).1.fault ≠ none ∧
        w.Sends (w.startDispatch loop now).1.fault (w.startDispatch loop now).1.writer entries := by
  unfold startDispatch at idle ⊢
  split
  · exact .inl ⟨.refl w, fun none => by cases none⟩
  · next usable =>
    simp only [usable] at idle
    split
    · exact .inl ⟨.refl w, fun none => by cases none⟩
    · next entries rest taken =>
      simp only [taken] at idle
      dsimp only at idle ⊢
      split
      · next none =>
        have empty : w.buffer.entries = [] := by
          by_contra filled
          exact Buffer.taken_ne_nil positive taken filled (List.isEmpty_iff.1 none)
        obtain ⟨whole, capacity⟩ := Buffer.append_of_take taken
        rw [List.isEmpty_iff.1 none, List.nil_append] at whole
        have same : rest = w.buffer := by
          cases rest
          cases hb : w.buffer
          simp_all
        exact .inl ⟨.of_same rfl rfl same rfl rfl, fun _ => by rw [Buffer.size, empty]; rfl⟩
      · next filled =>
        rw [if_neg filled, bind_of_bound (by exact bound), stay_andThen] at idle
        rw [bind_of_bound (by exact bound), stay_andThen]
        have refused : (openBatch now entries
            { w with buffer := rest, deferred := w.deferred && !rest.isEmpty }).fault ≠ none := by
          intro opens
          rw [opens] at idle
          cases idle
        obtain ⟨inFlight, writer⟩ := writer_openBatch
          { w with buffer := rest, deferred := w.deferred && !rest.isEmpty } now entries
        refine .inr ⟨entries, refused, ?_⟩
        rw [writer]
        exact ⟨rfl, usable, by simpa using filled, rfl, .inr ⟨rfl, refused⟩,
          fun none => absurd none refused⟩

end Writer
end BatchWriter
