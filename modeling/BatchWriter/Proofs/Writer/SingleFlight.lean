import BatchWriter.Proofs.Writer.Order

/-!
# One batch at a time

While at most one batch may be open, what has still to be persisted is that batch followed
by the buffer, and this list only ever loses entries at the head of which they leave, or
gains those that are written at its end. A completion that reports a subsequence of its
batch puts it back where it came from, since nothing else was taken out in between. With
two open batches the later one could come back in front of the earlier one.
-/

set_option autoImplicit false

namespace BatchWriter

/-- Only smaller whole numbers are below a limit of the size of a whole number. -/
theorem Number.lt_of_lt_same {limit : Number} {k n : Int} (same : limit.same (.int k) = true)
    (below : (Number.int n).lt limit = true) : n < k := by
  have whole : ∀ m : Int, (Number.int m).magnitude = .ratio m 1 := fun _ => rfl
  rw [Number.same, beq_iff_eq, Number.compare?, whole] at same
  rw [Number.lt, beq_iff_eq, Number.compare?, whole] at below
  cases size : limit.magnitude with
  | unordered =>
    rw [size] at same
    cases same
  | infinite negative =>
    rw [size] at same
    cases negative <;> cases same
  | ratio num den =>
    rw [size] at same below
    simp only [Magnitude.compare?, Option.some.injEq, compare_eq_iff_eq, Std.compare_eq_lt,
      Int.natCast_one, Int.mul_one] at same below
    rw [same] at below
    exact Int.lt_of_mul_lt_mul_right below (Int.natCast_nonneg den)

namespace History

def underway (h : History) : List Value := h.openBatches.flatMap h.openedWith

/-- Each completion reported a subsequence of its own batch. -/
def Ordered (h : History) : Prop :=
  ∀ (t batch : Nat) (entries failed : List Value) (earlier : History),
    (t, .completed batch entries failed) :: earlier <:+ h →
      failed.Sublist (earlier.openedWith batch)

variable {h h' : History} {m : Milestone}

theorem ordered_iff : h.Ordered ↔ h.Reports List.Sublist := .rfl

theorem Ordered.of_suffix (ho : h'.Ordered) (hs : h <:+ h') : h.Ordered :=
  ordered_iff.2 ((ordered_iff.1 ho).of_suffix hs)

theorem ordered_nil : Ordered [] := ordered_iff.2 reports_nil

/-- One milestone after another, each completion is ordered like the batch that it ends. -/
theorem ordered_cons (now : Nat) (m : Milestone) (h : History) :
    Ordered ((now, m) :: h) ↔ h.Ordered ∧ ∀ batch entries failed,
      m = .completed batch entries failed → failed.Sublist (h.openedWith batch) :=
  ordered_iff.trans (reports_cons now m h)

/-- Fewer open batches hold fewer entries, in the same order. -/
theorem underway_sublist (fewer : h'.openBatches.Sublist h.openBatches)
    (same : ∀ batch, h'.openedWith batch = h.openedWith batch) :
    h'.underway.Sublist h.underway := by
  rw [underway, funext same]
  exact fewer.flatMap _

/-- A milestone that moves no entries leaves what is in flight as it is. -/
theorem underway_cons (now : Nat) (hm : m.ended? = none) (ho : ∀ b es, m ≠ .opened b es) :
    underway ((now, m) :: h) = h.underway := by
  rw [underway, underway, openBatches_cons now hm ho, funext (openedWith_cons now ho)]

/-- A milestone that ends a batch takes its entries out, and no others. -/
theorem underway_ended (now : Nat) {batch : Nat} (ended : m.ended? = some batch) :
    underway ((now, m) :: h) = (h.openBatches.filter (· ≠ batch)).flatMap h.openedWith := by
  have opens : ∀ b es, m ≠ .opened b es := by
    rintro b es rfl
    cases ended
  rw [underway, openBatches_ended now ended, funext (openedWith_cons now opens)]

end History

namespace Writer

open History

variable {w w' : Writer}

/-- What has still to be persisted: the open batches, then the buffer. -/
def backlog (w : Writer) : List Value := w.history.underway ++ w.buffer.entries

def SingleFlight (w : Writer) : Prop := w.config.maxInFlight.same (.int 1) = true

/-- What has still to be persisted stands in the order in which it was given to the writer. -/
def InSequence (w : Writer) : Prop :=
  w.backlog.Sublist (w.history.initial ++ w.history.written)

theorem SingleFlight.length_ids_le (single : w.SingleFlight) (hb : w.Bounded) (ht : w.Tracked) :
    w.inFlight.ids.length ≤ 1 := by
  rw [SingleFlight, ← hb.limit] at single
  rw [InFlight.length_ids]
  by_contra many
  have below := Number.lt_of_lt_same single (ht.sound.room 1 (by omega))
  omega

/-- A slot of a single one is free only when no batch is open. -/
theorem SingleFlight.ids_of_room (single : w.SingleFlight) (hb : w.Bounded)
    (room : w.hasCapacity = true) : w.inFlight.ids = [] := by
  rw [SingleFlight, ← hb.limit] at single
  have below : (w.inFlight.count : Int) < 1 := Number.lt_of_lt_same single room
  rw [← List.length_eq_zero_iff, InFlight.length_ids]
  omega

theorem SingleFlight.ids_of_mem (single : w.SingleFlight) (hb : w.Bounded) (ht : w.Tracked)
    {batch : Nat} (isOpen : batch ∈ w.inFlight.ids) : w.inFlight.ids = [batch] := by
  have few := single.length_ids_le hb ht
  have one : w.inFlight.ids.length = 1 := by
    have := List.length_pos_of_mem isOpen
    omega
  obtain ⟨only, same⟩ := List.length_eq_one_iff.1 one
  rw [same, List.mem_singleton] at isOpen
  rw [same, isOpen]

/-- What gives nothing to the writer and leaves the buffer alone keeps the sequence, if it puts
nothing in flight. -/
theorem InSequence.of_fewer (hs : w.InSequence)
    (fewer : w'.history.underway.Sublist w.history.underway) (buffer : w'.buffer = w.buffer)
    (initial : w'.history.initial = w.history.initial)
    (written : w'.history.written = w.history.written) : w'.InSequence := by
  unfold InSequence backlog at hs ⊢
  rw [buffer, initial, written]
  exact (fewer.append_right _).trans hs

/-- A batch opened where none is open takes the head of the buffer, and the sequence with it. -/
theorem InSequence.opened {now batch : Nat} {entries : List Value} (hs : w.InSequence)
    (none : w.history.openBatches = [])
    (taken : w.buffer.take w.config.maxBatchSize = .ok (entries, w'.buffer))
    (history : w'.history = (now, .opened batch entries) :: w.history) : w'.InSequence := by
  unfold InSequence backlog at hs ⊢
  have filled : w'.history.underway = entries := by
    rw [history, underway, openBatches, none]
    simp [openedWith]
  rw [underway, none, List.flatMap_nil, List.nil_append] at hs
  rw [filled, (Buffer.append_of_take taken).1, history, History.initial, History.written]
  · exact hs
  all_goals simp

/-- The only batch ends, and what it sends back goes to the head of the buffer. -/
theorem InSequence.completed {now batch : Nat} {entries failed : List Value} (hs : w.InSequence)
    (only : w.history.openBatches = [batch])
    (back : failed.Sublist (w.history.openedWith batch))
    (history : w'.history = (now, .completed batch entries failed) :: w.history)
    (buffer : w'.buffer = w.buffer.prepend failed) : w'.InSequence := by
  unfold InSequence backlog at hs ⊢
  have emptied : w'.history.underway = [] := by
    rw [history, underway_ended now rfl, only]
    simp
  rw [underway, only, List.flatMap_singleton] at hs
  rw [emptied, buffer, Buffer.entries_prepend, List.nil_append, history, History.initial,
    History.written]
  · exact (back.append_right _).trans hs
  all_goals simp

/-- Every episode keeps the sequence, if at most one batch may be open. -/
theorem Episode.inSequence (h : w.Episode w') (single : w.SingleFlight) (hb : w.Bounded)
    (ht : w.Tracked) (ordered : w'.history.Ordered) (hs : w.InSequence) : w'.InSequence := by
  cases h with
  | silent _ quiet =>
    exact hs.of_fewer (quiet.history ▸ List.Sublist.refl _) quiet.buffer
      (by rw [quiet.history]) (by rw [quiet.history])
  | told now m plain same =>
    subst same
    cases m with
    | flushed | announced _ => exact hs
    | _ => exact plain.elim
  | accepted now entry _ history buffer =>
    unfold InSequence backlog at hs ⊢
    rw [history, buffer, underway_cons now rfl (by simp), Buffer.entries_append, initial, written,
      ← List.append_assoc, ← List.append_assoc]
    · exact hs.append_right [entry]
    · simp
  | opened now entries _ _ room taken _ history =>
    exact hs.opened (by rw [ht.opened, single.ids_of_room hb room]) taken history
  | handed now batch entries _ _ _ history buffer =>
    have same : w'.history.underway = w.history.underway := by
      rw [history, underway_cons now rfl (by simp)]
    exact hs.of_fewer (same ▸ List.Sublist.refl _) buffer (by rw [history]; rfl)
      (by rw [history]; rfl)
  | completed now batch entries failed _ isOpen history buffer =>
    exact hs.completed (by rw [ht.opened, single.ids_of_mem hb ht isOpen])
      (ordered now batch entries failed w.history (by rw [history])) history buffer
  | lost now batch m loss _ _ history buffer =>
    have ended := Milestone.ended?_of_lost? loss
    have inert : ∀ e ∈ [(now, m)], e.2.Inert := by simpa using Milestone.inert_of_lost? loss
    have sameEntries := sameEntries_append inert w.history
    refine hs.of_fewer ?_ buffer (by rw [history]; exact sameEntries.initial)
      (by rw [history]; exact sameEntries.written)
    rw [history, underway_ended now ended]
    exact List.filter_sublist.flatMap _
  | closed now _ _ history buffer =>
    have inert : ∀ e ∈ abandonments now w.inFlight.requests.reverse, e.2.Inert := by
      simp [abandonments, Milestone.Inert]
    have sameEntries := sameEntries_append inert w.history
    refine hs.of_fewer ?_ buffer (by rw [history]; exact sameEntries.initial)
      (by rw [history]; exact sameEntries.written)
    rw [history]
    refine underway_sublist ?_ (openedWith_abandoned now _)
    rw [openBatches_abandoned]
    exact List.filter_sublist

/-- With one batch at a time and completions that keep the order, the sequence holds. -/
theorem Lawful.inSequence (h : w.Lawful) (single : w.SingleFlight)
    (ordered : w.history.Ordered) : w.InSequence := by
  have kept := h.keeps (P := fun u => u.Lawful ∧
    (u.SingleFlight → u.history.Ordered → u.InSequence)) ?_ ?_
  · exact kept.2 single ordered
  · intro u new
    obtain ⟨now, entries, history, buffered⟩ := new.history
    refine ⟨new.lawful, fun _ _ => ?_⟩
    rw [InSequence, backlog, history, buffered]
    simp [underway, openBatches, initial, written, Milestone.ended?]
  · rintro u v episode ⟨lawful, sequence⟩
    refine ⟨episode.lawful lawful, fun single ordered => ?_⟩
    rw [SingleFlight, episode.later.config] at single
    exact episode.inSequence single lawful.bounded lawful.tracked ordered
      (sequence single (ordered.of_suffix episode.later.history))

end Writer
end BatchWriter
