import BatchWriter.Proofs.Writer.History
import Mathlib.Tactic.Abel

/-!
# What a history says about its writer

The open batches are those that the history opened and did not end. While a writer
accepts work no batch of it was lost, and what it was given is persisted, in flight or
in the buffer. Each of this is kept by one episode, whatever brings the episode about.
-/

set_option autoImplicit false

namespace BatchWriter

theorem Milestone.ended?_of_lost? {m : Milestone} {batch : Nat} (h : m.lost? = some batch) :
    m.ended? = some batch := by
  cases m with
  | refused _ _ | reportedFailed _ _ | expired _ _ => exact h
  | restored _ | accepted _ | opened _ _ | handed _ _ | completed _ _ _ | abandoned _ _ | flushed
  | announced _ => cases h

namespace History

def outstanding (h : History) : Multiset Value :=
  (h.openBatches.map fun batch => (h.openedWith batch : Multiset Value)).sum

variable {h : History}

theorem openedWith_opened_of_ne {b batch : Nat} (hb : b ≠ batch) (now : Nat)
    (entries : List Value) :
    openedWith ((now, .opened b entries) :: h) batch = h.openedWith batch := by
  simp [openedWith, hb]

/-- A new batch adds its entries to those that are outstanding. -/
theorem outstanding_opened {b : Nat} (now : Nat) (entries : List Value)
    (fresh : ∀ batch ∈ h.openBatches, b ≠ batch) :
    outstanding ((now, .opened b entries) :: h) = h.outstanding + (entries : Multiset Value) := by
  have same : h.openBatches.map
        (fun batch => (openedWith ((now, .opened b entries) :: h) batch : Multiset Value)) =
      h.openBatches.map fun batch => (h.openedWith batch : Multiset Value) := by
    apply List.map_congr_left
    intro batch hm
    rw [openedWith_opened_of_ne (fresh batch hm)]
  have new : openedWith ((now, .opened b entries) :: h) b = entries := by simp [openedWith]
  rw [outstanding, openBatches, List.map_append, List.sum_append, same, List.map_singleton, new,
    List.sum_singleton, outstanding]

/-- A completed batch takes its entries away from those that are outstanding. -/
theorem outstanding_completed {batch : Nat} (now : Nat) (entries failed : List Value)
    (distinct : h.openBatches.Nodup) (isOpen : batch ∈ h.openBatches) :
    outstanding ((now, .completed batch entries failed) :: h) +
      (h.openedWith batch : Multiset Value) = h.outstanding := by
  have erased : h.openBatches.filter (· ≠ batch) = h.openBatches.erase batch := by
    rw [distinct.erase_eq_filter]
    apply List.filter_congr
    intro k _
    by_cases hk : k = batch <;> simp [hk]
  have left : outstanding ((now, .completed batch entries failed) :: h) =
      ((h.openBatches.erase batch).map fun k => (h.openedWith k : Multiset Value)).sum := by
    rw [← erased]
    rfl
  rw [left, add_comm, outstanding]
  exact List.sum_map_erase (fun k => (h.openedWith k : Multiset Value)) isOpen

/-- The oldest batches of a history are not touched by a milestone that opens none and
ends none. -/
theorem outstanding_cons {m : Milestone} (now : Nat) (hm : m.ended? = none)
    (ho : ∀ b es, m ≠ .opened b es) : outstanding ((now, m) :: h) = h.outstanding := by
  unfold outstanding
  rw [openBatches_cons now hm ho]
  congr 1
  apply List.map_congr_left
  intro batch _
  rw [openedWith_cons now ho]

end History

namespace Writer

open History

structure Tracked (w : Writer) : Prop where
  sound : w.inFlight.Sound
  opened : w.history.openBatches = w.inFlight.ids

/-- What a usable writer was given is persisted, in flight or buffered. -/
def Balanced (w : Writer) : Prop :=
  w.refusal? = none → Faithful w.history →
    w.history.admitted =
      w.history.persisted + w.history.outstanding + (w.buffer.entries : Multiset Value)

def Unharmed (w : Writer) : Prop :=
  w.refusal? = none → ∀ e ∈ w.history, ¬ e.2.IsLoss

/-- Every entry that a usable writer was given is buffered, or the batch that held it
last is open or was completed for it. -/
def Placed (w : Writer) : Prop :=
  w.refusal? = none → ∀ entry ∈ w.history.admitted, entry ∈ w.buffer.entries ∨
    ∃ batch, w.history.SentLast entry batch ∧
      (batch ∈ w.inFlight.ids ∨ w.history.Settled entry batch)

/-- The tracker has each open batch as it was opened, unless its list was emptied. -/
def Carried (w : Writer) : Prop :=
  ∀ r ∈ w.inFlight.requests, r.entries = w.history.openedWith r.id ∨ r.entries = []

variable {w w' : Writer}

namespace Episode

/-- Every episode leaves history and tracker in agreement. -/
theorem tracked (h : w.Episode w') (ht : w.Tracked) : w'.Tracked := by
  refine ⟨h.sound ht.sound, ?_⟩
  have ho := ht.opened
  cases h with
  | silent _ quiet => rw [quiet.history, quiet.ids, ho]
  | told now m plain same =>
    rw [same]
    cases m with
    | flushed | announced _ => exact ho
    | _ => exact plain.elim
  | accepted _ _ _ history _ ids => rw [history, ids, ← ho]; rfl
  | opened _ _ _ _ _ _ _ history ids => rw [history, ids, ← ho]; rfl
  | handed _ _ _ _ _ _ history _ ids => rw [history, ids, ← ho]; rfl
  | completed _ _ _ _ _ _ history _ ids =>
    rw [history, ids, ← ho, openBatches_ended _ rfl]
  | lost _ _ _ loss _ _ history _ ids =>
    rw [history, ids, ← ho, openBatches_ended _ (Milestone.ended?_of_lost? loss)]
  | closed now _ _ history _ ids =>
    rw [history, ids, openBatches_abandoned, ho, List.filter_eq_nil_iff]
    intro id hid
    simpa [InFlight.ids] using hid

/-- No episode changes the entries of an open batch, but its destination may empty them. -/
theorem carried (h : w.Episode w') (ht : w.Tracked) (hc : w.Carried) : w'.Carried := by
  intro r hr
  have hid : r.id ∈ w'.inFlight.ids := List.mem_map_of_mem hr
  -- A batch that was issued before keeps its entries, in the history as in the tracker.
  have kept : r.id ≤ w.inFlight.issued →
      w'.history.openedWith r.id = w.history.openedWith r.id →
      r.entries = w'.history.openedWith r.id ∨ r.entries = [] := by
    intro old same
    obtain ⟨r₀, hr₀, hid₀, entries⟩ := h.later.carries r hr old
    rcases entries with entries | entries
    · rw [entries, same, ← hid₀]
      exact hc r₀ hr₀
    · exact .inr entries
  have old : r.id ∈ w.inFlight.ids → r.id ≤ w.inFlight.issued := ht.sound.issued r.id
  cases h with
  | silent _ quiet => exact kept (old (quiet.ids ▸ hid)) (by rw [quiet.history])
  | told now m plain same =>
    subst same
    refine kept (old hid) (openedWith_cons now ?_ _)
    intro b es hm
    subst hm
    exact plain
  | accepted _ _ _ history _ ids =>
    exact kept (old (ids ▸ hid)) (by rw [history]; exact openedWith_cons _ (by simp) _)
  | opened now entries _ _ _ _ _ history ids _ content =>
    by_cases new : r.id = w.inFlight.issued + 1
    · refine .inl ?_
      rcases content r hr with hold | hr
      · have := old hold
        omega
      · rw [hr, history, new]
        simp [openedWith]
    · rw [ids, List.mem_append, List.mem_singleton] at hid
      refine kept (old (hid.resolve_right new)) ?_
      rw [history]
      exact openedWith_opened_of_ne (fun he => new he.symm) _ _
  | handed _ _ _ _ _ _ history _ ids =>
    exact kept (old (ids ▸ hid)) (by rw [history]; exact openedWith_cons _ (by simp) _)
  | completed _ _ _ _ _ _ history _ ids =>
    refine kept (old (List.mem_of_mem_filter (ids ▸ hid))) ?_
    rw [history]
    exact openedWith_cons _ (by simp) _
  | lost now batch m loss _ _ history _ ids =>
    refine kept (old (List.mem_of_mem_filter (ids ▸ hid))) ?_
    rw [history]
    refine openedWith_cons _ ?_ _
    intro b es hm
    rw [hm] at loss
    cases loss
  | closed _ _ _ _ _ ids =>
    rw [ids] at hid
    cases hid

open scoped Classical in
/-- No episode loses an entry of a usable writer, nor makes one up. -/
theorem balanced (h : w.Episode w') (ht : w.Tracked) (hb : w.Balanced) : w'.Balanced := by
  intro usable faithful
  have later := h.later
  have hb := hb (later.usable usable) (faithful.of_suffix later.history)
  have ho := ht.opened
  cases h with
  | silent _ quiet => rw [quiet.history, quiet.buffer, hb]
  | told now m plain same =>
    rw [same]
    cases m with
    | flushed | announced _ => exact hb
    | _ => exact plain.elim
  | accepted now entry _ history buffer =>
    rw [history, buffer, outstanding_cons now rfl (by simp), Buffer.entries_append, admitted,
      persisted_cons now (by simp), hb, ← Multiset.coe_add, Multiset.coe_singleton]
    abel
  | opened now entries _ _ _ taken _ history =>
    have fresh : ∀ batch ∈ w.history.openBatches, w.inFlight.issued + 1 ≠ batch := by
      intro batch hm
      have := ht.sound.issued batch (ho ▸ hm)
      omega
    rw [history, outstanding_opened now entries fresh, admitted_cons now (by simp) (by simp),
      persisted_cons now (by simp), hb, ← (Buffer.append_of_take taken).1, ← Multiset.coe_add]
    abel
  | handed now _ _ _ _ _ history buffer =>
    rw [history, buffer, outstanding_cons now rfl (by simp),
      admitted_cons now (by simp) (by simp), persisted_cons now (by simp), hb]
  | completed now batch entries failed _ isOpen history buffer =>
    have distinct : w.history.openBatches.Nodup := ho ▸ ht.sound.distinct
    have out := outstanding_completed now entries failed distinct (ho ▸ isOpen)
    have sub : (failed : Multiset Value) ≤ (w.history.openedWith batch : Multiset Value) :=
      faithful now batch entries failed w.history (by rw [history])
    -- What is reported as failed leaves the batch and enters the buffer.
    rw [history, buffer, Buffer.entries_prepend, admitted_cons now (by simp) (by simp), persisted,
      hb, ← out, ← Multiset.coe_add]
    conv_lhs => rw [← tsub_add_cancel_of_le sub]
    ac_rfl
  | lost _ _ _ _ _ failed => exact absurd usable (refusal?_of_failed failed)
  | closed _ _ isClosed => exact absurd usable (refusal?_of_closed isClosed)

theorem unharmed (h : w.Episode w') (hu : w.Unharmed) : w'.Unharmed := by
  intro usable
  have hu := hu (h.later.usable usable)
  have add : ∀ {t : Nat} {m : Milestone}, ¬ m.IsLoss → w'.history = (t, m) :: w.history →
      ∀ e ∈ w'.history, ¬ e.2.IsLoss := by
    intro t m hm history e he
    rw [history] at he
    rcases List.mem_cons.1 he with rfl | he
    · exact hm
    · exact hu e he
  cases h with
  | silent _ quiet => rw [quiet.history]; exact hu
  | told now m plain same =>
    refine add (t := now) (m := m) ?_ (by rw [same]; rfl)
    cases m with
    | flushed | announced _ => simp [Milestone.IsLoss, Milestone.lost?]
    | _ => exact plain.elim
  | accepted _ _ _ history | opened _ _ _ _ _ _ _ history | handed _ _ _ _ _ _ history
  | completed _ _ _ _ _ _ history =>
    exact add (by simp [Milestone.IsLoss, Milestone.lost?]) history
  | lost _ _ _ _ _ failed => exact absurd usable (refusal?_of_failed failed)
  | closed _ _ isClosed => exact absurd usable (refusal?_of_closed isClosed)

/-- While no batch is opened and none ends, an entry stays with the batch that sent it last. -/
theorem stays_sent (h : w.Episode w') {t : Nat} {m : Milestone} (plain : ∀ b es, m ≠ .opened b es)
    (history : w'.history = (t, m) :: w.history) (ids : w'.inFlight.ids = w.inFlight.ids)
    {entry : Value} (sent : ∃ batch, w.history.SentLast entry batch ∧
      (batch ∈ w.inFlight.ids ∨ w.history.Settled entry batch)) :
    ∃ batch, w'.history.SentLast entry batch ∧
      (batch ∈ w'.inFlight.ids ∨ w'.history.Settled entry batch) := by
  obtain ⟨batch, last, goes⟩ := sent
  refine ⟨batch, ?_, goes.imp (fun isOpen => ids ▸ isOpen) (·.of_suffix h.later.history)⟩
  rw [history]
  exact (sentLast_cons t plain entry batch).2 last

/-- An entry moves from the buffer into a batch, and back when it is reported as failed. -/
theorem placed (h : w.Episode w') (hp : w.Placed) : w'.Placed := by
  intro usable entry hm
  have episode := h
  have later := h.later
  have hp := hp (later.usable usable) entry
  cases h with
  | silent _ quiet =>
    rw [quiet.history] at hm ⊢
    rw [quiet.buffer, quiet.ids]
    exact hp hm
  | told now m plain same =>
    subst same
    cases m with
    | flushed | announced _ =>
      exact (hp hm).imp_right (episode.stays_sent (by simp) rfl rfl)
    | _ => exact plain.elim
  | accepted now e _ history buffer ids =>
    rw [buffer, Buffer.entries_append]
    rw [history, admitted, Multiset.mem_add, Multiset.mem_singleton] at hm
    rcases hm with rfl | hm
    · exact .inl (by simp)
    · exact (hp hm).imp (List.mem_append_left _) (episode.stays_sent (by simp) history ids)
  | opened now entries _ _ _ taken _ history ids =>
    rw [history, admitted_cons now (by simp) (by simp)] at hm
    have whole := (Buffer.append_of_take taken).1
    by_cases he : entry ∈ entries
    · refine .inr ⟨w.inFlight.issued + 1, ?_, .inl ?_⟩
      · rw [history]
        exact .inl ⟨he, rfl⟩
      · rw [ids]
        exact List.mem_append_right _ (List.mem_singleton_self _)
    · rcases hp hm with hb | ⟨batch, hs, hd⟩
      · rw [← whole, List.mem_append] at hb
        exact .inl (hb.resolve_left he)
      · refine .inr ⟨batch, ?_, hd.imp (fun ho => ?_) (·.of_suffix later.history)⟩
        · rw [history]
          exact .inr ⟨he, hs⟩
        · rw [ids]
          exact List.mem_append_left _ ho
  | handed now _ _ _ _ _ history buffer ids =>
    rw [history, admitted_cons now (by simp) (by simp)] at hm
    rw [buffer]
    exact (hp hm).imp_right (episode.stays_sent (by simp) history ids)
  | completed now batch entries failed _ isOpen history buffer ids =>
    rw [history, admitted_cons now (by simp) (by simp)] at hm
    rw [buffer, Buffer.entries_prepend]
    by_cases hf : entry ∈ failed
    · exact .inl (List.mem_append_left _ hf)
    · rcases hp hm with hb | ⟨k, hs, hd⟩
      · exact .inl (List.mem_append_right _ hb)
      · refine .inr ⟨k, by rw [history]; exact (sentLast_cons now (by simp) entry k).2 hs, ?_⟩
        by_cases hk : k = batch
        · refine .inr ⟨now, entries, failed, ?_, hf⟩
          rw [history, hk]
          exact List.mem_cons_self
        · rw [ids]
          refine hd.imp (fun ho => List.mem_filter.2 ⟨ho, by simpa using hk⟩) ?_
          exact (·.of_suffix later.history)
  | lost _ _ _ _ _ failed => exact absurd usable (refusal?_of_failed failed)
  | closed _ _ isClosed => exact absurd usable (refusal?_of_closed isClosed)

end Episode
end Writer
end BatchWriter
