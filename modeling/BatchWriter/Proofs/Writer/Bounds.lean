import BatchWriter.Proofs.Buffer
import BatchWriter.Proofs.Writer.Balance

/-!
# Bounds on batches

With whole limits, every batch that a destination is called with holds at least one
entry and at most as many as the limit says, and at that moment it is one of the open
batches, of which there are no more than the limit says.
-/

set_option autoImplicit false

namespace BatchWriter

namespace Buffer

variable {α : Type} {b rest : Buffer α} {limit : Number} {taken : List α}

/-- A whole limit is an upper bound of what is taken, if anything is. -/
theorem length_le_of_take {n : Int} (whole : limit.whole? = some n)
    (h : b.take limit = .ok (taken, rest)) (some : taken ≠ []) : (taken.length : Int) ≤ n := by
  have positive : 0 < taken.length := List.length_pos_iff.2 some
  rw [take_of_whole whole] at h
  cases h
  rw [List.length_take] at positive ⊢
  omega

end Buffer

namespace History

/-- A moment of a longer history that the newer part does not contain lies in the older
part. -/
theorem suffix_of_append {newer h earlier : History} {e : Nat × Milestone} (hn : e ∉ newer)
    (hs : e :: earlier <:+ newer ++ h) : e :: earlier <:+ h := by
  induction newer with
  | nil => exact hs
  | cons x rest ih =>
    rw [List.mem_cons, not_or] at hn
    rcases List.suffix_cons_iff.1 hs with he | he
    · exact absurd (List.cons.inj he).1 hn.1
    · exact ih hn.2 he

end History

namespace Writer

def FitsBatch (w : Writer) (entries : List Value) : Prop :=
  entries ≠ [] ∧ ∀ size, w.config.maxBatchSize.whole? = some size → (entries.length : Int) ≤ size

/-- The limits are the configured ones, and every batch was opened and handed over within
them. -/
structure Bounded (w : Writer) : Prop where
  limit : w.inFlight.limit = w.config.maxInFlight
  positive : w.inFlight.limit.le (.int 0) = false
  opened : ∀ (t batch : Nat) (entries : List Value) (earlier : History),
    (t, .opened batch entries) :: earlier <:+ w.history → w.FitsBatch entries
  handed : ∀ (t batch : Nat) (entries : List Value) (earlier : History),
    (t, .handed batch entries) :: earlier <:+ w.history →
      w.FitsBatch entries ∧ batch ∈ earlier.openBatches ∧
      ∀ limit, w.config.maxInFlight.whole? = some limit →
        (earlier.openBatches.length : Int) ≤ limit

variable {w w' : Writer}

theorem Bounded.whole (hb : w.Bounded) {limit : Int}
    (whole : w.config.maxInFlight.whole? = some limit) :
    w.inFlight.limit.whole? = some limit ∧ 0 < limit := by
  have whole' : w.inFlight.limit.whole? = some limit := by rw [hb.limit, whole]
  have positive := hb.positive
  rw [Number.le_of_whole whole', decide_eq_false_iff_not, not_le] at positive
  exact ⟨whole', positive⟩

/-- At a whole limit, no more batches are open than configured. -/
theorem Bounded.count_le (hb : w.Bounded) (ht : w.Tracked) {limit : Int}
    (whole : w.config.maxInFlight.whole? = some limit) : (w.inFlight.count : Int) ≤ limit := by
  obtain ⟨whole', positive⟩ := hb.whole whole
  exact ht.sound.count_le whole' (by omega)

/-- At a whole limit, no slot is free only when as many batches are open as configured, of
which there is at least one. -/
theorem Bounded.count_eq (hb : w.Bounded) (ht : w.Tracked) {limit : Int}
    (whole : w.config.maxInFlight.whole? = some limit) (full : w.hasCapacity = false) :
    (w.inFlight.count : Int) = limit ∧ 0 < w.inFlight.count := by
  obtain ⟨whole', positive⟩ := hb.whole whole
  have reached := ht.sound.count_eq whole' (by omega) full
  exact ⟨reached, by omega⟩

/-- A history that grew by milestones that neither open nor hand over a batch. -/
theorem Bounded.extend (hb : w.Bounded) (later : w.Later w') (newer : History)
    (history : w'.history = newer ++ w.history)
    (plain : ∀ e ∈ newer, ∀ b es, e.2 ≠ .opened b es ∧ e.2 ≠ .handed b es) : w'.Bounded where
  limit := by rw [later.limit, later.config, hb.limit]
  positive := by rw [later.limit, hb.positive]
  opened t batch entries earlier hs := by
    rw [history] at hs
    rw [FitsBatch, later.config]
    refine hb.opened t batch entries earlier (History.suffix_of_append (fun hm => ?_) hs)
    exact (plain _ hm batch entries).1 rfl
  handed t batch entries earlier hs := by
    rw [history] at hs
    rw [FitsBatch, later.config]
    refine hb.handed t batch entries earlier (History.suffix_of_append (fun hm => ?_) hs)
    exact (plain _ hm batch entries).2 rfl

theorem Episode.bounded (h : w.Episode w') (ht : w.Tracked) (hb : w.Bounded) : w'.Bounded := by
  have later := h.later
  cases h with
  | silent _ quiet => exact hb.extend later [] quiet.history (by simp)
  | told now m plain same =>
    refine hb.extend later [(now, m)] (by rw [same]; rfl) ?_
    cases m with
    | flushed | announced _ => simp
    | _ => exact plain.elim
  | accepted _ _ _ history => exact hb.extend later [_] history (by simp)
  | opened now entries _ _ _ taken some history =>
    refine ⟨by rw [later.limit, later.config, hb.limit], by rw [later.limit, hb.positive], ?_, ?_⟩
    · intro t batch es earlier hs
      rw [history] at hs
      rw [FitsBatch, later.config]
      rcases List.suffix_cons_iff.1 hs with he | he
      · cases he
        exact ⟨some, fun size whole => Buffer.length_le_of_take whole taken some⟩
      · exact hb.opened t batch es earlier he
    · intro t batch es earlier hs
      rw [history] at hs
      rw [FitsBatch, later.config]
      rcases List.suffix_cons_iff.1 hs with he | he
      · cases he
      · exact hb.handed t batch es earlier he
  | handed now batch entries _ head isOpen history =>
    refine ⟨by rw [later.limit, later.config, hb.limit], by rw [later.limit, hb.positive], ?_, ?_⟩
    · intro t k es earlier hs
      rw [history] at hs
      rw [FitsBatch, later.config]
      rcases List.suffix_cons_iff.1 hs with he | he
      · cases he
      · exact hb.opened t k es earlier he
    · intro t k es earlier hs
      rw [history] at hs
      rw [FitsBatch, later.config]
      rcases List.suffix_cons_iff.1 hs with he | he
      · cases he
        obtain ⟨t, older, hw⟩ := head
        refine ⟨hb.opened t batch entries older (by rw [hw]), by rwa [ht.opened], ?_⟩
        intro limit whole
        rw [ht.opened, InFlight.length_ids]
        exact hb.count_le ht whole
      · exact hb.handed t k es earlier he
  | completed _ _ _ _ _ _ history => exact hb.extend later [_] history (by simp)
  | lost now batch m loss _ _ history =>
    refine hb.extend later [(now, m)] history ?_
    cases m with
    | refused _ _ | reportedFailed _ _ | expired _ _ => simp
    | _ => cases loss
  | closed _ _ _ history => exact hb.extend later _ history (by simp [abandonments])

end Writer
end BatchWriter
