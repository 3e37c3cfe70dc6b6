import BatchWriter.Proofs.Writer.Order

/-!
# Between opening a batch and handing it over

A dispatch takes entries out of the buffer and opens a batch of them; it sets the alarm that
ends the batch's time, and only then calls the destination. A time that the clock accepts
stops nothing in between, so the history tells of the call directly after the batch.
-/

set_option autoImplicit false

namespace BatchWriter

namespace History

/-- Each batch is handed over directly after it was opened, at the same instant and with the
entries that it was opened with; nothing else is handed over. -/
inductive Paired : History → Prop
  | nil : Paired []
  | beside {now : Nat} {m : Milestone} {h : History} (quiet : ¬ m.Submits) (earlier : Paired h) :
      Paired ((now, m) :: h)
  | handed {now batch : Nat} {entries : List Value} {h : History} (earlier : Paired h) :
      Paired ((now, .handed batch entries) :: (now, .opened batch entries) :: h)

variable {h newer : History}

theorem Paired.append (paired : h.Paired) (quiet : ∀ e ∈ newer, ¬ e.2.Submits) :
    Paired (newer ++ h) := by
  induction newer with
  | nil => exact paired
  | cons e rest ih =>
    apply Paired.beside
    · exact quiet e List.mem_cons_self
    · exact ih fun x hx => quiet x (List.mem_cons_of_mem _ hx)

/-- The destination was called with the batches in turn and with all of them. -/
theorem Paired.deliveries (paired : h.Paired) : h.deliveries = h.batches := by
  induction paired with
  | nil => rfl
  | @beside now m h quiet earlier ih =>
    have silent : ∀ e ∈ [(now, m)], ¬ e.2.Submits := by simpa using quiet
    have same := sent_append silent h
    exact same.1.trans (ih.trans same.2.symm)
  | @handed now batch entries h earlier ih =>
    show h.deliveries ++ [entries] = h.batches ++ [entries]
    rw [ih]

/-- A batch that was opened was handed over at the same instant, with the same entries. -/
theorem Paired.handed_of_opened (paired : h.Paired) {now batch : Nat} {entries : List Value}
    (opened : (now, .opened batch entries) ∈ h) : (now, .handed batch entries) ∈ h := by
  induction paired with
  | nil => cases opened
  | beside quiet earlier ih =>
    rcases List.mem_cons.1 opened with same | opened
    · cases same
      exact absurd trivial quiet
    · exact List.mem_cons_of_mem _ (ih opened)
  | handed earlier ih =>
    rcases List.mem_cons.1 opened with same | opened
    · cases same
    · rcases List.mem_cons.1 opened with same | opened
      · cases same
        exact List.mem_cons_self
      · exact List.mem_cons_of_mem _ (List.mem_cons_of_mem _ (ih opened))

theorem opened_of_open {batch : Nat} (isOpen : batch ∈ h.openBatches) :
    ∃ now entries, (now, .opened batch entries) ∈ h := by
  induction h with
  | nil => cases isOpen
  | cons e h ih =>
    have earlier : batch ∈ openBatches h → ∃ now entries,
      (now, .opened batch entries) ∈ e :: h := by
      intro isOpen
      obtain ⟨now, entries, opened⟩ := ih isOpen
      exact ⟨now, entries, List.mem_cons_of_mem _ opened⟩
    obtain ⟨now, m⟩ := e
    cases m with
    | opened b entries =>
      rcases List.mem_append.1 isOpen with isOpen | same
      · exact earlier isOpen
      · rw [List.mem_singleton.1 same]
        exact ⟨now, entries, List.mem_cons_self⟩
    | restored _ | accepted _ | handed _ _ | flushed | announced _ => exact earlier isOpen
    | completed _ _ _ | refused _ _ | reportedFailed _ _ | expired _ _ | abandoned _ _ =>
      exact earlier (List.mem_of_mem_filter isOpen)

end History

namespace Writer

/-- What a writer opens it hands over, unless the clock refuses the time that its batches are
given; then it hands over nothing. -/
structure Conveys (w : Writer) : Prop where
  paired : w.config.Timeable → w.history.Paired
  silent : ¬ w.config.Timeable → w.history.deliveries = []

variable {w w' : Writer} {loop : LoopName}

theorem Conveys.of_unsent (h : w.Conveys) (later : w.Later w') (unsent : w.Unsent w') :
    w'.Conveys := by
  obtain ⟨newer, history, quiet⟩ := unsent
  constructor
  · intro timeable
    rw [history]
    exact (h.paired (later.config ▸ timeable)).append quiet
  · intro refused
    rw [history, (History.sent_append quiet w.history).1]
    exact h.silent (later.config ▸ refused)

/-- A dispatch that hands nothing over has opened nothing, or the clock has refused the time
of the batch that it opened. -/
theorem startDispatch_kept (bound : w.loop = some loop) {now : Nat}
    (kept : (w.startDispatch loop now).2 = none) :
    (w.startDispatch loop now).1.writer.history = w.history ∨
      ¬ w.config.Timeable ∧ ∃ batch entries,
        (w.startDispatch loop now).1.writer.history = (now, .opened batch entries)
          :: w.history := by
  unfold startDispatch at kept ⊢
  split
  · exact .inl rfl
  · next usable =>
    simp only [usable] at kept
    split
    · exact .inl rfl
    · next entries rest taken =>
      simp only [taken] at kept
      dsimp only at kept ⊢
      split
      · exact .inl rfl
      · next filled =>
        rw [if_neg filled, bind_of_bound (by exact bound), stay_andThen] at kept
        rw [bind_of_bound (by exact bound), stay_andThen]
        refine .inr ⟨fun timeable => ?_, ?_⟩
        · have opens := (fault_openBatch_iff
            { w with buffer := rest, deferred := w.deferred && !rest.isEmpty }
              now entries).2 timeable
          rw [opens] at kept
          cases kept
        · obtain ⟨inFlight, writer⟩ := writer_openBatch
            { w with buffer := rest, deferred := w.deferred && !rest.isEmpty } now entries
          rw [writer]
          exact ⟨_, _, rfl⟩

/-- A batch is handed over only if the clock has accepted its time. -/
theorem timeable_of_parcel (bound : w.loop = some loop) {now : Nat} {parcel : Parcel}
    (handed : (w.startDispatch loop now).2 = some parcel) : w.config.Timeable := by
  unfold startDispatch at handed
  split at handed
  · cases handed
  · split at handed
    · cases handed
    · next entries rest taken =>
      dsimp only at handed
      split at handed
      · cases handed
      · rw [bind_of_bound (by exact bound), stay_andThen] at handed
        split at handed
        · next opens =>
          exact (fault_openBatch_iff
            { w with buffer := rest, deferred := w.deferred && !rest.isEmpty } now entries).1
            (Option.isNone_iff_eq_none.1 opens)
        · cases handed

/-- The call is told directly after the batch, whatever is told after it. -/
theorem Conveys.concludeDispatch {u : Writer} {now : Nat} {parcel : Parcel} (h : w.Conveys)
    (timeable : w.config.Timeable) (config : u.config = w.config)
    (history : u.history = (now, .opened parcel.batch parcel.entries) :: w.history)
    (refusal : Option Fault) : (u.concludeDispatch now parcel refusal).writer.Conveys := by
  have handed : (u.note now (.handed parcel.batch parcel.entries)).Conveys := by
    constructor
    · intro _
      show History.Paired ((now, .handed parcel.batch parcel.entries) :: u.history)
      rw [history]
      exact .handed (h.paired timeable)
    · intro refused
      exact absurd (config ▸ timeable) refused
  rcases writer_concludeDispatch (w := u) now parcel refusal with told | ⟨fault, -, lost⟩
  · rw [told]
    exact handed
  · rw [lost]
    constructor
    · intro accepted
      exact .beside (by simp [Milestone.Submits]) (handed.paired accepted)
    · exact handed.silent

end Writer
end BatchWriter
