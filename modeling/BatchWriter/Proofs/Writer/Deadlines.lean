import BatchWriter.Proofs.Writer.Once
import BatchWriter.Proofs.Writer.Ticks

/-!
# Deadlines of batches

With a limit of time each open batch has one alarm, which rings when that time has passed since
the batch was opened; no other batch has one. If the writer's loop was closed the alarm may be
missing.
-/

set_option autoImplicit false

namespace BatchWriter

theorem InFlight.map_fst_openings {α : Type} (t : InFlight α) :
    t.openings.map Prod.fst = t.ids := by
  simp [openings, ids]

namespace Writer

/-- The batches' alarms are those of the open batches, each set once and for the instant that
its opening gives; on a live loop none is missing. -/
structure Dated (live : Prop) (w : Writer) (dues : Dues) : Prop where
  distinct : w.inFlight.ids.Nodup
  issued : ∀ batch ∈ w.inFlight.ids, batch ≤ w.inFlight.issued
  opened : ∀ o ∈ w.inFlight.openings, ∃ entries, (o.2, .opened o.1 entries) ∈ w.history
  gone : ∀ batch, batch ∉ w.inFlight.ids → dues (.expire batch) = []
  dated : ∀ o ∈ w.inFlight.openings,
    dues (.expire o.1) = [] ∨ dues (.expire o.1) = w.config.expiry o.2
  live : live → ∀ o ∈ w.inFlight.openings, dues (.expire o.1) = w.config.expiry o.2

variable {live live' : Prop} {now : Nat} {w w' : Writer} {dues dues' : Dues}

namespace Dated

theorem of_idle (idle : w.Idle) (unset : ∀ batch, dues (.expire batch) = []) :
    Dated live w dues := by
  have ids : w.inFlight.ids = [] := by rw [InFlight.ids, idle.requests]; rfl
  have openings : w.inFlight.openings = [] := by rw [InFlight.openings, idle.requests]; rfl
  exact ⟨by simp [ids], by simp [ids], by simp [openings], fun batch _ => unset batch,
    by simp [openings], by simp [openings]⟩

/-- The alarm of a batch is set only if batches have a limit. -/
theorem limited (h : Dated live w dues) {batch : Nat} (set : dues (.expire batch) ≠ []) :
    w.config.requestTimeout ≠ none := by
  intro limitless
  have isOpen : batch ∈ w.inFlight.ids := by
    by_contra gone
    exact set (h.gone batch gone)
  rw [← InFlight.map_fst_openings] at isOpen
  obtain ⟨o, ho, rfl⟩ := List.mem_map.1 isOpen
  rcases h.dated o ho with none | same
  · exact set none
  · exact set (same.trans (by rw [Config.expiry, limitless]))

section Accepted

variable {limit : Number} {delay : Option Nat} {r : Request Value}

theorem owes (h : Dated live w dues) (limited : w.config.requestTimeout = some limit)
    (accepted : limit.delaySeconds = .ok delay) (isOpen : r ∈ w.inFlight.requests) :
    dues (.expire r.id) = [] ∨ dues (.expire r.id) = [delay.map (r.openedAt + ·)] :=
  Config.expiry_of_accepted limited accepted r.openedAt ▸ h.dated _ (List.mem_map_of_mem isOpen)

theorem owed (h : Dated live w dues) (limited : w.config.requestTimeout = some limit)
    (accepted : limit.delaySeconds = .ok delay) (on : live) (isOpen : r ∈ w.inFlight.requests) :
    dues (.expire r.id) = [delay.map (r.openedAt + ·)] :=
  Config.expiry_of_accepted limited accepted r.openedAt ▸ h.live on _ (List.mem_map_of_mem isOpen)

end Accepted

theorem weaken (h : Dated live w dues) (fewer : live' → live) : Dated live' w dues :=
  { h with live := fun on => h.live (fewer on) }

/-- Nothing that concerns the batches changes, but perhaps the writer's history grows. -/
theorem of_same (h : Dated live w dues) (config : w'.config = w.config)
    (openings : w'.inFlight.openings = w.inFlight.openings)
    (issued : w'.inFlight.issued = w.inFlight.issued) (history : w.history <:+ w'.history)
    (alarms : ∀ batch, dues' (.expire batch) = dues (.expire batch)) : Dated live w' dues' := by
  have ids : w'.inFlight.ids = w.inFlight.ids := by
    rw [← InFlight.map_fst_openings, openings, InFlight.map_fst_openings]
  constructor
  case distinct => exact ids ▸ h.distinct
  case issued =>
    rw [ids, issued]
    exact h.issued
  case opened =>
    rw [openings]
    exact fun o ho => (h.opened o ho).imp fun _ told => history.subset told
  case gone =>
    intro batch unknown
    rw [alarms]
    exact h.gone batch (ids ▸ unknown)
  case dated =>
    rw [openings, config]
    intro o ho
    rw [alarms]
    exact h.dated o ho
  case live =>
    rw [openings, config]
    intro on o ho
    rw [alarms]
    exact h.live on o ho

theorem drop (h : Dated live w dues) (gone : Nat → Prop) [DecidablePred gone]
    {inFlight : InFlight Value}
    (openings : inFlight.openings = w.inFlight.openings.filter fun o => ¬gone o.1)
    (issued : inFlight.issued = w.inFlight.issued) :
    Dated live { w with inFlight } (dues.without gone) := by
  have ids : inFlight.ids = w.inFlight.ids.filter fun batch => ¬gone batch := by
    rw [← InFlight.map_fst_openings, openings, ← InFlight.map_fst_openings, List.filter_map]
    rfl
  have stays : ∀ o ∈ inFlight.openings, o ∈ w.inFlight.openings ∧ ¬gone o.1 := fun o ho => by
    rw [openings] at ho
    simpa using List.mem_filter.1 ho
  constructor
  case distinct =>
    show inFlight.ids.Nodup
    rw [ids]
    exact h.distinct.filter _
  case issued =>
    intro batch hb
    change batch ∈ inFlight.ids at hb
    rw [ids] at hb
    exact issued ▸ h.issued batch (List.mem_of_mem_filter hb)
  case opened => exact fun o ho => h.opened o (stays o ho).1
  case gone =>
    intro batch unknown
    rw [Dues.without]
    split
    · rfl
    · next kept =>
      refine h.gone batch fun isOpen => unknown ?_
      show batch ∈ inFlight.ids
      rw [ids]
      exact List.mem_filter.2 ⟨isOpen, by simpa using kept⟩
  case dated =>
    intro o ho
    obtain ⟨was, kept⟩ := stays o ho
    rw [Dues.without, if_neg kept]
    exact h.dated o was
  case live =>
    intro on o ho
    obtain ⟨was, kept⟩ := stays o ho
    rw [Dues.without, if_neg kept]
    exact h.live on o was

theorem opening (h : Dated live w dues) {entries : List Value} (opens : Opening now w entries w') :
    Dated live w' (dues.opened w.config now (w.inFlight.issued + 1)) := by
  -- No open batch has the new number, so no alarm was set for it.
  have fresh : w.inFlight.issued + 1 ∉ w.inFlight.ids := fun old => by
    have := h.issued _ old
    omega
  have older : ∀ o ∈ w.inFlight.openings, o.1 ≠ w.inFlight.issued + 1 := fun o ho same =>
    fresh (by rw [← same, ← InFlight.map_fst_openings]; exact List.mem_map_of_mem ho)
  have ids : w'.inFlight.ids = w.inFlight.ids ++ [w.inFlight.issued + 1] := by
    rw [← InFlight.map_fst_openings, opens.openings, List.map_append, InFlight.map_fst_openings]
    rfl
  have members : ∀ o, o ∈ w'.inFlight.openings ↔
      o ∈ w.inFlight.openings ∨ o = (w.inFlight.issued + 1, now) := fun o => by
    rw [opens.openings, List.mem_append, List.mem_singleton]
  constructor
  case distinct =>
    rw [ids]
    exact List.nodup_append.2 ⟨h.distinct, List.nodup_singleton _, fun a ha b hb same =>
      fresh (List.mem_singleton.1 hb ▸ same ▸ ha)⟩
  case issued =>
    intro batch hb
    rw [ids] at hb
    rw [opens.issued]
    rcases List.mem_append.1 hb with old | new
    · exact Nat.le_succ_of_le (h.issued batch old)
    · exact (List.mem_singleton.1 new).le
  case opened =>
    intro o ho
    rw [opens.history]
    rcases (members o).1 ho with old | rfl
    · exact (h.opened o old).imp fun _ told => List.mem_cons_of_mem _ told
    · exact ⟨entries, List.mem_cons_self⟩
  case gone =>
    intro batch unknown
    rw [ids] at unknown
    simp only [List.mem_append, List.mem_singleton, not_or] at unknown
    rw [Dues.opened_of_ne _ _ _ (by simpa using unknown.2)]
    exact h.gone batch unknown.1
  case dated =>
    intro o ho
    rw [opens.later.config]
    rcases (members o).1 ho with old | rfl
    · rw [Dues.opened_of_ne _ _ _ (by simpa using older o old)]
      exact h.dated o old
    · rw [Dues.opened_self, h.gone _ fresh]
      exact .inr rfl
  case live =>
    intro on o ho
    rw [opens.later.config]
    rcases (members o).1 ho with old | rfl
    · rw [Dues.opened_of_ne _ _ _ (by simpa using older o old)]
      exact h.live on o old
    · rw [Dues.opened_self, h.gone _ fresh]
      rfl

/-- Every tick leaves each open batch with its alarm. -/
theorem tick {p q : Writer × Dues} (t : Tick now p q) (h : Dated live p.1 p.2) :
    Dated live q.1 q.2 := by
  cases t with
  | untimed still =>
    exact h.of_same still.later.config still.openings still.issued still.later.history fun _ => rfl
  | arm limited accepted unarmed filled =>
    exact h.of_same rfl rfl rfl (List.suffix_refl _) fun _ => by simp [Effect.dues]
  | disarm refused =>
    exact h.of_same rfl rfl rfl (List.suffix_refl _) fun _ => by simp [Effect.dues]
  | opening opens => exact h.opening opens
  | drop gone openings issued => exact h.drop gone openings issued

theorem ticks {p q : Writer × Dues} (t : Ticks now p q) (h : Dated live p.1 p.2) :
    Dated live q.1 q.2 := by
  induction t with
  | refl => exact h
  | tail _ t ih => exact ih.tick t

theorem note (h : Dated live w dues) (now : Nat) (m : Milestone) : Dated live (w.note now m) dues :=
  h.of_same rfl rfl rfl (List.suffix_cons _ _) fun _ => rfl

theorem flushed {q : Writer × Dues} (h : Dated live w dues) (f : Flushed now (w, dues) q) :
    Dated live q.1 q.2 := ticks f.ticks (h.note now .flushed)

theorem undeferred (h : Dated live w dues) : Dated live { w with deferred := false } dues :=
  h.of_same rfl rfl rfl (List.suffix_refl _) fun _ => rfl

theorem bufferTimeOver (h : Dated live w dues) (now : Nat) :
    Dated live w.bufferTimeOver.1.writer (Effect.dues now dues (.cancelAlarm .flush)) := by
  have alarms : ∀ batch, Effect.dues now dues (.cancelAlarm .flush) (.expire batch) =
      dues (.expire batch) := fun _ => by simp [Effect.dues]
  unfold Writer.bufferTimeOver
  dsimp only
  split
  · exact h.of_same rfl rfl rfl (List.suffix_refl _) alarms
  · split <;> exact h.of_same rfl rfl rfl (List.suffix_refl _) alarms

theorem outlived (h : Dated live w dues) (now batch : Nat) (entries : List Value) :
    Dated live (w.outlived now batch entries)
      (Effect.dues now dues (.cancelAlarm (.expire batch))) := by
  have released := (h.note now (.expired batch entries)).drop (· = batch)
    (w.inFlight.openings_remove batch) rfl
  rw [dues.without_eq now batch] at released
  exact released

end Dated

/-! ## Batches whose time is not over -/

/-- The batch was issued, its time was not over, and its alarm rings after an instant if ever. -/
structure Spared (instant batch : Nat) (w : Writer) (dues : Dues) : Prop where
  issued : batch ≤ w.inFlight.issued
  going : ∀ t entries, (t, .expired batch entries) ∉ w.history
  later : ∀ due, some due ∈ dues (.expire batch) → instant < due

namespace Spared

variable {instant batch : Nat}

/-- Alarms become fewer, and what the history tells is not that the batch's time was over. -/
theorem of_fewer (h : Spared instant batch w dues)
    (issued : w.inFlight.issued ≤ w'.inFlight.issued)
    (history : ∃ newer : History, w'.history = newer ++ w.history ∧
      ∀ e ∈ newer, ∀ entries, e.2 ≠ .expired batch entries)
    (fewer : ∀ due ∈ dues' (.expire batch), due ∈ dues (.expire batch)) :
    Spared instant batch w' dues' := by
  refine ⟨Nat.le_trans h.issued issued, fun t entries told => ?_, fun due set =>
    h.later due (fewer _ set)⟩
  obtain ⟨newer, same, others⟩ := history
  rw [same] at told
  rcases List.mem_append.1 told with new | old
  · exact others _ new entries rfl
  · exact h.going t entries old

theorem bufferTimeOver (h : Spared instant batch w dues) (now : Nat) :
    Spared instant batch w.bufferTimeOver.1.writer (Effect.dues now dues (.cancelAlarm .flush)) :=
  h.of_fewer w.regular_bufferTimeOver.later.issued
    ⟨[], w.silent_bufferTimeOver.history, by simp⟩ fun _ set => by simpa [Effect.dues] using set

/-- No tick sets the alarm of a batch that was issued, or ends its time. -/
theorem tick {p q : Writer × Dues} (t : Tick now p q) (h : Spared instant batch p.1 p.2) :
    Spared instant batch q.1 q.2 := by
  cases t with
  | untimed still =>
    obtain ⟨newer, same, others⟩ := still.history
    refine h.of_fewer still.later.issued ⟨newer, same, fun e he entries expired => ?_⟩
      fun _ set => set
    exact (others e he).2 (expired ▸ trivial)
  | arm limited accepted unarmed filled =>
    exact h.of_fewer le_rfl ⟨[], rfl, by simp⟩ fun _ set => by simpa [Effect.dues] using set
  | disarm refused =>
    exact h.of_fewer le_rfl ⟨[], rfl, by simp⟩ fun _ set => by simpa [Effect.dues] using set
  | opening opens =>
    refine h.of_fewer opens.later.issued ⟨[(now, .opened _ _)], opens.history, by simp⟩
      fun _ set => ?_
    have older : batch ≠ _ + 1 := (Nat.lt_succ_of_le h.issued).ne
    dsimp only at set
    rwa [Dues.opened_of_ne _ _ _ (by simpa using older)] at set
  | drop gone openings issued =>
    refine h.of_fewer issued.ge ⟨[], rfl, by simp⟩ fun due set => ?_
    simp only [Dues.without] at set
    split at set
    · cases set
    · exact set

theorem ticks {p q : Writer × Dues} (t : Ticks now p q) (h : Spared instant batch p.1 p.2) :
    Spared instant batch q.1 q.2 := by
  induction t with
  | refl => exact h
  | tail _ t ih => exact ih.tick t

theorem flushed {q : Writer × Dues} (h : Spared instant batch w dues)
    (f : Flushed now (w, dues) q) : Spared instant batch q.1 q.2 :=
  ticks f.ticks (h.of_fewer le_rfl ⟨[(now, .flushed)], rfl, by simp⟩ fun _ set => set)

theorem undeferred (h : Spared instant batch w dues) :
    Spared instant batch { w with deferred := false } dues :=
  h.of_fewer le_rfl ⟨[], rfl, by simp⟩ fun _ set => set

end Spared

end Writer
end BatchWriter
