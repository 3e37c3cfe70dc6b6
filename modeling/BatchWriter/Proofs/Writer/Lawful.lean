import BatchWriter.Proofs.Writer.Bounds
import BatchWriter.Proofs.Writer.Turn

/-!
# Laws of a writer

All that the episodes of a writer keep, from the writer as it is built.
-/

set_option autoImplicit false

namespace BatchWriter
namespace Writer

structure Fresh (w : Writer) : Prop where
  history : ∃ now entries, w.history = [(now, .restored entries)] ∧ w.buffer.entries = entries
  tracker : InFlight.ofLimit w.config.maxInFlight = .ok w.inFlight
  waiters : w.waiters = []
  capacity : w.buffer.capacity = w.config.maxBuffered
  accepted : ∃ args, Config.ofArguments args = .ok w.config

structure Lawful (w : Writer) : Prop where
  /-- It came about from a new writer by episodes, so what they keep it has. -/
  origin : ∃ w₀ : Writer, w₀.Fresh ∧ w₀.Episodes w
  tracked : w.Tracked
  carried : w.Carried
  balanced : w.Balanced
  unharmed : w.Unharmed
  placed : w.Placed
  bounded : w.Bounded

variable {w w' : Writer}

theorem Episode.lawful (h : w.Episode w') (hw : w.Lawful) : w'.Lawful where
  origin := hw.origin.imp fun _ come => ⟨come.1, come.2.tail h⟩
  tracked := h.tracked hw.tracked
  carried := h.carried hw.tracked hw.carried
  balanced := h.balanced hw.tracked hw.balanced
  unharmed := h.unharmed hw.unharmed
  placed := h.placed hw.placed
  bounded := h.bounded hw.tracked hw.bounded

theorem Episodes.lawful (h : w.Episodes w') (hw : w.Lawful) : w'.Lawful :=
  h.keep (fun _ _ he hu => he.lawful hu) hw

/-- What holds of new writers and is kept by every episode holds of a lawful writer. -/
theorem Lawful.keeps {P : Writer → Prop} (hw : w.Lawful) (fresh : ∀ u : Writer, u.Fresh → P u)
    (step : ∀ u v : Writer, u.Episode v → P u → P v) : P w := by
  obtain ⟨w₀, new, come⟩ := hw.origin
  exact come.keep step (fresh w₀ new)

theorem Fresh.lawful (h : w.Fresh) : w.Lawful := by
  obtain ⟨now, entries, history, buffered⟩ := h.history
  have tracker := h.tracker
  unfold InFlight.ofLimit at tracker
  split at tracker
  · cases tracker
  · next positive =>
    have tracker := (Except.ok.inj tracker).symm
    refine ⟨⟨w, h, .refl⟩, ⟨⟨?_, ?_, ?_⟩, ?_⟩, ?_, ?_, ?_, ?_, ⟨?_, ?_, ?_, ?_⟩⟩
    · simp [tracker, InFlight.ids]
    · simp [tracker, InFlight.ids]
    · simp [tracker, InFlight.count]
    · rw [history, tracker]
      rfl
    · intro r hr
      simp [tracker] at hr
    · intro _ _
      simp [history, buffered, History.admitted, History.persisted, History.outstanding,
        History.openBatches, Milestone.ended?]
    · intro _ e he
      rw [history, List.mem_singleton] at he
      simp [he, Milestone.IsLoss, Milestone.lost?]
    · intro _ entry hm
      rw [history] at hm
      exact .inl (by simpa [buffered, History.admitted] using hm)
    · rw [tracker]
    · rw [tracker]
      simpa using positive
    · intro t batch es earlier hs
      rw [history] at hs
      simpa using hs.subset List.mem_cons_self
    · intro t batch es earlier hs
      rw [history] at hs
      simpa using hs.subset List.mem_cons_self

theorem fresh_of_restore {now : Nat} {id : Value} {config : Config} {converter : Converter}
    {destination : Nat} {bus : Option String} {entries : List Value} {c : Change}
    (accepted : ∃ args, Config.ofArguments args = .ok config)
    (h : restore now id config converter destination bus entries = .ok c) :
    c.writer.Fresh ∧ ∀ e ∈ c.effects, e.Mild c.writer := by
  obtain ⟨buffer, inFlight, notices, buffered, capacity, tracker, writer, effects⟩ :=
    restored_spec h
  rw [writer, effects]
  refine ⟨⟨⟨now, entries, rfl, buffered⟩, tracker, rfl, capacity, accepted⟩, fun e he => ?_⟩
  rcases List.mem_append.1 he with he | he
  · obtain ⟨n, -, rfl⟩ := List.mem_map.1 he
    trivial
  · rw [List.mem_singleton.1 he]
    exact ⟨rfl, rfl⟩

theorem history_of_restore {now : Nat} {id : Value} {config : Config} {converter : Converter}
    {destination : Nat} {bus : Option String} {entries : List Value} {c : Change}
    (h : restore now id config converter destination bus entries = .ok c) :
    c.writer.history = [(now, .restored entries)] := by
  obtain ⟨buffer, inFlight, notices, -, -, -, writer, -⟩ := restored_spec h
  rw [writer]

end Writer
end BatchWriter
