import BatchWriter.Proofs.Writer.Bounds
import BatchWriter.Proofs.Writer.Ticks

/-!
# Places in the buffer

How many entries are ahead of an entry that stays in the buffer: those that leave are fewer
ahead of it, those that completions put back are more, and nobody else comes before it. The
buffer's alarm serves all of them. While a writer can be used it rings when it was set to ring.
-/

set_option autoImplicit false

namespace BatchWriter

/-- A batch is as large as it may be, or the buffer has no more. -/
theorem Buffer.length_take {α : Type} {b rest : Buffer α} {limit : Number} {taken : List α}
    {n : Nat} (whole : limit.whole? = some (n : Int)) (h : b.take limit = .ok (taken, rest)) :
    taken.length = min n b.size := by
  rw [take_of_whole whole] at h
  cases h
  exact List.length_take

/-- With more in the buffer than a batch may hold, the batch is full. -/
theorem Buffer.length_of_take {α : Type} {b rest : Buffer α} {limit : Number} {taken : List α}
    {n : Nat} (whole : limit.whole? = some (n : Int)) (h : b.take limit = .ok (taken, rest))
    (left : rest.entries ≠ []) : taken.length = n := by
  have count := length_take whole h
  have parts : taken.length + rest.entries.length = b.size := by
    rw [← List.length_append, (append_of_take h).1, size]
  have := List.length_pos_iff.2 left
  omega

/-- Whoever takes from a buffer that holds entries gets some. -/
theorem Buffer.some_of_take {α : Type} {b rest : Buffer α} {limit : Number} {taken : List α}
    {n : Nat} (whole : limit.whole? = some (n : Int)) (positive : 0 < n)
    (h : b.take limit = .ok (taken, rest)) (filled : b.entries ≠ []) : taken ≠ [] := by
  rintro rfl
  have left : rest.entries ≠ [] := by
    have all := (append_of_take h).1
    rw [List.nil_append] at all
    rwa [all]
  exact positive.ne (length_of_take whole h left)

namespace History

def returned : History → Nat
  | [] => 0
  | (_, .completed _ _ failed) :: h => returned h + failed.length
  | _ :: h => returned h

variable {h h' h'' : History} {e : Value × Nat} {k : Nat}

theorem departed_grow (hs : h <:+ h') : h.departed <+: h'.departed := by
  obtain ⟨newer, rfl⟩ := hs
  induction newer with
  | nil => exact List.prefix_refl _
  | cons e rest ih =>
    obtain ⟨now, m⟩ := e
    refine ih.trans ?_
    cases m with
    | opened _ _ => exact List.prefix_append _ _
    | _ => exact List.prefix_refl _

theorem line_nodup (h : History) : h.line.Nodup := (List.nodup_append.1 h.parade_nodup).2.1

/-- Who is in the buffer at two moments was there meanwhile. -/
theorem stays_between (hs : h <:+ h') (hs' : h' <:+ h'') (was : e ∈ h.line) (still : e ∈ h''.line) :
    e ∈ h'.line := by
  refine (List.mem_append.1 ((parade_sublist hs).subset (List.mem_append_right _ was))).resolve_left
    fun left => ?_
  have distinct := (List.nodup_append.1 h''.parade_nodup).2.2
  exact distinct e ((departed_grow hs').subset left) e still rfl

/-- When a batch leaves that an entry is not in, all of the batch was ahead of it. -/
theorem place_opened {now batch : Nat} {entries : List Value} (place : h.line[k]? = some e)
    (still : e ∈ line ((now, .opened batch entries) :: h)) :
    ∃ j, (line ((now, .opened batch entries) :: h))[j]? = some e ∧ k = entries.length + j := by
  obtain ⟨j, hj⟩ := List.mem_iff_getElem?.1 still
  have there : h.line[entries.length + j]? = some e := by rw [← List.getElem?_drop]; exact hj
  refine ⟨j, hj, ?_⟩
  have known := (List.getElem?_eq_some_iff.1 place).1
  exact (List.getElem?_inj known h.line_nodup).1 (place.trans there.symm)

theorem place_cons {now : Nat} {m : Milestone} (place : h.line[k]? = some e)
    (still : e ∈ line ((now, m) :: h)) :
    ∃ j, (line ((now, m) :: h))[j]? = some e ∧ j + h.returned ≤ k + returned ((now, m) :: h) := by
  have known := (List.getElem?_eq_some_iff.1 place).1
  cases m with
  | restored entries => exact ⟨k, (List.getElem?_append_left known).trans place, le_rfl⟩
  | accepted entry => exact ⟨k, (List.getElem?_append_left known).trans place, le_rfl⟩
  | opened batch entries =>
    obtain ⟨j, there, rfl⟩ := place_opened place still
    exact ⟨j, there, Nat.add_le_add_right (Nat.le_add_left _ _) _⟩
  | completed batch entries failed =>
    refine ⟨failed.length + k, ?_, ?_⟩
    · rw [line, List.getElem?_append_right (by simp), List.length_zipIdx, Nat.add_sub_cancel_left]
      exact place
    · rw [returned]
      omega
  | _ => exact ⟨k, place, le_rfl⟩

/-- No more are ahead of an entry than were, but for those that completions have put back. -/
theorem place_le (hs : h <:+ h') (place : h.line[k]? = some e) (still : e ∈ h'.line) :
    ∃ j, h'.line[j]? = some e ∧ j + h.returned ≤ k + h'.returned := by
  obtain ⟨newer, rfl⟩ := hs
  induction newer with
  | nil => exact ⟨k, place, le_rfl⟩
  | cons x rest ih =>
    obtain ⟨now, m⟩ := x
    have was := List.mem_of_getElem? place
    obtain ⟨i, there, fewer⟩ :=
      ih (stays_between (List.suffix_append rest h) (List.suffix_cons (now, m) _) was still)
    obtain ⟨j, here, fewer'⟩ := place_cons there still
    refine ⟨j, here, ?_⟩
    rw [List.cons_append]
    omega

end History

def Dues.FlushBy (dues : Dues) (instant : Nat) : Prop :=
  ∀ due ∈ dues .flush, ∃ t ≤ instant, due = some t

theorem Dues.FlushBy.mono {dues : Dues} {instant instant' : Nat} (h : dues.FlushBy instant)
    (later : instant ≤ instant') : dues.FlushBy instant' := fun due set =>
  (h due set).imp fun _ both => ⟨both.1.trans later, both.2⟩

theorem Dues.FlushBy.of_unset {dues : Dues} (unset : dues .flush = []) (instant : Nat) :
    dues.FlushBy instant := fun due set => by rw [unset] at set; cases set

def Config.FlushesAfter (config : Config) (delay : Nat) : Prop :=
  ∃ limit, config.maxTimeInBuffer = some limit ∧ limit.delayMilliseconds = .ok (some delay)

namespace Writer

variable {now delay : Nat} {w w' : Writer} {dues : Dues} {p q : Writer × Dues}

/-! What ticks leave of a writer. -/

theorem Tick.config (t : Tick now p q) : q.1.config = p.1.config := by
  cases t with
  | untimed h => exact h.later.config
  | opening h => exact h.later.config
  | _ => rfl

theorem Tick.history (t : Tick now p q) : p.1.history <:+ q.1.history := by
  cases t with
  | untimed h => exact h.later.history
  | opening h => exact h.later.history
  | _ => exact List.suffix_refl _

theorem Tick.usable (t : Tick now p q) (usable : q.1.refusal? = none) : p.1.refusal? = none := by
  cases t with
  | untimed h => exact h.later.usable usable
  | opening h => exact h.usable
  | _ => exact usable

theorem Tick.undeferred (t : Tick now p q) (before : p.1.deferred = false) :
    q.1.deferred = false := by
  cases t with
  | untimed h => exact h.deferred before
  | opening h => exact h.deferred before
  | disarm => rfl
  | _ => exact before

/-- While the writer can be used its alarm stays as it is set. -/
theorem Tick.waits (t : Tick now p q) (usable : q.1.refusal? = none)
    (armed : p.1.timerArmed = true) : q.1.timerArmed = true ∧ q.2 .flush = p.2 .flush := by
  cases t with
  | untimed h => exact ⟨h.armed.trans armed, rfl⟩
  | arm limited accepted unarmed filled => exact absurd armed (by simp [unarmed])
  | disarm refused => exact absurd usable refused
  | opening h => exact ⟨h.armed.trans armed, by simp⟩
  | drop gone => exact ⟨armed, rfl⟩

/-- An alarm that is set anew is due when the time in the buffer has passed. -/
theorem Tick.flushBy (t : Tick now p q) (limited : p.1.config.FlushesAfter delay)
    (h : p.2.FlushBy (now + delay)) : q.2.FlushBy (now + delay) := by
  cases t with
  | untimed | drop => exact h
  | @arm w dues limit delay' limit_eq delay_eq unarmed filled =>
    obtain ⟨own, limited, accepted⟩ := limited
    cases limit_eq.symm.trans limited
    cases delay_eq.symm.trans accepted
    intro due set
    simp only [Effect.dues, if_true, List.mem_append, List.mem_singleton, Option.map_some] at set
    rcases set with old | new
    · exact h due old
    · exact ⟨now + delay, le_rfl, new⟩
  | disarm refused => exact .of_unset (by simp [Effect.dues]) _
  | opening opens => exact fun due set => h due (by simpa using set)

theorem Ticks.config (t : Ticks now p q) : q.1.config = p.1.config := by
  induction t with
  | refl => rfl
  | tail _ t ih => exact t.config.trans ih

theorem Ticks.history (t : Ticks now p q) : p.1.history <:+ q.1.history := by
  induction t with
  | refl => exact List.suffix_refl _
  | tail _ t ih => exact ih.trans t.history

theorem Ticks.undeferred (t : Ticks now p q) (before : p.1.deferred = false) :
    q.1.deferred = false := by
  induction t with
  | refl => exact before
  | tail _ t ih => exact t.undeferred ih

theorem Ticks.waits (t : Ticks now p q) (usable : q.1.refusal? = none)
    (armed : p.1.timerArmed = true) : q.1.timerArmed = true ∧ q.2 .flush = p.2 .flush := by
  induction t with
  | refl => exact ⟨armed, rfl⟩
  | tail _ t ih =>
    obtain ⟨still, same⟩ := ih (t.usable usable)
    obtain ⟨still', same'⟩ := t.waits usable still
    exact ⟨still', same'.trans same⟩

theorem Ticks.flushBy (t : Ticks now p q) (limited : p.1.config.FlushesAfter delay)
    (h : p.2.FlushBy (now + delay)) : q.2.FlushBy (now + delay) := by
  induction t with
  | refl => exact h
  | tail before t ih => exact t.flushBy (Ticks.config before ▸ limited) ih

theorem InLine.filled {e : Value × Nat} (h : w.InLine) (waits : e ∈ w.history.line) :
    w.buffer.entries ≠ [] := fun none => by
  rw [← h.buffer, List.map_eq_nil_iff] at none
  rw [none] at waits
  cases waits

section Full

variable {n : Nat} {e : Value × Nat} {entries : List Value}

/-- A batch that is opened while somebody stays is full, and all of it was ahead. -/
theorem Opening.ahead {k : Nat} (opens : Opening now w entries w') (inLine : w.InLine)
    (whole : w.config.maxBatchSize.whole? = some (n : Int)) (place : w.history.line[k]? = some e)
    (waits : e ∈ w'.history.line) : ∃ j, w'.history.line[j]? = some e ∧ k = n + j := by
  have left := (inLine.opened opens.taken opens.history).filled waits
  have full : entries.length = n := Buffer.length_of_take whole opens.taken left
  rw [opens.history] at waits ⊢
  exact full ▸ History.place_opened place waits

/-- A flush takes a full batch of those ahead of whoever stays. The alarm is then set for another
time in the buffer, if at all. -/
theorem Flushed.ahead {k : Nat} {q : Writer × Dues} (f : Flushed now (w, dues) q)
    (inLine : w.InLine) (usable : w.refusal? = none)
    (whole : w.config.maxBatchSize.whole? = some (n : Int)) (positive : 0 < n)
    (limited : w.config.FlushesAfter delay) (unset : dues .flush = [])
    (place : w.history.line[k]? = some e) (still : e ∈ q.1.history.line) :
    q.2.FlushBy (now + delay) ∧
      ∃ j, q.1.history.line[j]? = some e ∧
        n + j + w.history.returned ≤ k + q.1.history.returned := by
  have was := List.mem_of_getElem? place
  obtain ⟨⟨entries, rest⟩, taken⟩ : ∃ taken, w.buffer.take w.config.maxBatchSize = .ok taken :=
    w.buffer.take_ok (by rw [whole]; rfl)
  obtain ⟨u, opens, ticks⟩ := f.opens usable entries rest taken
    (Buffer.some_of_take whole positive taken (inLine.filled was))
  have noted : (w.note now .flushed).InLine :=
    inLine.extend [(now, .flushed)] (by simp [Milestone.Inert]) rfl rfl
  have grew : w.history <:+ u.history := by
    rw [opens.history]
    exact (List.suffix_cons _ _).trans (List.suffix_cons _ _)
  have waits : e ∈ u.history.line := History.stays_between grew ticks.history was still
  obtain ⟨i, there, rfl⟩ := opens.ahead noted whole place waits
  obtain ⟨j, here, fewer⟩ : ∃ j, q.1.history.line[j]? = some e ∧
      j + u.history.returned ≤ i + q.1.history.returned :=
    History.place_le ticks.history there still
  have same : u.history.returned = w.history.returned := by rw [opens.history]; rfl
  refine ⟨ticks.flushBy (opens.later.config ▸ limited) (.of_unset (by simpa using unset) _),
    j, here, ?_⟩
  omega

end Full

end Writer
end BatchWriter
