import BatchWriter.Proofs.Writer.Lawful
import Mathlib.Algebra.Order.BigOperators.Group.List
import Mathlib.Algebra.Order.Ring.Nat
import Mathlib.Algebra.Group.Action.Defs

/-!
# How much a writer holds

The history tells what the buffer holds at each moment. A requeue may take the buffer past
its capacity, so the bound is one on what is buffered and in flight together: only the
entries that writes append add to it, and each of them was let in below the capacity.
-/

set_option autoImplicit false

namespace BatchWriter

namespace Config

theorem pos_of_positive {fault : ConfigFault} {v : Value} {n : Number}
    (h : positive fault v = .ok n) {k : Int} (whole : n.whole? = some k) : 0 < k := by
  unfold positive at h
  cases hv : v.asLimit with
  | error f => simp [hv, Bind.bind, Except.bind] at h
  | ok m =>
    simp only [hv, Bind.bind, Except.bind] at h
    split at h
    · cases h
    · next above =>
      cases h
      rw [Number.le_of_whole whole] at above
      simpa using above

theorem pos_of_ofArguments {args : Arguments} {config : Config}
    (h : ofArguments args = .ok config) {size : Int}
    (whole : config.maxBatchSize.whole? = some size) : 0 < size := by
  simp only [ofArguments, Bind.bind, Except.bind] at h
  split at h
  · cases h
  · split at h
    · cases h
    · next batch accepted =>
      repeat' split at h
      all_goals cases h
      all_goals exact pos_of_positive accepted whole

end Config

namespace History

def queue : History → List Value
  | [] => []
  | (_, .restored entries) :: _ => entries
  | (_, .accepted entry) :: h => queue h ++ [entry]
  | (_, .opened _ entries) :: h => (queue h).drop entries.length
  | (_, .completed _ _ failed) :: h => failed ++ queue h
  | _ :: h => queue h

def initial : History → List Value
  | [] => []
  | (_, .restored entries) :: _ => entries
  | _ :: h => initial h

/-- Each completion reported no more entries as failed than its batch had. -/
def Modest (h : History) : Prop :=
  ∀ (t batch : Nat) (entries failed : List Value) (earlier : History),
    (t, .completed batch entries failed) :: earlier <:+ h →
      failed.length ≤ (openedWith earlier batch).length

def Below (capacity : Int) (h : History) : Prop :=
  ∀ (t : Nat) (entry : Value) (earlier : History),
    (t, .accepted entry) :: earlier <:+ h → (earlier.queue.length : Int) < capacity

def load (h : History) : Nat := Multiset.card h.outstanding

variable {h h' : History} {m : Milestone}

theorem modest_iff : h.Modest ↔ h.Reports fun failed opened => failed.length ≤ opened.length :=
  .rfl

theorem Modest.of_suffix (hm : h'.Modest) (hs : h <:+ h') : h.Modest :=
  modest_iff.2 ((modest_iff.1 hm).of_suffix hs)

theorem modest_nil : Modest [] := modest_iff.2 reports_nil

/-- One milestone after another, each completion is modest after what came before it. -/
theorem modest_cons (now : Nat) (m : Milestone) (h : History) :
    Modest ((now, m) :: h) ↔ h.Modest ∧ ∀ batch entries failed,
      m = .completed batch entries failed → failed.length ≤ (h.openedWith batch).length :=
  modest_iff.trans (reports_cons now m h)

theorem Below.of_suffix {capacity : Int} (hb : h'.Below capacity) (hs : h <:+ h') :
    h.Below capacity :=
  fun t entry earlier he => hb t entry earlier (he.trans hs)

theorem queue_abandoned (now : Nat) (requests : List (Request Value)) :
    queue (Writer.abandonments now requests ++ h) = h.queue := by
  induction requests with
  | nil => rfl
  | cons r rest ih => exact ih

theorem initial_abandoned (now : Nat) (requests : List (Request Value)) :
    initial (Writer.abandonments now requests ++ h) = h.initial := by
  induction requests with
  | nil => rfl
  | cons r rest ih => exact ih

theorem openedWith_abandoned (now : Nat) (requests : List (Request Value)) (batch : Nat) :
    openedWith (Writer.abandonments now requests ++ h) batch = h.openedWith batch := by
  induction requests with
  | nil => rfl
  | cons r rest ih => exact ih

theorem queue_lost {batch : Nat} (now : Nat) (loss : m.lost? = some batch) :
    queue ((now, m) :: h) = h.queue ∧ initial ((now, m) :: h) = h.initial := by
  cases m with
  | refused _ _ | reportedFailed _ _ | expired _ _ => exact ⟨rfl, rfl⟩
  | restored _ | accepted _ | opened _ _ | handed _ _ | completed _ _ _ | abandoned _ _ | flushed
  | announced _ => cases loss

theorem load_eq (h : History) :
    h.load = (h.openBatches.map fun batch => (h.openedWith batch).length).sum := by
  have sums := map_list_sum Multiset.cardHom
    (h.openBatches.map fun batch => (h.openedWith batch : Multiset Value))
  rw [List.map_map] at sums
  exact sums

theorem load_le (fewer : h'.openBatches.Sublist h.openBatches)
    (same : ∀ batch ∈ h'.openBatches, h'.openedWith batch = h.openedWith batch) :
    h'.load ≤ h.load := by
  rw [load_eq, load_eq, List.map_congr_left fun k hk => congrArg List.length (same k hk)]
  exact (fewer.map _).sum_le_sum fun _ _ => Nat.zero_le _

theorem openedWith_eq (h : History) (batch : Nat) : h.openedWith batch = [] ∨
    ∃ t earlier, (t, .opened batch (h.openedWith batch)) :: earlier <:+ h := by
  induction h with
  | nil => exact .inl rfl
  | cons e rest ih =>
    have older : ∀ {es : List Value}, openedWith rest batch = es →
        (es = [] ∨ ∃ t earlier, (t, .opened batch es) :: earlier <:+ e :: rest) := by
      rintro es rfl
      refine ih.imp_right ?_
      rintro ⟨t, earlier, hs⟩
      exact ⟨t, earlier, hs.trans (List.suffix_cons _ _)⟩
    obtain ⟨now, m⟩ := e
    cases m with
    | opened b es =>
      by_cases hb : b = batch
      · subst hb
        simp only [openedWith, if_true]
        exact .inr ⟨now, rest, List.suffix_refl _⟩
      · rw [openedWith_opened_of_ne hb]
        exact older rfl
    | _ => exact older rfl

end History

namespace Writer

open History

variable {w w' : Writer}

theorem Episode.queue (h : w.Episode w') (hq : w.history.queue = w.buffer.entries) :
    w'.history.queue = w'.buffer.entries := by
  cases h with
  | silent _ quiet => rw [quiet.history, quiet.buffer, hq]
  | told now m plain same =>
    rw [same]
    cases m with
    | flushed | announced _ => exact hq
    | _ => exact plain.elim
  | accepted _ _ _ history buffer =>
    rw [history, buffer, History.queue, hq, Buffer.entries_append]
  | opened now entries _ _ _ taken _ history =>
    rw [history, History.queue, hq, ← (Buffer.append_of_take taken).1, List.drop_left]
  | handed _ _ _ _ _ _ history buffer => rw [history, buffer, ← hq]; rfl
  | completed _ _ _ _ _ _ history buffer =>
    rw [history, buffer, History.queue, hq, Buffer.entries_prepend]
  | lost now _ _ loss _ _ history buffer => rw [history, buffer, (queue_lost now loss).1, hq]
  | closed _ _ _ history buffer => rw [history, buffer, queue_abandoned, hq]

/-- The buffer holds what the history says. -/
theorem Lawful.queue (h : w.Lawful) : w.history.queue = w.buffer.entries := by
  refine h.keeps (P := fun u => u.history.queue = u.buffer.entries) (fun u new => ?_)
    fun _ _ episode => episode.queue
  obtain ⟨now, entries, history, buffered⟩ := new.history
  rw [history, buffered]
  rfl

theorem Episode.capacity (h : w.Episode w') (hc : w.buffer.capacity = w.config.maxBuffered) :
    w'.buffer.capacity = w'.config.maxBuffered := by
  rw [h.later.config]
  cases h with
  | silent _ quiet => rw [quiet.buffer, hc]
  | told _ _ _ same => rw [same]; exact hc
  | accepted _ _ _ _ buffer | completed _ _ _ _ _ _ _ buffer | handed _ _ _ _ _ _ _ buffer
  | lost _ _ _ _ _ _ _ buffer | closed _ _ _ _ buffer => rw [buffer]; exact hc
  | opened _ _ _ _ _ taken => rw [(Buffer.append_of_take taken).2, hc]

theorem Lawful.capacity (h : w.Lawful) : w.buffer.capacity = w.config.maxBuffered :=
  h.keeps (fun _ new => new.capacity) fun _ _ episode => episode.capacity

theorem Lawful.accepted (h : w.Lawful) : ∃ args, Config.ofArguments args = .ok w.config :=
  h.keeps (P := fun u => ∃ args, Config.ofArguments args = .ok u.config)
    (fun _ new => new.accepted) fun _ _ episode accepted => episode.later.config ▸ accepted

/-- A buffer with a whole capacity has room while it holds fewer entries. -/
theorem Lawful.below_of_room (h : w.Lawful) {capacity : Int}
    (whole : w.config.maxBuffered.whole? = some capacity) (room : w.buffer.isFull = false) :
    (w.buffer.size : Int) < capacity := by
  rw [Buffer.isFull, h.capacity, Number.ofNat, Number.le_of_whole whole] at room
  simpa using room

/-- The open batches hold no more than the limits allow. -/
theorem Lawful.load_le (h : w.Lawful) {limit size : Int}
    (slots : w.config.maxInFlight.whole? = some limit)
    (sizes : w.config.maxBatchSize.whole? = some size) :
    (w.history.load : Int) ≤ limit * size := by
  obtain ⟨args, accepted⟩ := h.accepted
  have positive := Config.pos_of_ofArguments accepted sizes
  have each : ∀ x ∈ w.history.openBatches.map fun batch => (w.history.openedWith batch).length,
      x ≤ size.toNat := by
    intro x hx
    obtain ⟨batch, -, rfl⟩ := List.mem_map.1 hx
    rcases w.history.openedWith_eq batch with none | ⟨t, earlier, opened⟩
    · simp [none]
    · have fits := (h.bounded.opened t batch _ earlier opened).2 size sizes
      omega
  have total := List.sum_le_card_nsmul _ _ each
  rw [← load_eq, List.length_map, h.tracked.opened, InFlight.length_ids, smul_eq_mul] at total
  have count := h.bounded.count_le h.tracked slots
  calc (w.history.load : Int) ≤ (w.inFlight.count : Int) * size := by
        rw [← Int.toNat_of_nonneg (Int.le_of_lt positive)]
        exact_mod_cast total
    _ ≤ limit * size := Int.mul_le_mul_of_nonneg_right count (Int.le_of_lt positive)

def held (w : Writer) : Nat := w.buffer.size + w.history.load

/-- An accepted entry adds to what is held, and nothing else does while completions are modest. -/
theorem Episode.grows (h : w.Episode w') (lawful : w.Lawful) (modest : w'.history.Modest) :
    (w'.history.initial = w.history.initial ∧ w'.held ≤ w.held) ∨
      ∃ now entry, w'.history = (now, .accepted entry) :: w.history ∧
        w'.buffer = w.buffer.append entry := by
  have ho := lawful.tracked.opened
  cases h with
  | silent _ quiet =>
    refine .inl ⟨by rw [quiet.history], ?_⟩
    rw [Writer.held, Writer.held, quiet.history, quiet.buffer]
  | told now m plain same =>
    rw [same]
    cases m with
    | flushed | announced _ => exact .inl ⟨rfl, le_rfl⟩
    | _ => exact plain.elim
  | accepted now entry _ history buffer => exact .inr ⟨now, entry, history, buffer⟩
  | opened now entries _ _ _ taken _ history =>
    have fresh : ∀ batch ∈ w.history.openBatches, w.inFlight.issued + 1 ≠ batch := by
      intro batch hm
      have := lawful.tracked.sound.issued batch (ho ▸ hm)
      omega
    have load : w'.history.load = w.history.load + entries.length := by
      rw [history, load, outstanding_opened now entries fresh, Multiset.card_add,
        Multiset.coe_card, load]
    have whole := congrArg List.length (Buffer.append_of_take taken).1
    rw [List.length_append] at whole
    refine .inl ⟨by rw [history]; rfl, ?_⟩
    rw [Writer.held, Writer.held, load, Buffer.size, Buffer.size]
    omega
  | handed now _ _ _ _ _ history buffer =>
    refine .inl ⟨by rw [history]; rfl, ?_⟩
    rw [Writer.held, Writer.held, buffer, history, load,
      outstanding_cons now rfl (by simp), load]
  | completed now batch entries failed _ isOpen history buffer =>
    have distinct : w.history.openBatches.Nodup := ho ▸ lawful.tracked.sound.distinct
    -- What failed returns to the buffer, and is no more than what leaves with its batch.
    have out := congrArg Multiset.card
      (outstanding_completed now entries failed distinct (ho ▸ isOpen))
    have few := modest now batch entries failed w.history (by rw [history])
    rw [Multiset.card_add, Multiset.coe_card, ← history] at out
    refine .inl ⟨by rw [history]; rfl, ?_⟩
    rw [Writer.held, Writer.held, buffer, Buffer.size_prepend, load, load]
    omega
  | lost now batch m loss _ _ history buffer =>
    refine .inl ⟨by rw [history, (queue_lost now loss).2], ?_⟩
    rw [Writer.held, Writer.held, buffer, history]
    refine Nat.add_le_add_left (History.load_le ?_ ?_) _
    · rw [openBatches_ended now (Milestone.ended?_of_lost? loss)]
      exact List.filter_sublist
    · intro k _
      refine openedWith_cons now (fun b es hm => ?_) k
      rw [hm] at loss
      cases loss
  | closed now _ _ history buffer =>
    refine .inl ⟨by rw [history, initial_abandoned], ?_⟩
    rw [Writer.held, Writer.held, buffer, history]
    refine Nat.add_le_add_left (History.load_le ?_ ?_) _
    · rw [openBatches_abandoned]
      exact List.filter_sublist
    · intro k _
      exact openedWith_abandoned now _ k

/-- Only an accepted entry adds to what is held, and it was let in below the capacity. -/
theorem Episode.held (h : w.Episode w') (lawful : w.Lawful) {capacity limit size : Int}
    (slots : w.config.maxInFlight.whole? = some limit)
    (sizes : w.config.maxBatchSize.whole? = some size) (modest : w'.history.Modest)
    (below : w'.history.Below capacity)
    (hb : (w.held : Int) ≤ max (w.history.initial.length : Int) (capacity + limit * size)) :
    (w'.held : Int) ≤ max (w'.history.initial.length : Int) (capacity + limit * size) := by
  rcases h.grows lawful modest with ⟨same, less⟩ | ⟨now, entry, history, buffer⟩
  · rw [same]
    omega
  · have room : (w.buffer.size : Int) < capacity := by
      rw [Buffer.size, ← lawful.queue]
      exact below now entry w.history (by rw [history])
    have load : w'.history.load = w.history.load := by
      rw [history, load, outstanding_cons now rfl (by simp), load]
    have most := lawful.load_le slots sizes
    have size : w'.buffer.size = w.buffer.size + 1 := by rw [buffer, Buffer.size_append]
    rw [Writer.held, load, size]
    omega

/-- What a writer holds stays within the limits, while completions are modest and entries are
appended below the capacity. -/
theorem Lawful.held_le (h : w.Lawful) {capacity limit size : Int}
    (slots : w.config.maxInFlight.whole? = some limit)
    (sizes : w.config.maxBatchSize.whole? = some size) (modest : w.history.Modest)
    (below : w.history.Below capacity) :
    (w.held : Int) ≤ max (w.history.initial.length : Int) (capacity + limit * size) := by
  have kept := h.keeps (P := fun u => u.Lawful ∧ (u.config.maxInFlight.whole? = some limit →
    u.config.maxBatchSize.whole? = some size → u.history.Modest → u.history.Below capacity →
      (u.held : Int) ≤ max (u.history.initial.length : Int) (capacity + limit * size))) ?_ ?_
  · exact kept.2 slots sizes modest below
  · intro u new
    obtain ⟨now, entries, history, buffered⟩ := new.history
    refine ⟨new.lawful, fun _ _ _ _ => ?_⟩
    have load : u.history.load = 0 := by
      rw [history]
      rfl
    rw [Writer.held, load, Buffer.size, buffered, history]
    exact le_max_left _ _
  · rintro u v episode ⟨lawful, bound⟩
    refine ⟨episode.lawful lawful, fun slots sizes modest below => ?_⟩
    have older := episode.later.history
    rw [episode.later.config] at slots sizes
    exact episode.held lawful slots sizes modest below
      (bound slots sizes (modest.of_suffix older) (below.of_suffix older))

end Writer
end BatchWriter
