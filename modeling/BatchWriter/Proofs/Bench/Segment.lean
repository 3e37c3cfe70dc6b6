import BatchWriter.Proofs.Bench.ComesNearer

/-!
# What runs without a pause

A segment of a call is what the bench does from a moment at which the call runs until it gives
way, waits or ends. Whatever the subscribers and the destination do in it, a write or a commit
comes to the end of the segment, however much the buffer holds, and the free slots that it found
are all it can fill on the way.
-/

set_option autoImplicit false

namespace BatchWriter

/-- What was sent of a writer: the batches that were opened, and those of them that the
destination was called with. -/
structure Writer.Spent (w w' : Writer) (opened handed : List (List Value)) : Prop where
  config : w'.config = w.config
  batches : w'.history.batches = w.history.batches ++ opened
  deliveries : w'.history.deliveries = w.history.deliveries ++ handed
  called : handed <+: opened
  filled : ∀ entries ∈ opened, entries ≠ []

namespace Writer

variable {w u v : Writer} {opened : List (List Value)}

theorem Spent.refl (w : Writer) : w.Spent w [] [] where
  config := rfl
  batches := (List.append_nil _).symm
  deliveries := (List.append_nil _).symm
  called := List.prefix_refl _
  filled := by simp

theorem Spent.holds {handed : List (List Value)} (h : w.Spent u opened handed) (next : u.Holds v) :
    w.Spent v opened handed where
  config := next.config.trans h.config
  batches := next.batches.trans h.batches
  deliveries := next.deliveries.trans h.deliveries
  called := h.called
  filled := h.filled

/-- The destination is called with the batch, unless a fault comes up before. -/
theorem Spent.sends (h : w.Spent u opened opened) {fault : Option Fault} {entries : List Value}
    (next : u.Sends fault v entries) : ∃ handed, w.Spent v (opened ++ [entries]) handed ∧
      (fault = none → handed = opened ++ [entries]) := by
  have batches : v.history.batches = w.history.batches ++ (opened ++ [entries]) := by
    rw [next.batches, h.batches, List.append_assoc]
  have filled : ∀ e ∈ opened ++ [entries], e ≠ [] := by
    intro e hm
    rcases List.mem_append.1 hm with hm | hm
    · exact h.filled e hm
    · exact List.mem_singleton.1 hm ▸ next.filled
  have config := next.config.trans h.config
  rcases next.deliveries with called | ⟨kept, faulty⟩
  · refine ⟨opened ++ [entries], ⟨config, batches, ?_, List.prefix_refl _, filled⟩, fun _ => rfl⟩
    rw [called, h.deliveries, List.append_assoc]
  · refine ⟨opened, ⟨config, batches, ?_, List.prefix_append _ _, filled⟩, fun none =>
      absurd none faulty⟩
    rw [kept, h.deliveries]

end Writer

namespace Bench

variable {b b' b'' : Bench} {id i : ℕ} {p : Program} {w w' : Writer} {c : Call}

def Within (id : ℕ) (b b' : Bench) : Prop := b.running = some id ∧ Move b b'

/-- What happens while the call runs without a pause. -/
abbrev Segment (id : ℕ) : Bench → Bench → Prop := Relation.ReflTransGen (Within id)

theorem Reachable.segment (h : Reachable b) (s : Segment id b b') : Reachable b' := by
  induction s with
  | refl => exact h
  | tail _ within ih => exact ih.move within.2

structure At (b : Bench) (id i : ℕ) (p : Program) (w : Writer) : Prop where
  running : b.running = some id
  call : ∃ c : Call, b.calls[id]? = some c ∧ c.program = p
  works : p.works? = some i
  writer : b.writers[i]? = some w

theorem works_of_becomes {q : Program} (becomes : p.Becomes q) (works : p.works? = some i) :
    q.works? = some i := by
  cases p with
  | write job point =>
    cases q with
    | write next after => rw [← works, Program.works?, becomes]; rfl
    | _ => exact becomes.elim
  | commit job point =>
    cases q with
    | commit next after => rw [← works, Program.works?, becomes]; rfl
    | _ => exact becomes.elim
  | _ => cases works

theorem step_running (running : b.running = some id) : b.step = some (b.proceed id) := by
  rw [step]
  simp only [running]

theorem move_proceed (running : b.running = some id) : Move b (b.proceed id) :=
  .step (step_running running)

theorem within_proceed (running : b.running = some id) : Within id b (b.proceed id) :=
  ⟨running, move_proceed running⟩

/-- The running call goes on by one point: it sends nothing of its writer, or one batch in a free
slot, and it goes on nearer to its end, unless it pauses. -/
theorem At.proceed (h : b.At id i p w) (reachable : Reachable b) :
    ∃ w', (b.proceed id).writers[i]? = some w' ∧
      (w.Holds w' ∨ ∃ fault entries, w.hasCapacity = true ∧ w.Sends fault w' entries ∧
        (fault ≠ none → (b.proceed id).running = none)) ∧
      ((b.proceed id).running = none ∨ ∃ q, (b.proceed id).At id i q w' ∧
        q.ahead w' < p.ahead w) := by
  obtain ⟨c, hc, rfl⟩ := h.call
  obtain ⟨-, -, fits, poised⟩ := reachable.orderly.runs h.running hc
  have from_ := from_advanceProgram b id c.loop c.program
  obtain ⟨c₁, hc₁, -⟩ := (stays_advanceProgram (known_any b) id c.loop c.program).kept id c hc
  have point := comesNearer_or_ships h.writer (reachable.lawful h.writer) h.works fits poised id
  rw [proceed_eq hc]
  generalize b.advanceProgram id c.loop c.program = r at from_ hc₁ point
  obtain ⟨b₁, progress⟩ := r
  have resolved := resolved hc₁ progress
  have pauses : progress.goesOn = false → (b₁.resolve id progress).running = none := by
    intro rests
    rw [resolved.running, rests]
    rfl
  have onward : ∀ w' : Writer, b₁.writers[i]? = some w' →
      (∀ q, progress = .go q → q.ahead w' < c.program.ahead w) →
      (b₁.resolve id progress).running = none ∨ ∃ q, (b₁.resolve id progress).At id i q w' ∧
        q.ahead w' < c.program.ahead w := by
    intro w' hw' nearer
    cases progress with
    | go q =>
      obtain ⟨c', hc', -, -, program⟩ := resolved.own
      exact .inr ⟨q, ⟨resolved.running, ⟨c', hc', program⟩,
        works_of_becomes (from_ q rfl) h.works, by rw [resolved.writers, hw']⟩, nearer q rfl⟩
    | _ => exact .inl (pauses rfl)
  rcases point with ⟨w', hw', holds, nearer⟩ | ⟨w', fault, entries, hw', room, sends, stops, nearer⟩
  · exact ⟨w', by rw [resolved.writers, hw'], .inl holds, onward w' hw' nearer⟩
  · refine ⟨w', by rw [resolved.writers, hw'], .inr ⟨fault, entries, room, sends, ?_⟩,
      onward w' hw' nearer⟩
    exact fun faulty => pauses (stops faulty)

/-- While the call runs, it goes on by one point or it is left alone, and its writer with it. -/
theorem At.within (h : b.At id i p w) (reachable : Reachable b) (within : Within id b b') :
    b' = b.proceed id ∨ b'.At id i p w := by
  have running := h.running
  obtain ⟨c, hc, rfl⟩ := h.call
  cases reachable.shift within.2 with
  | beside noProgress spares =>
    have spares := spares.resolve_left (by simp [running])
    obtain ⟨c', hc', keeps⟩ := noProgress.kept id c hc
    exact .inr ⟨noProgress.running.trans running, ⟨c', hc', keeps.program⟩, h.works,
      spares i w h.writer⟩
  | woken idle => simp [idle] at running
  | interrupted idle => simp [idle] at running
  | @advanced id' c' running' hc' same =>
    cases running.symm.trans running'
    rw [same, ← proceed_eq hc']
    exact .inl rfl

/-! ## A segment ends -/

/-- The call pauses after so many points, if nothing comes in between. -/
theorem At.ends (h : b.At id i p w) (reachable : Reachable b) :
    ∃ n, Segment id b (run n b) ∧ (run n b).running = none := by
  generalize measure : p.ahead w = ahead
  induction ahead using WellFoundedLT.induction generalizing b p w with
  | ind ahead ih =>
    have next := within_proceed h.running
    have steps : ∀ n, run (n + 1) b = run n (b.proceed id) := by
      intro n
      rw [run, step_running h.running]
    obtain ⟨w', -, -, pauses | ⟨q, onward, nearer⟩⟩ := h.proceed reachable
    · exact ⟨1, by rw [steps]; exact .single next, by rw [steps]; exact pauses⟩
    · obtain ⟨n, segment, pauses⟩ := ih _ (measure ▸ nearer) onward (reachable.move next.2) rfl
      exact ⟨n + 1, by rw [steps]; exact .head next segment, by rw [steps]; exact pauses⟩

/-- Nothing that comes in between keeps the call going: from some moment on it does not get on. -/
theorem At.stalls (h : b.At id i p w) (reachable : Reachable b) {moves : ℕ → Bench}
    (first : moves 0 = b) (each : ∀ k, Within id (moves k) (moves (k + 1))) :
    ∃ k, ∀ m, k ≤ m → moves (m + 1) ≠ (moves m).proceed id := by
  generalize measure : p.ahead w = ahead
  induction ahead using WellFoundedLT.induction generalizing b p w moves with
  | ind ahead ih =>
    by_cases on : ∃ m, moves (m + 1) = (moves m).proceed id
    · classical
      -- Up to its next point the call and its writer are left alone.
      let m := Nat.find on
      have there : ∀ k, k ≤ m → (moves k).At id i p w ∧ Reachable (moves k) := by
        intro k
        induction k with
        | zero => exact fun _ => first ▸ ⟨h, reachable⟩
        | succ k left =>
          intro before
          obtain ⟨here, reached⟩ := left (Nat.le_of_succ_le before)
          exact ⟨(here.within reached (each k)).resolve_left (Nat.find_min on before),
            reached.move (each k).2⟩
      obtain ⟨here, reached⟩ := there m le_rfl
      have next : moves (m + 1) = (moves m).proceed id := Nat.find_spec on
      obtain ⟨w', -, -, pauses | ⟨q, onward, nearer⟩⟩ := here.proceed reached
      · rw [← next, (each (m + 1)).1] at pauses
        cases pauses
      · rw [← next] at onward
        obtain ⟨rest, same⟩ : ∃ rest : ℕ → Bench, ∀ k, rest k = moves (m + 1 + k) :=
          ⟨_, fun _ => rfl⟩
        have goes : ∀ k, Within id (rest k) (rest (k + 1)) := fun k => by
          rw [same, same]
          exact each (m + 1 + k)
        obtain ⟨k, stalls⟩ := ih _ (measure ▸ nearer) onward (reached.move (each m).2) (same 0)
          goes rfl
        refine ⟨m + 1 + k, fun n later => ?_⟩
        obtain ⟨d, rfl⟩ := Nat.exists_eq_add_of_le (Nat.le_of_add_right_le later)
        have stalled := stalls d (by omega)
        rwa [same, same] at stalled
    · exact ⟨0, fun m _ same => on ⟨m, same⟩⟩

/-! ## What a segment sends -/

/-- While the call runs, the destination was called with all that was opened, and each batch
has taken a slot. -/
structure Spending (w w' : Writer) (opened : List (List Value)) : Prop where
  spent : w.Spent w' opened opened
  slots : w'.refusal? = none → w.inFlight.count + opened.length ≤ w'.inFlight.count

/-- The free slots of a whole limit are enough for what was sent. -/
def Affords (w : Writer) (opened : List (List Value)) : Prop :=
  ∀ limit, w.config.maxInFlight.whole? = some limit →
    (opened.length : ℤ) + w.inFlight.count ≤ limit

theorem Spending.holds {u v : Writer} {opened : List (List Value)} (h : Spending w u opened)
    (next : u.Holds v) : Spending w v opened := by
  refine ⟨h.spent.holds next, fun usable => ?_⟩
  obtain ⟨refusal, count⟩ := next.slots.resolve_left (by simp [usable])
  rw [count]
  exact h.slots (refusal ▸ usable)

theorem Spending.affords {u v : Writer} {opened : List (List Value)} (h : Spending w u opened)
    (lawful : u.Lawful) {fault : Option Fault} {entries : List Value}
    (room : u.hasCapacity = true) (next : u.Sends fault v entries) :
    Affords w (opened ++ [entries]) := by
  intro limit whole
  have whole : u.inFlight.limit.whole? = some limit := by
    rw [lawful.bounded.limit, h.spent.config, whole]
  have slots := h.slots next.usable
  rw [Writer.hasCapacity, InFlight.hasCapacity, Number.ofNat, Number.lt_of_whole whole,
    decide_eq_true_eq] at room
  rw [List.length_append, List.length_singleton]
  push_cast
  omega

/-- What has come of a segment: the call still runs, or it has paused. -/
theorem At.spends (h : b.At id i p w) (reachable : Reachable b) (s : Segment id b b') :
    ∃ w' opened, b'.writers[i]? = some w' ∧ Affords w opened ∧
      ((∃ q, b'.At id i q w' ∧ Spending w w' opened) ∨
        b'.running = none ∧ ∃ handed, w.Spent w' opened handed) := by
  induction s with
  | refl =>
    refine ⟨w, [], h.writer, fun limit whole => ?_, .inl ⟨p, h, .refl w, fun _ => le_rfl⟩⟩
    have lawful := reachable.lawful h.writer
    simpa using lawful.bounded.count_le lawful.tracked whole
  | @tail b₁ b₂ before within ih =>
    obtain ⟨u, opened, hu, affords, ⟨q, here, spending⟩ | ⟨idle, -⟩⟩ := ih
    · have reached := reachable.segment before
      rcases here.within reached within with rfl | same
      · obtain ⟨v, hv, holds | ⟨fault, entries, room, sends, stops⟩, onward⟩ := here.proceed reached
        · refine ⟨v, opened, hv, affords, onward.symm.imp ?_ fun pauses => ⟨pauses, _,
            spending.spent.holds holds⟩⟩
          exact fun ⟨q', here', _⟩ => ⟨q', here', spending.holds holds⟩
        · refine ⟨v, opened ++ [entries], hv, spending.affords (reached.lawful hu) room sends, ?_⟩
          obtain ⟨handed, spent, all⟩ := spending.spent.sends sends
          refine onward.symm.imp ?_ fun pauses => ⟨pauses, handed, spent⟩
          rintro ⟨q', here', -⟩
          have through : fault = none := by
            by_contra faulty
            have pauses := stops faulty
            rw [here'.running] at pauses
            cases pauses
          obtain ⟨-, count, -⟩ := sends.onward through
          refine ⟨q', here', all through ▸ spent, fun _ => ?_⟩
          rw [count, List.length_append, List.length_singleton, ← Nat.add_assoc]
          exact Nat.succ_le_succ (spending.slots sends.usable)
      · exact ⟨u, opened, same.writer, affords, .inl ⟨q, same, spending⟩⟩
    · rw [within.1] at idle
      cases idle

/-- **Segments end, and spend no more than the free slots.** From every moment at which a write or
a commit runs, whatever the buffer holds: the call pauses after finitely many points, also if the
bench is moved from outside in between. In each such segment the batches that are opened for its
writer have entries, the destination is called with them in turn, and they are no more than the
slots that were free at its beginning. A dispatch that finds the buffer empty opens no batch. -/
theorem segments_end_within_the_free_slots (h : Reachable b) (running : b.running = some id)
    (hc : b.calls[id]? = some c) (works : c.program.works? = some i)
    (hw : b.writers[i]? = some w) :
    (∃ n, Segment id b (run n b) ∧ (run n b).running = none) ∧
      (∀ moves : ℕ → Bench, moves 0 = b → (∀ k, Within id (moves k) (moves (k + 1))) →
        ∃ k, ∀ m, k ≤ m → moves (m + 1) ≠ (moves m).proceed id) ∧
      ∀ b', Segment id b b' → ∃ w' opened handed, b'.writers[i]? = some w' ∧
        w.Spent w' opened handed ∧ Affords w opened := by
  have here : b.At id i c.program w := ⟨running, ⟨c, hc, rfl⟩, works, hw⟩
  refine ⟨here.ends h, fun moves first each => here.stalls h first each, fun b' s => ?_⟩
  obtain ⟨w', opened, hw', affords, ⟨-, -, spending⟩ | ⟨-, handed, spent⟩⟩ := here.spends h s
  · exact ⟨w', opened, opened, hw', spending.spent, affords⟩
  · exact ⟨w', opened, handed, hw', spent, affords⟩

def emptying : Bench :=
  run 1 (flushing [("max_batch_size", .nat 2), ("max_in_flight_requests", .nat 2),
    ("max_buffered_requests", .nat 4)] [.nat 1, .nat 2, .nat 3, .nat 4, .nat 5])

theorem segments_end_within_the_free_slots_emptying : ∃ w, emptying.writers[0]? = some w ∧
    (∃ n, Segment 0 emptying (run n emptying) ∧ (run n emptying).running = none) ∧
    (∀ b', Segment 0 emptying b' → ∃ w' opened handed, b'.writers[0]? = some w' ∧
      w.Spent w' opened handed ∧ opened.length ≤ 2) ∧
    ((run 4 emptying).historyOf 0).deliveries = [[.nat 1, .nat 2], [.nat 3, .nat 4]] := by
  obtain ⟨w, hw⟩ : ∃ w, emptying.writers[0]? = some w := ⟨_, rfl⟩
  have known : (emptying.writers[0]?).map (fun w => (w.config.maxInFlight, w.inFlight.count)) =
      some (.int 2, 0) := rfl
  rw [hw, Option.map_some, Option.some.injEq, Prod.mk.injEq] at known
  have reachable : Reachable emptying := (reachable_flushing rfl).run 1
  have running : emptying.running = some 0 := rfl
  obtain ⟨ends, -, spends⟩ := segments_end_within_the_free_slots reachable running rfl rfl hw
  refine ⟨w, hw, ends, fun b' s => ?_, rfl⟩
  obtain ⟨w', opened, handed, hw', spent, affords⟩ := spends b' s
  have slots := affords 2 (by rw [known.1]; rfl)
  rw [known.2] at slots
  exact ⟨w', opened, handed, hw', spent, by omega⟩

end Bench
end BatchWriter
