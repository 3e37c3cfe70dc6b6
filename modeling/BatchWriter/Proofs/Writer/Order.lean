import BatchWriter.Proofs.Writer.Dispatch
import BatchWriter.Proofs.Writer.Memory
import BatchWriter.Proofs.Writer.Terminal
import Mathlib.Data.List.Range

/-!
# The order in which entries leave

Each entry is numbered when it is put into the buffer, so an entry that returns is told
apart from what it was before. Those that have left, in the order in which they left,
followed by the buffer make one line. Requeued entries enter it where the buffer begins and
new ones at its end, and nobody in it ever changes places.
-/

set_option autoImplicit false

namespace BatchWriter

def Milestone.Inert : Milestone → Prop
  | .restored _ | .accepted _ | .opened _ _ | .completed _ _ _ => False
  | _ => True

theorem Milestone.Plain.inert {m : Milestone} (h : m.Plain) : m.Inert := by
  cases m with
  | flushed | announced _ => trivial
  | _ => exact h.elim

theorem Milestone.inert_of_lost? {m : Milestone} {batch : Nat} (h : m.lost? = some batch) :
    m.Inert := by
  cases m with
  | refused _ _ | reportedFailed _ _ | expired _ _ => trivial
  | _ => cases h

namespace History

def puts : History → Nat
  | [] => 0
  | (_, .restored entries) :: h => puts h + entries.length
  | (_, .accepted _) :: h => puts h + 1
  | (_, .completed _ _ failed) :: h => puts h + failed.length
  | _ :: h => puts h

def line : History → List (Value × Nat)
  | [] => []
  | (_, .restored entries) :: h => line h ++ entries.zipIdx (puts h)
  | (_, .accepted entry) :: h => line h ++ [(entry, puts h)]
  | (_, .opened _ entries) :: h => (line h).drop entries.length
  | (_, .completed _ _ failed) :: h => failed.zipIdx (puts h) ++ line h
  | _ :: h => line h

/-- What has left the buffer with its numbers, batch after batch as they were opened, and
within each batch from its head. -/
def departed : History → List (Value × Nat)
  | [] => []
  | (_, .opened _ entries) :: h => departed h ++ (line h).take entries.length
  | _ :: h => departed h

def batches : History → List (List Value)
  | [] => []
  | (_, .opened _ entries) :: h => batches h ++ [entries]
  | _ :: h => batches h

def deliveries : History → List (List Value)
  | [] => []
  | (_, .handed _ entries) :: h => deliveries h ++ [entries]
  | _ :: h => deliveries h

def written : History → List Value
  | [] => []
  | (_, .accepted entry) :: h => written h ++ [entry]
  | _ :: h => written h

def Untroubled (h : History) : Prop :=
  ∀ (t batch : Nat) (entries failed : List Value),
    (t, .completed batch entries failed) ∈ h → failed = []

abbrev parade (h : History) : List (Value × Nat) := h.departed ++ h.line

variable {h h' : History} {m : Milestone}

theorem Untroubled.of_suffix (hu : h'.Untroubled) (hs : h <:+ h') : h.Untroubled :=
  fun t batch entries failed hm => hu t batch entries failed (hs.subset hm)

/-- The histories tell the same of what entered the buffer and of what left it. -/
structure SameEntries (h h' : History) : Prop where
  line : h'.line = h.line
  departed : h'.departed = h.departed
  batches : h'.batches = h.batches
  initial : h'.initial = h.initial
  written : h'.written = h.written

/-- Milestones that move no entries leave all of this as it is. -/
theorem sameEntries_append {newer : History} (inert : ∀ e ∈ newer, e.2.Inert) (h : History) :
    SameEntries h (newer ++ h) := by
  induction newer with
  | nil => exact ⟨rfl, rfl, rfl, rfl, rfl⟩
  | cons e rest ih =>
    have others := ih fun x hx => inert x (List.mem_cons_of_mem _ hx)
    have first := inert e List.mem_cons_self
    obtain ⟨now, m⟩ := e
    cases m with
    | restored _ | accepted _ | opened _ _ | completed _ _ _ => exact first.elim
    | _ => exact ⟨others.line, others.departed, others.batches, others.initial, others.written⟩

theorem parade_restored (now : Nat) (entries : List Value) :
    parade ((now, .restored entries) :: h) = h.parade ++ entries.zipIdx h.puts :=
  (List.append_assoc _ _ _).symm

theorem parade_accepted (now : Nat) (entry : Value) :
    parade ((now, .accepted entry) :: h) = h.parade ++ [(entry, h.puts)] :=
  (List.append_assoc _ _ _).symm

theorem parade_opened (now batch : Nat) (entries : List Value) :
    parade ((now, .opened batch entries) :: h) = h.parade := by
  rw [parade, departed, line, List.append_assoc, List.take_append_drop]

theorem parade_completed (now batch : Nat) (entries failed : List Value) :
    parade ((now, .completed batch entries failed) :: h) =
      h.departed ++ (failed.zipIdx h.puts ++ h.line) := rfl

theorem parade_cons (now : Nat) (m : Milestone) :
    h.parade.Sublist (parade ((now, m) :: h)) := by
  cases m with
  | restored es => rw [parade_restored]; exact List.sublist_append_left _ _
  | accepted e => rw [parade_accepted]; exact List.sublist_append_left _ _
  | opened _ _ => rw [parade_opened]
  | completed _ _ failed =>
    rw [parade_completed]
    exact (List.sublist_append_right _ _).append_left _
  | _ => exact List.Sublist.refl _

/-- Nobody in the line ever changes places. -/
theorem parade_sublist (hs : h <:+ h') : h.parade.Sublist h'.parade := by
  obtain ⟨newer, rfl⟩ := hs
  induction newer with
  | nil => exact List.Sublist.refl _
  | cons e rest ih => exact ih.trans (parade_cons e.1 e.2)

/-- What was put into the buffer has left it or is there, each put once. -/
theorem parade_numbers (h : History) : (h.parade.map Prod.snd).Perm (List.range h.puts) := by
  induction h with
  | nil => exact .refl _
  | cons e rest ih =>
    obtain ⟨now, m⟩ := e
    have more : ∀ n, List.range (puts rest + n) = List.range (puts rest) ++ List.range'
      (puts rest) n := by
      intro n
      rw [List.range_eq_range', List.range_eq_range', ← List.range'_append_1, Nat.zero_add]
    cases m with
    | restored es =>
      rw [puts, more, parade_restored, List.map_append, List.zipIdx_map_snd]
      exact ih.append_right _
    | accepted e =>
      rw [puts, more, parade_accepted, List.map_append]
      exact ih.append_right _
    | opened b es => rw [parade_opened]; exact ih
    | completed b es failed =>
      rw [puts, more, parade_completed, List.map_append, List.map_append, List.zipIdx_map_snd]
      refine (List.perm_append_comm_assoc _ _ _).trans (List.perm_append_comm.trans ?_)
      rw [← List.map_append]
      exact ih.append_right _
    | _ => exact ih

theorem parade_nodup (h : History) : h.parade.Nodup :=
  List.Nodup.of_map Prod.snd ((h.parade_numbers.nodup_iff).2 List.nodup_range)

/-- Of two in the line the first one leaves first. -/
theorem departs_first {e f : Value × Nat} (before : [e, f].Sublist h.parade) (hs : h <:+ h')
    (gone : f ∈ h'.departed) : [e, f].Sublist h'.departed := by
  obtain ⟨front, back, split, hf, hb⟩ :=
    List.sublist_append_iff.1 (before.trans (parade_sublist hs))
  have distinct := List.nodup_append.1 h'.parade_nodup
  -- The second one has left, so it is not in the buffer.
  have none : back = [] := by
    rcases List.eq_nil_or_concat back with none | ⟨init, last, rfl⟩
    · exact none
    · have ends : f = last := by simpa using congrArg List.getLast? split
      have waits : f ∈ h'.line := hb.subset (by simp [ends])
      exact absurd rfl (distinct.2.2 f gone f waits)
  rw [none, List.append_nil] at split
  rw [split]
  exact hf

/-- Requeued entries leave before whatever was in the buffer and before whatever a write
appends later, and among themselves in the order in which they were reported. -/
theorem requeued_first {now batch : Nat} {entries failed : List Value}
    (hs : (now, .completed batch entries failed) :: h <:+ h') {e f : Value × Nat}
    (gone : f ∈ h'.departed)
    (behind : [e, f].Sublist (failed.zipIdx h.puts) ∨ e ∈ failed.zipIdx h.puts ∧
      (f ∈ h.line ∨ ∃ (t : Nat) (entry : Value) (between : History),
        (t, .accepted entry) :: between <:+ h' ∧
        (now, .completed batch entries failed) :: h <:+ between ∧ f = (entry, between.puts))) :
    [e, f].Sublist h'.departed := by
  have front : (failed.zipIdx h.puts ++ h.line).Sublist
      (parade ((now, .completed batch entries failed) :: h)) := by
    rw [parade_completed]
    exact List.sublist_append_right _ _
  rcases behind with order | ⟨returned, waits | ⟨t, entry, between, later, after, rfl⟩⟩
  · exact departs_first ((order.trans (List.sublist_append_left _ _)).trans front) hs gone
  · have pair : [e, f].Sublist (failed.zipIdx h.puts ++ h.line) :=
      (List.singleton_sublist.2 returned).append (List.singleton_sublist.2 waits)
    exact departs_first (pair.trans front) hs gone
  · refine departs_first ?_ later gone
    rw [parade_accepted]
    refine List.Sublist.append (List.singleton_sublist.2 ?_)
      (List.Sublist.refl [(entry, between.puts)])
    exact (parade_sublist after).subset (front.subset (List.mem_append_left _ returned))

def InTurn (h : History) : Prop :=
  ∀ h' : History, h' <:+ h → h'.deliveries.Sublist h'.batches

theorem InTurn.cons (turn : h.InTurn) (now : Nat)
    (last : ∀ batch entries, m = .handed batch entries →
      ∃ t earlier, h = (t, .opened batch entries) :: earlier) : InTurn ((now, m) :: h) := by
  intro h' hs
  rcases List.suffix_cons_iff.1 hs with rfl | hs
  · have before := turn h (List.suffix_refl _)
    cases m with
    | opened batch entries => exact before.trans (List.sublist_append_left _ _)
    | handed batch entries =>
      obtain ⟨t, earlier, rfl⟩ := last batch entries rfl
      exact (turn earlier (List.suffix_cons _ _)).append_right [entries]
    | _ => exact before
  · exact turn h' hs

theorem InTurn.append {newer : History} (quiet : ∀ e ∈ newer, ¬ e.2.Submits) (turn : h.InTurn) :
    InTurn (newer ++ h) := by
  induction newer with
  | nil => exact turn
  | cons e rest ih =>
    refine (ih fun x hx => quiet x (List.mem_cons_of_mem _ hx)).cons e.1 fun batch
      entries same => ?_
    exact absurd (same ▸ trivial) (quiet e List.mem_cons_self)

/-- Milestones that tell of nothing sent leave batches and calls as they are. -/
theorem sent_append {newer : History} (quiet : ∀ e ∈ newer, ¬ e.2.Submits) (h : History) :
    (newer ++ h).deliveries = h.deliveries ∧ (newer ++ h).batches = h.batches := by
  induction newer with
  | nil => exact ⟨rfl, rfl⟩
  | cons e rest ih =>
    have others := ih fun x hx => quiet x (List.mem_cons_of_mem _ hx)
    have first := quiet e List.mem_cons_self
    obtain ⟨now, m⟩ := e
    cases m with
    | opened _ _ | handed _ _ => exact absurd trivial first
    | _ => exact others

end History

namespace Writer

open History

variable {w w' : Writer}

/-- What the history says of the order of entries holds of the buffer and of the batches. -/
structure InLine (w : Writer) : Prop where
  buffer : w.history.line.map Prod.fst = w.buffer.entries
  batches : w.history.departed.map Prod.fst = w.history.batches.flatten
  untroubled : w.history.Untroubled →
    w.history.batches.flatten ++ w.buffer.entries = w.history.initial ++ w.history.written

theorem InLine.extend (h : w.InLine) (newer : History) (inert : ∀ e ∈ newer, e.2.Inert)
    (history : w'.history = newer ++ w.history) (buffer : w'.buffer = w.buffer) : w'.InLine := by
  have sameEntries := sameEntries_append inert w.history
  refine ⟨?_, ?_, fun untroubled => ?_⟩
  · rw [history, buffer, sameEntries.line, h.buffer]
  · rw [history, sameEntries.departed, sameEntries.batches, h.batches]
  · rw [history] at untroubled ⊢
    rw [sameEntries.batches, sameEntries.initial, sameEntries.written, buffer]
    exact h.untroubled (untroubled.of_suffix (List.suffix_append _ _))

theorem InLine.accepted (h : w.InLine) {now : Nat} {entry : Value}
    (history : w'.history = (now, .accepted entry) :: w.history)
    (buffer : w'.buffer = w.buffer.append entry) : w'.InLine := by
  refine ⟨?_, ?_, fun untroubled => ?_⟩
  · rw [history, buffer, line, List.map_append, h.buffer]
    rfl
  · rw [history]
    exact h.batches
  · rw [history] at untroubled ⊢
    have order := h.untroubled (untroubled.of_suffix (List.suffix_cons _ _))
    rw [buffer, Buffer.entries_append, ← List.append_assoc]
    rw [History.batches, order, initial, written, List.append_assoc]
    all_goals simp

theorem InLine.opened (h : w.InLine) {now batch : Nat} {entries : List Value}
    (taken : w.buffer.take w.config.maxBatchSize = .ok (entries, w'.buffer))
    (history : w'.history = (now, .opened batch entries) :: w.history) : w'.InLine := by
  obtain ⟨whole, -⟩ := Buffer.append_of_take taken
  have out : (w.history.line.take entries.length).map Prod.fst = entries := by
    rw [List.map_take, h.buffer, ← whole, List.take_left]
  refine ⟨?_, ?_, fun untroubled => ?_⟩
  · rw [history, line, List.map_drop, h.buffer, ← whole, List.drop_left]
  · rw [history, departed, History.batches, List.map_append, h.batches, out, List.flatten_append]
    simp
  · rw [history] at untroubled ⊢
    have order := h.untroubled (untroubled.of_suffix (List.suffix_cons _ _))
    rw [← whole] at order
    rw [History.batches, initial, written]
    · simpa using order
    all_goals simp

theorem InLine.completed (h : w.InLine) {now batch : Nat} {entries failed : List Value}
    (history : w'.history = (now, .completed batch entries failed) :: w.history)
    (buffer : w'.buffer = w.buffer.prepend failed) : w'.InLine := by
  refine ⟨?_, ?_, fun untroubled => ?_⟩
  · rw [history, buffer, line, List.map_append, h.buffer, List.zipIdx_map_fst,
      Buffer.entries_prepend]
  · rw [history]
    exact h.batches
  · rw [history] at untroubled ⊢
    have order := h.untroubled (untroubled.of_suffix (List.suffix_cons _ _))
    have none := untroubled now batch entries failed List.mem_cons_self
    rw [buffer, none]
    exact order

theorem Episode.inLine (h : w.Episode w') (hl : w.InLine) : w'.InLine := by
  cases h with
  | silent _ quiet => exact hl.extend [] (by simp) quiet.history quiet.buffer
  | told now m plain same =>
    refine hl.extend [(now, m)] ?_ (by rw [same]; rfl) (by rw [same]; rfl)
    simpa using plain.inert
  | accepted _ _ _ history buffer => exact hl.accepted history buffer
  | opened _ _ _ _ _ taken _ history => exact hl.opened taken history
  | handed now _ _ _ _ _ history buffer =>
    exact hl.extend [(now, _)] (by simp [Milestone.Inert]) history buffer
  | completed _ _ _ _ _ _ history buffer => exact hl.completed history buffer
  | lost now batch m loss _ _ history buffer =>
    refine hl.extend [(now, m)] ?_ history buffer
    simpa using Milestone.inert_of_lost? loss
  | closed now _ _ history buffer =>
    exact hl.extend _ (by simp [abandonments, Milestone.Inert]) history buffer

/-- Only the batch opened last is handed over. -/
theorem Episode.inTurn (h : w.Episode w') (turn : w.history.InTurn) : w'.history.InTurn := by
  cases h with
  | silent _ quiet => exact quiet.history ▸ turn
  | told now m plain same =>
    rw [same]
    exact turn.cons now fun batch entries handed => by rw [handed] at plain; exact plain.elim
  | accepted _ _ _ history | opened _ _ _ _ _ _ _ history | completed _ _ _ _ _ _ history =>
    rw [history]
    exact turn.cons _ fun _ _ handed => by cases handed
  | handed now batch entries _ head _ history =>
    rw [history]
    refine turn.cons now fun b es same => ?_
    cases same
    exact head
  | lost now batch m loss _ _ history =>
    rw [history]
    exact turn.cons now fun b es handed => by rw [handed] at loss; cases loss
  | closed now _ _ history =>
    rw [history]
    exact turn.append (by simp [abandonments, Milestone.Submits])

theorem Lawful.inTurn (h : w.Lawful) : w.history.InTurn := by
  refine h.keeps (P := fun u => u.history.InTurn)
    (fun u new => ?_) fun _ _ episode => episode.inTurn
  obtain ⟨now, entries, history, -⟩ := new.history
  have none : InTurn [] := fun h' hs => by rw [List.suffix_nil.1 hs]; exact List.Sublist.refl _
  rw [history]
  exact none.cons now fun _ _ handed => by cases handed

theorem Lawful.inLine (h : w.Lawful) : w.InLine := by
  refine h.keeps (fun u new => ?_) fun _ _ episode => episode.inLine
  obtain ⟨now, entries, history, buffered⟩ := new.history
  refine ⟨?_, ?_, fun _ => ?_⟩
  · rw [history, buffered]
    exact List.zipIdx_map_fst _ _
  · rw [history]
    rfl
  · rw [history, buffered]
    simp [batches, initial, written]

def Submitted (w : Writer) : Prop := w.config.Tame → w.history.deliveries = w.history.batches

end Writer
end BatchWriter
