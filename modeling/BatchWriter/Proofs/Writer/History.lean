import BatchWriter.Proofs.Writer.Episode
import Mathlib.Algebra.Order.Group.Multiset
import Mathlib.Algebra.BigOperators.Group.Multiset.Basic

/-!
# What a history tells

Which entries a writer was given, with which of them each batch was opened, which
batches are still open, and which entries were persisted, as the history alone has it.
The newest milestone comes first.
-/

set_option autoImplicit false

namespace BatchWriter

def Milestone.ended? : Milestone → Option Nat
  | .completed batch _ _ => some batch
  | .refused batch _ => some batch
  | .reportedFailed batch _ => some batch
  | .expired batch _ => some batch
  | .abandoned batch _ => some batch
  | _ => none

/-- The milestones after which entries of a batch may be lost: it was refused, failed or
timed out, or the writer was closed on it. -/
def Milestone.IsLoss (m : Milestone) : Prop :=
  m.lost?.isSome = true ∨ ∃ batch entries, m = .abandoned batch entries

namespace History

def openedWith : History → Nat → List Value
  | [], _ => []
  | (_, .opened b entries) :: h, batch => if b = batch then entries else openedWith h batch
  | _ :: h, batch => openedWith h batch

def openBatches : History → List Nat
  | [] => []
  | (_, .opened batch _) :: h => openBatches h ++ [batch]
  | (_, m) :: h =>
    match m.ended? with
    | some batch => (openBatches h).filter (· ≠ batch)
    | none => openBatches h

def admitted : History → Multiset Value
  | [] => 0
  | (_, .restored entries) :: h => entries + admitted h
  | (_, .accepted entry) :: h => {entry} + admitted h
  | _ :: h => admitted h

open scoped Classical in
noncomputable def persisted : History → Multiset Value
  | [] => 0
  | (_, .completed batch _ failed) :: h =>
    ((openedWith h batch : Multiset Value) - (failed : Multiset Value)) + persisted h
  | _ :: h => persisted h

/-- Each completion reported as failed some of the entries of its own batch. -/
def Faithful (h : History) : Prop :=
  ∀ (t batch : Nat) (entries failed : List Value) (earlier : History),
    (t, .completed batch entries failed) :: earlier <:+ h →
      (failed : Multiset Value) ≤ (openedWith earlier batch : Multiset Value)

/-- The newest batch that holds an entry. -/
def SentLast : History → Value → Nat → Prop
  | [], _, _ => False
  | (_, .opened b entries) :: h, entry, batch =>
    (entry ∈ entries ∧ batch = b) ∨ (entry ∉ entries ∧ SentLast h entry batch)
  | _ :: h, entry, batch => SentLast h entry batch

def Settled (h : History) (entry : Value) (batch : Nat) : Prop :=
  ∃ t entries failed, (t, .completed batch entries failed) ∈ h ∧ entry ∉ failed

/-- The batch in which an entry was dispatched last went through for it. -/
def Delivered (h : History) (entry : Value) : Prop :=
  ∃ batch, h.SentLast entry batch ∧ h.Settled entry batch

variable {h : History} {m : Milestone}

/-! Milestones that move no entries leave all of this as it is. -/

theorem openedWith_cons (now : Nat) (hm : ∀ b es, m ≠ .opened b es) (batch : Nat) :
    openedWith ((now, m) :: h) batch = h.openedWith batch := by
  cases m with
  | opened b es => exact absurd rfl (hm b es)
  | _ => rfl

theorem sentLast_cons (now : Nat) (hm : ∀ b es, m ≠ .opened b es) (entry : Value)
    (batch : Nat) : SentLast ((now, m) :: h) entry batch ↔ h.SentLast entry batch := by
  cases m with
  | opened b es => exact absurd rfl (hm b es)
  | _ => rfl

theorem admitted_cons (now : Nat) (hr : ∀ es, m ≠ .restored es) (ha : ∀ e, m ≠ .accepted e) :
    admitted ((now, m) :: h) = h.admitted := by
  cases m with
  | restored es => exact absurd rfl (hr es)
  | accepted e => exact absurd rfl (ha e)
  | _ => rfl

theorem persisted_cons (now : Nat) (hm : ∀ b es fs, m ≠ .completed b es fs) :
    persisted ((now, m) :: h) = h.persisted := by
  cases m with
  | completed b es fs => exact absurd rfl (hm b es fs)
  | _ => rfl

section Reports

variable {P : List Value → List Value → Prop}

/-- What each completion reported as failed relates to what its batch was opened with. -/
def Reports (P : List Value → List Value → Prop) (h : History) : Prop :=
  ∀ (t batch : Nat) (entries failed : List Value) (earlier : History),
    (t, .completed batch entries failed) :: earlier <:+ h → P failed (earlier.openedWith batch)

theorem Reports.of_suffix {h h' : History} (hr : h'.Reports P) (hs : h <:+ h') : h.Reports P :=
  fun t batch entries failed earlier he => hr t batch entries failed earlier (he.trans hs)

theorem reports_nil : Reports P [] := by
  intro t batch entries failed earlier hs
  simp at hs

theorem reports_cons (now : Nat) (m : Milestone) (h : History) :
    Reports P ((now, m) :: h) ↔ h.Reports P ∧ ∀ batch entries failed,
      m = .completed batch entries failed → P failed (h.openedWith batch) := by
  constructor
  · intro hr
    refine ⟨hr.of_suffix (List.suffix_cons _ _), ?_⟩
    rintro batch entries failed rfl
    exact hr now batch entries failed h (List.suffix_refl _)
  · rintro ⟨older, newest⟩ t batch entries failed earlier hs
    rcases List.suffix_cons_iff.1 hs with he | hs
    · cases he
      exact newest batch entries failed rfl
    · exact older t batch entries failed earlier hs

end Reports

theorem faithful_iff : h.Faithful ↔ h.Reports fun failed opened =>
    (failed : Multiset Value) ≤ (opened : Multiset Value) := .rfl

theorem Faithful.of_suffix {h h' : History} (hf : h'.Faithful) (hs : h <:+ h') : h.Faithful :=
  faithful_iff.2 ((faithful_iff.1 hf).of_suffix hs)

theorem faithful_nil : Faithful [] := faithful_iff.2 reports_nil

/-- One milestone after another, each completion is faithful to what came before it. -/
theorem faithful_cons (now : Nat) (m : Milestone) (h : History) :
    Faithful ((now, m) :: h) ↔ h.Faithful ∧ ∀ batch entries failed,
      m = .completed batch entries failed →
        (failed : Multiset Value) ≤ (h.openedWith batch : Multiset Value) :=
  faithful_iff.trans (reports_cons now m h)

theorem Settled.of_suffix {h h' : History} {entry : Value} {batch : Nat}
    (hd : h.Settled entry batch) (hs : h <:+ h') : h'.Settled entry batch := by
  obtain ⟨t, entries, failed, hm, hn⟩ := hd
  exact ⟨t, entries, failed, hs.subset hm, hn⟩

theorem openBatches_cons (now : Nat) (hm : m.ended? = none) (ho : ∀ b es, m ≠ .opened b es) :
    openBatches ((now, m) :: h) = h.openBatches := by
  cases m with
  | opened b es => exact absurd rfl (ho b es)
  | restored _ | accepted _ | handed _ _ | flushed | announced _ => rfl
  | completed _ _ _ | refused _ _ | reportedFailed _ _ | expired _ _ | abandoned _ _ => cases hm

theorem openBatches_ended (now : Nat) {batch : Nat} (hm : m.ended? = some batch) :
    openBatches ((now, m) :: h) = h.openBatches.filter (· ≠ batch) := by
  cases m with
  | opened _ _ | restored _ | accepted _ | handed _ _ | flushed | announced _ => cases hm
  | completed _ _ _ | refused _ _ | reportedFailed _ _ | expired _ _ | abandoned _ _ =>
    cases hm
    rfl

theorem openBatches_abandoned (now : Nat) (requests : List (Request Value)) :
    openBatches (Writer.abandonments now requests ++ h) =
      h.openBatches.filter fun id => id ∉ requests.map (·.id) := by
  unfold Writer.abandonments
  induction requests with
  | nil => simp
  | cons r rest ih =>
    rw [List.map_cons, List.cons_append, openBatches_ended now rfl, ih, List.filter_filter]
    apply List.filter_congr
    intro id _
    by_cases hid : id = r.id <;> simp [hid]

end History
end BatchWriter
