/-!
# Tables in order of creation

A table from keys to values that keeps the order in which keys first appeared.
-/

set_option autoImplicit false

namespace BatchWriter

structure Ledger (κ α : Type) where
  entries : List (κ × α) := []

namespace Ledger

variable {κ α : Type} [DecidableEq κ]

def get? (l : Ledger κ α) (key : κ) : Option α :=
  (l.entries.find? fun e => e.1 = key).map (·.2)

def getD (l : Ledger κ α) (key : κ) (default : α) : α := (l.get? key).getD default

def contains (l : Ledger κ α) (key : κ) : Bool := l.entries.any fun e => e.1 = key

def ensure (l : Ledger κ α) (key : κ) (initial : α) : Ledger κ α :=
  if l.contains key then l else ⟨l.entries ++ [(key, initial)]⟩

def alter (l : Ledger κ α) (key : κ) (initial : α) (f : α → α) : Ledger κ α :=
  ⟨(l.ensure key initial).entries.map fun e => if e.1 = key then (e.1, f e.2) else e⟩

theorem get?_ensure_self (l : Ledger κ α) (key : κ) (initial : α) :
    (l.ensure key initial).get? key = some (l.getD key initial) := by
  unfold ensure getD get?
  split
  · next h =>
    obtain ⟨e, he, hk⟩ := List.any_eq_true.1 h
    cases hf : l.entries.find? fun e => decide (e.1 = key) with
    | none => exact absurd hk (by simpa using List.find?_eq_none.1 hf e he)
    | some v => simp
  · next h =>
    have hf : l.entries.find? (fun e => decide (e.1 = key)) = none := by
      rw [List.find?_eq_none]
      intro e he hk
      exact h (List.any_eq_true.2 ⟨e, he, hk⟩)
    simp [List.find?_append, hf]

theorem get?_ensure_of_ne (l : Ledger κ α) {key other : κ} (h : other ≠ key) (initial : α) :
    (l.ensure key initial).get? other = l.get? other := by
  unfold ensure get?
  split
  · rfl
  · simp [List.find?_append, Ne.symm h]

/-- A key that is added has the value that it had by default. -/
theorem getD_ensure (l : Ledger κ α) (key other : κ) (initial : α) :
    (l.ensure key initial).getD other initial = l.getD other initial := by
  by_cases same : other = key
  · subst same
    rw [getD, get?_ensure_self]
    rfl
  · rw [getD, get?_ensure_of_ne _ same, getD]

theorem find?_map_alter (entries : List (κ × α)) (key other : κ) (f : α → α) :
    ((entries.map fun e => if e.1 = key then (e.1, f e.2) else e).find?
        fun e => decide (e.1 = other)) =
      (entries.find? fun e => decide (e.1 = other)).map
        fun e => if e.1 = key then (e.1, f e.2) else e := by
  induction entries with
  | nil => rfl
  | cons e es ih =>
    simp only [List.map_cons, List.find?_cons]
    by_cases hk : e.1 = key <;> by_cases ho : e.1 = other <;> simp_all

theorem get?_alter_self (l : Ledger κ α) (key : κ) (initial : α) (f : α → α) :
    (l.alter key initial f).get? key = some (f (l.getD key initial)) := by
  have h := get?_ensure_self l key initial
  unfold get? at h
  unfold alter get?
  rw [find?_map_alter]
  cases hf : (l.ensure key initial).entries.find? fun e => decide (e.1 = key) with
  | none => simp [hf] at h
  | some e =>
    have hk : e.1 = key := by simpa using List.find?_some hf
    rw [hf] at h
    simp_all

theorem get?_alter_of_ne (l : Ledger κ α) {key other : κ} (h : other ≠ key) (initial : α)
    (f : α → α) : (l.alter key initial f).get? other = l.get? other := by
  have he := get?_ensure_of_ne l h initial
  unfold get? at he
  unfold alter get?
  rw [find?_map_alter]
  rw [← he]
  cases hf : (l.ensure key initial).entries.find? fun e => decide (e.1 = other) with
  | none => rfl
  | some e =>
    have hk : e.1 = other := by simpa using List.find?_some hf
    simp [hk, h]

end Ledger
end BatchWriter
