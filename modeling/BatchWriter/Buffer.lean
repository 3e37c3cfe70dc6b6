import BatchWriter.Fault

/-!
# Buffer of pending entries

New entries go to the tail and requeued ones to the head, and entries leave from the head,
one at a time. The capacity is advisory: it says when a write is held back, and requeued
entries may pass it.
-/

set_option autoImplicit false

namespace BatchWriter

structure Buffer (α : Type) where
  capacity : Number
  entries : List α

namespace Buffer

variable {α : Type}

def ofEntries (capacity : Number) (entries : List α) : Except Fault (Buffer α) :=
  if capacity.le (.int 0) then .error (.notPositive "capacity") else .ok ⟨capacity, entries⟩

def size (b : Buffer α) : Nat := b.entries.length

def isEmpty (b : Buffer α) : Bool := b.entries.isEmpty

def isFull (b : Buffer α) : Bool := b.capacity.le (.ofNat b.size)

def append (b : Buffer α) (entry : α) : Buffer α :=
  { b with entries := b.entries ++ [entry] }

def extendHead (b : Buffer α) (entries : List α) : Buffer α :=
  { b with entries := entries.foldl (fun kept entry => entry :: kept) b.entries }

def prepend (b : Buffer α) (entries : List α) : Buffer α := b.extendHead entries.reverse

/-- How many entries a request for `limit` of them takes out of `size`. A limit above
the size is cut down to it; any other must be a whole number. -/
def takeCount (limit : Number) (size : Nat) : Except Fault Nat :=
  if (Number.ofNat size).lt limit then .ok size
  else
    match limit with
    | .int n => .ok n.toNat
    | .bool b => .ok (if b then 1 else 0)
    | .float _ => .error (.notCount "float")

def popHead (b : Buffer α) : Except Fault (α × Buffer α) :=
  match b.entries with
  | [] => .error .emptyPop
  | entry :: rest => .ok (entry, { b with entries := rest })

def popHeads : Nat → Buffer α → Except Fault (List α × Buffer α)
  | 0, b => .ok ([], b)
  | n + 1, b => do
    let (entry, rest) ← b.popHead
    let (entries, rest) ← popHeads n rest
    return (entry :: entries, rest)

def take (b : Buffer α) (limit : Number) : Except Fault (List α × Buffer α) := do
  b.popHeads (← takeCount limit b.size)

@[simp] theorem entries_append (b : Buffer α) (x : α) :
    (b.append x).entries = b.entries ++ [x] := rfl

theorem entries_extendHead (b : Buffer α) (xs : List α) :
    (b.extendHead xs).entries = xs.reverse ++ b.entries := by
  simp [extendHead]

@[simp] theorem entries_prepend (b : Buffer α) (xs : List α) :
    (b.prepend xs).entries = xs ++ b.entries := by
  rw [prepend, entries_extendHead, List.reverse_reverse]

theorem prepend_eq (b : Buffer α) (xs : List α) :
    b.prepend xs = { b with entries := xs ++ b.entries } :=
  congrArg (mk b.capacity) (b.entries_prepend xs)

@[simp] theorem size_append (b : Buffer α) (x : α) : (b.append x).size = b.size + 1 := by
  simp [size]

@[simp] theorem size_prepend (b : Buffer α) (xs : List α) :
    (b.prepend xs).size = xs.length + b.size := by
  simp [size]

theorem isEmpty_iff (b : Buffer α) : b.isEmpty = true ↔ b.entries = [] := by
  simp [isEmpty]

/-- The head can be removed as many times as there are entries, and no more. -/
theorem popHeads_eq (n : Nat) (b : Buffer α) :
    b.popHeads n = if n ≤ b.size then
      .ok (b.entries.take n, { b with entries := b.entries.drop n }) else .error .emptyPop := by
  induction n generalizing b with
  | zero => rfl
  | succ n ih =>
    obtain ⟨capacity, entries⟩ := b
    cases entries with
    | nil => rfl
    | cons entry rest =>
      have pops : popHeads (n + 1) ⟨capacity, entry :: rest⟩ =
          (popHeads n ⟨capacity, rest⟩).bind fun popped =>
            .ok (entry :: popped.1, popped.2) := rfl
      rw [pops, ih]
      by_cases enough : n ≤ rest.length <;> simp [size, enough, Except.bind]

/-- A whole limit takes that many entries, or all there are. -/
theorem takeCount_int (n : Int) (size : Nat) :
    takeCount (.int n) size = .ok (min n.toNat size) := by
  unfold takeCount
  by_cases above : (size : Int) < n
  · have count : min n.toNat size = size := by omega
    simp [Number.ofNat, above, count]
  · have count : min n.toNat size = n.toNat := by omega
    simp [Number.ofNat, above, count]

theorem takeCount_bool (t : Bool) (size : Nat) :
    takeCount (.bool t) size = takeCount (.int (if t then 1 else 0)) size := by
  cases t <;> rfl

theorem takeCount_le {limit : Number} {size n : Nat} (h : takeCount limit size = .ok n) :
    n ≤ size := by
  cases limit with
  | int m =>
    rw [takeCount_int] at h
    cases h
    exact Nat.min_le_right _ _
  | bool t =>
    rw [takeCount_bool, takeCount_int] at h
    cases h
    exact Nat.min_le_right _ _
  | float x =>
    unfold takeCount at h
    split at h
    · cases h
      exact Nat.le_refl size
    · cases h

theorem take_eq (b : Buffer α) (limit : Number) :
    b.take limit = (takeCount limit b.size).map fun n =>
      (b.entries.take n, { b with entries := b.entries.drop n }) := by
  unfold take
  cases count : takeCount limit b.size with
  | error _ => rfl
  | ok n => exact (popHeads_eq n b).trans (if_pos (takeCount_le count))

/-- Only a limit that is no whole number is refused. -/
theorem take_error {b : Buffer α} {limit : Number} {fault : Fault}
    (h : b.take limit = .error fault) : fault = .notCount "float" := by
  rw [take_eq] at h
  cases limit with
  | int n =>
    rw [takeCount_int] at h
    cases h
  | bool t =>
    rw [takeCount_bool, takeCount_int] at h
    cases h
  | float x =>
    unfold takeCount at h
    split at h
    · cases h
    · cases h
      rfl

theorem append_of_take {b rest : Buffer α} {limit : Number} {taken : List α}
    (h : b.take limit = .ok (taken, rest)) :
    taken ++ rest.entries = b.entries ∧ rest.capacity = b.capacity := by
  rw [take_eq] at h
  cases hn : takeCount limit b.size with
  | error f => simp [hn, Except.map] at h
  | ok n =>
    simp only [hn, Except.map, Except.ok.injEq, Prod.mk.injEq] at h
    obtain ⟨rfl, rfl⟩ := h
    exact ⟨List.take_append_drop n b.entries, rfl⟩

end Buffer
end BatchWriter
