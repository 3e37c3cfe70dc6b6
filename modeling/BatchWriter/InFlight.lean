import BatchWriter.Fault

/-!
# Batches in flight

Batches handed to the destination whose outcome is not yet known, in the order they
were opened. Ids count from one and are never reused, so an outcome is counted once.
-/

set_option autoImplicit false

namespace BatchWriter

structure Request (α : Type) where
  id : Nat
  entries : List α
  /-- When the batch was opened, in microseconds. -/
  openedAt : Nat
  /-- Whether an alarm ends the batch's time. -/
  timed : Bool := false

structure InFlight (α : Type) where
  limit : Number
  issued : Nat := 0
  requests : List (Request α) := []

namespace InFlight

variable {α : Type}

def ofLimit (limit : Number) : Except Fault (InFlight α) :=
  if limit.le (.int 0) then .error (.notPositive "limit") else .ok { limit }

def count (t : InFlight α) : Nat := t.requests.length

def hasCapacity (t : InFlight α) : Bool := (Number.ofNat t.count).lt t.limit

def find? (t : InFlight α) (id : Nat) : Option (Request α) :=
  t.requests.find? fun r => r.id == id

/-- Opens a batch under the next id. The limit is the caller's to respect. -/
def openBatch (t : InFlight α) (entries : List α) (now : Nat) : Request α × InFlight α :=
  let request : Request α := { id := t.issued + 1, entries, openedAt := now }
  (request, { t with issued := t.issued + 1, requests := t.requests ++ [request] })

def remove (t : InFlight α) (id : Nat) : InFlight α :=
  { t with requests := t.requests.filter fun r => r.id != id }

def update (t : InFlight α) (id : Nat) (f : Request α → Request α) : InFlight α :=
  { t with requests := t.requests.map fun r => if r.id = id then f r else r }

def clear (t : InFlight α) : InFlight α := { t with requests := [] }

@[simp] theorem count_openBatch (t : InFlight α) (entries : List α) (now : Nat) :
    (t.openBatch entries now).2.count = t.count + 1 := by
  simp [openBatch, count]

@[simp] theorem count_update (t : InFlight α) (id : Nat) (f : Request α → Request α) :
    (t.update id f).count = t.count := by
  simp [update, count]

@[simp] theorem count_clear (t : InFlight α) : t.clear.count = 0 := rfl

end InFlight

/-- Milliseconds between two instants: both are first expressed in seconds, and every
step is rounded to a double. -/
def ageMilliseconds (openedAt now : Nat) : Binary64 :=
  let seconds (t : Nat) : Binary64 := Binary64.ofRatio false t 1000000
  ((seconds now).sub (seconds openedAt)).mul (Binary64.ofNat 1000)

end BatchWriter
