import BatchWriter.Fault

/-!
# Virtual time

Alarms on a clock that counts whole microseconds. An alarm of endless delay is kept
but never due. Among due alarms the earliest rings first. Of two at the same instant
`next?` takes the one set first, but a run may have either ring. An alarm is known by
what it does.
-/

set_option autoImplicit false

namespace BatchWriter

structure Alarm (α : Type) where
  /-- The instant at which it rings; never, when absent. -/
  due : Option Nat
  action : α

structure Timetable (α : Type) where
  now : Nat := 0
  /-- Alarms in the order in which they were set. -/
  alarms : List (Alarm α) := []

/-- Microseconds of a delay given in seconds: to the nearest one, a half to the even
one, and at least one. An endless delay has none; no-number is refused. -/
def delayMicroseconds (seconds : Binary64) : Except Fault (Option Nat) :=
  let scaled := seconds.mul (Binary64.ofNat 1000000)
  match scaled with
  | .nan => .error .delayNotNumber
  | .infinity negative => .ok (if negative then some 1 else none)
  | x => .ok ((x.toInt?).map fun n => max 1 n.toNat)

def Number.delaySeconds (n : Number) : Except Fault (Option Nat) :=
  match n.toBinary64? with
  | some x => delayMicroseconds x
  | none => .error .numberTooLarge

def Number.delayMilliseconds (n : Number) : Except Fault (Option Nat) :=
  match n.toBinary64? with
  | some x => delayMicroseconds (x.div (Binary64.ofNat 1000))
  | none => .error .numberTooLarge

namespace Timetable

variable {α : Type}

def set (t : Timetable α) (delay : Option Nat) (action : α) : Timetable α :=
  { t with alarms := t.alarms ++ [⟨delay.map (t.now + ·), action⟩] }

def isSet [DecidableEq α] (t : Timetable α) (action : α) : Bool :=
  t.alarms.any fun a => a.action = action

def cancel [DecidableEq α] (t : Timetable α) (action : α) : Timetable α :=
  { t with alarms := t.alarms.filter fun a => a.action ≠ action }

/-- The earlier of two alarms; the first one on a tie. -/
def earlier (a b : Alarm α) : Alarm α :=
  match a.due, b.due with
  | some x, some y => if y < x then b else a
  | none, some _ => b
  | _, none => a

def next? (t : Timetable α) : Option (Alarm α) :=
  match t.alarms with
  | [] => none
  | a :: rest => some (rest.foldl earlier a)

def ring? [DecidableEq α] (t : Timetable α) (limit : Nat) : Option (α × Timetable α) :=
  match t.next? with
  | some ⟨some due, action⟩ =>
    if due ≤ limit then some (action, { t.cancel action with now := max t.now due }) else none
  | _ => none

def moveTo (t : Timetable α) (instant : Nat) : Timetable α :=
  { t with now := max t.now instant }

variable [DecidableEq α]

theorem isSet_set (t : Timetable α) (delay : Option Nat) (action other : α) :
    (t.set delay action).isSet other = (t.isSet other || decide (action = other)) := by
  simp [set, isSet]

theorem isSet_cancel_self (t : Timetable α) (action : α) :
    (t.cancel action).isSet action = false := by
  simp [cancel, isSet]

theorem isSet_cancel_of_ne (t : Timetable α) {action other : α} (h : other ≠ action) :
    (t.cancel action).isSet other = t.isSet other := by
  unfold cancel isSet
  induction t.alarms with
  | nil => rfl
  | cons a rest ih =>
    by_cases ha : a.action = action
    · have : a.action ≠ other := fun e => h (e.symm.trans ha)
      simp_all
    · simp_all

end Timetable
end BatchWriter
