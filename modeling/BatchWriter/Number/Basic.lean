import BatchWriter.Number.Decimal

/-!
# Numbers of limits and settings

A limit is a whole number of any size, a truth value counting as 1 or 0, or a double;
it is kept as it was given. Comparisons are exact across the three forms, and every
comparison with no-number is false.
-/

set_option autoImplicit false

namespace BatchWriter

inductive Number where
  | int (n : Int)
  | bool (b : Bool)
  | float (x : Binary64)
  deriving DecidableEq, Repr

inductive Magnitude where
  | unordered
  | infinite (negative : Bool)
  | ratio (num : Int) (den : Nat)
  deriving DecidableEq, Repr

namespace Magnitude

def compare? : Magnitude → Magnitude → Option Ordering
  | .unordered, _ => none
  | _, .unordered => none
  | .infinite s, .infinite t => some (if s = t then .eq else if s then .lt else .gt)
  | .infinite s, .ratio .. => some (if s then .lt else .gt)
  | .ratio .., .infinite t => some (if t then .gt else .lt)
  | .ratio n d, .ratio m e => some (compare (n * (e : Int)) (m * (d : Int)))

end Magnitude

def Binary64.magnitude : Binary64 → Magnitude
  | .nan => .unordered
  | .infinity s => .infinite s
  | .finite s m e =>
    let r := Binary64.ratio m e
    .ratio (if s then -(r.1 : Int) else r.1) r.2

def Binary64.le (x y : Binary64) : Bool :=
  match x.magnitude.compare? y.magnitude with
  | some .gt => false
  | some _ => true
  | none => false

namespace Number

def magnitude : Number → Magnitude
  | .int n => .ratio n 1
  | .bool b => .ratio (if b then 1 else 0) 1
  | .float x => x.magnitude

def compare? (a b : Number) : Option Ordering := a.magnitude.compare? b.magnitude

def le (a b : Number) : Bool :=
  match a.compare? b with
  | some .gt => false
  | some _ => true
  | none => false

def lt (a b : Number) : Bool := a.compare? b == some .lt

/-- Equality of size, so `1`, `1.0` and a true value are equal. -/
def same (a b : Number) : Bool := a.compare? b == some .eq

def ofNat (n : Nat) : Number := .int n

def isZero (a : Number) : Bool := a.same (.int 0)

def toBinary64? : Number → Option Binary64
  | .int n => Binary64.ofInt? n
  | .bool b => some (Binary64.ofNat (if b then 1 else 0))
  | .float x => some x

def text : Number → String
  | .int n => toString n
  | .bool b => if b then "True" else "False"
  | .float x => DecimalStyle.message.text x

theorem compare?_int (a b : Int) : compare? (.int a) (.int b) = some (compare a b) := by
  simp [compare?, magnitude, Magnitude.compare?]

@[simp] theorem le_int (a b : Int) : le (.int a) (.int b) = decide (a ≤ b) := by
  rw [le, compare?_int]
  rcases Int.lt_trichotomy a b with h | h | h
  · simp [Std.compare_eq_lt.2 h, Int.le_of_lt h]
  · simp [h]
  · simp [Std.compare_eq_gt.2 h, Int.not_le.2 h]

@[simp] theorem lt_int (a b : Int) : lt (.int a) (.int b) = decide (a < b) := by
  rw [lt, compare?_int]
  rcases Int.lt_trichotomy a b with h | h | h
  · simp [Std.compare_eq_lt.2 h, h]
  · simp [h]
  · simp [Std.compare_eq_gt.2 h, Int.not_lt.2 (Int.le_of_lt h)]

end Number
end BatchWriter
