/-!
# Double-precision numbers

Doubles as exact data: a sign, a whole significand and a power of two. Every
operation computes the exact ratio and rounds it once, to the nearest double and
to the even one on a tie, so results agree bit for bit with the hardware and still
evaluate inside a proof.
-/

set_option autoImplicit false

namespace BatchWriter

/-- A finite double is `± significand · 2 ^ exponent`. Values built by `ofRatio`
are canonical: the significand is below `2 ^ 53`, the exponent at least `-1074`,
and one of the two is as small as it can be. -/
inductive Binary64 where
  | nan
  | infinity (negative : Bool)
  | finite (negative : Bool) (significand : Nat) (exponent : Int)
  deriving DecidableEq, Repr

namespace Binary64

/-- The whole number nearest to `num / den`; a half goes to the even neighbour. -/
def nearest (num den : Nat) : Nat :=
  let quotient := num / den
  let twice := 2 * (num % den)
  if twice < den then quotient
  else if den < twice then quotient + 1
  else quotient + quotient % 2

-- Powers are written as `Nat.pow`, which means the same whatever algebra is imported.

def scale (num den : Nat) (exponent : Int) : Nat × Nat :=
  if 0 ≤ exponent then (num, den * Nat.pow 2 exponent.toNat)
  else (num * Nat.pow 2 (-exponent).toNat, den)

def exponentFor (num den : Nat) : Int :=
  let guess := max ((num.log2 : Int) - (den.log2 : Int) - 53) (-1074)
  let scaled := scale num den guess
  if Nat.pow 2 53 ≤ scaled.1 / scaled.2 then guess + 1 else guess

def ofRatio (negative : Bool) (num den : Nat) : Binary64 :=
  if num = 0 then .finite negative 0 (-1074)
  else
    let exponent := exponentFor num den
    let scaled := scale num den exponent
    let rounded := nearest scaled.1 scaled.2
    let carried :=
      if rounded = Nat.pow 2 53 then (Nat.pow 2 52, exponent + 1) else (rounded, exponent)
    if 971 < carried.2 then .infinity negative
    else .finite negative carried.1 carried.2

def ratio (significand : Nat) (exponent : Int) : Nat × Nat :=
  if 0 ≤ exponent then (significand * Nat.pow 2 exponent.toNat, 1)
  else (significand, Nat.pow 2 (-exponent).toNat)

def ofInt? (n : Int) : Option Binary64 :=
  match ofRatio (decide (n < 0)) n.natAbs 1 with
  | .infinity _ => none
  | x => some x

def ofQuotient? (num den : Int) : Option Binary64 :=
  match ofRatio (decide (num < 0) != decide (den < 0)) num.natAbs den.natAbs with
  | .infinity _ => none
  | x => some x

def ofNat (n : Nat) : Binary64 := ofRatio false n 1

def neg : Binary64 → Binary64
  | .nan => .nan
  | .infinity s => .infinity (!s)
  | .finite s m e => .finite (!s) m e

def sumRatio (s₁ : Bool) (r₁ : Nat × Nat) (s₂ : Bool) (r₂ : Nat × Nat) : Bool × Nat × Nat :=
  let signed (s : Bool) (n : Nat) : Int := if s then -(n : Int) else n
  let total := signed s₁ (r₁.1 * r₂.2) + signed s₂ (r₂.1 * r₁.2)
  (decide (total < 0), total.natAbs, r₁.2 * r₂.2)

/-- A sum that is exactly zero is negative only when both terms are. -/
def add : Binary64 → Binary64 → Binary64
  | .nan, _ => .nan
  | _, .nan => .nan
  | .infinity s, .infinity t => if s = t then .infinity s else .nan
  | .infinity s, .finite .. => .infinity s
  | .finite .., .infinity t => .infinity t
  | .finite s m e, .finite t n f =>
    let total := sumRatio s (ratio m e) t (ratio n f)
    if total.2.1 = 0 then .finite (s && t) 0 (-1074)
    else ofRatio total.1 total.2.1 total.2.2

def sub (x y : Binary64) : Binary64 := add x (neg y)

def mul : Binary64 → Binary64 → Binary64
  | .nan, _ => .nan
  | _, .nan => .nan
  | .infinity s, .infinity t => .infinity (s != t)
  | .infinity s, .finite t n _ => if n = 0 then .nan else .infinity (s != t)
  | .finite s m _, .infinity t => if m = 0 then .nan else .infinity (s != t)
  | .finite s m e, .finite t n f =>
    let a := ratio m e
    let b := ratio n f
    ofRatio (s != t) (a.1 * b.1) (a.2 * b.2)

def div : Binary64 → Binary64 → Binary64
  | .nan, _ => .nan
  | _, .nan => .nan
  | .infinity _, .infinity _ => .nan
  | .infinity s, .finite t _ _ => .infinity (s != t)
  | .finite s _ _, .infinity t => .finite (s != t) 0 (-1074)
  | .finite s m e, .finite t n f =>
    if n = 0 then .nan
    else
      let a := ratio m e
      let b := ratio n f
      ofRatio (s != t) (a.1 * b.2) (a.2 * b.1)

def toInt? : Binary64 → Option Int
  | .finite s m e =>
    let r := ratio m e
    let n := nearest r.1 r.2
    some (if s then -(n : Int) else n)
  | _ => none

def isWhole : Binary64 → Bool
  | .finite _ m e =>
    let r := ratio m e
    r.1 % r.2 == 0
  | _ => false

def toBits : Binary64 → Nat
  | .nan => 2047 * Nat.pow 2 52 + Nat.pow 2 51
  | .infinity s => (if s then Nat.pow 2 63 else 0) + 2047 * Nat.pow 2 52
  | .finite s m e =>
    (if s then Nat.pow 2 63 else 0) +
      (if m < Nat.pow 2 52 then m else (e + 1075).toNat * Nat.pow 2 52 + (m - Nat.pow 2 52))

end Binary64
end BatchWriter
