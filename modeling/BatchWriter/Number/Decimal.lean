import BatchWriter.Number.Binary64

/-!
# Decimal text of doubles

Writing takes the fewest significant digits that read back as the same double, and
of those the nearest; a `DecimalStyle` holds the decisions of one text format.
Reading takes the exact decimal and rounds it once.
-/

set_option autoImplicit false

namespace BatchWriter
namespace Binary64

def decimalRatio (digits : Nat) (power : Int) : Nat × Nat :=
  if 0 ≤ power then (digits * Nat.pow 10 power.toNat, 1) else (digits, Nat.pow 10 (-power).toNat)

def ofDecimal (negative : Bool) (digits : Nat) (power : Int) : Binary64 :=
  let r := decimalRatio digits power
  ofRatio negative r.1 r.2

def decimalExponent (num den : Nat) : Nat → Int → Int
  | 0, k => k
  | fuel + 1, k =>
    let power := decimalRatio 1 k
    if power.1 * den ≤ num * power.2 then k else decimalExponent num den fuel (k - 1)

def decimalExponentBound (num den : Nat) : Int :=
  let binary : Int := (num.log2 : Int) - (den.log2 : Int) + 1
  if 0 ≤ binary then binary * 31 / 100 + 1 else binary * 30 / 100 + 1

def digitsAt (num den : Nat) (power : Int) : Nat :=
  let unit := decimalRatio 1 power
  num * unit.2 / (den * unit.1)

/-- Whether `low · 10 ^ power` is nearer to `num / den` than the next decimal above
it; a tie goes to the even last digit. -/
def lowIsNearer (num den low : Nat) (power : Int) : Bool :=
  let below := decimalRatio low power
  let above := decimalRatio (low + 1) power
  let down := (num * below.2 - below.1 * den) * above.2
  let up := (above.1 * den - num * above.2) * below.2
  decide (down < up) || (down == up && low % 2 == 0)

/-- The shortest decimal that reads back as `x = num / den`, tried with `count`
digits and upward, where `10 ^ top ≤ x < 10 ^ (top + 1)`: its digits and the power
of ten of the last one. -/
def shortestFrom (x : Binary64) (num den : Nat) (top : Int) : Nat → Nat → Nat × Int
  | 0, count => (digitsAt num den (top - count), top - count)
  | fuel + 1, count =>
    let power := top + 1 - (count : Int)
    let low := digitsAt num den power
    let lowFits := ofDecimal false low power == x
    let highFits := ofDecimal false (low + 1) power == x
    if lowFits && (!highFits || lowIsNearer num den low power) then (low, power)
    else if highFits then (low + 1, power)
    else shortestFrom x num den top fuel (count + 1)

def shortest (significand : Nat) (exponent : Int) : Nat × Int :=
  let r := ratio significand exponent
  let top := decimalExponent r.1 r.2 40 (decimalExponentBound r.1 r.2)
  shortestFrom (.finite false significand exponent) r.1 r.2 top 17 1

end Binary64

structure DecimalStyle where
  /-- Least decimal exponent written positionally. -/
  leastPositional : Int
  /-- Least decimal exponent above them that is written with an exponent again. -/
  leastLarge : Int
  /-- Least number of digits of a written exponent. -/
  exponentDigits : Nat
  /-- Digits after the point of a whole number written positionally. -/
  wholeTail : String

namespace DecimalStyle

def message : DecimalStyle := ⟨-4, 16, 2, ".0"⟩

def padLeft (width : Nat) (s : String) : String :=
  String.ofList (List.replicate (width - s.length) '0') ++ s

def dropZeros : Nat → Nat → Int → Nat × Int
  | 0, digits, power => (digits, power)
  | fuel + 1, digits, power =>
    if digits ≠ 0 ∧ digits % 10 = 0 then dropZeros fuel (digits / 10) (power + 1)
    else (digits, power)

def magnitude (style : DecimalStyle) (digits : Nat) (power : Int) : String :=
  let shortest := dropZeros 400 digits power
  let text := toString shortest.1
  let count := text.length
  let top := shortest.2 + (count : Int) - 1
  if style.leastPositional ≤ top && top < style.leastLarge then
    if 0 ≤ shortest.2 then
      text ++ String.ofList (List.replicate shortest.2.toNat '0') ++ style.wholeTail
    else if 0 ≤ top then
      String.ofList (text.toList.take (top + 1).toNat) ++ "." ++
        String.ofList (text.toList.drop (top + 1).toNat)
    else "0." ++ String.ofList (List.replicate (-top - 1).toNat '0') ++ text
  else
    let lead := String.ofList (text.toList.take 1)
    let tail := String.ofList (text.toList.drop 1)
    let sign := if top < 0 then "-" else "+"
    (if tail.isEmpty then lead else lead ++ "." ++ tail) ++ "e" ++ sign ++
      padLeft style.exponentDigits (toString top.natAbs)

def text (style : DecimalStyle) : Binary64 → String
  | .nan => "nan"
  | .infinity s => if s then "-inf" else "inf"
  | .finite s m e =>
    let body :=
      if m = 0 then "0" ++ style.wholeTail
      else
        let decimal := Binary64.shortest m e
        style.magnitude decimal.1 decimal.2
    if s then "-" ++ body else body

end DecimalStyle

def hexText (width n : Nat) : String :=
  DecimalStyle.padLeft width (String.ofList (Nat.toDigits 16 n))

end BatchWriter
