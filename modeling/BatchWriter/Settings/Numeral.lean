import BatchWriter.Number.Basic
import BatchWriter.Text.Printable

/-!
# Numerals in settings

The texts that a setting accepts as a number. Blanks around it do not count, a sign may
precede it, and single underscores may stand between its digits. A whole number may
end in a fraction of zeros; a double may have a fraction and an exponent, or be an
infinity or no-number by name.
-/

set_option autoImplicit false

namespace BatchWriter.Settings

def trim (cs : List Char) : List Char :=
  ((cs.dropWhile Text.isBlank).reverse.dropWhile Text.isBlank).reverse

def splitSign : List Char → Bool × List Char
  | '-' :: rest => (true, rest)
  | '+' :: rest => (false, rest)
  | cs => (false, cs)

/-- The characters without underscores, each of which must stand between two others
that are none. -/
def dropUnderscores : List Char → Option (List Char)
  | [] => some []
  | '_' :: _ => none
  | [c] => some [c]
  | [_, '_'] => none
  | c :: '_' :: d :: rest => (dropUnderscores (d :: rest)).map (c :: ·)
  | c :: rest => (dropUnderscores rest).map (c :: ·)

def digitsValue? (cs : List Char) : Option Nat :=
  if !cs.isEmpty && cs.all Char.isDigit then
    some (cs.foldl (fun n c => 10 * n + (c.toNat - '0'.toNat)) 0)
  else none

def splitPoint (cs : List Char) : List Char × Option (List Char) :=
  match cs.span (· ≠ '.') with
  | (whole, []) => (whole, none)
  | (whole, _ :: fraction) => (whole, some fraction)

inductive IntegerRefusal where
  | malformed
  | tooLong

def integerLimit : Nat := 4300

def integer? (text : String) : Except IntegerRefusal Int :=
  let signed := splitSign (trim text.toList)
  let parts := splitPoint signed.2
  if (parts.2.getD []).all (· = '0') then
    match (dropUnderscores parts.1).bind digitsValue? with
    | none => .error .malformed
    | some n =>
      if integerLimit < parts.1.length then .error .tooLong
      else .ok (if signed.1 then -(n : Int) else n)
  else .error .malformed

def exponent? : List Char → Option Int
  | [] => some 0
  | c :: rest =>
    if c = 'e' ∨ c = 'E' then
      let signed := splitSign rest
      (digitsValue? signed.2).map fun n => if signed.1 then -(n : Int) else n
    else none

/-- The double nearest to a decimal: `digits · 10 ^ power`, where a power far out of
range stands for zero or for an infinity. -/
def nearestDouble (negative : Bool) (digits : Nat) (power : Int) : Binary64 :=
  let top := power + ((toString digits).length : Int)
  if digits = 0 ∨ top < -400 then .finite negative 0 (-1074)
  else if 400 < top then .infinity negative
  else Binary64.ofDecimal negative digits power

def decimal? (negative : Bool) (cs : List Char) : Option Binary64 :=
  let whole := cs.takeWhile Char.isDigit
  let rest := cs.dropWhile Char.isDigit
  let fraction := match rest with
    | '.' :: tail => tail.takeWhile Char.isDigit
    | _ => []
  let tail := match rest with
    | '.' :: tail => tail.dropWhile Char.isDigit
    | _ => rest
  (digitsValue? (whole ++ fraction)).bind fun digits =>
    (exponent? tail).map fun e => nearestDouble negative digits (e - fraction.length)

def plainDouble? (cs : List Char) : Option Binary64 :=
  let signed := splitSign cs
  let name := String.ofList (signed.2.map Char.toLower)
  if name = "inf" ∨ name = "infinity" then some (.infinity signed.1)
  else if name = "nan" then some .nan
  else decimal? signed.1 signed.2

def double? (text : String) : Option Binary64 :=
  let cs := trim text.toList
  (plainDouble? cs).orElse fun _ => (dropUnderscores cs).bind plainDouble?

end BatchWriter.Settings
