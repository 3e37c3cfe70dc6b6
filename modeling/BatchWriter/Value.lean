import BatchWriter.Number.Basic
import BatchWriter.Text.Quoted

/-!
# Entries and other free values

Elements, request entries and writer names are arbitrary data that a writer carries
without looking inside. A collection is whatever can be gone through in order: a
list, the characters of a text, the keys of an object.
-/

set_option autoImplicit false

namespace BatchWriter

inductive Value where
  | null
  | number (n : Number)
  | text (s : String)
  | list (items : List Value)
  | object (fields : List (String × Value))
  deriving Repr

namespace Value

def nat (n : Nat) : Value := .number (.int n)

def bool (b : Bool) : Value := .number (.bool b)

def typeName : Value → String
  | .null => "NoneType"
  | .number (.int _) => "int"
  | .number (.bool _) => "bool"
  | .number (.float _) => "float"
  | .text _ => "str"
  | .list _ => "list"
  | .object _ => "dict"

/-- Null, zero and whatever is empty count as absent. -/
def isPresent : Value → Bool
  | .null => false
  | .number n => !n.isZero
  | .text s => !s.isEmpty
  | .list xs => !xs.isEmpty
  | .object fs => !fs.isEmpty

def members? : Value → Option (List Value)
  | .text s => some (s.toList.map fun c => .text (String.singleton c))
  | .list xs => some xs
  | .object fs => some (fs.map fun f => .text f.1)
  | _ => none

mutual
/-- Equality by content; numbers are equal when their sizes are. -/
def same : Value → Value → Bool
  | .null, .null => true
  | .number a, .number b => a.same b
  | .text a, .text b => a == b
  | .list xs, .list ys => sameAll xs ys
  | .object fs, .object gs => fs.length == gs.length && sameFields fs gs
  | _, _ => false

def sameAll : List Value → List Value → Bool
  | [], [] => true
  | x :: xs, y :: ys => same x y && sameAll xs ys
  | _, _ => false

def sameFields : List (String × Value) → List (String × Value) → Bool
  | [], _ => true
  | (k, x) :: fs, gs =>
    (match gs.find? fun g => g.1 == k with
      | some g => same x g.2
      | none => false) && sameFields fs gs
end

mutual
def quoted : Value → String
  | .null => "None"
  | .number n => n.text
  | .text s => Text.quoted s
  | .list xs => "[" ++ ", ".intercalate (quotedAll xs) ++ "]"
  | .object fs => String.ofList ['\x7b'] ++ ", ".intercalate (quotedFields fs) ++
      String.ofList ['\x7d']

def quotedAll : List Value → List String
  | [] => []
  | x :: xs => quoted x :: quotedAll xs

def quotedFields : List (String × Value) → List String
  | [] => []
  | (k, x) :: fs => (Text.quoted k ++ ": " ++ quoted x) :: quotedFields fs
end

def display : Value → String
  | .text s => s
  | v => v.quoted

end Value
end BatchWriter
