import BatchWriter.Number.Decimal
import BatchWriter.Text.Printable

/-!
# Quoted text

Text inside messages stands between single quotes, or between double quotes when it
holds a single quote and no double one. The enclosing quote and the backslash are
escaped, and so is every character that is not shown as it is.
-/

set_option autoImplicit false

namespace BatchWriter.Text

def quoteFor (cs : List Char) : Char :=
  if cs.contains '\'' && !cs.contains '"' then '"' else '\''

def escape (quote c : Char) : String :=
  if c = quote ∨ c = '\\' then String.ofList ['\\', c]
  else if c = '\n' then "\\n"
  else if c = '\r' then "\\r"
  else if c = '\t' then "\\t"
  else if isShown c then String.singleton c
  else if c.toNat < 0x100 then "\\x" ++ hexText 2 c.toNat
  else if c.toNat < 0x10000 then "\\u" ++ hexText 4 c.toNat
  else "\\U" ++ hexText 8 c.toNat

def quoted (s : String) : String :=
  let quote := quoteFor s.toList
  String.singleton quote ++ String.join (s.toList.map (escape quote)) ++ String.singleton quote

end BatchWriter.Text
