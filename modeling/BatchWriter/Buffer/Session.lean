import BatchWriter.Buffer

/-!
# Sessions on a buffer

A buffer used step by step, each step answering its result and what the buffer then
looks like.
-/

set_option autoImplicit false

namespace BatchWriter

inductive BufferAct where
  | append (entry : Value)
  | prepend (entries : Value)
  | take (limit : Value)
  | snapshot

namespace Buffer

def ofValues (capacity initial : Value) : Except Fault (Buffer Value) := do
  let empty : Buffer Value ← ofEntries (← capacity.asLimit) []
  return { empty with entries := ← initial.initialMembers }

/-- Takes entries by a limit that may be any value; one that is no number cannot be
compared with the size. -/
def takeValue (b : Buffer Value) : Value → Except Fault (List Value × Buffer Value)
  | .number n => b.take n
  | v => .error (.unordered "<" "int" v.typeName)

def act (b : Buffer Value) : BufferAct → Except Fault Value × Buffer Value
  | .append entry => (.ok .null, b.append entry)
  | .prepend entries =>
    match entries.asMembers with
    | .error fault => (.error fault, b)
    | .ok xs => (.ok (.nat xs.length), b.prepend xs)
  | .take limit =>
    match b.takeValue limit with
    | .error fault => (.error fault, b)
    | .ok (taken, rest) => (.ok (.list taken), rest)
  | .snapshot => (.ok (.list b.entries), b)

def session : List BufferAct → Buffer Value → List (Except Fault Value × Buffer Value)
  | [], _ => []
  | a :: rest, b =>
    let done := b.act a
    done :: session rest done.2

end Buffer
end BatchWriter
