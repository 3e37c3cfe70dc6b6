import BatchWriter.Fault

/-!
# Records built from named arguments

Configurations, contexts and events are built from named arguments and never change
afterwards: an unknown name is refused, and so is every later assignment.
-/

set_option autoImplicit false

namespace BatchWriter

abbrev Arguments := List (String × Value)

namespace Arguments

def get? (args : Arguments) (name : String) : Option Value :=
  (args.find? fun a => a.1 == name).map (·.2)

def getD (args : Arguments) (name : String) (default : Value) : Value :=
  (args.get? name).getD default

def onlyFields (args : Arguments) (record : String) (fields : List String) :
    Except Fault Unit :=
  match args.find? fun a => !fields.contains a.1 with
  | some a => .error (.unexpectedArgument record a.1)
  | none => .ok ()

def allPresent (args : Arguments) (record : String) (fields : List String) :
    Except Fault Unit :=
  match fields.filter fun f => (args.get? f).isNone with
  | [] => .ok ()
  | missing => .error (.missingArguments record missing)

end Arguments

def assign (field : String) : Fault := .frozenField field

end BatchWriter
