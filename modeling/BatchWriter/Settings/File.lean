import BatchWriter.Ledger
import BatchWriter.Text.Printable

/-!
# Settings files

A settings file binds names to texts, one binding a line. A value may stand in single
quotes, in double quotes or bare; a bare one ends before a comment. A line that cannot
be read is skipped. References to other names are resolved once everything is read.
-/

set_option autoImplicit false

namespace BatchWriter.Settings

def isSpace (c : Char) : Bool := Text.isBlank c || (0x1c ≤ c.toNat && c.toNat ≤ 0x1f)

def isBreak (c : Char) : Bool := c = '\n' || c = '\r'

def isInline (c : Char) : Bool := isSpace c && !isBreak c

def plainBreaks : List Char → List Char
  | [] => []
  | '\r' :: '\n' :: rest => '\n' :: plainBreaks rest
  | '\r' :: rest => '\n' :: plainBreaks rest
  | c :: rest => c :: plainBreaks rest

def dropInline (cs : List Char) : List Char := cs.dropWhile isInline

def dropLine (cs : List Char) : List Char := (cs.dropWhile fun c => !isBreak c).drop 1

def dropExport (cs : List Char) : List Char :=
  if "export".toList.isPrefixOf cs then
    let rest := cs.drop 6
    if (rest.head?.map isInline).getD false then dropInline rest else cs
  else cs

/-- Text up to the closing quote and what follows it. An escaped quote does not close,
unless no other one does. -/
def quotedText? (quote : Char) : List Char → Option (List Char × List Char)
  | [] => none
  | '\\' :: d :: rest =>
    if d = quote then
      match quotedText? quote rest with
      | some (text, after) => some ('\\' :: d :: text, after)
      | none => some (['\\'], rest)
    else (quotedText? quote (d :: rest)).map fun r => ('\\' :: r.1, r.2)
  | c :: rest =>
    if c = quote then some ([], rest)
    else (quotedText? quote rest).map fun r => (c :: r.1, r.2)

def doubleEscapes : List (Char × Char) :=
  [('\\', '\\'), ('\'', '\''), ('"', '"'), ('a', '\x07'), ('b', '\x08'), ('f', '\x0c'),
   ('n', '\n'), ('r', '\r'), ('t', '\t'), ('v', '\x0b')]

def singleEscapes : List (Char × Char) := [('\\', '\\'), ('\'', '\'')]

def unescape (escapes : List (Char × Char)) : List Char → List Char
  | [] => []
  | [c] => [c]
  | c :: d :: rest =>
    if c = '\\' then
      match escapes.find? fun e => e.1 == d with
      | some e => e.2 :: unescape escapes rest
      | none => c :: unescape escapes (d :: rest)
    else c :: unescape escapes (d :: rest)

def dropComment : List Char → List Char
  | [] => []
  | c :: rest =>
    if isSpace c && (rest.dropWhile isSpace).head? = some '#' then []
    else c :: dropComment rest

def trimRight (cs : List Char) : List Char := (cs.reverse.dropWhile isSpace).reverse

def value? : List Char → Option (List Char × List Char)
  | [] => some ([], [])
  | c :: rest =>
    if c = '\'' then (quotedText? c rest).map fun r => (unescape singleEscapes r.1, r.2)
    else if c = '"' then (quotedText? c rest).map fun r => (unescape doubleEscapes r.1, r.2)
    else
      let line := (c :: rest).takeWhile fun c => !isBreak c
      some (trimRight (dropComment line), (c :: rest).drop line.length)

/-- A name and what follows it: quoted, or bare up to a blank, a comment or an equals
sign. A comment has no name. -/
def name? (cs : List Char) : Option (Option (List Char) × List Char) :=
  match cs with
  | '#' :: _ => some (none, cs)
  | '\'' :: rest =>
    match rest.span (· ≠ '\'') with
    | ([], _) => none
    | (_, []) => none
    | (name, _ :: after) => some (some name, after)
  | _ =>
    match cs.span fun c => !(isSpace c || c = '#' || c = '=') with
    | ([], _) => none
    | (name, after) => some (some name, after)

def lineEnd? (cs : List Char) : Option (List Char) :=
  let afterComment :=
    match dropInline cs with
    | '#' :: rest => rest.dropWhile fun c => !isBreak c
    | _ => cs
  match dropInline afterComment with
  | [] => some []
  | c :: rest => if isBreak c then some rest else none

/-- What one reading of a line gives: its binding, if it has one, and where the next
line starts. A name without an equals sign is bound to nothing. -/
structure Reading where
  binding : Option (String × Option String) := none
  rest : List Char

def endReading (binding : Option (String × Option String)) (cs : List Char) : Reading :=
  match lineEnd? cs with
  | some rest => { binding, rest }
  | none => { rest := dropLine cs }

def readBinding (cs : List Char) : Reading :=
  let named := dropExport cs
  match name? named with
  | none => { rest := dropLine named }
  | some (name, rest) =>
    let bound (value : Option (List Char)) : Option (String × Option String) :=
      name.map fun n => (String.ofList n, value.map String.ofList)
    match dropInline rest with
    | '=' :: afterSign =>
      match value? (dropInline afterSign) with
      | some (value, rest) => endReading (bound (some value)) rest
      | none => { rest := dropLine (dropInline afterSign) }
    | rest => endReading (bound none) rest

def readBindings : Nat → List Char → List (String × Option String)
  | 0, _ => []
  | fuel + 1, cs =>
    match cs.dropWhile isSpace with
    | [] => []
    | c :: rest =>
      let reading := readBinding (c :: rest)
      reading.binding.toList ++ readBindings fuel reading.rest

def reference? (cs : List Char) : Option (String × String × List Char) :=
  match cs.span fun c => !(c = '\x7d' || c = ':') with
  | (name, '\x7d' :: after) => some (String.ofList name, "", after)
  | (name, ':' :: '-' :: rest) =>
    match rest.span (· ≠ '\x7d') with
    | (_, []) => none
    | (default, _ :: after) => some (String.ofList name, String.ofList default, after)
  | _ => none

def resolve (lookup : String → Option String) : Nat → List Char → List Char
  | 0, cs => cs
  | _, [] => []
  | fuel + 1, c :: rest =>
    match c, rest with
    | '$', '\x7b' :: body =>
      match reference? body with
      | some (name, default, after) =>
        ((lookup name).getD default).toList ++ resolve lookup fuel after
      | none => c :: resolve lookup fuel rest
    | _, _ => c :: resolve lookup fuel rest

/-- Resolves bindings in order: a reference sees the file's earlier bindings first, then
the environment. -/
def resolveAll (environment : List (String × String)) :
    List (String × Option String) → Ledger String (Option String) → Ledger String (Option String)
  | [], done => done
  | (name, value) :: rest, done =>
    let lookup (n : String) : Option String :=
      match done.get? n with
      | some bound => bound.orElse fun _ => some ""
      | none => (environment.find? fun e => e.1 == n).map (·.2)
    let resolved := value.map fun v =>
      String.ofList (resolve lookup (v.length + 1) v.toList)
    resolveAll environment rest (done.alter name none fun _ => resolved)

def ofFile (environment : List (String × String)) (text : String) :
    List (String × Option String) :=
  let cs := plainBreaks text.toList
  (resolveAll environment (readBindings (cs.length + 1) cs) {}).entries

end BatchWriter.Settings
