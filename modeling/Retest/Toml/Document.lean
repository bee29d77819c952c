import Retest.Toml.Number
import Retest.Toml.Table

namespace Retest.Toml

def inlineTable (pairs : List (List String × Toml)) : Option Toml :=
  (go pairs []).map (.table .inline)
where
  go : List (List String × Toml) → Entries → Option Entries
    | [], es => some es
    | (path, v) :: rest, es =>
      match splitLast path with
      | none => none
      | some (path, key) => (insertValue path key v .inline es).bind (go rest)

mutual

/-- A value and what follows it, with so many levels of nesting left. The fuel bounds the number of
calls. -/
def readValue : Nat → Nat → List Char → Option (Toml × List Char)
  | 0, _, _ => none
  | _, _, [] => none
  | fuel + 1, depth, c :: rest =>
    if c = '"' ∨ c = '\'' then
      (readString (c :: rest)).map fun r => (.string (String.ofList r.1), r.2)
    else if c = '[' then
      if depth ≤ 1 then none else readItems fuel (depth - 1) [] rest
    else if c = '\x7b' then
      if depth ≤ 1 then none
      else
        match skipBlanks rest with
        | '\x7d' :: rest => some (.table .inline [], rest)
        | _ => readPairs fuel (depth - 1) [] rest
    else
      match c :: rest with
      | 't' :: 'r' :: 'u' :: 'e' :: rest => some (.boolean true, rest)
      | 'f' :: 'a' :: 'l' :: 's' :: 'e' :: rest => some (.boolean false, rest)
      | s => readNumber s

/-- The items of an array behind its bracket or a comma. A comma may stand behind the last item. -/
def readItems : Nat → Nat → List Toml → List Char → Option (Toml × List Char)
  | 0, _, _, _ => none
  | fuel + 1, depth, acc, s =>
    match skipFiller (s.length + 1) s with
    | ']' :: rest => some (.array acc.reverse, rest)
    | s =>
      match readValue fuel depth s with
      | none => none
      | some (v, rest) =>
        match skipFiller (rest.length + 1) rest with
        | ',' :: rest => readItems fuel depth (v :: acc) rest
        | ']' :: rest => some (.array (v :: acc).reverse, rest)
        | _ => none

/-- The keys and values of a table between braces. They stand on one line, and no comma stands
behind the last of them. -/
def readPairs : Nat → Nat → List (List String × Toml) → List Char → Option (Toml × List Char)
  | 0, _, _, _ => none
  | fuel + 1, depth, acc, s =>
    match readKey s with
    | some (path, '=' :: rest) =>
      match readValue fuel depth (skipBlanks rest) with
      | none => none
      | some (v, rest) =>
        match skipBlanks rest with
        | ',' :: rest => readPairs fuel depth ((path, v) :: acc) rest
        | '\x7d' :: rest => (inlineTable ((path, v) :: acc).reverse).map fun t => (t, rest)
        | _ => none
    | _ => none

end

def readHeader (d : Draft) (s : List Char) : Option (Draft × List Char) :=
  match s with
  | '[' :: rest =>
    match readKey rest with
    | some (path, ']' :: ']' :: rest) => do
      let d ← d.addHeader true path
      let rest ← finishLine rest
      return (d, rest)
    | _ => none
  | _ =>
    match readKey s with
    | some (path, ']' :: rest) => do
      let d ← d.addHeader false path
      let rest ← finishLine rest
      return (d, rest)
    | _ => none

def readAssignment (d : Draft) (s : List Char) : Option (Draft × List Char) :=
  match readKey s with
  | some (path, '=' :: rest) => do
    let (v, rest) ← readValue (2 * rest.length + 2) depthLimit (skipBlanks rest)
    let d ← d.addValue path v
    let rest ← finishLine rest
    return (d, rest)
  | _ => none

def readLines : Nat → Draft → List Char → Option Draft
  | 0, _, _ => none
  | fuel + 1, d, s =>
    match skipBlanks s with
    | [] => some d
    | '[' :: rest =>
      match readHeader d rest with
      | none => none
      | some (d, rest) => readLines fuel d rest
    | c :: rest =>
      if c = '#' ∨ c = '\n' ∨ c = '\r' then
        match finishLine (c :: rest) with
        | none => none
        | some rest => readLines fuel d rest
      else
        match readAssignment d (c :: rest) with
        | none => none
        | some (d, rest) => readLines fuel d rest

def skipMark : List Char → List Char
  | c :: rest => if c.toNat = 0xFEFF then rest else c :: rest
  | [] => []

def ofText? (s : List Char) : Option Entries :=
  (readLines (s.length + 1) {} (skipMark s)).map (·.root)

end Retest.Toml
