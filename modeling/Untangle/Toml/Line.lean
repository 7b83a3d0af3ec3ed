import Untangle.Toml.Scalar

namespace Untangle

inductive TomlLine where
  | header (path : List String) (key : String)
  | arrayHeader (path : List String) (key : String)
  | assignment (path : List String) (key : String) (value : Toml)

namespace TomlLine
open TomlText (isSpace plain)

def depthLimit : Nat := 80

def skipSpaces (chars : List Char) : List Char := chars.dropWhile isSpace

def isKeyChar (c : Char) : Bool := c.isAlphanum || c == '_' || c == '-'

def simpleKey? : List Char → Option (String × List Char)
  | '\x22' :: rest => TomlText.line true '\x22' rest
  | '\x27' :: rest => TomlText.line false '\x27' rest
  | chars =>
    let key := chars.takeWhile isKeyChar
    if key.isEmpty then none else some (String.ofList key,chars.dropWhile isKeyChar)

def keyParts? (chars : List Char) : Option (List String × List Char) :=
  match simpleKey? (skipSpaces chars) with
  | none => none
  | some (key,rest) =>
    match skipSpaces rest with
    | '.' :: rest =>
      if _shrinks : rest.length < chars.length then
        (keyParts? rest).map fun (keys,rest) => (key :: keys,rest)
      else none
    | rest => some ([key],rest)
termination_by chars.length

def key? (chars : List Char) : Option (List String × String × List Char) := do
  let (parts,rest) ← keyParts? chars
  let key ← parts.getLast?
  if parts.length < depthLimit then some (parts.dropLast,key,rest) else none

def comment : List Char → List Char
  | '#' :: rest => rest.dropWhile plain
  | chars => chars

def skipLines (chars : List Char) : List Char :=
  match comment (skipSpaces chars) with
  | '\n' :: rest => if _shrinks : rest.length < chars.length then skipLines rest else rest
  | '\r' :: '\n' :: rest => if _shrinks : rest.length < chars.length then skipLines rest else rest
  | _ => skipSpaces chars
termination_by chars.length

-- Items behind an opening bracket. A comma may stand behind the last one.
def arrayItems? (value? : List Char → Option (Toml × List Char)) (chars : List Char) :
    Option (List Toml × List Char) :=
  match skipLines chars with
  | ']' :: rest => some ([],rest)
  | start =>
    match value? start with
    | none => none
    | some (item,rest) =>
      match skipLines rest with
      | ']' :: rest => some ([item],rest)
      | ',' :: rest =>
        if _shrinks : rest.length < chars.length then
          (arrayItems? value? rest).map fun (items,rest) => (item :: items,rest)
        else none
      | _ => none
termination_by chars.length

abbrev Assignment := List String × String × Toml

def assignment? (value? : List Char → Option (Toml × List Char)) (chars : List Char) :
    Option (Assignment × List Char) := do
  let (path,key,rest) ← key? chars
  let (value,rest) ← value? (skipSpaces (← TomlScalar.mark? '=' rest))
  some ((path,key,value),rest)

-- Assignments behind an opening brace, all on one line; no comma may stand behind the last one.
def tableItems? (value? : List Char → Option (Toml × List Char)) (chars : List Char) :
    Option (List Assignment × List Char) :=
  match assignment? value? chars with
  | none => none
  | some (item,rest) =>
    match skipSpaces rest with
    | '\x7d' :: rest => some ([item],rest)
    | ',' :: rest =>
      if _shrinks : rest.length < chars.length then
        (tableItems? value? rest).map fun (items,rest) => (item :: items,rest)
      else none
    | _ => none
termination_by chars.length

def value? : Nat → List Char → Option (Toml × List Char)
  | 0, _ => none
  | depth + 1, '[' :: rest => do
    let (items,rest) ← arrayItems? (value? depth) rest
    if depth = 0 then none else some (.array items,rest)
  | depth + 1, '\x7b' :: rest => do
    let (items,rest) ← match skipSpaces rest with
      | '\x7d' :: rest => some ([],rest)
      | rest => tableItems? (value? depth) rest
    let entries ← Entries.ofAssignments? items
    if depth = 0 then none else some (.table .closed entries,rest)
  | _ + 1, chars => (TomlText.value? chars |>.map fun (text,rest) => (.text text,rest)).or (TomlScalar.value? chars)

def lineEnd? (chars : List Char) : Option (List Char) :=
  match comment (skipSpaces chars) with
  | [] => some []
  | '\n' :: rest => some rest
  | '\r' :: '\n' :: rest => some rest
  | _ => none

def statement? : List Char → Option (TomlLine × List Char)
  | '[' :: '[' :: rest => do
    let (path,key,rest) ← key? rest
    match rest with
    | ']' :: ']' :: rest => some (arrayHeader path key,rest)
    | _ => none
  | '[' :: rest => do
    let (path,key,rest) ← key? rest
    match rest with
    | ']' :: rest => some (header path key,rest)
    | _ => none
  | chars => do
    let ((path,key,value),rest) ← assignment? (value? depthLimit) chars
    some (assignment path key value,rest)

def readLine? (chars : List Char) : Option (Option TomlLine × List Char) :=
  match lineEnd? chars with
  | some rest => some (none,rest)
  | none => do
    let (statement,rest) ← statement? (skipSpaces chars)
    some (some statement,← lineEnd? rest)

def readAll? (chars : List Char) : Option (List TomlLine) :=
  if chars.isEmpty then some [] else
  match readLine? chars with
  | none => none
  | some (line,rest) =>
    if _shrinks : rest.length < chars.length then (readAll? rest).map (line.toList ++ ·) else none
termination_by chars.length

end TomlLine
end Untangle
