import Untangle.Settings.LogField

namespace Untangle

inductive Verbosity where
  | off | error | warn | info | debug | trace
deriving DecidableEq

namespace Verbosity

def name : Verbosity → String
  | off => "off"
  | error => "error"
  | warn => "warn"
  | info => "info"
  | debug => "debug"
  | trace => "trace"

def all : List Verbosity := [off,error,warn,info,debug,trace]

-- A name in any case, or its number counted from "off".
def ofText? (text : String) : Option Verbosity :=
  let digits := match text.toList with
    | '+' :: rest => rest
    | chars => chars
  match wholeNumber? digits with
  | some number => all[number]?
  | none => all.find? fun verbosity => verbosity.name == lowered text

end Verbosity

-- How much is logged for a target, or for all of them. A directive that names a span, or a field of
-- one, applies within such spans.
structure LogDirective where
  target : Option String
  span : Option String
  field : Option LogField
  verbosity : Verbosity
deriving DecidableEq

namespace LogDirective

def verbosityOf? (chars : List Char) : Option Verbosity :=
  if chars.isEmpty then some .trace else Verbosity.ofText? (String.ofList chars)

def ofWord (word : List Char) : LogDirective :=
  match Verbosity.ofText? (String.ofList word) with
  | some verbosity => ⟨none,none,none,verbosity⟩
  | none => ⟨some (String.ofList word),none,none,.trace⟩

def beginsTarget (c : Char) : Bool := ['-',':','_'].contains c || CodePoints.alphanumeric c

def bytes (chars : List Char) : Nat := (String.ofList chars).utf8ByteSize

def dropBytes : Nat → List Char → List Char
  | 0, chars => chars
  | _, [] => []
  | count + 1, c :: rest => dropBytes (count + 1 - c.utf8Size) rest

def takeBytes : Nat → List Char → List Char
  | 0, _ => []
  | _, [] => []
  | count + 1, c :: rest => c :: takeBytes (count + 1 - c.utf8Size) rest

-- The parts of a directive are found without the white space around the text, but at the places found
-- they are cut from the text that still has it. A place is given by what is left behind it.
structure Source where
  written : List Char
  shown : List Char

namespace Source

def ofText (text : String) : Source := ⟨text.toList,(trimBlanks text).toList⟩

def behind (source : Source) (place : List Char) : List Char :=
  dropBytes (bytes source.shown - bytes place) source.written

def between (source : Source) (start stop : List Char) : List Char :=
  takeBytes (bytes start - bytes stop) (source.behind start)

end Source

-- A span and a field of it, up to the bracket that closes them. Where a field follows, the name of the
-- span may be left out.
def spanPart? (source : Source) (start : List Char) :
    Option (Option String × Option LogField × List Char) := do
  let stop := start.dropWhile fun c => c != ']' && c != '\x7b'
  let name := source.between start stop
  match stop with
  | '\x7b' :: start =>
    let stop := start.dropWhile (· != '\x7d')
    let field ← LogField.ofText? (source.between start stop)
    some (if name.isEmpty then none else some (String.ofList name),some field,stop.drop 1)
  | _ => some (some (String.ofList name),none,stop)

def parse? (text : String) : Option LogDirective :=
  let source := Source.ofText text
  let stop := source.shown.dropWhile fun c => c != '=' && c != '['
  let word := source.between source.shown stop
  let target := if word.isEmpty then none else some (String.ofList word)
  if (source.shown.head?.map fun c => c == '[' || beginsTarget c) != some true then none
  else match stop with
    | [] => some (ofWord source.written)
    | '[' :: start => do
      let (span,field,stop) ← spanPart? source start
      let verbosity ← match stop with
        | [']'] => some .trace
        | ']' :: '=' :: level => verbosityOf? (source.behind level)
        | _ => none
      some ⟨target,span,field,verbosity⟩
    | _ :: level => (verbosityOf? (source.behind level)).map (⟨target,none,none,·⟩)

def render (directive : LogDirective) : String :=
  let field := (directive.field.map fun field => "\x7b" ++ field.render ++ "\x7d").getD ""
  let condition := if directive.span.isNone && directive.field.isNone then ""
    else "[" ++ directive.span.getD "" ++ field ++ "]"
  if directive.target.isNone && condition.isEmpty then directive.verbosity.name
  else directive.target.getD "" ++ condition ++ "=" ++ directive.verbosity.name

def isWithin (directive : LogDirective) : Bool := directive.span.isSome || directive.field.isSome

def isUnconditional (directive : LogDirective) : Bool :=
  directive.span.isNone && (directive.field.bind LogField.value).isNone

-- More specific is greater: first by the length of the target, then by a span, then by a field. What is
-- alike in these goes by the texts.
def order (left right : LogDirective) : Ordering :=
  let shape := ((compare (left.target.map String.utf8ByteSize) (right.target.map String.utf8ByteSize)).then
    (compare left.span.isSome right.span.isSome)).then (compare left.field.isSome right.field.isSome)
  let texts := (compare left.target right.target).then (compare left.span right.span)
  (shape.then texts).then (match left.field, right.field with
    | some left, some right => left.order right
    | _, _ => .eq)

def insert (directive : LogDirective) : List LogDirective → List LogDirective
  | [] => [directive]
  | other :: rest =>
    match directive.order other with
    | .eq => directive :: rest
    | .gt => directive :: other :: rest
    | .lt => other :: insert directive rest

def sorted (directives : List LogDirective) : List LogDirective :=
  directives.foldl (fun sorted directive => directive.insert sorted) []

end LogDirective
end Untangle
