import Untangle.Text.Pattern.Bracketed

-- Whether a regular expression is well formed. No tables of characters come with the expressions, so
-- what would need one is refused: letters or digits of every script, and letters in either case unless
-- the expression keeps to ASCII.
namespace Untangle.Pattern

-- A group as far as it has been read: how deep the branches before the last bar are, and how deep the
-- parts behind it are, the last one first.
structure Group where
  mode : Mode
  branches : List Nat
  parts : List Nat

namespace Group

def opened (mode : Mode) : Group := ⟨mode,[],[]⟩

def add (depth : Nat) (group : Group) : Group := {group with parts := depth :: group.parts}

def bar (group : Group) : Group := {group with branches := joined group.parts :: group.branches,parts := []}

def repeatLast (group : Group) : Group :=
  {group with parts := match group.parts with
    | [] => []
    | depth :: rest => (depth + 1) :: rest}

def depth (group : Group) : Nat := joined (joined group.parts :: group.branches)

end Group

structure State where
  group : Group
  around : List Group
  names : List (List Char)
  -- Something stands in front that may be repeated.
  repeatable : Bool

namespace State

def initial : State := ⟨.opened .initial,[],[],false⟩

def mode (state : State) : Mode := state.group.mode

def enter (state : State) (mode : Mode) : State :=
  {state with group := .opened mode,around := state.group :: state.around,repeatable := false}

def followed (state : State) (depth : Nat) : State :=
  {state with group := state.group.add depth,repeatable := true}

def isName : List Char → Bool
  | [] => false
  | first :: rest =>
    (first == '_' || CodePoints.alphabetic first) &&
      rest.all fun c => ['_','.','[',']'].contains c || CodePoints.alphanumeric c

def named? (state : State) (chars : List Char) : Option (State × List Char) :=
  let name := chars.takeWhile (· != '>')
  match chars.drop name.length with
  | [] => none
  | _ :: rest =>
    if isName name && !state.names.contains name then
      some ({state.enter state.mode with names := name :: state.names},rest)
    else none

-- Flags stand for nothing themselves, but count as a part of the group that they hold for.
def flagged (state : State) (mode : Mode) : State :=
  {state with group := {state.group.add 0 with mode := mode},repeatable := false}

def opened? (state : State) (chars : List Char) : Option (State × List Char) :=
  match state.mode.skip chars with
  | '?' :: 'P' :: '<' :: rest => state.named? rest
  | '?' :: '<' :: rest => state.named? rest
  | '?' :: rest =>
    let flags := rest.takeWhile fun c => c != ':' && c != ')'
    let mode := state.mode.flagged flags
    if Mode.areFlags flags then
      match rest.drop flags.length with
      | ':' :: rest => some (state.enter mode,rest)
      | ')' :: rest => if flags.isEmpty then none else some (state.flagged mode,rest)
      | _ => none
    else none
  | rest => some (state.enter state.mode,rest)

def closed? (state : State) : Option State :=
  match state.around with
  | [] => none
  | group :: around => some {state with
      group := group.add (state.group.depth + 1),around := around,repeatable := true}

-- Counted repetition is not part of the patterns.
def step? (state : State) (c : Char) (rest : List Char) : Option (State × List Char) :=
  if c = '(' then state.opened? rest
  else if c = ')' then state.closed?.map (·,rest)
  else if c = '|' then some ({state with group := state.group.bar,repeatable := false},rest)
  else if ['?','*','+'].contains c then
    if state.repeatable then
      some ({state with group := state.group.repeatLast},if rest.head? = some '?' then rest.drop 1 else rest)
    else none
  else if c = '[' then (class? state.mode rest).map fun (depth,rest) => (state.followed depth,rest)
  else if c = '\x7b' then none
  else if c = '.' then if state.mode.asciiOnly then none else some (state.followed 0,rest)
  else if c = '^' ∨ c = '$' then some (state.followed 0,rest)
  else match member? state.mode (c :: rest) with
    | some (.literal _,rest) => if state.mode.admits then some (state.followed 0,rest) else none
    | some (_,rest) => some (state.followed 0,rest)
    | none => none

def run? (state : State) (chars : List Char) : Option State :=
  match state.mode.skip chars with
  | [] => some state
  | c :: rest =>
    match state.step? c rest with
    | none => none
    | some (state,rest) => if _shrinks : rest.length < chars.length then run? state rest else none
termination_by chars.length

end State

def isWellFormed (chars : List Char) : Bool :=
  match State.initial.run? chars with
  | some state => state.around.isEmpty && state.group.depth ≤ depthLimit
  | none => false

end Untangle.Pattern
