import Untangle.Text.Pattern.Basic

namespace Untangle.Pattern

def families : List String :=
  ["alnum","alpha","ascii","blank","cntrl","digit","graph","lower","print","punct","space","upper",
    "word","xdigit"]

-- A class by its name between colons, behind an opening bracket. Its opposite goes beyond ASCII.
def family? (chars : List Char) : Option (Bool × List Char) :=
  match chars with
  | ':' :: rest =>
    let negated := rest.head? == some '^'
    let rest := if negated then rest.drop 1 else rest
    let name := rest.takeWhile (· != ':')
    match rest.drop name.length with
    | ':' :: ']' :: rest => if families.contains (String.ofList name) then some (negated,rest) else none
    | _ => none
  | _ => none

def member? (mode : Mode) : List Char → Option (Atom × List Char)
  | [] => none
  | '\\' :: rest => escape? mode rest
  | c :: rest => some (.literal c,rest)

def isMember (mode : Mode) : Atom → Bool
  | .literal c => mode.admitsMember c
  | .family => true
  | .place => false

def isRange (mode : Mode) : Atom → Atom → Bool
  | .literal low, .literal high => mode.admitsMember low && mode.admitsMember high && low ≤ high
  | _, _ => false

-- A member of a class, or a range of them. A hyphen in front of the end or of another hyphen makes none.
def members? (mode : Mode) (chars : List Char) : Option (List Char) := do
  let (low,rest) ← member? mode chars
  let alone := if isMember mode low then some rest else none
  match mode.skip rest with
  | '-' :: behind =>
    if mode.glance? behind = some ']' ∨ mode.glance? behind = some '-' then alone
    else do
      let (high,rest) ← member? mode (mode.skip behind)
      if isRange mode low high then some rest else none
  | _ => alone

inductive ClassPart where
  | opened | negated | hyphens | inside
deriving DecidableEq

structure ClassLevel where
  left : Option Nat
  members : List Nat

namespace ClassLevel

def opened : ClassLevel := ⟨none,[]⟩

def add (depth : Nat) (level : ClassLevel) : ClassLevel := {level with members := depth :: level.members}

def depth (level : ClassLevel) : Nat :=
  match level.left with
  | none => joined level.members
  | some left => max left (joined level.members) + 1

end ClassLevel

structure ClassState where
  part : ClassPart
  level : ClassLevel
  around : List ClassLevel

namespace ClassState

def opened (around : List ClassLevel) : ClassState := ⟨.opened,.opened,around⟩

def add (part : ClassPart) (state : ClassState) : ClassState :=
  {state with part := part,level := state.level.add 0}

def close (state : ClassState) : Nat ⊕ ClassState :=
  match state.around with
  | [] => .inl (state.level.depth + 1)
  | level :: around => .inr ⟨.inside,level.add (state.level.depth + 1),around⟩

-- At the front a hyphen stands for itself, and so does a closing bracket if nothing is before it.
def step? (mode : Mode) (state : ClassState) (c : Char) (rest : List Char) :
    Option ((Nat ⊕ ClassState) × List Char) :=
  if c = '^' ∧ state.part = .opened then
    if mode.asciiOnly then none else some (.inr {state with part := .negated},rest)
  else if c = '-' ∧ state.part ≠ .inside then
    if mode.admits then some (.inr (state.add .hyphens),rest) else none
  else if c = ']' ∧ (state.part = .opened ∨ state.part = .negated) then
    if mode.admits then some (.inr (state.add .inside),rest) else none
  else if c = ']' then some (state.close,rest)
  else if c = '[' then
    match family? rest with
    | none => some (.inr (.opened (state.level :: state.around)),rest)
    | some (negated,rest) =>
      if mode.admits && !(mode.asciiOnly && negated) then some (.inr (state.add .inside),rest) else none
  else if ['&','-','~'].contains c && rest.head? == some c then
    some (.inr {state with part := .inside,level := ⟨some state.level.depth,[]⟩},rest.drop 1)
  else (members? mode (c :: rest)).map (.inr (state.add .inside),·)

def run? (mode : Mode) (state : ClassState) (chars : List Char) : Option (Nat × List Char) :=
  match mode.skip chars with
  | [] => none
  | c :: rest =>
    match state.step? mode c rest with
    | none => none
    | some (.inl depth,rest) => some (depth,rest)
    | some (.inr state,rest) => if _shrinks : rest.length < chars.length then run? mode state rest else none
termination_by chars.length

end ClassState

def class? (mode : Mode) (chars : List Char) : Option (Nat × List Char) :=
  (ClassState.opened []).run? mode chars

end Untangle.Pattern
