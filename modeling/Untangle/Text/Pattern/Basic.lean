import Untangle.Text.Alphanumeric

namespace Untangle

def isBlank (c : Char) : Bool :=
  let n := c.toNat
  (0x9 ≤ n && n ≤ 0xd) || n == 0x20 || n == 0x85 || n == 0xa0 || n == 0x1680 ||
    (0x2000 ≤ n && n ≤ 0x200a) || n == 0x2028 || n == 0x2029 || n == 0x202f || n == 0x205f || n == 0x3000

def trimBlanks (text : String) : String :=
  String.ofList ((text.toList.dropWhile isBlank).reverse.dropWhile isBlank).reverse

def lowered (text : String) : String := text.map Char.toLower

end Untangle

namespace Untangle.Pattern

def isAscii (c : Char) : Bool := c.toNat < 128

def depthLimit : Nat := 250

-- How deep a row of parts is, given how deep each one is. A part on its own makes no row.
def joined : List Nat → Nat
  | [] => 0
  | [depth] => depth
  | depths => depths.foldl max 0 + 1

-- How the text of a pattern is read from some place on.
structure Mode where
  asciiOnly : Bool
  caseless : Bool
  verbose : Bool

namespace Mode

def initial : Mode := ⟨false,false,false⟩

def flags : List Char := ['i','m','s','U','u','R','x']

-- Each flag stands once at most. Those behind a hyphen are turned off, and there has to be one.
def areFlags (chars : List Char) : Bool :=
  chars.all (fun c => c == '-' || flags.contains c) && decide chars.Nodup && chars.getLast? != some '-'

def flagged (mode : Mode) (chars : List Char) : Mode :=
  let on := chars.takeWhile (· != '-')
  let off := chars.dropWhile (· != '-')
  let after (flag : Char) (before : Bool) := on.contains flag || (before && !off.contains flag)
  ⟨!after 'u' !mode.asciiOnly,after 'i' mode.caseless,after 'x' mode.verbose⟩

def gap (inComment : Bool) : List Char → List Char
  | [] => []
  | c :: rest =>
    if inComment then gap (c != '\n') rest
    else if c = '#' then gap true rest
    else if isBlank c then gap false rest
    else c :: rest

def skip (mode : Mode) (chars : List Char) : List Char := if mode.verbose then gap false chars else chars

-- The character to come, with white space passed over. A glance sees the sign in front of a comment,
-- but not that what follows is one.
def glance? (mode : Mode) (chars : List Char) : Option Char :=
  if mode.verbose then
    match chars.dropWhile isBlank with
    | '#' :: rest => (rest.dropWhile isBlank).head?
    | rest => rest.head?
  else chars.head?

def admits (mode : Mode) : Bool := !mode.caseless || mode.asciiOnly

-- Characters of a class are held to ASCII where single ones are not.
def admitsMember (mode : Mode) (c : Char) : Bool := mode.admits && (!mode.asciiOnly || isAscii c)

end Mode

inductive Atom where
  | literal (c : Char)
  | family
  | place

def hexDigit? (c : Char) : Option Nat :=
  let n := c.toNat
  if c.isDigit then some (n - 48)
  else if 'a' ≤ c ∧ c ≤ 'f' then some (n - 87)
  else if 'A' ≤ c ∧ c ≤ 'F' then some (n - 55)
  else none

def hex? (mode : Mode) : Nat → Nat → List Char → Option (Nat × List Char)
  | 0, value, chars => some (value,chars)
  | count + 1, value, chars =>
    match mode.skip chars with
    | [] => none
    | c :: rest => (hexDigit? c).bind fun digit => hex? mode count (value * 16 + digit) rest

def codePoint? (mode : Mode) (count : Nat) (chars : List Char) : Option (Atom × List Char) := do
  let (value,rest) ← hex? mode count 0 chars
  if value.isValidChar then some (.literal (Char.ofNat value),rest) else none

def controls : List (Char × Nat) := [('a',7),('f',12),('t',9),('n',10),('r',13),('v',11)]

-- What follows a backslash. Two digits name a byte, which may not go beyond ASCII where bytes are meant.
def escape? (mode : Mode) : List Char → Option (Atom × List Char)
  | [] => none
  | c :: rest =>
    if c = 'x' then
      match codePoint? mode 2 rest with
      | some (.literal c,rest) => if mode.asciiOnly && !isAscii c then none else some (.literal c,rest)
      | _ => none
    else if c = 'u' then codePoint? mode 4 rest
    else if c = 'U' then codePoint? mode 8 rest
    else if ['d','s','w'].contains c then if mode.asciiOnly then some (.family,rest) else none
    else if ['b','B','<','>'].contains c then if mode.asciiOnly then some (.place,rest) else none
    else if ['A','z'].contains c then some (.place,rest)
    else match controls.lookup c with
      | some control => some (.literal (Char.ofNat control),rest)
      | none => if isAscii c && !c.isAlphanum then some (.literal c,rest) else none

end Untangle.Pattern
