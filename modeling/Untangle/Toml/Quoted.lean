namespace Untangle.TomlText

def plain (c : Char) : Bool := c == '\t' || (' ' ≤ c && c != '\x7f')

abbrev Cut := Option (List Char × List Char)

def push (chars : List Char) (cut : Cut) : Cut := cut.map fun (body,rest) => (chars ++ body,rest)

-- Cuts off a quoted text on one line. An escaped quote does not end it.
def cutLine (escapes : Bool) (quote : Char) : List Char → Cut
  | [] => none
  | '\\' :: c :: rest =>
    if escapes && (c == '\\' || c == quote) then push ['\\',c] (cutLine escapes quote rest)
    else push ['\\'] (cutLine escapes quote (c :: rest))
  | c :: rest =>
    if c = quote then some ([],rest)
    else if plain c then push [c] (cutLine escapes quote rest)
    else none

-- Cuts off a text in triple quotes, behind the opening ones. One or two quotes may stand inside, and
-- also right before the closing three. A line end is a newline, however it is written.
def cutLines (escapes : Bool) (quote : Char) : List Char → Cut
  | [] => none
  | '\r' :: '\n' :: rest => push ['\n'] (cutLines escapes quote rest)
  | '\\' :: c :: rest =>
    if escapes && (c == '\\' || c == quote) then push ['\\',c] (cutLines escapes quote rest)
    else push ['\\'] (cutLines escapes quote (c :: rest))
  | c :: rest =>
    let run := 1 + (rest.takeWhile (· == quote)).length
    if c = quote ∧ 3 ≤ run then
      let extra := min run 5 - 3
      some (List.replicate extra quote,rest.drop (extra + 2))
    else if plain c || c == '\n' then push [c] (cutLines escapes quote rest)
    else none

-- A newline right behind the opening quotes does not count.
def dropNewline : List Char → List Char
  | '\n' :: rest => rest
  | '\r' :: '\n' :: rest => rest
  | chars => chars

def digit? (base : Nat) (c : Char) : Option Nat :=
  let value := if c.isDigit then c.toNat - 48
    else if 'a' ≤ c ∧ c ≤ 'f' then c.toNat - 87
    else if 'A' ≤ c ∧ c ≤ 'F' then c.toNat - 55
    else base
  if value < base then some value else none

def number? (base : Nat) (digits : List Char) : Option Nat :=
  digits.foldlM (fun n c => (digit? base c).map (n * base + ·)) 0

def scalar? (digits : List Char) : Option Char := do
  let code ← number? 16 digits
  if code < 0xd800 ∨ 0xe000 ≤ code ∧ code < 0x110000 then some (Char.ofNat code) else none

def escaped? : Char → Option Char
  | 'b' => some '\x08'
  | 't' => some '\t'
  | 'n' => some '\n'
  | 'f' => some '\x0c'
  | 'r' => some '\r'
  | '\x22' => some '\x22'
  | '\\' => some '\\'
  | _ => none

def isSpace (c : Char) : Bool := c == ' ' || c == '\t'

-- Resolves escapes. A backslash at the end of a line takes away all white space up to what follows.
def unescape : Bool → List Char → Option (List Char)
  | _, [] => some []
  | _, '\\' :: 'u' :: a :: b :: c :: d :: rest => do
    let char ← scalar? [a,b,c,d]
    (unescape false rest).map (char :: ·)
  | _, '\\' :: 'U' :: a :: b :: c :: d :: e :: f :: g :: h :: rest => do
    let char ← scalar? [a,b,c,d,e,f,g,h]
    (unescape false rest).map (char :: ·)
  | _, '\\' :: c :: rest =>
    match escaped? c with
    | some char => (unescape false rest).map (char :: ·)
    | none =>
      if ((c :: rest).dropWhile isSpace).head? = some '\n' then unescape true (c :: rest) else none
  | skipping, c :: rest =>
    if skipping && (isSpace c || c == '\n') then unescape true rest
    else if c = '\\' then none
    else (unescape false rest).map (c :: ·)

def read (escapes : Bool) (cut : Cut) : Option (String × List Char) := do
  let (body,rest) ← cut
  let body ← if escapes then unescape false body else some body
  some (String.ofList body,rest)

def line (escapes : Bool) (quote : Char) (chars : List Char) : Option (String × List Char) :=
  read escapes (cutLine escapes quote chars)

def value? : List Char → Option (String × List Char)
  | '\x22' :: '\x22' :: '\x22' :: rest => read true (cutLines true '\x22' (dropNewline rest))
  | '\x27' :: '\x27' :: '\x27' :: rest => read false (cutLines false '\x27' (dropNewline rest))
  | '\x22' :: rest => line true '\x22' rest
  | '\x27' :: rest => line false '\x27' rest
  | _ => none

end Untangle.TomlText
