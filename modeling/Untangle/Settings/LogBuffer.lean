import Untangle.Settings.LogDirective

namespace Untangle

-- Directives for whole targets, and those within spans, the more specific ones first. A directive that
-- only asks for a field to be there counts among both.
structure LogFilter where
  plain : List LogDirective
  within : List LogDirective
deriving DecidableEq

namespace LogFilter

def ofDirectives (directives : List LogDirective) : LogFilter :=
  let within := directives.filter (·.isWithin)
  let plain := directives.filter fun directive => !directive.isWithin
  ⟨LogDirective.sorted (plain ++ within.filter (·.isUnconditional)),LogDirective.sorted within⟩

def parse? (text : String) : Option LogFilter := do
  let pieces := (text.splitOn ",").filter (!·.isEmpty)
  some (ofDirectives (← pieces.mapM LogDirective.parse?))

def render (filter : LogFilter) : String :=
  String.intercalate "," ((filter.plain ++ filter.within).map LogDirective.render)

def plainInfo : LogFilter := ⟨[⟨none,none,none,.info⟩],[]⟩

-- A level by any of its names, or else a list of directives as it stands. Blank text means "info".
def normalize (level : String) : String :=
  let trimmed := trimBlanks level
  let name := lowered trimmed
  if trimmed.isEmpty then "info"
  else if name = "warning" then "warn"
  else if ["trace","debug","info","warn","error"].contains name then name
  else trimmed

def isValid (level : String) : Bool := (parse? (normalize level)).isSome

def ofLevel (level : String) : LogFilter := (parse? (normalize level)).getD plainInfo

-- The level of the settings, with directives from the environment merged over it. Where the two do
-- not go together the environment wins, if it is valid on its own.
def effective (level : String) (environment : Option String) : LogFilter :=
  let extra := trimBlanks (environment.getD "")
  if extra.isEmpty then ofLevel level
  else ((parse? (normalize level ++ "," ++ extra)).or (parse? extra)).getD (ofLevel level)

end LogFilter

-- The newest lines of a log, at most so many of them. There is always room for one.
structure LogBuffer where
  capacity : Nat
  lines : List String
  positive : 1 ≤ capacity := by omega
  bounded : lines.length ≤ capacity := by omega

namespace LogBuffer

def empty (capacity : Nat) : LogBuffer where
  capacity := max capacity 1
  lines := []
  bounded := by simp

def push (buffer : LogBuffer) (line : String) : LogBuffer where
  capacity := buffer.capacity
  lines := (buffer.lines ++ [line]).drop (buffer.lines.length + 1 - buffer.capacity)
  positive := buffer.positive
  bounded := by simp; omega

def last (buffer : LogBuffer) (count : Nat) : List String :=
  buffer.lines.drop (buffer.lines.length - count)

end LogBuffer
end Untangle
