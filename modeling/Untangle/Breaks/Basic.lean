namespace Untangle

abbrev BreakableId := Nat
abbrev BreakId := Nat

inductive BreakableKind where
  | whileLoop | doWhile | forLoop | switch
deriving DecidableEq

def BreakableKind.name : BreakableKind → String
  | whileLoop => "While"
  | doWhile => "DoWhile"
  | forLoop => "For"
  | switch => "Switch"
def BreakableKind.all : List BreakableKind := [whileLoop,doWhile,forLoop,switch]
def BreakableKind.ofName? (text : String) : Option BreakableKind := all.find? fun kind => kind.name == text

def BreakableKind.isLoop (kind : BreakableKind) : Bool := kind != .switch

inductive BreakKind where
  | break | continue
deriving DecidableEq

def BreakKind.keyword : BreakKind → String
  | .break => "break"
  | .continue => "continue"
def BreakKind.all : List BreakKind := [.break,.continue]
def BreakKind.ofKeyword? (text : String) : Option BreakKind := all.find? fun kind => kind.keyword == text

-- A jump out of, or back to, an enclosing loop or switch. `nested` says that it crosses another
-- one and so needs a label. The record carries its own view of the target; the registry has the other.
structure Break where
  id : BreakId
  kind : BreakKind
  target : Option BreakableId
  nested : Bool
deriving DecidableEq

def breakableLabel (id : BreakableId) : String := "L" ++ toString id
def breakLabel (id : BreakId) : String := "B" ++ toString id

end Untangle
