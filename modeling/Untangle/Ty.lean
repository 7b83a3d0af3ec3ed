import Untangle.Descriptor

namespace Untangle

def dotted (name : String) : String := name.map fun c => if c = '/' then '.' else c

def objectClass : String := "java/lang/Object"
def stringClass : String := "java/lang/String"

-- `unknown` stands for missing type information. Every operand constraint accepts it, so a gap in
-- what is known never makes a tree unconstructible.
inductive Ty where
  | primitive (base : BaseType)
  | object (name : String)
  | array (component : Ty)
  | null
  | void
  | unknown
deriving DecidableEq

inductive Category where
  | numeric | boolean | reference | void | unknown
deriving DecidableEq

def Category.render : Category → String
  | numeric => "numeric"
  | boolean => "boolean"
  | reference => "reference"
  | void => "void"
  | unknown => "unknown"

namespace Ty

def int : Ty := primitive .int
def long : Ty := primitive .long
def float : Ty := primitive .float
def double : Ty := primitive .double
def boolean : Ty := primitive .boolean
def string : Ty := object stringClass

def ofFieldType : FieldType → Ty
  | .base letter => primitive letter
  | .object name => object name
  | .array component => array (ofFieldType component)

def ofReturnType : ReturnType → Ty
  | .void => void
  | .value type => ofFieldType type

def parse (descriptor : String) : Except DescriptorError Ty :=
  match FieldType.parse descriptor with
  | .error cause => .error cause
  | .ok type => .ok (ofFieldType type)

def category : Ty → Category
  | primitive .boolean => .boolean
  | primitive _ => .numeric
  | object _ => .reference
  | array _ => .reference
  | null => .reference
  | void => .void
  | unknown => .unknown

def isUnknown (type : Ty) : Bool := type == unknown

def component : Ty → Ty
  | array component => component
  | _ => unknown

def promoteUnary : Ty → Ty
  | primitive .byte => int
  | primitive .short => int
  | primitive .char => int
  | type => type

def rank : Ty → Option Nat
  | primitive .double => some 3
  | primitive .float => some 2
  | primitive .long => some 1
  | primitive .boolean => none
  | primitive _ => some 0
  | _ => none

def ofRank : Nat → Ty
  | 3 => double
  | 2 => float
  | 1 => long
  | _ => int

def promoteBinary (left right : Ty) : Ty :=
  match left.rank, right.rank with
  | some l, some r => ofRank (max l r)
  | _, _ => unknown

def className? : Ty → Option String
  | object name => some name
  | _ => none

def descriptor? : Ty → Option String
  | primitive letter => some (String.singleton letter.toChar)
  | object name => some ("L" ++ name ++ ";")
  | array component => component.descriptor?.map ("[" ++ ·)
  | void => some "V"
  | null => none
  | unknown => none

-- Notation with a spelling for every type: descriptors, and a letter each for null and unknown.
def code : Ty → String
  | array component => "[" ++ component.code
  | null => "N"
  | unknown => "U"
  | void => "V"
  | primitive letter => String.singleton letter.toChar
  | object name => "L" ++ name ++ ";"

def ofCodeChars? : List Char → Option Ty
  | '[' :: rest => (ofCodeChars? rest).map array
  | 'L' :: rest => if rest.getLast? = some ';' then some (object (String.ofList rest.dropLast)) else none
  | ['V'] => some void
  | ['N'] => some null
  | ['U'] => some unknown
  | [c] => (BaseType.ofChar? c).map primitive
  | _ => none

def ofCode? (text : String) : Option Ty := ofCodeChars? text.toList

def render : Ty → String
  | primitive letter => letter.keyword
  | object name => dotted name
  | array component => component.render ++ "[]"
  | null => "null"
  | void => "void"
  | unknown => "<unknown>"

end Ty
end Untangle
