import Untangle.Ty

namespace Untangle

inductive Constraint where
  | numeric | boolean | reference | numericOrBoolean | value
deriving DecidableEq

namespace Constraint

def accepts : Constraint → Category → Bool
  | _, .unknown => true
  | numeric, found => found == .numeric
  | boolean, found => found == .boolean
  | reference, found => found == .reference
  | numericOrBoolean, found => found == .numeric || found == .boolean
  | value, found => found != .void

def ofType (type : Ty) : Constraint :=
  match type.category with
  | .numeric => numeric
  | .boolean => boolean
  | .reference => reference
  | .void => value
  | .unknown => value

def name : Constraint → String
  | numeric => "Numeric"
  | boolean => "Boolean"
  | reference => "Reference"
  | numericOrBoolean => "NumericOrBoolean"
  | value => "Value"
def all : List Constraint := [numeric,boolean,reference,numericOrBoolean,value]
def ofName? (text : String) : Option Constraint := all.find? fun constraint => constraint.name == text

def render : Constraint → String
  | numeric => "numeric"
  | boolean => "boolean"
  | reference => "reference"
  | numericOrBoolean => "numeric or boolean"
  | value => "value"

theorem accepts_unknown (constraint : Constraint) : constraint.accepts .unknown = true := by
  cases constraint <;> rfl

end Constraint

inductive ConstraintError where
  | category (param : String) (expected : Constraint) (found : Ty)
  | notAssignable (param : String)
  | descriptor (param : String) (cause : DescriptorError)
  | argumentCount (param : String) (expected found : Nat)
  | missingReceiver (param : String)
  | unexpectedReceiver (param : String)
  | operandIndex (node : String) (index : Nat)
  | mismatch (param : String) (left right : Ty)
  | duplicateLabel (label : Int32)
  | duplicateDefault
deriving DecidableEq

def ticked (text : String) : String := "\x60" ++ text ++ "\x60"

def ConstraintError.message : ConstraintError → String
  | category param expected found =>
    ticked param ++ " expects a " ++ expected.render ++ " operand, found " ++ ticked found.render
  | notAssignable param => ticked param ++ " is not an assignable expression"
  | descriptor param cause => ticked param ++ " has a malformed descriptor: " ++ cause.message
  | argumentCount param expected found =>
    ticked param ++ " expects " ++ toString expected ++ " arguments, found " ++ toString found
  | missingReceiver param => ticked param ++ " requires a receiver"
  | unexpectedReceiver param => ticked param ++ " is static and cannot have a receiver"
  | operandIndex node index =>
    "operand index " ++ toString index ++ " is out of range for " ++ node
  | mismatch param left right =>
    "the two branches of " ++ ticked param ++ " have incompatible types " ++ ticked left.render ++
      " and " ++ ticked right.render
  | duplicateLabel label =>
    "switch label " ++ toString label.toInt ++ " appears in more than one arm"
  | duplicateDefault => "switch has more than one default arm"

end Untangle
