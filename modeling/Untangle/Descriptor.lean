import Untangle.Text.Quoted

namespace Untangle

inductive BaseType where
  | byte | char | double | float | int | long | short | boolean
deriving DecidableEq

namespace BaseType

def ofChar? : Char → Option BaseType
  | 'B' => some .byte
  | 'C' => some .char
  | 'D' => some .double
  | 'F' => some .float
  | 'I' => some .int
  | 'J' => some .long
  | 'S' => some .short
  | 'Z' => some .boolean
  | _ => none

def toChar : BaseType → Char
  | byte => 'B'
  | char => 'C'
  | double => 'D'
  | float => 'F'
  | int => 'I'
  | long => 'J'
  | short => 'S'
  | boolean => 'Z'

def keyword : BaseType → String
  | byte => "byte"
  | char => "char"
  | double => "double"
  | float => "float"
  | int => "int"
  | long => "long"
  | short => "short"
  | boolean => "boolean"

def isNumeric (base : BaseType) : Bool := base != .boolean

theorem ofChar_toChar (base : BaseType) : ofChar? base.toChar = some base := by cases base <;> rfl

end BaseType

-- Class names are internal ones: separated by slashes, and free of the closing semicolon.
inductive FieldType where
  | base (letter : BaseType)
  | object (name : String)
  | array (component : FieldType)
deriving DecidableEq

inductive ReturnType where
  | void
  | value (type : FieldType)
deriving DecidableEq

structure MethodDescriptor where
  params : List FieldType
  returns : ReturnType
deriving DecidableEq

-- Every cause carries the whole descriptor, not the part that was being read.
inductive DescriptorError where
  | unexpectedEnd (descriptor : String)
  | trailingInput (descriptor rest : String)
  | voidNotAllowed (descriptor : String)
  | invalidDescriptor (descriptor : String)
deriving DecidableEq

def DescriptorError.message : DescriptorError → String
  | unexpectedEnd descriptor => "unexpected end of descriptor: " ++ QuoteStyle.message.quote descriptor
  | trailingInput descriptor rest =>
    "trailing input " ++ QuoteStyle.message.quote rest ++ " after descriptor " ++
      QuoteStyle.message.quote descriptor
  | voidNotAllowed descriptor => "void is not a value type: " ++ QuoteStyle.message.quote descriptor
  | invalidDescriptor descriptor => "invalid descriptor: " ++ QuoteStyle.message.quote descriptor

namespace FieldType

def chars : FieldType → List Char
  | base letter => [letter.toChar]
  | object name => 'L' :: (name.toList ++ [';'])
  | array component => '[' :: component.chars

def render (type : FieldType) : String := String.ofList type.chars

-- Reads one type off the front and leaves the rest. A base letter wins over every other reading.
def read (whole : String) : List Char → Except DescriptorError (FieldType × List Char)
  | [] => .error (.unexpectedEnd whole)
  | c :: rest =>
    match BaseType.ofChar? c with
    | some letter => .ok (.base letter,rest)
    | none =>
      if c = 'L' then
        match rest.dropWhile (· != ';') with
        | [] => .error (.unexpectedEnd whole)
        | _ :: after =>
          match rest.takeWhile (· != ';') with
          | [] => .error (.invalidDescriptor whole)
          | name => .ok (.object (String.ofList name),after)
      else if c = '[' then
        match read whole rest with
        | .error cause => .error cause
        | .ok (component,after) => .ok (.array component,after)
      else if c = 'V' then .error (.voidNotAllowed whole)
      else .error (.invalidDescriptor whole)

-- Reading always consumes something, so a list of types ends.
theorem read_shorter {whole : String} {text rest : List Char} {type : FieldType}
    (ran : read whole text = .ok (type,rest)) : rest.length < text.length := by
  induction text generalizing type rest with
  | nil => simp [read] at ran
  | cons c tail ih =>
    unfold read at ran
    split at ran
    · cases ran; simp
    · split at ran
      · have short := (List.dropWhile_suffix (l := tail) (· != ';')).length_le
        split at ran
        · cases ran
        · rename_i dropped
          split at ran
          · cases ran
          · cases ran
            rw [dropped] at short
            simp only [List.length_cons] at short ⊢
            omega
      · split at ran
        · split at ran
          · cases ran
          · rename_i inner
            cases ran
            have := ih inner
            simp only [List.length_cons]
            omega
        · split at ran <;> cases ran

def parse (descriptor : String) : Except DescriptorError FieldType :=
  match read descriptor descriptor.toList with
  | .error cause => .error cause
  | .ok (type,[]) => .ok type
  | .ok (_,rest) => .error (.trailingInput descriptor (String.ofList rest))

end FieldType

namespace ReturnType

def chars : ReturnType → List Char
  | void => ['V']
  | value type => type.chars

def read (whole : String) : List Char → Except DescriptorError (ReturnType × List Char)
  | 'V' :: rest => .ok (.void,rest)
  | text =>
    match FieldType.read whole text with
    | .error cause => .error cause
    | .ok (type,rest) => .ok (.value type,rest)

end ReturnType

namespace MethodDescriptor

def chars (method : MethodDescriptor) : List Char :=
  '(' :: (method.params.flatMap FieldType.chars ++ ')' :: method.returns.chars)

def render (method : MethodDescriptor) : String := String.ofList method.chars

def readParams (whole : String) (text : List Char) : Except DescriptorError (List FieldType × List Char) :=
  match text with
  | [] => .error (.unexpectedEnd whole)
  | c :: tail =>
    if c = ')' then .ok ([],tail) else
    match _ran : FieldType.read whole (c :: tail) with
    | .error cause => .error cause
    | .ok (param,after) =>
      match readParams whole after with
      | .error cause => .error cause
      | .ok (params,rest) => .ok (param :: params,rest)
termination_by text.length
decreasing_by exact FieldType.read_shorter _ran

def parse (descriptor : String) : Except DescriptorError MethodDescriptor :=
  match descriptor.toList with
  | '(' :: text =>
    match readParams descriptor text with
    | .error cause => .error cause
    | .ok (params,after) =>
      match ReturnType.read descriptor after with
      | .error cause => .error cause
      | .ok (returns,[]) => .ok ⟨params,returns⟩
      | .ok (_,rest) => .error (.trailingInput descriptor (String.ofList rest))
  | _ => .error (.invalidDescriptor descriptor)

end MethodDescriptor
end Untangle
