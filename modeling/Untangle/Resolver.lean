import Untangle.Tree.Expr

namespace Untangle

inductive ResolveError where
  | fieldNotFound (owner name : String)
  | methodNotFound (owner name descriptor : String)
  | classNotFound (name : String)
deriving DecidableEq

def ResolveError.message : ResolveError → String
  | fieldNotFound owner name => "field " ++ ticked (owner ++ "." ++ name) ++ " not found"
  | methodNotFound owner name descriptor =>
    "method " ++ ticked (owner ++ "." ++ name ++ descriptor) ++ " not found"
  | classNotFound name => "class " ++ ticked name ++ " not found"

structure FieldKey where
  owner : String
  name : String
deriving DecidableEq

structure MethodKey where
  owner : String
  name : String
  descriptor : String
deriving DecidableEq

-- What is known of classes outside the unit: what descriptors say, or what tables list.
-- In a table a later row replaces an earlier one of the same key.
inductive Resolver where
  | descriptors
  | tables (fields : List (FieldKey × Ty)) (methods : List (MethodKey × Ty))
      (superclasses : List (String × String))

def latest [BEq κ] (rows : List (κ × α)) (key : κ) : Option α := rows.reverse.lookup key

def found (cause : ResolveError) : Option α → Except ResolveError α
  | some answer => .ok answer
  | none => .error cause

namespace Resolver

def fieldType (resolver : Resolver) (owner name : String) : Except ResolveError Ty :=
  found (.fieldNotFound owner name) <|
    match resolver with
    | descriptors => none
    | tables fields _ _ => latest fields ⟨owner,name⟩

def returnType (resolver : Resolver) (owner name descriptor : String) : Except ResolveError Ty :=
  found (.methodNotFound owner name descriptor) <|
    match resolver with
    | descriptors => (MethodDescriptor.parse descriptor).toOption.map fun d => Ty.ofReturnType d.returns
    | tables _ methods _ => latest methods ⟨owner,name,descriptor⟩

def superclassRows : Resolver → List (String × String)
  | descriptors => []
  | tables _ _ superclasses => superclasses

-- The root class has no superclass, whatever a table says.
def superclass (resolver : Resolver) (name : String) : Except ResolveError (Option String) :=
  if name = objectClass then .ok none
  else found (.classNotFound name) ((latest resolver.superclassRows name).map some)

-- Superclasses above `current`, up to the first lookup that fails, is empty or comes back to a
-- class already seen. Each step uses a table row of its own, so the rows bound the steps.
def above (resolver : Resolver) (seen : List String) (current : String) : Nat → List String
  | 0 => []
  | steps + 1 =>
    match resolver.superclass current with
    | .ok (some parent) =>
      if parent ∈ seen then [] else parent :: resolver.above (parent :: seen) parent steps
    | _ => []

def chain (resolver : Resolver) (name : String) : List String :=
  name :: resolver.above [name] name resolver.superclassRows.length

-- The first class from `current` upwards that is on another chain as well. The way up ends as a chain
-- does, and then only the root class is left.
def meeting (resolver : Resolver) (chain seen : List String) (current : String) : Nat → String
  | 0 => if current ∈ chain then current else objectClass
  | steps + 1 =>
    if current ∈ chain then current else
    match resolver.superclass current with
    | .ok (some parent) =>
      if parent ∈ seen then objectClass else resolver.meeting chain (parent :: seen) parent steps
    | _ => objectClass

def commonSuperclass (resolver : Resolver) (left right : String) : String :=
  if left = right then left
  else resolver.meeting (resolver.chain left) [right] right resolver.superclassRows.length

end Resolver
end Untangle
