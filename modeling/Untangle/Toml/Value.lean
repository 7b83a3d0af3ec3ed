import Untangle.Decimal.Shortest
import Untangle.Text.Quoted

namespace Untangle

-- How a table came about, which decides what may still be added to it: under a header of its own,
-- above a header, above a dotted key, or in braces.
inductive TableOrigin where
  | headed | implied | dotted | closed
deriving DecidableEq

-- Floating values are kept as bit patterns. Of a point in time only its presence is kept.
inductive Toml where
  | text (value : String)
  | integer (value : Int)
  | decimal (bits : Nat)
  | boolean (value : Bool)
  | moment
  | array (items : List Toml)
  | tables (items : List Toml)
  | table (origin : TableOrigin) (entries : List (String × Toml))

abbrev Entries := List (String × Toml)

def Toml.describe : Toml → String
  | text value => "string " ++ QuoteStyle.message.quote value
  | integer value => "integer \x60" ++ toString value ++ "\x60"
  | decimal bits => "floating point \x60" ++ BinaryFormat.double.write Decimal.positional bits ++ "\x60"
  | boolean value => "boolean \x60" ++ (if value then "true" else "false") ++ "\x60"
  | moment => "map"
  | array _ => "sequence"
  | tables _ => "sequence"
  | table _ _ => "map"

namespace Entries

def has (entries : Entries) (key : String) : Bool := entries.any fun entry => entry.1 == key

def put (entries : Entries) (key : String) (value : Toml) : Entries :=
  entries.map fun entry => if entry.1 = key then (key,value) else entry

-- Goes down a path and changes the table at its end. Tables that are missing on the way are made.
-- A dotted key may not reach into a table that has a header, and nothing reaches into braces. In an
-- array of tables the path goes on in the last one.
def descend {α : Type} (dotted : Bool) (change : TableOrigin → Entries → Option (α × Entries)) :
    List String → TableOrigin → Entries → Option (α × Entries)
  | [], origin, entries => change origin entries
  | key :: path, _, entries =>
    match entries.lookup key with
    | none =>
      let origin : TableOrigin := if dotted then .dotted else .implied
      (descend dotted change path origin []).map fun (result,inner) =>
        (result,entries ++ [(key,.table origin inner)])
    | some (.table origin inner) =>
      if origin = .closed ∨ dotted ∧ origin = .headed then none
      else (descend dotted change path origin inner).map fun (result,inner) =>
        (result,entries.put key (.table origin inner))
    | some (.tables items) =>
      match items.getLast? with
      | some (.table origin inner) =>
        (descend dotted change path origin inner).map fun (result,inner) =>
          (result,entries.put key (.tables (items.dropLast ++ [.table origin inner])))
      | _ => none
    | some _ => none

-- Gives a value to a key, once. A dotted key ends in a table that dotted keys have made.
def assign (entries : Entries) (path : List String) (key : String) (value : Toml) : Option Entries :=
  let add (origin : TableOrigin) (entries : Entries) : Option (Unit × Entries) :=
    if (origin == .dotted) == path.isEmpty || entries.has key then none
    else some ((),entries ++ [(key,value)])
  (descend true add path .headed entries).map (·.2)

def ofAssignments? (assignments : List (List String × String × Toml)) : Option Entries :=
  assignments.foldlM (fun entries (path,key,value) => assign entries path key value) []

end Entries
end Untangle
