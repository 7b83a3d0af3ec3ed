import Untangle.Toml.Line

namespace Untangle

inductive TomlPlace where
  | root
  | table (path : List String) (key : String)
  | tables (path : List String) (key : String)

structure TomlDocument where
  root : Entries
  place : TomlPlace
  current : Entries

namespace TomlDocument

def start : TomlDocument := ⟨[],.root,[]⟩

def appendTable (entries : Entries) (key : String) (table : Toml) : Option Entries :=
  match entries.lookup key with
  | some (.tables items) => some (entries.put key (.tables (items ++ [table])))
  | _ => none

def close (document : TomlDocument) : Option Entries :=
  let table := Toml.table .headed document.current
  match document.place with
  | .root => some document.current
  | .table path key =>
    (Entries.descend false (fun _ entries => some ((),entries ++ [(key,table)])) path .headed
      document.root).map (·.2)
  | .tables path key =>
    (Entries.descend false (fun _ entries => (appendTable entries key table).map ((),·)) path .headed
      document.root).map (·.2)

-- Takes a table that headers below it have made, so that its own header may still come.
def reopen (key : String) (entries : Entries) : Option (Entries × Entries) :=
  match entries.lookup key with
  | none => some ([],entries)
  | some (.table .implied inner) => some (inner,entries.filter (·.1 ≠ key))
  | some _ => none

def listed (key : String) (entries : Entries) : Option Entries :=
  match entries.lookup key with
  | none => some (entries ++ [(key,.tables [])])
  | some (.tables _) => some entries
  | some _ => none

def step (document : TomlDocument) : TomlLine → Option TomlDocument
  | .assignment path key value => do
    some {document with current:=← document.current.assign path key value}
  | .header path key => do
    let (current,root) ← Entries.descend false (fun _ => reopen key) path .headed (← document.close)
    some ⟨root,.table path key,current⟩
  | .arrayHeader path key => do
    let add (_ : TableOrigin) (entries : Entries) := (listed key entries).map ((),·)
    let (_,root) ← Entries.descend false add path .headed (← document.close)
    some ⟨root,.tables path key,[]⟩

end TomlDocument

-- The table that a text describes, or nothing where it is not well-formed. A byte order mark at the
-- start is skipped.
def Toml.parse? (text : String) : Option Toml := do
  let chars := match text.toList with
    | '\ufeff' :: rest => rest
    | chars => chars
  let lines ← TomlLine.readAll? chars
  let document ← lines.foldlM TomlDocument.step .start
  some (.table .headed (← document.close))

end Untangle
