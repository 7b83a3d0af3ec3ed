import Untangle.Settings.Basic
import Untangle.Toml.Value

namespace Untangle

inductive ReadingFault where
  | wrongType (found : Toml) (expected : String)
  | outOfRange (value : Int) (expected : String)

def ReadingFault.message : ReadingFault → String
  | wrongType found expected => "invalid type: " ++ found.describe ++ ", expected " ++ expected
  | outOfRange value expected =>
    "invalid value: " ++ (Toml.integer value).describe ++ ", expected " ++ expected

abbrev KeyPath := List String

abbrev Reading (α : Type) := Except ReadingFault α

abbrev Noted (α : Type) := α × List KeyPath

structure SettingsField (σ : Type) where
  name : String
  read : KeyPath → Toml → σ → Reading (Noted σ)

namespace SettingsField

def plain {σ α : Type} (name : String) (read : Toml → Reading α) (put : σ → α → σ) : SettingsField σ :=
  ⟨name,fun _ value record => (read value).map fun found => (put record found,[])⟩

def step {σ : Type} (fields : List (SettingsField σ)) (path : KeyPath) (state : Noted σ)
    (entry : String × Toml) : Reading (Noted σ) := do
  match fields.find? fun field => field.name == entry.1 with
  | none => .ok (state.1,state.2 ++ [path ++ [entry.1]])
  | some field =>
    let (record,unknown) ← field.read (path ++ [entry.1]) entry.2 state.1
    .ok (record,state.2 ++ unknown)

-- Reads the items of an array into the fields in order. Items beyond the last field are not looked at.
def steps {σ : Type} (path : KeyPath) : Nat → List (SettingsField σ) → List Toml → Noted σ → Reading (Noted σ)
  | index, field :: fields, item :: items, state => do
    let (record,unknown) ← field.read (path ++ [toString index]) item state.1
    steps path (index + 1) fields items (record,state.2 ++ unknown)
  | _, _, _, state => .ok state

-- The one key under which a point in time shows up where a table is wanted.
def momentKey : String := "$__toml_private_datetime"

def readRecord {σ : Type} (fields : List (SettingsField σ)) (expected : String) (start : σ) (path : KeyPath) :
    Toml → Reading (Noted σ)
  | .table _ entries => entries.foldlM (step fields path) (start,[])
  | .moment => step fields path (start,[]) (momentKey,.text "")
  | .array items => steps path 0 fields items (start,[])
  | .tables items => steps path 0 fields items (start,[])
  | found => .error (.wrongType found expected)

def group {σ τ : Type} (name expected : String) (fields : List (SettingsField τ)) (start : τ) (put : σ → τ → σ) :
    SettingsField σ :=
  ⟨name,fun path value record =>
    (readRecord fields expected start path value).map fun (inner,unknown) => (put record inner,unknown)⟩

def flag? : Toml → Reading Bool
  | .boolean value => .ok value
  | found => .error (.wrongType found "a boolean")

def string? (expected : String) : Toml → Reading String
  | .text value => .ok value
  | found => .error (.wrongType found expected)

def natural? (largest : Nat) (expected : String) : Toml → Reading Nat
  | .integer value =>
    if 0 ≤ value ∧ value ≤ largest then .ok value.toNat else .error (.outOfRange value expected)
  | found => .error (.wrongType found expected)

def word? : Toml → Reading Nat := natural? 18446744073709551615 "usize"

end SettingsField

open SettingsField

def LoggingSettings.fields : List (SettingsField LoggingSettings) := [
  plain "level" (string? "a string") fun s value => {s with level:=value},
  plain "json" flag? fun s value => {s with json:=value},
  plain "stderr" flag? fun s value => {s with stderr:=value},
  plain "file" (string? "path string") fun s value => {s with file:=some value},
  plain "buffer_lines" word? fun s value => {s with bufferLines:=value}]

def StructuringSettings.fields : List (SettingsField StructuringSettings) := [
  plain "recover_for_loops" flag? fun s value => {s with recoverForLoops:=value},
  plain "validate_breaks" flag? fun s value => {s with validateBreaks:=value}]

def FoldingSettings.fields : List (SettingsField FoldingSettings) := [
  plain "enabled" flag? fun s value => {s with enabled:=value},
  plain "iteration_cap" (natural? 4294967295 "u32") fun s value => {s with iterationCap:=value},
  plain "comparators" flag? fun s value => {s with comparators:=value},
  plain "ternaries" flag? fun s value => {s with ternaries:=value},
  plain "string_concat" flag? fun s value => {s with stringConcat:=value},
  plain "nested_conditions" flag? fun s value => {s with nestedConditions:=value}]

def DecompileSettings.fields : List (SettingsField DecompileSettings) := [
  plain "parallel_units" flag? fun s value => {s with parallelUnits:=value},
  plain "threads" word? fun s value => {s with threads:=value},
  group "structure" "struct StructureConfig" StructuringSettings.fields .default fun s value =>
    {s with structuring:=value},
  group "fold" "struct FoldConfig" FoldingSettings.fields .default fun s value => {s with folding:=value}]

def Settings.fields : List (SettingsField Settings) := [
  group "logging" "struct LoggingConfig" LoggingSettings.fields .default fun s value =>
    {s with logging:=value},
  group "decompile" "struct DecompileConfig" DecompileSettings.fields .default fun s value =>
    {s with decompile:=value}]

def Settings.read (document : Toml) : Reading (Noted Settings) :=
  readRecord Settings.fields "a table" .default [] document

end Untangle
