import Untangle.Settings.LogBuffer
import Untangle.Settings.Reading
import Untangle.Toml.Document

namespace Untangle

structure InvalidValue where
  path : String
  message : String
deriving DecidableEq

inductive SettingsWarning where
  | invalid (value : InvalidValue)
  | invalidLevel (value normalized : String)
deriving DecidableEq

structure Loaded where
  settings : Settings
  unknownKeys : List String
  warnings : List SettingsWarning
  errors : List InvalidValue

def Loaded.isOk (loaded : Loaded) : Bool := loaded.errors.isEmpty
def Loaded.isSilent (loaded : Loaded) : Bool :=
  loaded.unknownKeys.isEmpty && loaded.warnings.isEmpty && loaded.errors.isEmpty

namespace KeyPath

def isIndex (segment : String) : Bool := !segment.isEmpty && segment.toList.all Char.isDigit

def joinSegments (text : String) : List String → String
  | [] => text
  | segment :: rest =>
    if isIndex segment then joinSegments (text ++ "[" ++ segment ++ "]") rest
    else joinSegments ((if text.isEmpty then "" else text ++ ".") ++ segment) rest

-- Keys joined by dots, numbers in brackets. A dot inside a key counts like one between keys, and
-- dots in front are dropped.
def render (path : KeyPath) : String :=
  let raw := (String.intercalate "." path).toList.dropWhile (· == '.')
  match (String.ofList raw).splitOn "." with
  | [] => ""
  | first :: rest => joinSegments first rest

end KeyPath

def insertSorted (key : String) : List String → List String
  | [] => [key]
  | other :: rest =>
    if key < other then key :: other :: rest
    else if key = other then other :: rest
    else other :: insertSorted key rest

def sortedKeys (keys : List String) : List String := keys.foldr insertSorted []

namespace Settings

def warnings (settings : Settings) : List SettingsWarning :=
  let level := settings.logging.level
  let blank := (trimBlanks level).isEmpty
  (if blank || LogFilter.isValid level then [] else [.invalidLevel level (LogFilter.normalize level)]) ++
    (if settings.logging.bufferLines = 0 then
      [.invalid ⟨"logging.buffer_lines","must be >= 1; using 1"⟩] else []) ++
    (if ¬settings.decompile.parallelUnits ∧ 0 < settings.decompile.threads then
      [.invalid ⟨"decompile.threads","ignored because decompile.parallel_units is false"⟩] else [])

def errors (settings : Settings) : List InvalidValue :=
  if settings.decompile.folding.iterationCap = 0 then
    [⟨"decompile.fold.iteration_cap","must be >= 1; using 1"⟩] else []

def clamp (settings : Settings) : Settings :=
  let folding := settings.decompile.folding
  {settings with
    logging:={settings.logging with bufferLines:=max settings.logging.bufferLines 1}
    decompile:={settings.decompile with folding:={folding with iterationCap:=max folding.iterationCap 1}}}

end Settings

inductive PathFault where
  | missing | directory
deriving DecidableEq

def PathFault.message : PathFault → String
  | missing => "No such file or directory (os error 2)"
  | directory => "Is a directory (os error 21)"

inductive LoadError where
  | malformed
  | illTyped (fault : ReadingFault)
  | unreadable (path : String) (fault : PathFault)

def LoadError.message? : LoadError → Option String
  | malformed => none
  | illTyped fault => some ("failed to parse toml config: " ++ fault.message)
  | unreadable path fault => some ("failed to read config file " ++ path ++ ": " ++ fault.message)

-- Reads settings from a text. Values that cannot be used are reported and then clamped, so what is
-- returned can always be used.
def Settings.load (text : String) : Except LoadError Loaded :=
  match Toml.parse? text with
  | none => .error .malformed
  | some document =>
    match Settings.read document with
    | .error fault => .error (.illTyped fault)
    | .ok (settings,unknown) =>
      .ok ⟨settings.clamp,sortedKeys (unknown.map KeyPath.render),settings.warnings,settings.errors⟩

-- No files are kept here: of all paths only the root leads somewhere, and not to a text.
def Settings.loadPath (path : String) : Except LoadError Loaded :=
  .error (.unreadable path (if path = "/" then .directory else .missing))

end Untangle
