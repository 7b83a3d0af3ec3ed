namespace Untangle

structure StructuringSettings where
  recoverForLoops : Bool
  validateBreaks : Bool
deriving DecidableEq

structure FoldingSettings where
  enabled : Bool
  iterationCap : Nat
  comparators : Bool
  ternaries : Bool
  stringConcat : Bool
  nestedConditions : Bool
deriving DecidableEq

structure DecompileSettings where
  parallelUnits : Bool
  threads : Nat
  structuring : StructuringSettings
  folding : FoldingSettings
deriving DecidableEq

structure LoggingSettings where
  level : String
  json : Bool
  stderr : Bool
  file : Option String
  bufferLines : Nat
deriving DecidableEq

structure Settings where
  logging : LoggingSettings
  decompile : DecompileSettings
deriving DecidableEq

def StructuringSettings.default : StructuringSettings := ⟨true,false⟩
def FoldingSettings.default : FoldingSettings := ⟨true,32,true,true,true,true⟩
def DecompileSettings.default : DecompileSettings := ⟨true,0,.default,.default⟩
def LoggingSettings.default : LoggingSettings := ⟨"info",false,true,none,2000⟩
def Settings.default : Settings := ⟨.default,.default⟩

end Untangle
