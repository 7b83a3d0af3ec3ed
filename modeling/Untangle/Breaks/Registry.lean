import Untangle.Breaks.Basic

namespace Untangle

inductive RegistryError where
  | unknownBreakable (target : BreakableId)
  | alreadyTargeted (brk : BreakId) (current requested : BreakableId)
  | continueTargetsSwitch (brk : BreakId) (target : BreakableId)
  | kindChange (target : BreakableId) (kind : BreakableKind)
  | unregistered (brk : BreakId)
  | notEnclosing (brk : BreakId) (target : BreakableId)
  | inconsistent (brk : BreakId) (found recorded : Option BreakableId)
  | staleBreak (brk : BreakId) (target : BreakableId)
  | duplicateBreak (brk : BreakId)
deriving DecidableEq

def renderTarget : Option BreakableId → String
  | none => "None"
  | some target => "Some(BreakableId(" ++ toString target ++ "))"

def RegistryError.message : RegistryError → String
  | unknownBreakable target => "breakable " ++ breakableLabel target ++ " was never declared"
  | alreadyTargeted brk current requested =>
    "break " ++ breakLabel brk ++ " already targets " ++ breakableLabel current ++
      "; retarget it instead of registering on " ++ breakableLabel requested
  | continueTargetsSwitch brk target =>
    "continue " ++ breakLabel brk ++ " cannot target switch " ++ breakableLabel target
  | kindChange target kind =>
    "breakable " ++ breakableLabel target ++ " cannot become " ++ kind.name ++
      " while continues target it"
  | unregistered brk => "break " ++ breakLabel brk ++ " has no target"
  | notEnclosing brk target =>
    "break " ++ breakLabel brk ++ " targets " ++ breakableLabel target ++ ", which does not enclose it"
  | inconsistent brk found recorded =>
    "break " ++ breakLabel brk ++ " targets " ++ renderTarget found ++ " but the registry records " ++
      renderTarget recorded
  | staleBreak brk target =>
    "breakable " ++ breakableLabel target ++ " lists break " ++ breakLabel brk ++
      ", which is not in the tree"
  | duplicateBreak brk => "break " ++ breakLabel brk ++ " appears more than once in the tree"

structure BreakableEntry where
  kind : BreakableKind
  breaks : List BreakId
deriving DecidableEq

-- The relation between breaks and their targets, kept in both directions. Ids are positions:
-- of the declared breakables, and of the kinds of the breaks handed out so far.
structure Registry where
  breakables : List BreakableEntry
  kinds : List BreakKind
  targets : List (BreakId × BreakableId)
deriving DecidableEq

namespace Registry

def empty : Registry := ⟨[],[],[]⟩

def declare (registry : Registry) (kind : BreakableKind) : BreakableId × Registry :=
  (registry.breakables.length,{registry with breakables:=registry.breakables ++ [⟨kind,[]⟩]})

def newBreak (registry : Registry) (kind : BreakKind) : Break × Registry :=
  (⟨registry.kinds.length,kind,none,false⟩,{registry with kinds:=registry.kinds ++ [kind]})

def kind? (registry : Registry) (id : BreakableId) : Option BreakableKind :=
  registry.breakables[id]?.map (·.kind)

def breaks (registry : Registry) (id : BreakableId) : List BreakId :=
  match registry.breakables[id]? with
  | some entry => entry.breaks
  | none => []

def targetOf? (registry : Registry) (brk : BreakId) : Option BreakableId :=
  registry.targets.lookup brk

def modifyEntry (registry : Registry) (id : BreakableId) (change : BreakableEntry → BreakableEntry) :
    Registry :=
  {registry with breakables:=registry.breakables.modify id change}

def hasContinue (registry : Registry) (id : BreakableId) : Bool :=
  (registry.breaks id).any fun brk => registry.kinds[brk]? == some .continue

def setKind (registry : Registry) (id : BreakableId) (kind : BreakableKind) :
    Except RegistryError Registry :=
  match registry.breakables[id]? with
  | none => .error (.unknownBreakable id)
  | some _ =>
    if !kind.isLoop && registry.hasContinue id then .error (.kindChange id kind)
    else .ok (registry.modifyEntry id fun entry => {entry with kind})

-- Overwrites one list of breaks and nothing else. The other direction may then disagree, which is
-- for validation to report.
def overwriteBreaks? (registry : Registry) (id : BreakableId) (breaks : List BreakId) : Option Registry :=
  registry.breakables[id]?.map fun _ => registry.modifyEntry id fun entry => {entry with breaks}

def checkTarget (registry : Registry) (target : BreakableId) (brk : Break) : Except RegistryError Unit :=
  match registry.kind? target with
  | none => .error (.unknownBreakable target)
  | some kind =>
    if brk.kind = .continue ∧ ¬kind.isLoop then .error (.continueTargetsSwitch brk.id target) else .ok ()

def link (registry : Registry) (target : BreakableId) (brk : Break) : Registry × Break :=
  let listed := registry.modifyEntry target fun entry => {entry with breaks:=entry.breaks ++ [brk.id]}
  ({listed with targets:=(brk.id,target) :: registry.targets.filter (·.1 ≠ brk.id)},
    {brk with target:=some target})

def unlink (registry : Registry) (brk : Break) : Option BreakableId × Registry × Break :=
  let previous := brk.target.or (registry.targetOf? brk.id)
  let forgotten := {registry with targets:=registry.targets.filter (·.1 ≠ brk.id)}
  let unlisted := match previous with
    | none => forgotten
    | some target =>
      forgotten.modifyEntry target fun entry => {entry with breaks:=entry.breaks.filter (· ≠ brk.id)}
  (previous,unlisted,{brk with target:=none})

def register (registry : Registry) (target : BreakableId) (brk : Break) :
    Except RegistryError (Registry × Break) :=
  match registry.checkTarget target brk with
  | .error cause => .error cause
  | .ok _ =>
    match brk.target with
    | none => .ok (registry.link target brk)
    | some current =>
      if current = target then .ok (registry,brk)
      else .error (.alreadyTargeted brk.id current target)

def retarget (registry : Registry) (brk : Break) (target : BreakableId) :
    Except RegistryError (Registry × Break) :=
  match registry.checkTarget target brk with
  | .error cause => .error cause
  | .ok _ =>
    let (_,unlinked,freed) := registry.unlink brk
    .ok (unlinked.link target freed)

def unregister (registry : Registry) (brk : Break) : Option BreakableId × Registry × Break :=
  registry.unlink brk

end Registry
end Untangle
