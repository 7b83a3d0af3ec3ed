import Untangle.Breaks.Validation
import Untangle.Structuring.Survey

namespace Untangle

-- Emitting either goes on or fails for good. Progress is kept through a failure, so that what was
-- logged before it can still be read.
abbrev Emission (α : Type) := ExceptT StructureError (StateM Progress) α

-- Emits a block and all that follows it up to `stop`, onto the statements emitted before.
abbrev Emitter := Scope → BlockId → Option BlockId → Block → Emission Block

abbrev Onward := Block × Option BlockId

namespace Emission

def log (event : Event) : Emission Unit :=
  modify fun progress => {progress with events:=progress.events ++ [event]}

-- Every block is taken before its statements are emitted, and no block is taken twice.
def take (block : BlockId) : Emission Unit := do
  let progress ← get
  if block ∈ progress.taken then throw (.structuredTwice block)
  else set {progress with taken:=block :: progress.taken}

def enter (header : BlockId) : Emission Unit :=
  modify fun progress => {progress with entered:=header :: progress.entered}

def openRange (index : Nat) : Emission Unit :=
  modify fun progress => {progress with opened:=index :: progress.opened}

def declare (kind : BreakableKind) : Emission BreakableId := do
  let progress ← get
  let (id,registry) := progress.registry.declare kind
  set {progress with registry}
  pure id

def markFor (id : BreakableId) (header : BlockId) : Emission Unit := do
  let progress ← get
  match progress.registry.setKind id .forLoop with
  | .error cause => throw (.registry header cause)
  | .ok registry => set {progress with registry}

def jump (source : BlockId) (jump : ResolvedJump) (out : Block) : Emission Block := do
  let progress ← get
  let (brk,registry) := progress.registry.newBreak jump.kind
  match registry.register jump.context.id brk with
  | .error cause => throw (.registry source cause)
  | .ok (registry,brk) =>
    set {progress with registry}
    log (.resolvedJump source jump.context.id jump.kind jump.nested)
    pure (out ++ [.jump {brk with nested:=jump.nested}])

-- Follows an edge. It ends the sequence when it reaches `stop` or means a jump; otherwise its target
-- has to be emitted right here.
def flowTo (scope : Scope) (source target : BlockId) (stop : Option BlockId) (out : Block) :
    Emission Onward :=
  if some target = stop then pure (out,none) else
  match resolveJump? target scope.contexts with
  | some resolved => do
    let out ← jump source resolved out
    pure (out,none)
  | none => do
    let progress ← get
    if scope.inRegion target ∧ target ∉ progress.taken then pure (out,some target)
    else throw (.unresolvedJump source target)

def follow (scope : Scope) (source : BlockId) (merge stop : Option BlockId) (out : Block) :
    Emission Onward :=
  match merge with
  | some target => flowTo scope source target stop out
  | none => pure (out,none)

def sequence (emit : Emitter) (scope : Scope) (first stop : Option BlockId) (out : Block) :
    Emission Block :=
  match first with
  | none => pure out
  | some block => if some block = stop then pure out else emit scope block stop out

def arm (emit : Emitter) (scope : Scope) (source target : BlockId) (stop : Option BlockId) :
    Emission Block := do
  let (body,first) ← flowTo scope source target stop []
  sequence emit scope first stop body

def checkConstruct (settings : StructuringSettings) (scope : Scope) (statement : Statement) :
    Emission Unit := do
  let progress ← get
  if settings.validateBreaks then
    match validateConstruct statement progress.registry (scope.contexts.map (·.id)) with
    | .error cause => throw (.invalidBreaks cause)
    | .ok _ => pure ()
  else pure ()

def demand (block : BlockId) (statement : Statement) : Emission Statement :=
  match statement.check with
  | .error cause => throw (.constraint block cause)
  | .ok _ => pure statement

end Emission
end Untangle
