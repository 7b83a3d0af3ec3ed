import Untangle.Structuring.Arms
import Untangle.Structuring.Emission
import Untangle.Structuring.Induction
import Untangle.Structuring.LoopShape

namespace Untangle

def isLoneJump : Block → Bool
  | [statement] => statement.isTerminal
  | _ => false

-- A branch in its most direct form. Where nothing follows it, an arm that is a lone jump leaves the
-- other arm behind the `if` instead of inside it.
def branchForm (condition : Condition) (thenBlock elseBlock : Block) (openEnded : Bool) : Block :=
  if elseBlock.isEmpty then [.branch condition thenBlock none]
  else if thenBlock.isEmpty then [.branch condition.negate elseBlock none]
  else if openEnded && isLoneJump thenBlock then .branch condition thenBlock none :: elseBlock
  else if openEnded && isLoneJump elseBlock then .branch condition.negate elseBlock none :: thenBlock
  else [.branch condition thenBlock (some elseBlock)]

namespace Survey
open Emission

def emitBranch (survey : Survey) (emit : Emitter) (scope : Scope) (block : BlockId)
    (condition : Condition) (thenTarget elseTarget : BlockId) (stop : Option BlockId) (out : Block) :
    Emission Onward := do
  let progress ← get
  let merge := survey.mergePoint scope progress.taken block stop
  log (.twoWayBranch block merge)
  let thenBlock ← arm emit scope block thenTarget (merge.or stop)
  let elseBlock ← arm emit scope block elseTarget (merge.or stop)
  let openEnded := merge == none || merge == stop
  follow scope block merge stop (out ++ branchForm condition thenBlock elseBlock openEnded)

-- An arm ends where the next one begins, so running off its end falls through.
def emitArms (emit : Emitter) (scope : Scope) (block : BlockId) (stop : Option BlockId) :
    List PendingArm → Emission (List SwitchArm)
  | [] => pure []
  | [last] => do
    let body ← arm emit scope block last.entry stop
    pure [⟨last.emitted,body⟩]
  | current :: next :: rest => do
    let body ← arm emit scope block current.entry (some next.entry)
    let arms ← emitArms emit scope block stop (next :: rest)
    pure (⟨current.emitted,body⟩ :: arms)

def emitSwitch (survey : Survey) (emit : Emitter) (scope : Scope) (block : BlockId)
    (discriminant : Expr) (cases : List (Int32 × BlockId)) (default : BlockId) (stop : Option BlockId)
    (out : Block) : Emission Onward := do
  let progress ← get
  let merge := survey.mergePoint scope progress.taken block stop
  let arms := PendingArm.group cases default merge
  let ordered := (armOrder survey.graph survey.doms.dominates block arms).filterMap (arms[·]?)
  log (.switchArms block arms.length merge)
  let id ← declare .switch
  let built ← emitArms emit (scope.inside ⟨id,.switch,merge,none⟩) block (merge.or stop) ordered
  let statement ← demand block (.switch id discriminant built)
  checkConstruct survey.settings scope statement
  follow scope block merge stop (out ++ [statement])

-- A loop that tests in its header. A shared latch becomes the update of a `for`; otherwise one may
-- still be recognised in the body.
def emitPreTested (survey : Survey) (emit : Emitter) (scope : Scope) (loop : NaturalLoop)
    (region : List BlockId) (condition : Condition) (bodyEntry exit : BlockId) (out : Block) :
    Emission (Statement × Block) := do
  take loop.header
  let latch := survey.updateBlock? loop bodyEntry
  let continueTarget := latch.getD loop.header
  let id ← declare .whileLoop
  let inner := (scope.narrow region).inside ⟨id,.whileLoop,some exit,some continueTarget⟩
  let body ← arm emit inner loop.header bodyEntry (some continueTarget)
  match latch with
  | some latch => do
    take latch
    let update := (survey.graph.statements latch).head?
    let (start,out) := match update.bind inductionLocal? with
      | some index => takeStart out index
      | none => (none,out)
    markFor id loop.header
    pure (.forLoop id start condition update body,out)
  | none => do
    let progress ← get
    let recoverable := survey.settings.recoverForLoops && !progress.registry.hasContinue id
    match if recoverable then recoverInduction? condition body out else none with
    | some parts => do
      markFor id loop.header
      pure (.forLoop id (some parts.start) condition (some parts.update) parts.body,parts.out)
    | none => pure (.whileLoop id condition body,out)

-- A loop that tests in its latch. The latch comes last, whatever the rest of the body does.
def emitPostTested (survey : Survey) (emit : Emitter) (scope : Scope) (loop : NaturalLoop)
    (region : List BlockId) (latch : BlockId) (condition : Condition) (exit : BlockId) :
    Emission Statement := do
  let id ← declare .doWhile
  let inner := (scope.narrow region).inside ⟨id,.doWhile,some exit,some latch⟩
  let body ← if latch = loop.header then pure [] else emit inner loop.header (some latch) []
  take latch
  pure (.doWhile id condition (body ++ survey.graph.statements latch))

def emitEndless (emit : Emitter) (scope : Scope) (loop : NaturalLoop) (region : List BlockId)
    (exit : Option BlockId) : Emission Statement := do
  let id ← declare .whileLoop
  let inner := (scope.narrow region).inside ⟨id,.whileLoop,exit,some loop.header⟩
  let body ← emit inner loop.header (some loop.header) []
  pure (.whileLoop id (.constant true) body)

def emitLoop (survey : Survey) (emit : Emitter) (scope : Scope) (loop : NaturalLoop)
    (stop : Option BlockId) (out : Block) : Emission Onward := do
  enter loop.header
  let progress ← get
  let shape := survey.classify progress.opened loop
  let region := survey.absorb scope progress.taken loop shape.exit?
  log (.structuringLoop loop.header shape.name region.length shape.exit?)
  let (statement,out) ← match shape with
    | .preTested condition bodyEntry exit =>
      survey.emitPreTested emit scope loop region condition bodyEntry exit out
    | .postTested latch condition exit => do
      let statement ← survey.emitPostTested emit scope loop region latch condition exit
      pure (statement,out)
    | .endless exit => do
      let statement ← emitEndless emit scope loop region exit
      pure (statement,out)
  checkConstruct survey.settings scope statement
  follow scope loop.header shape.exit? stop (out ++ [statement])

-- Handlers stand outside of the range they protect, one after the other.
def emitCatches (emit : Emitter) (scope : Scope) (stop : Option BlockId) :
    List CatchGroup → Emission (List CatchClause)
  | [] => pure []
  | clause :: rest => do
    let progress ← get
    if clause.handler ∈ progress.taken then throw (.overlappingHandlers clause.handler)
    let body ← sequence emit scope (some clause.handler) stop []
    let catches ← emitCatches emit scope stop rest
    pure (⟨clause.caught,body⟩ :: catches)

def emitTry (survey : Survey) (emit : Emitter) (scope : Scope) (region : TryRegion) (index : Nat)
    (stop : Option BlockId) (out : Block) : Emission Onward := do
  openRange index
  let merge := survey.tryMerge scope region
  log (.protectedRange region.first region.past region.clauses.length merge)
  let inner := scope.narrow (survey.protectedBlocks region)
  let body ← sequence emit inner (some region.first) (merge.or stop) []
  let catches ← emitCatches emit scope (merge.or stop) region.clauses
  follow scope region.first merge stop (out ++ [.tryCatch body catches])

def emitPlain (survey : Survey) (emit : Emitter) (scope : Scope) (block : BlockId)
    (stop : Option BlockId) (out : Block) : Emission Onward := do
  take block
  let out := out ++ survey.graph.statements block
  match survey.graph.terminator block with
  | .goto target => flowTo scope block target stop out
  | .branch condition thenTarget elseTarget =>
    survey.emitBranch emit scope block condition thenTarget elseTarget stop out
  | .switch discriminant cases default =>
    survey.emitSwitch emit scope block discriminant cases default stop out
  | .ret value => pure (out ++ [.ret value],none)
  | .throw exception => do
    let statement ← demand block (.throw exception)
    pure (out ++ [statement],none)

-- A range that starts here goes outside of a loop that does, unless the loop holds it and more.
def emitBlock (survey : Survey) (emit : Emitter) (scope : Scope) (block : BlockId)
    (stop : Option BlockId) (out : Block) : Emission Onward := do
  let progress ← get
  let range := (survey.pendingTry? progress.opened block).filter fun (region,_) =>
    !survey.loopEnclosesTry progress.entered block region
  match range with
  | some (region,index) => survey.emitTry emit scope region index stop out
  | none =>
    match (LoopForest.get? survey.loops block).filter fun _ => block ∉ progress.entered with
    | some loop => survey.emitLoop emit scope loop stop out
    | none => survey.emitPlain emit scope block stop out

-- Each step takes a block, opens a range or enters a loop before it goes further down, so the number
-- of all these is fuel enough. When none is left, the block has been taken before.
def emitFrom (survey : Survey) : Nat → Emitter
  | 0, _, block, _, _ => throw (.structuredTwice block)
  | fuel + 1, scope, block, stop, out => do
    let (out,next) ← survey.emitBlock (emitFrom survey fuel) scope block stop out
    sequence (emitFrom survey fuel) scope next stop out

def fuel (survey : Survey) : Nat :=
  survey.graph.size + survey.tries.length + survey.loops.length

end Survey
end Untangle
